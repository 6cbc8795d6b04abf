import SlotScript.Network.Propagation

/-!
# The console

Evaluates expressions given as arguments, and lines typed at a prompt, against one store. Everything
it writes is collected in a transcript, so that what the console does is a function of its arguments
and its input; only reading and writing are left to the outside.
-/

namespace SlotScript

namespace Console

structure Arguments where
  expressions : List String := []
  direct : Bool := false
  dumpBytecode : Bool := false
  repl : Bool := false
  /-- Slots to fill beforehand. -/
  seeds : List String := []
  parameter : Option String := none

namespace Arguments

def addExpression (a : Arguments) (text : String) : Arguments :=
  { a with expressions := a.expressions ++ [text] }

def addSeed (a : Arguments) (text : String) : Arguments := { a with seeds := a.seeds ++ [text] }

/-- The value of an option given as one argument with an equals sign. -/
def attached? (option argument : String) : Option String :=
  let start := option.toList ++ ['=']
  if start.isPrefixOf argument.toList then
    some (String.ofList (argument.toList.drop start.length))
  else none

/-- Reads arguments. After `--` all are expressions. -/
def read (a : Arguments) : List String → Arguments
  | [] => a
  | "--" :: rest => rest.foldl addExpression a
  | "--direct" :: rest => read { a with direct := true } rest
  | "--dump-bytecode" :: rest => read { a with dumpBytecode := true } rest
  | "--repl" :: rest => read { a with repl := true } rest
  | "--set" :: text :: rest => read (a.addSeed text) rest
  | "--parameter" :: text :: rest => read { a with parameter := some text } rest
  | argument :: rest =>
    match attached? "--set" argument, attached? "--parameter" argument with
    | some text, _ => read (a.addSeed text) rest
    | none, some text => read { a with parameter := some text } rest
    | none, none => read (a.addExpression argument) rest

def mode (a : Arguments) : AssignMode := if a.direct then .direct else .nearest

end Arguments

/-- What was written so far, and the store. -/
structure State where
  net : Network
  output : String := ""
  errors : String := ""

namespace State

def start : State := ⟨(({} : Network).addStore none .null).2, "", ""⟩

def write (s : State) (text : String) : State := { s with output := s.output ++ text }

def complain (s : State) (text : String) : State := { s with errors := s.errors ++ text ++ "\n" }

end State

/-- The one store of a console. -/
def store : StoreId := 0

/-- Runs a text; `none` if that came to no end. -/
def evaluate? (s : State) (mode : AssignMode) (text : String) (parameter : Value) :
    Option (Except Failure Outcome × State) := do
  let net ← s.net.perform (.execute (.text mode text) store none (some parameter))
  return (← net.returned, { s with net })

/-- A line with the value of an outcome. -/
def outcomeLine (s : State) : Outcome → String
  | .value v => v.text s.net.sizes ++ "\n"
  | .void => "(void)\n"

def listing (s : State) (code : Code) : String := code.text s.net.sizes

/-- Text without the dollar signs in front of it, and without blanks around it before that. -/
def bareKey (text : List Char) : String :=
  String.ofList ((Text.trim text).dropWhile (· = '$'))

def quoted (text : String) : String := "'" ++ text ++ "'"

/-- Fills a slot: with the value of the expression after the first equals sign, or with null if
there is no such sign. -/
def seed? (s : State) (text : String) : Option (Except Failure Unit × State) :=
  let chars := text.toList
  let key := bareKey (chars.takeWhile (· ≠ '='))
  match chars.dropWhile (· ≠ '=') with
  | [] => do
    let (result, s) ← evaluate? s .direct ("$" ++ key ++ " = null") .null
    return (result.map fun _ => (), s)
  | _ :: expression => do
    let (result, s) ← evaluate? s .direct (String.ofList expression) .null
    match result with
    | .ok outcome =>
      let net ← s.net.perform (.set store ("$" ++ key) outcome.toValue)
      return (.ok (), { s with net })
    | .error failure => return (.error failure, s)

/-- A stage either lets the next one go on or ends the console with an exit code. -/
inductive Stage where
  | next (s : State)
  | ended (code : Nat) (s : State)

def fail (s : State) (message : String) (failure : Failure) : Stage :=
  .ended 1 (s.complain (message ++ ": " ++ failure.message))

def seedAll? (s : State) : List String → Option Stage
  | [] => some (.next s)
  | text :: rest => do
    match ← seed? s text with
    | (.ok _, s) => seedAll? s rest
    | (.error failure, s) => return fail s ("Error seeding " ++ quoted text) failure

/-- Evaluates the parameter expression once. -/
def parameter? (s : State) : Option String → Option (Except Failure Value × State)
  | none => some (.ok .null, s)
  | some text => do
    let (result, s) ← evaluate? s .direct text .null
    return (result.map Outcome.toValue, s)

/-- Shows the code of an expression instead of running it. -/
def dump (s : State) (mode : AssignMode) (text : String) : Stage :=
  match Code.compile mode text with
  | .ok code => .next (s.write ("== " ++ text ++ " ==\n" ++ listing s code))
  | .error e => fail s ("Error compiling " ++ quoted text) (.compile e)

def evaluateAll? (a : Arguments) (parameter : Value) (s : State) : List String → Option Stage
  | [] => some (.next s)
  | text :: rest => do
    let stage ←
      if a.dumpBytecode then pure (dump s a.mode text)
      else
        match ← evaluate? s a.mode text parameter with
        | (.ok outcome, s) => pure (.next (s.write (outcomeLine s outcome)))
        | (.error failure, s) => pure (fail s ("Error evaluating " ++ quoted text) failure)
    match stage with
    | .next s => evaluateAll? a parameter s rest
    | ended => return ended

def banner (mode : AssignMode) : String := "brave 0.1.0 (" ++ mode.name ++ " assignments)"

def help : String :=
  ":keys lists resources, :clear empties the store, :dump EXPR shows bytecode, :quit exits"

def prompt : String := "brave> "

/-- Text order by code point, as keys are listed. -/
def sortKeys (keys : List String) : List String :=
  keys.mergeSort fun a b => a ≤ b

/-- A line for every slot. -/
def slotLines (s : State) : String :=
  let keys := ((s.net.stores[store]?).map fun st => st.slots.keys).getD []
  String.join ((sortKeys keys).map fun key =>
    key ++ " = " ++ ((s.net.slot? store key).getD .null).text s.net.sizes ++ "\n")

/-- Handles a line without the blanks around it; an ended stage leaves the prompt. -/
def handleLine? (mode : AssignMode) (parameter : Value) (s : State) (line : List Char) :
    Option Stage :=
  let text := String.ofList line
  if text = "" then some (.next s)
  else if text = ":quit" ∨ text = "exit" then some (.ended 0 s)
  else if text = ":keys" then some (.next (s.write (slotLines s)))
  else if text = ":clear" then do
    let net ← s.net.perform (.clear store)
    return .next { s with net }
  else if ":dump".toList.isPrefixOf line then
    let expression := String.ofList (Text.trim (line.drop 5))
    match Code.compile mode expression with
    | .ok code => some (.next (s.write (listing s code)))
    | .error e => some (.next (s.complain ("Error: " ++ e.message)))
  else do
    match ← evaluate? s mode text parameter with
    | (.ok outcome, s) => return .next (s.write (outcomeLine s outcome))
    | (.error failure, s) => return .next (s.complain ("Error: " ++ failure.message))

/-- A line of input, or `none` for bytes that are not text. -/
abbrev Line := Option String

/-- The input cut after each line feed, which is left out. A carriage return before it is a blank
and so is trimmed with the others. -/
def cutLines : List UInt8 → List (List UInt8)
  | [] => []
  | byte :: rest =>
    if byte = 10 then [] :: cutLines rest
    else
      match cutLines rest with
      | [] => [[byte]]
      | line :: lines => (byte :: line) :: lines

def decodeLine (bytes : List UInt8) : Line :=
  String.fromUTF8? ⟨bytes.toArray⟩

/-- Handles what was read at the prompt, `none` being the end of the input; an ended stage leaves
the prompt. -/
def answerLine? (mode : AssignMode) (parameter : Value) (s : State) : Option Line → Option Stage
  | none => some (.ended 0 s)
  | some none =>
    some (.ended 0 (s.complain "Error reading input: stream did not contain valid UTF-8"))
  | some (some line) => handleLine? mode parameter s (Text.trim line.toList)

/-- Prompts for lines until the input ends, cannot be read, or asks to quit. -/
def answerLines? (mode : AssignMode) (parameter : Value) (s : State) : List Line → Option State
  | [] => do
    match ← answerLine? mode parameter (s.write prompt) none with
    | .next s | .ended _ s => return s
  | line :: rest => do
    match ← answerLine? mode parameter (s.write prompt) (some line) with
    | .next s => answerLines? mode parameter s rest
    | .ended _ s => return s

/-- Fills the slots, evaluates the parameter, and goes through the expressions. The parameter is
returned for the prompt. -/
def begin? (a : Arguments) : Option (Value × Stage) := do
  match ← seedAll? .start a.seeds with
  | .ended code s => return (.null, .ended code s)
  | .next s =>
    match ← parameter? s a.parameter with
    | (.error failure, s) => return (.null, fail s "Error evaluating parameter" failure)
    | (.ok parameter, s) => return (parameter, ← evaluateAll? a parameter s a.expressions)

/-- Whether lines are to be read after the expressions. -/
def wantsPrompt (a : Arguments) : Bool :=
  !a.dumpBytecode && (a.repl || a.expressions.isEmpty)

def welcome (a : Arguments) (s : State) : State :=
  (s.complain (banner a.mode)).complain help

/-- The exit code, what was written, and what was complained about. -/
structure Transcript where
  code : Nat
  output : String
  errors : String

def transcript (code : Nat) (s : State) : Transcript := ⟨code, s.output, s.errors⟩

/-- What the console does with these arguments and this input; `none` if it comes to no end. -/
def run? (arguments : List String) (input : List UInt8) : Option Transcript := do
  let a := Arguments.read {} arguments
  match ← begin? a with
  | (_, .ended code s) => return transcript code s
  | (parameter, .next s) =>
    if wantsPrompt a then
      let lines := (cutLines input).map decodeLine
      return transcript 0 (← answerLines? a.mode parameter (welcome a s) lines)
    else return transcript 0 s

end Console

end SlotScript
