import SlotScript.Console

/-!
# The command line

Reads the arguments and the lines of the standard input, and writes what the console writes as soon
as it is there.
-/

namespace SlotScript.Main

open Console

/-- Writes what the console wrote so far and forgets it. -/
def flush (s : State) : IO State := do
  let output ← IO.getStdout
  output.putStr s.output
  output.flush
  (← IO.getStderr).putStr s.errors
  return { s with output := "", errors := "" }

/-- The bytes of the next line without its line feed; `none` at the end of the input. -/
partial def readLine? (input : IO.FS.Stream) (line : List UInt8) : IO (Option (List UInt8)) := do
  match (← input.read 1).toList with
  | [] => return if line.isEmpty then none else some line.reverse
  | byte :: _ =>
    if byte = 10 then return some line.reverse else readLine? input (byte :: line)

/-- Answers the lines of the input, showing the prompt before each of them is read. -/
partial def answerInput (mode : AssignMode) (parameter : Value) (input : IO.FS.Stream)
    (s : State) : IO UInt32 := do
  let s ← flush (s.write prompt)
  match answerLine? mode parameter s ((← readLine? input []).map decodeLine) with
  | some (.next s) => answerInput mode parameter input (← flush s)
  | some (.ended code s) =>
    let _ ← flush s
    return UInt32.ofNat code
  | none => return 1

end SlotScript.Main

/-- The program. -/
def main (arguments : List String) : IO UInt32 := do
  let a := SlotScript.Console.Arguments.read {} arguments
  match SlotScript.Console.begin? a with
  | some (_, .ended code s) =>
    let _ ← SlotScript.Main.flush s
    return UInt32.ofNat code
  | some (parameter, .next s) =>
    if SlotScript.Console.wantsPrompt a then
      let s ← SlotScript.Main.flush (SlotScript.Console.welcome a s)
      SlotScript.Main.answerInput a.mode parameter (← IO.getStdin) s
    else
      let _ ← SlotScript.Main.flush s
      return 0
  | none => return 1
