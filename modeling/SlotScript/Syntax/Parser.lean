import SlotScript.Error
import SlotScript.Syntax.Expr
import SlotScript.Token.Basic

/-!
# Parsing

Recursive descent from tokens to a syntax tree:

```text
program     := (expression (; expression)* ;?)?
expression  := $k (= | += | -= | *= | /= | ??=) expression
             | $k[expression] = expression
             | conditional
conditional := coalesce (? expression : expression)?
coalesce    := or (?? coalesce)?
or          := and (|| and)*
and         := bitOr (&& bitOr)*
bitOr       := bitXor (| bitXor)*
bitXor      := bitAnd (^ bitAnd)*
bitAnd      := equality (& equality)*
equality    := relational ((== | !=) relational)*
relational  := additive ((< | <= | > | >=) additive)*
additive    := term ((+ | -) term)*
term        := unary ((* | /) unary)*
unary       := (! | - | + | ~) unary | (++ | --) $k | primary
primary     := literal | ( expression ) | $parameter | $self
             | $k | $k++ | $k-- | $k[expression] | identifier
```

Nesting is limited: an expression, the operand of a unary operator and the right side of `??` each
count one level. The limit is also what the recursion runs on, so a parser at some level is built
from the parsers one level deeper.
-/

namespace SlotScript

/-- A parser returns what it read and the tokens after it. -/
abbrev Parser (α : Type) := List Token → Except CompileError (α × List Token)

/-- The nonterminals at which nesting is counted. -/
inductive NestedForm where
  | expression | coalesce | unary
deriving DecidableEq

namespace Parser

/-- The deepest nesting of an expression. -/
def maxNesting : Nat := 128

/-- The key of a slot is its name after a dollar sign. -/
def slotKey (name : Token) : String := "$" ++ name.text

def kindAt? (tokens : List Token) (index : Nat) : Option TokenKind :=
  (tokens[index]?).map (·.kind)

/-- The error for the next token, which is not what was expected. -/
def unexpected (tokens : List Token) (expected : Expectation) : CompileError :=
  match tokens with
  | token :: _ => .unexpectedToken token.kind token.text
  | [] => .unexpectedEnd expected

/-- Skips a token of the given kind. -/
def expect (kind : TokenKind) (tokens : List Token) : Except CompileError (List Token) :=
  match tokens with
  | token :: rest =>
    if token.kind = kind then .ok rest else .error (.expected kind token.kind token.text)
  | [] => .error (.unexpectedEnd (.token kind))

/-- Reads the slot that is to be written. The reserved names cannot be. -/
def target : Parser String := fun tokens => do
  let rest ← expect .dollar tokens
  match rest with
  | [] => throw (.unexpectedEnd .resourceName)
  | name :: after =>
    if name.kind = .parameterWord then throw .assignToParameter
    else if name.kind = .selfWord then throw .assignToSelf
    else if name.kind.isName then return (slotKey name, after)
    else throw (unexpected rest .resourceName)

/-- The operators of one level of binary operators. -/
abbrev OperatorTable := TokenKind → Option BinaryOperator

/-- Continues a left-associative sequence after its first operand. Every round reads an operator,
so `fuel` may be the number of tokens. -/
def binaryTail (operators : OperatorTable) (operand : Parser Expr) :
    Nat → Expr → Parser Expr
  | fuel + 1, left, token :: rest =>
    match operators token.kind with
    | some op => do
      let (right, rest) ← operand rest
      binaryTail operators operand fuel (.binary op left right) rest
    | none => .ok (left, token :: rest)
  | _, left, tokens => .ok (left, tokens)

def binaryLevel (operators : OperatorTable) (operand : Parser Expr) : Parser Expr :=
  fun tokens => do
    let (left, rest) ← operand tokens
    binaryTail operators operand rest.length left rest

/-- The operands of a chain after its first operator. -/
def operands (kind : TokenKind) (operand : Parser Expr) : Nat → Parser Operands
  | 0, tokens => do
    let (e, rest) ← operand tokens
    return (.last e, rest)
  | fuel + 1, tokens => do
    let (e, rest) ← operand tokens
    match rest with
    | token :: after =>
      if token.kind = kind then
        let (more, rest) ← operands kind operand fuel after
        return (.more e more, rest)
      else return (.last e, rest)
    | [] => return (.last e, [])

def connectiveKind : Connective → TokenKind
  | .and => .ampersandAmpersand
  | .or => .barBar

def chainLevel (op : Connective) (operand : Parser Expr) : Parser Expr := fun tokens => do
  let (first, rest) ← operand tokens
  match rest with
  | token :: after =>
    if token.kind = connectiveKind op then
      let (more, rest) ← operands (connectiveKind op) operand after.length after
      return (.chain op first more, rest)
    else return (first, rest)
  | [] => return (first, [])

section Levels

-- The parsers one level of nesting deeper.
variable (inner : NestedForm → Parser Expr)

/-- What follows the dollar sign of a slot that is read. -/
def reference : Parser Expr
  | [] => .error (unexpected [] .resourceName)
  | name :: rest =>
    if name.kind = .parameterWord then .ok (.parameter, rest)
    else if name.kind = .selfWord then .ok (.self, rest)
    else if name.kind.isName then
      match rest with
      | [] => .ok (.slot (slotKey name), [])
      | token :: after =>
        match token.kind with
        | .plusPlus => .ok (.count .postIncrement (slotKey name), after)
        | .minusMinus => .ok (.count .postDecrement (slotKey name), after)
        | .openBracket => do
          let (index, rest) ← inner .expression after
          let rest ← expect .closeBracket rest
          return (.element (slotKey name) index, rest)
        | _ => .ok (.slot (slotKey name), token :: after)
    else .error (unexpected (name :: rest) .resourceName)

def primary : Parser Expr
  | [] => .error (unexpected [] .expression)
  | token :: rest =>
    match token.kind with
    | .openParen => do
      let (e, rest) ← inner .expression rest
      let rest ← expect .closeParen rest
      return (.group e, rest)
    | .stringLiteral | .numericLiteral | .identifier => .ok (.literal token.value, rest)
    | .nullWord => .ok (.literal .null, rest)
    | .trueWord => .ok (.literal (.bool true), rest)
    | .falseWord => .ok (.literal (.bool false), rest)
    | .dollar => reference inner rest
    | _ => .error (unexpected (token :: rest) .expression)

def unaryOperator? : TokenKind → Option UnaryOperator
  | .bang => some .not
  | .minus => some .minus
  | .tilde => some .complement
  | .plus => some .plus
  | _ => none

def unary : Parser Expr
  | [] => primary inner []
  | token :: rest =>
    match token.kind with
    | .plusPlus => do
      let (key, rest) ← target rest
      return (.count .preIncrement key, rest)
    | .minusMinus => do
      let (key, rest) ← target rest
      return (.count .preDecrement key, rest)
    | kind =>
      match unaryOperator? kind with
      | some op => do
        let (e, rest) ← inner .unary rest
        return (.unary op e, rest)
      | none => primary inner (token :: rest)

def termOperators : OperatorTable
  | .asterisk => some .multiply
  | .slash => some .divide
  | _ => none

def term : Parser Expr := binaryLevel termOperators (unary inner)

def additiveOperators : OperatorTable
  | .plus => some .add
  | .minus => some .subtract
  | _ => none

def additive : Parser Expr := binaryLevel additiveOperators (term inner)

def relationalOperators : OperatorTable
  | .less => some .less
  | .lessEquals => some .lessOrEqual
  | .greater => some .greater
  | .greaterEquals => some .greaterOrEqual
  | _ => none

def isShift (kind : TokenKind) : Bool :=
  [.lessLess, .greaterGreater, .lessLessEquals, .greaterGreaterEquals].contains kind

/-- Shift operators would follow a relation; they are recognised here only to be refused. -/
def relational : Parser Expr := fun tokens => do
  let (e, rest) ← binaryLevel relationalOperators (additive inner) tokens
  if (kindAt? rest 0).any isShift then throw (.unsupported .shift) else return (e, rest)

def equalityOperators : OperatorTable
  | .equalEqual => some .equal
  | .bangEquals => some .notEqual
  | _ => none

def equality : Parser Expr := binaryLevel equalityOperators (relational inner)

def bitAndOperators : OperatorTable
  | .ampersand => some .bitwiseAnd
  | _ => none

def bitAnd : Parser Expr := binaryLevel bitAndOperators (equality inner)

def bitXorOperators : OperatorTable
  | .caret => some .bitwiseXor
  | _ => none

def bitXor : Parser Expr := binaryLevel bitXorOperators (bitAnd inner)

def bitOrOperators : OperatorTable
  | .bar => some .bitwiseOr
  | _ => none

def bitOr : Parser Expr := binaryLevel bitOrOperators (bitXor inner)

def conjunction : Parser Expr := chainLevel .and (bitOr inner)

def disjunction : Parser Expr := chainLevel .or (conjunction inner)

def coalesce : Parser Expr := fun tokens => do
  let (left, rest) ← disjunction inner tokens
  match rest with
  | token :: after =>
    if token.kind = .questionQuestion then
      let (right, rest) ← inner .coalesce after
      return (.coalesce left right, rest)
    else return (left, rest)
  | [] => return (left, [])

def conditional : Parser Expr := fun tokens => do
  let (condition, rest) ← coalesce inner tokens
  match rest with
  | token :: after =>
    if token.kind = .question then
      let (yes, rest) ← inner .expression after
      let rest ← expect .colon rest
      let (no, rest) ← inner .expression rest
      return (.conditional condition yes no, rest)
    else return (condition, rest)
  | [] => return (condition, [])

/-- The forms of an assignment to a slot. -/
inductive AssignmentForm where
  | plain
  | update (op : Arithmetic)
  | fill

def AssignmentForm.node (key : String) (e : Expr) : AssignmentForm → Expr
  | plain => .assign key e
  | update op => .update key op e
  | fill => .fill key e

/-- What an assignment operator stands for; some of them are not supported. -/
def assignmentOperator? : TokenKind → Option (Except UnsupportedOperator AssignmentForm)
  | .equals => some (.ok .plain)
  | .plusEquals => some (.ok (.update .add))
  | .minusEquals => some (.ok (.update .subtract))
  | .asteriskEquals => some (.ok (.update .multiply))
  | .slashEquals => some (.ok (.update .divide))
  | .questionQuestionEquals => some (.ok .fill)
  | .lessLessEquals | .greaterGreaterEquals => some (.error .shift)
  | .ampersandEquals | .barEquals | .caretEquals => some (.error .compoundBitwise)
  | _ => none

/-- An assignment to a slot, whose operator is known to follow. -/
def slotAssignment (operator : Except UnsupportedOperator AssignmentForm) : Parser Expr :=
  fun tokens => do
    let (key, rest) ← target tokens
    match operator with
    | .error operator => throw (.unsupported operator)
    | .ok form =>
      let (e, rest) ← inner .expression (rest.drop 1)
      return (form.node key e, rest)

/-- The tokens from the bracket on that closes the outermost of `depth + 1` open brackets. -/
def closing? (depth : Nat) : List Token → Option (List Token)
  | [] => none
  | token :: rest =>
    if token.kind = .openBracket then closing? (depth + 1) rest
    else if token.kind = .closeBracket then
      match depth with
      | 0 => some (token :: rest)
      | depth + 1 => closing? depth rest
    else closing? depth rest

/-- An assignment to an element. `closing` are the tokens from its closing bracket on, with an
equals sign behind it. The value is read before the index, which has to end at that bracket. -/
def elementAssignment (closing : List Token) : Parser Expr := fun tokens => do
  let (key, rest) ← target tokens
  let (value, after) ← inner .expression (closing.drop 2)
  let (index, stop) ← inner .expression (rest.drop 1)
  if stop.length = closing.length then return (.assignElement key index value, after)
  else throw (unexpected stop .closingBracket)

def assignment : Parser Expr := fun tokens =>
  if kindAt? tokens 0 = some .dollar ∧ (kindAt? tokens 1).any TokenKind.isName then
    match (kindAt? tokens 2).bind assignmentOperator? with
    | some operator => slotAssignment inner operator tokens
    | none =>
      if kindAt? tokens 2 = some .openBracket then
        match closing? 0 (tokens.drop 3) with
        | some closing =>
          if kindAt? closing 1 = some .equals then elementAssignment inner closing tokens
          else conditional inner tokens
        | none => conditional inner tokens
      else conditional inner tokens
  else conditional inner tokens

end Levels

/-- The parser of a nested form with `budget` levels of nesting left. -/
def nested : Nat → NestedForm → Parser Expr
  | 0, _, _ => .error (.tooDeep maxNesting)
  | budget + 1, .expression, tokens => assignment (nested budget) tokens
  | budget + 1, .coalesce, tokens => coalesce (nested budget) tokens
  | budget + 1, .unary, tokens => unary (nested budget) tokens

def expression : Parser Expr := nested maxNesting .expression

/-- Statements up to the end of the tokens. Each reads a token at least, so `fuel` may be their
number. -/
def statements : Nat → List Token → Except CompileError Program
  | fuel + 1, token :: tokens => do
    let (e, rest) ← expression (token :: tokens)
    match rest with
    | [] => return [e]
    | separator :: after =>
      if separator.kind = .semicolon then return e :: (← statements fuel after)
      else throw (unexpected rest .statementEnd)
  | _, _ => .ok []

end Parser

/-- The program that a list of tokens spells. -/
def Program.parse (tokens : List Token) : Except CompileError Program :=
  Parser.statements tokens.length tokens

end SlotScript
