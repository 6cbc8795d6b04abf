import SlotScript.Code.Opcode
import SlotScript.Token.Kind
import SlotScript.Value.Kind

/-!
# Errors

What can go wrong while an expression is compiled and while its code runs. An error is a cause; its
wording is one function for each of the two types.
-/

namespace SlotScript

/-- What the compiler was looking for when the tokens ran out. -/
inductive Expectation where
  | token (kind : TokenKind)
  | expression
  | resourceName
  | statementEnd
  | closingBracket
deriving DecidableEq

def Expectation.text : Expectation → String
  | token kind => kind.name
  | expression => "expression"
  | resourceName => "resource name"
  | statementEnd => "`;`"
  | closingBracket => "`]`"

/-- Operators that are recognised but have no meaning. -/
inductive UnsupportedOperator where
  | shift
  | compoundBitwise
deriving DecidableEq

def UnsupportedOperator.text : UnsupportedOperator → String
  | shift => "Shift"
  | compoundBitwise => "Compound bitwise"

inductive CompileError where
  | tooLong (length limit : Nat)
  | tooDeep (limit : Nat)
  | unexpectedToken (kind : TokenKind) (text : String)
  | expected (expected found : TokenKind) (text : String)
  | unexpectedEnd (expected : Expectation)
  | assignToParameter
  | assignToSelf
  | unsupported (operator : UnsupportedOperator)
deriving DecidableEq

def CompileError.message : CompileError → String
  | tooLong length limit =>
    s!"expression is {length} characters long, the maximum is {limit}"
  | tooDeep limit => s!"expression nests deeper than {limit} levels"
  | unexpectedToken kind text => s!"Unexpected token {kind.name} at " ++ "'" ++ text ++ "'"
  | expected wanted found text =>
    s!"Expected {wanted.name} but found {found.name} at " ++ "'" ++ text ++ "'"
  | unexpectedEnd wanted => s!"Expected {wanted.text} but reached the end of the expression"
  | assignToParameter => "Cannot assign to $parameter"
  | assignToSelf => "Cannot assign to $self"
  | unsupported operator => s!"{operator.text} operators are tokenized but not supported"

/-- What an instruction lacks among its operands. -/
inductive OperandFault where
  | literal
  | key
  | target
  | source
deriving DecidableEq

def OperandFault.text : OperandFault → String
  | literal => "expected a literal operand"
  | key => "expected a resource key"
  | target => "expected a jump target"
  | source => "source must be a literal or a stack sentinel"

/-- The operations on one value that not every kind supports. -/
inductive UnaryAction where
  | increment
  | decrement
  | negate
  | bitwiseNot
deriving DecidableEq

def UnaryAction.text : UnaryAction → String
  | increment => "increment"
  | decrement => "decrement"
  | negate => "negate"
  | bitwiseNot => "apply bitwise not to"

inductive RuntimeError where
  | jumpOutOfRange (target length : Nat)
  | malformed (op : Opcode) (fault : OperandFault)
  | divideByZero
  | overflow (target : NumericKind)
  | conversion (source : Kind) (target : NumericKind)
  | booleanConversion (kind : Kind)
  | unsupportedOperand (action : UnaryAction) (kind : Kind)
  | notACommand (key : String)
  | notIndexable (key : String)
  | invalidIndex (key index : String)
  | stackEmpty
  | stackOverflow (limit : Nat)
  | command (text : String)
deriving DecidableEq

def RuntimeError.message : RuntimeError → String
  | jumpOutOfRange target length =>
    s!"Jump target out of range: {target} (bytecode length {length})"
  | malformed op fault => s!"Malformed {op.name} instruction: {fault.text}"
  | divideByZero => "Attempted to divide by zero"
  | overflow target => s!"Value was either too large or too small for {target.name}"
  | conversion source target => s!"Cannot convert {source.name} to {target.name}"
  | booleanConversion kind => s!"Cannot convert {kind.name} to boolean"
  | unsupportedOperand action kind => s!"Cannot {action.text} value of kind {kind.name}"
  | notACommand key => "Resource '" ++ key ++ "' is not a command"
  | notIndexable key => "Resource '" ++ key ++ "' is not indexable"
  | invalidIndex key index => "Index " ++ index ++ " is not valid for resource '" ++ key ++ "'"
  | stackEmpty => "Runtime stack is empty"
  | stackOverflow limit => s!"Runtime stack exceeded maximum capacity of {limit}"
  | command text => "Command failed: " ++ text

/-- A failure of an expression given as text: either stage may fail. -/
inductive Failure where
  | compile (error : CompileError)
  | runtime (error : RuntimeError)
deriving DecidableEq

def Failure.message : Failure → String
  | compile error => error.message
  | runtime error => error.message

end SlotScript
