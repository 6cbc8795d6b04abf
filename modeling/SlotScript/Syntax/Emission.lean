import SlotScript.Code.Builder
import SlotScript.Syntax.Expr

/-!
# Code of a syntax tree

Every form emits its operands in the order in which they are evaluated, and leaves exactly one
value on the stack. Branches are forward jumps, bound once the code they skip is emitted.
-/

namespace SlotScript

/-- The instruction that writes a slot. -/
def AssignMode.writeOp : AssignMode → Opcode
  | .nearest => .setResource
  | .direct => .directSetResource

/-- Unary plus does nothing. -/
def UnaryOperator.opcode? : UnaryOperator → Option Opcode
  | .not => some .logicalNot
  | .minus => some .negate
  | .complement => some .bitwiseNot
  | .plus => none

def BinaryOperator.opcode : BinaryOperator → Opcode
  | .add => .add
  | .subtract => .subtract
  | .multiply => .multiply
  | .divide => .divide
  | .less => .lessThan
  | .lessOrEqual => .lessOrEqual
  | .greater => .greaterThan
  | .greaterOrEqual => .greaterOrEqual
  | .equal => .equal
  | .notEqual => .notEqual
  | .bitwiseAnd => .bitwiseAnd
  | .bitwiseXor => .bitwiseXor
  | .bitwiseOr => .bitwiseOr

def Arithmetic.opcode : Arithmetic → Opcode
  | .add => .add
  | .subtract => .subtract
  | .multiply => .multiply
  | .divide => .divide

/-- The truth value that decides a chain. -/
def Connective.decider : Connective → Bool
  | .and => false
  | .or => true

/-- The jump taken by a deciding operand. -/
def Connective.branch : Connective → Opcode
  | .and => .jumpIfFalse
  | .or => .jumpIfTrue

/-- The value `++$k` gives to a key that does not exist yet, before counting. -/
def preIncrementSeed : Value := .int32 0

def Counting.instruction (key : String) : Counting → Instruction
  | .preIncrement => .keyedWith .preIncrementResource key (.value preIncrementSeed)
  | .preDecrement => .keyed .preDecrementResource key
  | .postIncrement => .keyed .postIncrementResource key
  | .postDecrement => .keyed .postDecrementResource key

/-- Stores the value on top of the stack and reads it back, so an assignment yields what it
stored. -/
def CodeBuilder.emitStore (b : CodeBuilder) (mode : AssignMode) (key : String) : CodeBuilder :=
  (b.emit (.keyedWith mode.writeOp key (.sentinel .last))).emit (.keyed .getResource key)

mutual

def Expr.emit (mode : AssignMode) : Expr → CodeBuilder → CodeBuilder
  | .literal v, b => b.emitPush v
  | .parameter, b => b.emitOp .pushParameter
  | .self, b => b.emitOp .pushSelf
  | .slot key, b => b.emit (.keyed .getResource key)
  | .element key index, b => (index.emit mode b).emit (.keyed .indexGet key)
  | .count form key, b => b.emit (form.instruction key)
  | .group e, b => e.emit mode b
  | .unary op e, b =>
    match op.opcode? with
    | some opcode => (e.emit mode b).emitOp opcode
    | none => e.emit mode b
  | .binary op left right, b => (right.emit mode (left.emit mode b)).emitOp op.opcode
  | .chain op first rest, b =>
    let (label, b) := (first.emit mode b).jump op.branch
    let (labels, b) := rest.emit mode op b
    let (done, b) := (b.emitPush (.bool !op.decider)).jump .jump
    let b := (label :: labels).foldl CodeBuilder.bind b
    (b.emitPush (.bool op.decider)).bind done
  | .coalesce left right, b =>
    let (missing, b) := (left.emit mode b).jump .jumpIfNull
    let (done, b) := b.jump .jump
    (right.emit mode (b.bind missing)).bind done
  | .conditional condition yes no, b =>
    let (otherwise, b) := (condition.emit mode b).jump .jumpIfFalse
    let (done, b) := (yes.emit mode b).jump .jump
    (no.emit mode (b.bind otherwise)).bind done
  | .assign key e, b => (e.emit mode b).emitStore mode key
  | .update key op e, b =>
    ((e.emit mode (b.emit (.keyed .getResource key))).emitOp op.opcode).emitStore mode key
  | .fill key e, b =>
    let (missing, b) := (b.emit (.keyed .getResource key)).jump .jumpIfNull
    let (done, b) := b.jump .jump
    ((e.emit mode (b.bind missing)).emitStore mode key).bind done
  | .assignElement key index value, b =>
    (index.emit mode (value.emit mode b)).emit (.keyed .indexSet key)

/-- Emits operands of a chain, each with the jump it may take. -/
def Operands.emit (mode : AssignMode) (op : Connective) :
    Operands → CodeBuilder → List Label × CodeBuilder
  | .last e, b =>
    let (label, b) := (e.emit mode b).jump op.branch
    ([label], b)
  | .more e rest, b =>
    let (label, b) := (e.emit mode b).jump op.branch
    let (labels, b) := rest.emit mode op b
    (label :: labels, b)

end

/-- The code of a program: its statements one after the other. -/
def Program.emit (mode : AssignMode) (program : Program) : Code :=
  (program.foldl (fun b e => e.emit mode b) ({} : CodeBuilder)).code

end SlotScript
