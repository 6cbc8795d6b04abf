import SlotScript.Network.Basic
import SlotScript.Syntax.Emission

/-! # The meaning of a syntax tree

Evaluation follows the tree, from left to right, and has neither code nor stack. It is a script like
that of a running program, so what it asks of stores, and in which order, can be compared with what
the code of the tree asks.
-/

namespace SlotScript

/-- A write by the set operation of the mode. -/
def AssignMode.write (mode : AssignMode) (key : String) (v : Value) : Script Unit :=
  match mode with
  | .nearest => Script.request (.assign key v)
  | .direct => Script.request (.define key v)

/-- Reads a slot; one that is missing everywhere is created as null. -/
def Script.read (key : String) : Script Value :=
  Script.request (.fetch key .null)

/-- The element of the collection that a slot holds. -/
def Script.element (key : String) (index : Value) : Script Value := do
  let collection ← Script.read key
  let found ← Script.request (.element key collection index)
  found

/-- Changes an element of the collection that a slot holds and yields the new element. -/
def Script.changeElement (key : String) (index v : Value) : Script Value := do
  let collection ← Script.read key
  let changed ← Script.request (.replace key collection index v)
  changed
  return v

/-- Stores a value and yields what a read of the key finds then. -/
def AssignMode.store (mode : AssignMode) (key : String) (v : Value) : Script Value := do
  mode.write key v
  Script.read key

def UnaryOperator.apply (v : Value) : UnaryOperator → Except RuntimeError Value
  | not => return .bool !(← v.toBool)
  | minus => v.negate
  | complement => v.bitwiseNot
  | plus => .ok v

/-- A sum is a text if either side is one. -/
def Value.sum (a b : Value) : Script Value := do
  if a.isString || b.isString then
    let front ← Script.request (.concatText a)
    let back ← Script.request (.concatText b)
    return .string (front ++ back)
  else Value.arithmetic .add a b

def Arithmetic.apply (a b : Value) : Arithmetic → Script Value
  | .add => a.sum b
  | op => Value.arithmetic op a b

def BinaryOperator.apply (a b : Value) : BinaryOperator → Script Value
  | add => a.sum b
  | subtract => Value.arithmetic .subtract a b
  | multiply => Value.arithmetic .multiply a b
  | divide => Value.arithmetic .divide a b
  | less => Instruction.compared Ordering.isLT a b
  | lessOrEqual => Instruction.compared Ordering.isLE a b
  | greater => Instruction.compared Ordering.isGT a b
  | greaterOrEqual => Instruction.compared Ordering.isGE a b
  | equal => return .bool (a.equal b)
  | notEqual => return .bool !(a.equal b)
  | bitwiseAnd => Value.bitwise .and a b
  | bitwiseXor => Value.bitwise .xor a b
  | bitwiseOr => Value.bitwise .or a b

/-- Whether the form counts down. -/
def Counting.isDown : Counting → Bool
  | .preDecrement | .postDecrement => true
  | _ => false

/-- Whether the form yields the value from before counting. -/
def Counting.yieldsOld : Counting → Bool
  | .postIncrement | .postDecrement => true
  | _ => false

/-- Counts a slot, from zero if there is none, and writes it to where it is visible from. -/
def Counting.apply (form : Counting) (key : String) : Script Value := do
  let old ← Script.request (.fetch key (.int32 0))
  let new ← old.step form.isDown
  Script.request (.assign key new)
  return if form.yieldsOld then old else new

mutual

def Expr.eval (mode : AssignMode) (context : Context) : Expr → Script Value
  | .literal v => return v
  | .parameter => return context.parameter
  | .self => return context.self
  | .slot key => Script.read key
  | .element key index => do
    let i ← index.eval mode context
    Script.element key i
  | .count form key => form.apply key
  | .group e => e.eval mode context
  | .unary op e => do
    let v ← e.eval mode context
    op.apply v
  | .binary op left right => do
    let a ← left.eval mode context
    let b ← right.eval mode context
    op.apply a b
  | .chain op first rest => do
    let v ← first.eval mode context
    if (← v.toBool) = op.decider then return .bool op.decider
    else rest.eval mode context op
  | .coalesce left right => do
    let v ← left.eval mode context
    if v.isNull then right.eval mode context else return v
  | .conditional condition yes no => do
    let v ← condition.eval mode context
    if ← v.toBool then yes.eval mode context else no.eval mode context
  | .assign key e => do
    let v ← e.eval mode context
    mode.store key v
  | .update key op e => do
    let old ← Script.read key
    let v ← e.eval mode context
    let new ← op.apply old v
    mode.store key new
  | .fill key e => do
    let old ← Script.read key
    if old.isNull then
      let v ← e.eval mode context
      mode.store key v
    else return old
  | .assignElement key index value => do
    let v ← value.eval mode context
    let i ← index.eval mode context
    Script.changeElement key i v

/-- The operands of a chain that the ones before them have not decided. -/
def Operands.eval (mode : AssignMode) (context : Context) (op : Connective) :
    Operands → Script Value
  | .last e => do
    let v ← e.eval mode context
    return .bool (← v.toBool)
  | .more e rest => do
    let v ← e.eval mode context
    if (← v.toBool) = op.decider then return .bool op.decider
    else rest.eval mode context op

end

attribute [simp] Expr.eval Operands.eval

/-- Statements in order; the value of the last one is the outcome. -/
def Program.eval (mode : AssignMode) (context : Context) : Program → Script Outcome
  | [] => return .void
  | [e] => do
    let v ← e.eval mode context
    return .value v
  | e :: rest => do
    let _ ← e.eval mode context
    Program.eval mode context rest

end SlotScript
