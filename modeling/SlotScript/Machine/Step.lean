import SlotScript.Machine.Script
import SlotScript.Machine.Stack
import SlotScript.Operator.Arithmetic
import SlotScript.Operator.Comparison

/-!
# Instructions at work

What one instruction does to the stack and which requests it makes. Operands are checked before the
stack, and the stack before the slots, in the order in which an instruction uses them, since the
first thing that is wrong decides the error.
-/

namespace SlotScript

/-- What a run is given once and for all. -/
structure Context where
  parameter : Value
  self : Value

/-- Where a run stands: the index of the next instruction and the stack. -/
structure Frame where
  next : Nat
  stack : Stack

/-- The value a key gets when it does not exist and is counted, unless the instruction says. -/
def absentKeySeed : Value := .int32 0

namespace Frame

def start : Frame := ⟨0, []⟩

def push (f : Frame) (v : Value) : Except RuntimeError Frame := do
  return { f with stack := ← f.stack.push v }

def pop (f : Frame) : Except RuntimeError (Value × Frame) := do
  let (v, stack) ← f.stack.pop
  return (v, { f with stack })

def jumpTo (f : Frame) (target : Nat) : Frame := { f with next := target }

end Frame

namespace Instruction

/-- The value an instruction consumes: a literal, a place near the top of the stack, or the top
itself if the instruction does not say. -/
def takeSource (i : Instruction) (f : Frame) : Except RuntimeError (Value × Frame) :=
  match i.source? with
  | some (.sentinel place) => do
    let (v, stack) ← f.stack.take place
    return (v, { f with stack })
  | some (.value v) => .ok (v, f)
  | none => f.pop
  | some _ => i.malformed .source

/-- The target of a jump in code of some length. Only an unconditional jump may lead to the end. -/
def checkedTarget (i : Instruction) (length : Nat) : Except RuntimeError Nat := do
  let target ← i.target
  if target < length ∨ (i.op = .jump ∧ target = length) then return target
  else throw (.jumpOutOfRange target length)

/-- Replaces the two values on top by the result of a function of them. -/
def binary (f : Frame) (operation : Value → Value → Except RuntimeError Value) :
    Except RuntimeError Frame := do
  let (right, f) ← f.pop
  let (left, f) ← f.pop
  f.push (← operation left right)

def logical (operation : Bool → Bool → Bool) (a b : Value) : Except RuntimeError Value := do
  return .bool (operation (← a.toBool) (← b.toBool))

def compared (accepts : Ordering → Bool) (a b : Value) : Except RuntimeError Value := do
  return .bool (accepts (← a.compare b))

/-- Addition concatenates if either side is text. -/
def add (f : Frame) : Script Frame := do
  let (right, f) ← f.pop
  let (left, f) ← f.pop
  if left.isString || right.isString then
    let front ← Script.request (.concatText left)
    let back ← Script.request (.concatText right)
    f.push (.string (front ++ back))
  else f.push (← Value.arithmetic .add left right)

/-- Reads a slot, counts it, and writes it back to the scope it is visible in. -/
def count (i : Instruction) (f : Frame) (seed : Value) (down yieldsOld : Bool) : Script Frame := do
  let key ← i.key
  let old ← Script.request (.fetch key seed)
  let new ← old.step down
  Script.request (.assign key new)
  f.push (if yieldsOld then old else new)

/-- The seed an instruction carries as its source operand. -/
def seed (i : Instruction) : Value :=
  match i.source? with
  | some (.value v) => v
  | _ => absentKeySeed

def invoke (i : Instruction) (f : Frame) : Script Frame := do
  let key ← i.key
  let (argument, f) ← i.takeSource f
  match ← Script.request (.fetch key .null) with
  | .object ⟨.command, id⟩ => Script.invoke id argument (.done f)
  | _ => Script.fail (.notACommand key)

/-- Jumps if the value on top, which is popped, has the given truth value. -/
def jumpOn (i : Instruction) (length : Nat) (f : Frame) (truth : Bool) :
    Except RuntimeError Frame := do
  let target ← i.checkedTarget length
  let (v, f) ← f.pop
  return if (← v.toBool) = truth then f.jumpTo target else f

/-- Performs an instruction of code of some length. The frame already points behind it. -/
def perform (context : Context) (length : Nat) (i : Instruction) (f : Frame) : Script Frame :=
  match i.op with
  | .push => do f.push (← i.literal)
  | .getResource => do
    let v ← Script.request (.fetch (← i.key) .null)
    f.push v
  | .setResource => do
    let (v, f) ← i.takeSource f
    Script.request (.assign (← i.key) v)
    return f
  | .directSetResource => do
    let (v, f) ← i.takeSource f
    Script.request (.define (← i.key) v)
    return f
  | .preIncrementResource => i.count f i.seed false false
  | .postIncrementResource => i.count f absentKeySeed false true
  | .preDecrementResource => i.count f absentKeySeed true false
  | .postDecrementResource => i.count f absentKeySeed true true
  | .pushParameter => f.push context.parameter
  | .pushSelf => f.push context.self
  | .invokeResource => i.invoke f
  | .indexGet => do
    let key ← i.key
    let (index, f) ← f.pop
    let collection ← Script.request (.fetch key .null)
    f.push (← (← Script.request (.element key collection index)))
  | .indexSet => do
    let key ← i.key
    let (index, f) ← f.pop
    let (v, f) ← f.pop
    let collection ← Script.request (.fetch key .null)
    let changed ← Script.request (.replace key collection index v)
    changed
    f.push v
  | .negate => do
    let (v, f) ← f.pop
    f.push (← v.negate)
  | .logicalNot => do
    let (v, f) ← f.pop
    f.push (.bool !(← v.toBool))
  | .bitwiseNot => do
    let (v, f) ← f.pop
    f.push (← v.bitwiseNot)
  | .add => add f
  | .subtract => binary f (Value.arithmetic .subtract)
  | .multiply => binary f (Value.arithmetic .multiply)
  | .divide => binary f (Value.arithmetic .divide)
  | .logicalAnd => binary f (logical (· && ·))
  | .logicalOr => binary f (logical (· || ·))
  | .bitwiseAnd => binary f (Value.bitwise .and)
  | .bitwiseOr => binary f (Value.bitwise .or)
  | .bitwiseXor => binary f (Value.bitwise .xor)
  | .equal => binary f fun a b => .ok (.bool (a.equal b))
  | .notEqual => binary f fun a b => .ok (.bool !(a.equal b))
  | .greaterThan => binary f (compared Ordering.isGT)
  | .greaterOrEqual => binary f (compared Ordering.isGE)
  | .lessThan => binary f (compared Ordering.isLT)
  | .lessOrEqual => binary f (compared Ordering.isLE)
  | .jump => do return f.jumpTo (← i.checkedTarget length)
  | .jumpIfFalse => i.jumpOn length f false
  | .jumpIfTrue => i.jumpOn length f true
  | .jumpIfNull => do
    let target ← i.checkedTarget length
    if (← f.stack.peek).isNull then
      let (_, f) ← f.pop
      return f.jumpTo target
    else return f
  | .jumpIfNotNull => do
    let target ← i.checkedTarget length
    return if (← f.stack.peek).isNull then f else f.jumpTo target

end Instruction

end SlotScript
