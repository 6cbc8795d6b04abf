import SlotScript.Code.Instruction

/-!
# The evaluation stack

The values of a run, top first. A push fails when the stack is full, everything else when a value
that is asked for is not there.
-/

namespace SlotScript

abbrev Stack := List Value

namespace Stack

/-- The most values a stack can hold. -/
def maxDepth : Nat := 64

/-- The number of values a stack is made for at first. -/
def initialCapacity : Nat := 8

def push (v : Value) (stack : Stack) : Except RuntimeError Stack :=
  if maxDepth ≤ stack.length then .error (.stackOverflow maxDepth) else .ok (v :: stack)

def pop : Stack → Except RuntimeError (Value × Stack)
  | [] => .error .stackEmpty
  | v :: rest => .ok (v, rest)

def peek : Stack → Except RuntimeError Value
  | [] => .error .stackEmpty
  | v :: _ => .ok v

/-- Removes the value at a place near the top; the values above it keep their order. -/
def take (place : Sentinel) (stack : Stack) : Except RuntimeError (Value × Stack) :=
  match stack[place.depth]? with
  | some v => .ok (v, stack.eraseIdx place.depth)
  | none => .error .stackEmpty

end Stack

end SlotScript
