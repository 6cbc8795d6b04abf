/-!
# Opcodes

The instructions of the stack machine, by name. What each one does to the stack and to the slots
is said where it is performed.
-/

namespace SlotScript

inductive Opcode where
  /-- Push a literal. -/
  | push
  /-- Push the value of a slot, creating it as null when it is missing. -/
  | getResource
  /-- Write to the nearest scope that defines the key. -/
  | setResource
  /-- Write to the local scope. -/
  | directSetResource
  | preIncrementResource
  | postIncrementResource
  | preDecrementResource
  | postDecrementResource
  | pushParameter
  /-- Push the identity the expression runs for. -/
  | pushSelf
  /-- Run the command that a slot holds. -/
  | invokeResource
  | indexGet
  | indexSet
  | negate
  | logicalNot
  | bitwiseNot
  | add
  | subtract
  | multiply
  | divide
  | logicalAnd
  | logicalOr
  | bitwiseAnd
  | bitwiseOr
  | bitwiseXor
  | equal
  | notEqual
  | greaterThan
  | greaterOrEqual
  | lessThan
  | lessOrEqual
  | jump
  /-- Pop; branch when false. -/
  | jumpIfFalse
  /-- Pop; branch when true. -/
  | jumpIfTrue
  /-- Peek; when null, pop and branch. -/
  | jumpIfNull
  /-- Peek; branch when not null, without popping. -/
  | jumpIfNotNull
deriving DecidableEq

namespace Opcode

/-- Every opcode, in the order of their codes. -/
def all : List Opcode := [
  push, getResource, setResource, directSetResource, preIncrementResource, postIncrementResource,
  preDecrementResource, postDecrementResource, pushParameter, pushSelf, invokeResource, indexGet,
  indexSet, negate, logicalNot, bitwiseNot, add, subtract, multiply, divide, logicalAnd, logicalOr,
  bitwiseAnd, bitwiseOr, bitwiseXor, equal, notEqual, greaterThan, greaterOrEqual, lessThan,
  lessOrEqual, jump, jumpIfFalse, jumpIfTrue, jumpIfNull, jumpIfNotNull]

def name : Opcode → String
  | push => "Push"
  | getResource => "GetResource"
  | setResource => "SetResource"
  | directSetResource => "DirectSetResource"
  | preIncrementResource => "PreIncrementResource"
  | postIncrementResource => "PostIncrementResource"
  | preDecrementResource => "PreDecrementResource"
  | postDecrementResource => "PostDecrementResource"
  | pushParameter => "PushParameter"
  | pushSelf => "PushSelf"
  | invokeResource => "InvokeResource"
  | indexGet => "IndexGet"
  | indexSet => "IndexSet"
  | negate => "Negate"
  | logicalNot => "LogicalNot"
  | bitwiseNot => "BitwiseNot"
  | add => "Add"
  | subtract => "Subtract"
  | multiply => "Multiply"
  | divide => "Divide"
  | logicalAnd => "LogicalAnd"
  | logicalOr => "LogicalOr"
  | bitwiseAnd => "BitwiseAnd"
  | bitwiseOr => "BitwiseOr"
  | bitwiseXor => "BitwiseXor"
  | equal => "Equal"
  | notEqual => "NotEqual"
  | greaterThan => "GreaterThan"
  | greaterOrEqual => "GreaterOrEqual"
  | lessThan => "LessThan"
  | lessOrEqual => "LessOrEqual"
  | jump => "Jump"
  | jumpIfFalse => "JumpIfFalse"
  | jumpIfTrue => "JumpIfTrue"
  | jumpIfNull => "JumpIfNull"
  | jumpIfNotNull => "JumpIfNotNull"

/-- The code of an opcode is its place in the list of all. -/
def code (op : Opcode) : Nat := all.idxOf op

def isJump (op : Opcode) : Bool :=
  op = jump || op = jumpIfFalse || op = jumpIfTrue || op = jumpIfNull || op = jumpIfNotNull

/-- Whether the instruction reads the value its key holds. -/
def readsResource (op : Opcode) : Bool :=
  op = getResource || op = indexGet

end Opcode

end SlotScript
