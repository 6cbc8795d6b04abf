/-!
# Kinds of values

The kinds a value can have, and the tower in which the numeric ones are ordered: an operation on
two numbers runs at the higher of their kinds.
-/

namespace SlotScript

/-- The numeric kinds, lowest rank first. -/
inductive NumericKind where
  | int32 | uint32 | int64 | uint64 | float | double | decimal
deriving DecidableEq

/-- What stands behind an object: something that can be run, a collection, or an opaque thing of
the embedding application. -/
inductive ObjectKind where
  | command | list | map | host
deriving DecidableEq

inductive Kind where
  | null
  | bool
  | number (kind : NumericKind)
  | string
  | object (kind : ObjectKind)
deriving DecidableEq

namespace NumericKind

def rank : NumericKind → Nat
  | int32 => 0
  | uint32 => 1
  | int64 => 2
  | uint64 => 3
  | float => 4
  | double => 5
  | decimal => 6

/-- The kind of higher rank. -/
def max (a b : NumericKind) : NumericKind :=
  if a.rank ≤ b.rank then b else a

def name : NumericKind → String
  | int32 => "int32"
  | uint32 => "uint32"
  | int64 => "int64"
  | uint64 => "uint64"
  | float => "float"
  | double => "double"
  | decimal => "decimal"

/-- Whether an integer is one of an integral kind; the other kinds have none of their own. -/
def holds (kind : NumericKind) (n : Int) : Bool :=
  match kind with
  | int32 => -0x80000000 ≤ n && n ≤ 0x7FFFFFFF
  | uint32 => 0 ≤ n && n ≤ 0xFFFFFFFF
  | int64 => -0x8000000000000000 ≤ n && n ≤ 0x7FFFFFFFFFFFFFFF
  | uint64 => 0 ≤ n && n ≤ 0xFFFFFFFFFFFFFFFF
  | float | double | decimal => false

def isUnsigned (kind : NumericKind) : Bool :=
  kind = uint32 || kind = uint64

def isReal (kind : NumericKind) : Bool :=
  kind = float || kind = double

end NumericKind

def ObjectKind.name : ObjectKind → String
  | command => "command"
  | list => "list"
  | map => "map"
  | host => "object"

def Kind.name : Kind → String
  | null => "null"
  | bool => "bool"
  | number kind => kind.name
  | string => "string"
  | object kind => kind.name

end SlotScript
