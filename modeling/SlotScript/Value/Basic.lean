import SlotScript.Decimal.Basic
import SlotScript.Value.Kind

/-!
# Values

What flows through expressions and lives in the slots of a store. Collections, commands and host
things are shared: a value only names them, and two such values are the same if they name the same
one.
-/

namespace SlotScript

/-- The name of a shared object. -/
structure ObjectRef where
  kind : ObjectKind
  id : Nat
deriving DecidableEq

inductive Value where
  | null
  | bool (b : Bool)
  | int32 (n : Int32)
  | int64 (n : Int64)
  | uint32 (n : UInt32)
  | uint64 (n : UInt64)
  | float (x : Float32)
  | double (x : Float)
  | decimal (d : Decimal)
  | string (s : String)
  | object (ref : ObjectRef)
deriving DecidableEq

namespace Value

instance : Inhabited Value := ⟨null⟩

def kind : Value → Kind
  | null => .null
  | bool _ => .bool
  | int32 _ => .number .int32
  | int64 _ => .number .int64
  | uint32 _ => .number .uint32
  | uint64 _ => .number .uint64
  | float _ => .number .float
  | double _ => .number .double
  | decimal _ => .number .decimal
  | string _ => .string
  | object ref => .object ref.kind

/-- The rank in the numeric tower, `none` for everything that is not a number. -/
def numericKind? (v : Value) : Option NumericKind :=
  match v.kind with
  | .number kind => some kind
  | _ => none

def isNull : Value → Bool
  | null => true
  | _ => false

def isString : Value → Bool
  | string _ => true
  | _ => false

/-- Whether two values are one and the same object. -/
def sameObject : Value → Value → Bool
  | object ref, object ref' => ref.id = ref'.id
  | _, _ => false

end Value

end SlotScript
