import SlotScript.Decimal.Text
import SlotScript.Fingerprint
import SlotScript.Number.Shortest
import SlotScript.Value.Basic

/-!
# Text and fingerprints of values

How a value is shown, how it takes part in string concatenation, and the bytes its fingerprint is
taken over. A collection is shown by its current length, so showing needs to know the lengths.
-/

namespace SlotScript

/-- The current length of every collection, by the identity of the object. -/
abbrev Sizes := Nat → Nat

/-- The decimal digits of an integer, after a minus if it is negative. -/
def integerText (n : Int) : String :=
  let digits := Nat.toDigits 10 n.natAbs
  String.ofList (if n < 0 then '-' :: digits else digits)

def ObjectRef.text (sizes : Sizes) (ref : ObjectRef) : String :=
  match ref.kind with
  | .list => "[list of " ++ integerText (sizes ref.id) ++ "]"
  | .map => "[map of " ++ integerText (sizes ref.id) ++ "]"
  | kind => "[" ++ kind.name ++ "]"

namespace Value

def text (sizes : Sizes) : Value → String
  | null => "null"
  | bool b => if b then "true" else "false"
  | int32 n => integerText n.toInt
  | int64 n => integerText n.toInt
  | uint32 n => integerText n.toNat
  | uint64 n => integerText n.toNat
  | float x => (BinaryReading.ofSingle x).text .single
  | double x => (BinaryReading.ofDouble x).text .double
  | decimal d => d.text
  | string s => s
  | object ref => ref.text sizes

/-- The text a value contributes to a concatenation, to which null adds nothing. -/
def concatText (sizes : Sizes) : Value → String
  | null => ""
  | v => v.text sizes

/-- The bytes of a decimal: scale and sign in one word, then the mantissa. -/
def decimalBytes (d : Decimal) : List UInt8 :=
  littleEndian 4 (d.scale * twoTo 16 + (if d.negative then twoTo 31 else 0)) ++ littleEndian 12 d.mantissa

/-- A tag for the kind and then the payload, so values of different kinds differ even if they are
equal. -/
def bytes : Value → List UInt8
  | null => [0]
  | bool b => [1, if b then 1 else 0]
  | int32 n => 2 :: littleEndian 4 n.toUInt32.toNat
  | int64 n => 3 :: littleEndian 8 n.toUInt64.toNat
  | uint32 n => 4 :: littleEndian 4 n.toNat
  | uint64 n => 5 :: littleEndian 8 n.toNat
  | float x => 6 :: littleEndian 4 x.toBits.toNat
  | double x => 7 :: littleEndian 8 x.toBits.toNat
  | decimal d => 8 :: decimalBytes d
  | string s => 9 :: s.toUTF8.data.toList
  | object ref => 10 :: littleEndian 8 ref.id

def fingerprint (v : Value) : Fingerprint :=
  .ofBytes v.bytes

end Value

end SlotScript
