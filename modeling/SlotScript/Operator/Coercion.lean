import SlotScript.Decimal.OfBinary
import SlotScript.Decimal.Text
import SlotScript.Error
import SlotScript.Value.Basic

/-!
# Coercions

How a value is taken as a number of some kind, and as a truth value. Null counts as zero and a
truth value as zero or one; text is read after trimming; objects are not numbers. Reals become
integers by rounding half to even.
-/

namespace SlotScript.Value

/-- The integers that text and reals may pass through on the way to an integral kind. -/
def isWide (n : Int) : Bool := -(twoTo 127 : Int) ≤ n && n < twoTo 127

/-- Reals at or past this bound are too large for every integral kind. -/
def realLimit : Float := 1.7e38

def integralOfReal (x : Float) (target : NumericKind) : Except RuntimeError Int :=
  match (BinaryReading.ofDouble x).round? with
  | some n => if realLimit ≤ x.abs then .error (.overflow target) else .ok n
  | none => .error (.overflow target)

/-- The integer a value stands for; `target` is the kind an error names. -/
def integral (v : Value) (target : NumericKind) : Except RuntimeError Int :=
  match v with
  | null => .ok 0
  | bool b => .ok (if b then 1 else 0)
  | int32 n => .ok n.toInt
  | int64 n => .ok n.toInt
  | uint32 n => .ok n.toNat
  | uint64 n => .ok n.toNat
  | float x => integralOfReal (BinaryReading.ofSingle x).toDouble target
  | double x => integralOfReal x target
  | decimal d => .ok d.round
  | string s =>
    match (Number.integer? (Text.trim s.toList)).filter isWide with
    | some n => .ok n
    | none => .error (.conversion v.kind target)
  | object _ => .error (.conversion v.kind target)

/-- The integer, if it is one of an integral kind. -/
def integralOf (v : Value) (target : NumericKind) : Except RuntimeError Int := do
  let n ← v.integral target
  if target.holds n then return n else throw (.overflow target)

def toInt32 (v : Value) : Except RuntimeError Int32 :=
  Int32.ofInt <$> v.integralOf .int32

def toInt64 (v : Value) : Except RuntimeError Int64 :=
  Int64.ofInt <$> v.integralOf .int64

def toUInt32 (v : Value) : Except RuntimeError UInt32 :=
  (UInt32.ofNat ·.toNat) <$> v.integralOf .uint32

def toUInt64 (v : Value) : Except RuntimeError UInt64 :=
  (UInt64.ofNat ·.toNat) <$> v.integralOf .uint64

def toDouble (v : Value) : Except RuntimeError Float :=
  match v with
  | null => .ok 0
  | bool b => .ok (if b then 1 else 0)
  | int32 n => .ok (BinaryReading.ofInt n.toInt).toDouble
  | int64 n => .ok (BinaryReading.ofInt n.toInt).toDouble
  | uint32 n => .ok (BinaryReading.ofInt n.toNat).toDouble
  | uint64 n => .ok (BinaryReading.ofInt n.toNat).toDouble
  | float x => .ok (BinaryReading.ofSingle x).toDouble
  | double x => .ok x
  | decimal d => .ok d.toDouble
  | string s =>
    match Number.double? (Text.trim s.toList) with
    | some x => .ok x
    | none => .error (.conversion v.kind .double)
  | object _ => .error (.conversion v.kind .double)

/-- Text is read at single precision at once; all else passes through double precision. -/
def toSingle (v : Value) : Except RuntimeError Float32 :=
  match v with
  | float x => .ok x
  | string s =>
    match Number.single? (Text.trim s.toList) with
    | some x => .ok x
    | none => .error (.conversion v.kind .float)
  | _ => (fun x => (BinaryReading.ofDouble x).toSingle) <$> v.toDouble

/-- The decimal of an integer of a numeric kind; none of them is out of range. -/
def decimalOfInt (n : Int) : Except RuntimeError Decimal :=
  match Decimal.ofInt? n with
  | some d => .ok d
  | none => .error (.overflow .decimal)

def toDecimal (v : Value) : Except RuntimeError Decimal :=
  match v with
  | null => .ok .zero
  | bool b => decimalOfInt (if b then 1 else 0)
  | int32 n => decimalOfInt n.toInt
  | int64 n => decimalOfInt n.toInt
  | uint32 n => decimalOfInt n.toNat
  | uint64 n => decimalOfInt n.toNat
  | float x =>
    match Decimal.ofSingle? x with
    | some d => .ok d
    | none => .error (.overflow .decimal)
  | double x =>
    match Decimal.ofDouble? x with
    | some d => .ok d
    | none => .error (.overflow .decimal)
  | decimal d => .ok d
  | string s =>
    match Decimal.ofText? (Text.trim s.toList) with
    | some d => .ok d
    | none => .error (.conversion v.kind .decimal)
  | object _ => .error (.conversion v.kind .decimal)

/-- The truth value used by conditions and by the logical operators. -/
def toBool (v : Value) : Except RuntimeError Bool :=
  match v with
  | null => .ok false
  | bool b => .ok b
  | int32 n => .ok (n != 0)
  | int64 n => .ok (n != 0)
  | uint32 n => .ok (n != 0)
  | uint64 n => .ok (n != 0)
  | float x => .ok (x != 0)
  | double x => .ok (x != 0)
  | decimal d => .ok !d.isZero
  | string s => .ok (Text.lower (Text.trim s.toList) = "true".toList)
  | object _ => .error (.booleanConversion v.kind)

end SlotScript.Value
