import SlotScript.Operator.Coercion

/-!
# Arithmetic and bitwise operators

Arithmetic runs at the higher kind of the two operands, or on 32-bit integers if neither is a
number. Integers wrap around at the width of their kind; a quotient that leaves it is an overflow.
Bitwise operators run on truth values if both sides are such, and on 64-bit words otherwise.
-/

namespace SlotScript

inductive Arithmetic where
  | add | subtract | multiply | divide
deriving DecidableEq

inductive Bitwise where
  | and | or | xor
deriving DecidableEq

namespace Value

/-- The kind at which an operation on two values runs. -/
def promoted (a b : Value) : NumericKind :=
  match a.numericKind?, b.numericKind? with
  | some ka, some kb => ka.max kb
  | some kind, none => kind
  | none, some kind => kind
  | none, none => .int32

def arithmeticInt32 (op : Arithmetic) (a b : Int32) : Except RuntimeError Int32 :=
  match op with
  | .add => .ok (a + b)
  | .subtract => .ok (a - b)
  | .multiply => .ok (a * b)
  | .divide =>
    if b = 0 then .error .divideByZero
    else if a = Int32.minValue ∧ b = -1 then .error (.overflow .int32)
    else .ok (a / b)

def arithmeticInt64 (op : Arithmetic) (a b : Int64) : Except RuntimeError Int64 :=
  match op with
  | .add => .ok (a + b)
  | .subtract => .ok (a - b)
  | .multiply => .ok (a * b)
  | .divide =>
    if b = 0 then .error .divideByZero
    else if a = Int64.minValue ∧ b = -1 then .error (.overflow .int64)
    else .ok (a / b)

def arithmeticUInt32 (op : Arithmetic) (a b : UInt32) : Except RuntimeError UInt32 :=
  match op with
  | .add => .ok (a + b)
  | .subtract => .ok (a - b)
  | .multiply => .ok (a * b)
  | .divide => if b = 0 then .error .divideByZero else .ok (a / b)

def arithmeticUInt64 (op : Arithmetic) (a b : UInt64) : Except RuntimeError UInt64 :=
  match op with
  | .add => .ok (a + b)
  | .subtract => .ok (a - b)
  | .multiply => .ok (a * b)
  | .divide => if b = 0 then .error .divideByZero else .ok (a / b)

def arithmeticSingle (op : Arithmetic) (a b : Float32) : Except RuntimeError Float32 :=
  match op with
  | .add => .ok (a + b)
  | .subtract => .ok (a - b)
  | .multiply => .ok (a * b)
  | .divide => if b == 0 then .error .divideByZero else .ok (a / b)

def arithmeticDouble (op : Arithmetic) (a b : Float) : Except RuntimeError Float :=
  match op with
  | .add => .ok (a + b)
  | .subtract => .ok (a - b)
  | .multiply => .ok (a * b)
  | .divide => if b == 0 then .error .divideByZero else .ok (a / b)

/-- A decimal result, or an overflow where there is none. -/
def decimalResult : Option Decimal → Except RuntimeError Decimal
  | some d => .ok d
  | none => .error (.overflow .decimal)

def arithmeticDecimal (op : Arithmetic) (a b : Decimal) : Except RuntimeError Decimal :=
  match op with
  | .add => decimalResult (a.add? b)
  | .subtract => decimalResult (a.sub? b)
  | .multiply => decimalResult (a.mul? b)
  | .divide => if b.isZero then .error .divideByZero else decimalResult (a.div? b)

/-- Arithmetic on any two values. The left operand is coerced first. -/
def arithmetic (op : Arithmetic) (a b : Value) : Except RuntimeError Value :=
  match promoted a b with
  | .int32 => return .int32 (← arithmeticInt32 op (← a.toInt32) (← b.toInt32))
  | .uint32 => return .uint32 (← arithmeticUInt32 op (← a.toUInt32) (← b.toUInt32))
  | .int64 => return .int64 (← arithmeticInt64 op (← a.toInt64) (← b.toInt64))
  | .uint64 => return .uint64 (← arithmeticUInt64 op (← a.toUInt64) (← b.toUInt64))
  | .float => return .float (← arithmeticSingle op (← a.toSingle) (← b.toSingle))
  | .double => return .double (← arithmeticDouble op (← a.toDouble) (← b.toDouble))
  | .decimal => return .decimal (← arithmeticDecimal op (← a.toDecimal) (← b.toDecimal))

def bitwiseBool : Bitwise → Bool → Bool → Bool
  | .and, a, b => a && b
  | .or, a, b => a || b
  | .xor, a, b => a ^^ b

def bitwiseUInt64 : Bitwise → UInt64 → UInt64 → UInt64
  | .and, a, b => a &&& b
  | .or, a, b => a ||| b
  | .xor, a, b => a ^^^ b

def bitwiseInt64 : Bitwise → Int64 → Int64 → Int64
  | .and, a, b => a &&& b
  | .or, a, b => a ||| b
  | .xor, a, b => a ^^^ b

def isUnsigned (v : Value) : Bool :=
  v.numericKind?.any NumericKind.isUnsigned

def bitwise (op : Bitwise) (a b : Value) : Except RuntimeError Value :=
  match a, b with
  | bool a, bool b => .ok (bool (bitwiseBool op a b))
  | a, b =>
    if a.isUnsigned || b.isUnsigned then
      return uint64 (bitwiseUInt64 op (← a.toUInt64) (← b.toUInt64))
    else return int64 (bitwiseInt64 op (← a.toInt64) (← b.toInt64))

/-- The value one above, or one below if `down`. Null counts as zero; unsigned words, truth values,
text and objects have no neighbours. -/
def step (down : Bool) (v : Value) : Except RuntimeError Value :=
  match v with
  | null => .ok (int32 (if down then -1 else 1))
  | int32 n => .ok (int32 (if down then n - 1 else n + 1))
  | int64 n => .ok (int64 (if down then n - 1 else n + 1))
  | float x => .ok (float (if down then x - 1 else x + 1))
  | double x => .ok (double (if down then x - 1 else x + 1))
  | decimal d => return decimal (← decimalResult (d.add? (← decimalOfInt (if down then -1 else 1))))
  | v => .error (.unsupportedOperand (if down then .decrement else .increment) v.kind)

def increment (v : Value) : Except RuntimeError Value := v.step false

def decrement (v : Value) : Except RuntimeError Value := v.step true

/-- Unary minus. -/
def negate (v : Value) : Except RuntimeError Value :=
  match v with
  | null => .ok (int32 0)
  | int32 n => .ok (int32 (-n))
  | int64 n => .ok (int64 (-n))
  | float x => .ok (float (-x))
  | double x => .ok (double (-x))
  | decimal d => .ok (decimal d.negate)
  | v => .error (.unsupportedOperand .negate v.kind)

def bitwiseNot (v : Value) : Except RuntimeError Value :=
  match v with
  | null => .ok (int32 0)
  | bool b => .ok (bool !b)
  | int32 n => .ok (int32 (~~~n))
  | int64 n => .ok (int64 (~~~n))
  | uint32 n => .ok (uint32 (~~~n))
  | uint64 n => .ok (uint64 (~~~n))
  | v => .error (.unsupportedOperand .bitwiseNot v.kind)

end Value

end SlotScript
