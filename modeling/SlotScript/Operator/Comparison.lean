import SlotScript.Operator.Coercion

/-!
# Equality and order of values

Two numbers are equal if they are so at the higher of their kinds. Identity asks for the same kind
as well, so an integer and a real are never identical. The order puts null below everything else
and the undefined number below every other real.
-/

namespace SlotScript.Value

/-- Equality at a numeric kind of two values that may be taken as numbers of it. -/
def equalAt (kind : NumericKind) (a b : Value) : Bool :=
  match kind with
  | .decimal =>
    match a.toDecimal, b.toDecimal with
    | .ok x, .ok y => x.equal y
    | _, _ => false
  | .float | .double =>
    match a.toDouble, b.toDouble with
    | .ok x, .ok y => x == y
    | _, _ => false
  | kind =>
    match a.integral kind, b.integral kind with
    | .ok x, .ok y => x == y
    | _, _ => false

/-- The equality of the `==` operator. -/
def equal (a b : Value) : Bool :=
  match a, b with
  | null, null => true
  | bool x, bool y => x == y
  | string x, string y => x == y
  | object x, object y => x.id == y.id
  | a, b =>
    match a.numericKind?, b.numericKind? with
    | some ka, some kb => equalAt (ka.max kb) a b
    | _, _ => false

/-- Equality of values of one kind. -/
def identical (a b : Value) : Bool :=
  a.kind = b.kind && a.equal b

/-- Order of reals; the undefined number comes first and equals itself. -/
def compareReals (x y : Float) : Ordering :=
  match x.isNaN, y.isNaN with
  | true, true => .eq
  | true, false => .lt
  | false, true => .gt
  | false, false => if x < y then .lt else if y < x then .gt else .eq

/-- The order of the comparison operators. It runs on decimals if one side is a decimal, else on
reals if one side is real, else on unsigned words if one side is unsigned, else on signed ones. -/
def compare (a b : Value) : Except RuntimeError Ordering :=
  match a.isNull, b.isNull with
  | true, true => .ok .eq
  | true, false => .ok .lt
  | false, true => .ok .gt
  | false, false =>
    let some? (p : NumericKind → Bool) : Bool :=
      a.numericKind?.any p || b.numericKind?.any p
    if some? (· = .decimal) then return (← a.toDecimal).compare (← b.toDecimal)
    else if some? NumericKind.isReal then return compareReals (← a.toDouble) (← b.toDouble)
    else if some? NumericKind.isUnsigned then return Ord.compare (← a.toUInt64) (← b.toUInt64)
    else return Ord.compare (← a.toInt64) (← b.toInt64)

end SlotScript.Value
