import SlotScript.Number.Binary

/-!
# Decimals

A decimal is a sign, a mantissa below `2 ^ 96` and a scale of at most 28 fraction digits. The scale
is part of the value as it is shown, so `1.50` and `1.5` are different decimals that compare as
equal, and a zero may carry a minus.

Results that are too wide are fitted: the fewest last digits are dropped that bring mantissa and
scale back into range, rounding half to even. The bounds are kept by the type, so no operation can
return a decimal that its text could not be read from.
-/

namespace SlotScript

/-- One past the largest mantissa. -/
def Decimal.mantissaLimit : Nat := twoTo 96

def Decimal.maxScale : Nat := 28

/-- The number `mantissa / 10 ^ scale`, negated if `negative`. -/
structure Decimal where
  negative : Bool
  mantissa : Nat
  scale : Nat
  mantissa_lt : mantissa < Decimal.mantissaLimit
  scale_le : scale ≤ Decimal.maxScale
deriving DecidableEq

namespace Decimal

/-- The decimal of these parts, if they are in range. -/
def make? (negative : Bool) (mantissa scale : Nat) : Option Decimal :=
  if h : mantissa < mantissaLimit ∧ scale ≤ maxScale then
    some ⟨negative, mantissa, scale, h.1, h.2⟩
  else none

def zero : Decimal := ⟨false, 0, 0, by decide, by decide⟩

instance : Inhabited Decimal := ⟨zero⟩

def isZero (d : Decimal) : Bool := d.mantissa = 0

/-- Unary minus turns the sign of every decimal, zero included. -/
def negate (d : Decimal) : Decimal := { d with negative := !d.negative }

/-- An integer without fraction digits, if it is in range. -/
def ofInt? (n : Int) : Option Decimal := make? (n < 0) n.natAbs 0

/-- The mantissa with its sign. -/
def signed (d : Decimal) : Int := if d.negative then -d.mantissa else d.mantissa

/-- The mantissa at a scale at least as large as the decimal's own. -/
def alignedTo (d : Decimal) (scale : Nat) : Int := d.signed * tenTo (scale - d.scale)

/-- Order by value: both sides at the larger scale. -/
def compare (a b : Decimal) : Ordering :=
  Ord.compare (a.alignedTo (max a.scale b.scale)) (b.alignedTo (max a.scale b.scale))

/-- Equality by value. -/
def equal (a b : Decimal) : Bool := a.compare b == .eq

/-- The nearest integer, a half going to the even neighbour. -/
def round (d : Decimal) : Int :=
  let magnitude := divideToEven d.mantissa (tenTo d.scale)
  if d.negative then -magnitude else magnitude

/-- The binary number nearest to the value. -/
def toDouble (d : Decimal) : Float :=
  Float.ofBits (UInt64.ofNat (BinaryFormat.double.nearest d.negative d.mantissa (tenTo d.scale)))

/-- The mantissa and scale left when the fewest digits are dropped that bring a wide mantissa into
range; `none` if that needs more digits than there are behind the point. -/
def fit? (mantissa scale : Nat) : Option (Nat × Nat) := do
  let inRange (drop : Nat) : Bool :=
    scale ≤ maxScale + drop && mantissa / tenTo drop < mantissaLimit
  let drop ← (List.range 64).find? inRange
  let rounded := divideToEven mantissa (tenTo drop)
  let (mantissa, drop) :=
    if rounded < mantissaLimit then (rounded, drop) else (divideToEven rounded 10, drop + 1)
  if drop ≤ scale then some (mantissa, scale - drop) else none

/-- The decimal nearest to a signed wide mantissa at some scale. A zero has no sign. -/
def fitSigned? (value : Int) (scale : Nat) : Option Decimal := do
  let (mantissa, scale) ← fit? value.natAbs scale
  make? (value < 0 && mantissa ≠ 0) mantissa scale

end Decimal

end SlotScript
