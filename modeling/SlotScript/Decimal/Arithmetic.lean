import SlotScript.Decimal.Basic

/-!
# Decimal arithmetic

Sums and products are exact and then fitted. A quotient that does not end is extended by up to nine
digits at a time until the mantissa is full, and then loses the trailing zeros it gained, but only
in the steps of eight, four, two and one digit. All four operations are `none` where the result is
out of range.
-/

namespace SlotScript.Decimal

/-- A zero operand leaves the other one as it is, its scale included. -/
def add? (a b : Decimal) : Option Decimal :=
  if a.isZero then some b
  else if b.isZero then some a
  else
    let scale := max a.scale b.scale
    fitSigned? (a.alignedTo scale + b.alignedTo scale) scale

def sub? (a b : Decimal) : Option Decimal :=
  if a.isZero then some (if b.isZero then b else b.negate)
  else if b.isZero then some a
  else
    let scale := max a.scale b.scale
    fitSigned? (a.alignedTo scale - b.alignedTo scale) scale

/-- Mantissas below this bound are multiplied in one machine word. -/
def wordLimit : Nat := twoTo 32

/-- The summed scale past which a product of two words is zero outright. -/
def maxWordScale : Nat := 47

/-- A product that vanishes keeps its sign only if one of the mantissas is wider than a word. -/
def mul? (a b : Decimal) : Option Decimal :=
  let scale := a.scale + b.scale
  let negative := a.negative ^^ b.negative
  let narrow := a.mantissa < wordLimit && b.mantissa < wordLimit
  if a.isZero || b.isZero || (narrow && maxWordScale < scale) then some zero
  else do
    let (mantissa, scale) ← fit? (a.mantissa * b.mantissa) scale
    make? (negative && !(narrow && mantissa = 0)) mantissa scale

/-- A quotient under construction: its digits so far, the remainder, and the scale, which is below
zero while digits before the point are missing. -/
structure Quotient where
  digits : Nat
  rest : Nat
  scale : Int

namespace Quotient

/-- Drops the last digit of a mantissa that became too wide; what was cut off below it breaks a
tie upward. -/
def unscale? (digits : Nat) (sticky : Bool) (scale : Int) : Option (Nat × Int) :=
  if scale < 1 then none
  else
    let last := digits % 10
    let up := 5 < last || (last = 5 && (sticky || digits / 10 % 2 = 1))
    some (digits / 10 + if up then 1 else 0, scale - 1)

/-- The digits and the scale, brought back into range if the mantissa is full. -/
def settle? (digits : Nat) (sticky : Bool) (scale : Int) : Option (Nat × Int) :=
  if digits < mantissaLimit then some (digits, scale) else unscale? digits sticky scale

/-- The most digits, up to nine, that can be appended. -/
def room (quotient : Quotient) : Nat :=
  let most := min 9 (maxScale - quotient.scale).toNat
  ((List.range (most + 1)).reverse.find? fun count =>
    quotient.digits * tenTo count < mantissaLimit).getD 0

/-- Appends digits until the division is exact or there is no room. The first component of the
result tells whether a remainder was ever left. Every round but the last appends a digit, so the
count of rounds is bounded by the range of scales. -/
def extend? (divisor : Nat) : Nat → Bool → Quotient → Option (Bool × Nat × Int)
  | 0, _, _ => none
  | rounds + 1, inexact, quotient =>
    let append (count : Nat) (inexact : Bool) : Option (Bool × Nat × Int) :=
      let wide := quotient.digits * tenTo count
      if mantissaLimit ≤ wide then none
      else
        let shifted := quotient.rest * tenTo count
        let digits := wide + shifted / divisor
        let rest := shifted % divisor
        if digits < mantissaLimit then
          extend? divisor rounds inexact ⟨digits, rest, quotient.scale + count⟩
        else
          (unscale? digits (rest ≠ 0) (quotient.scale + count)).map (inexact, ·)
    if quotient.rest = 0 then
      if 0 ≤ quotient.scale then some (inexact, quotient.digits, quotient.scale)
      else append (min 9 (-quotient.scale).toNat) inexact
    else
      let count := quotient.room
      if count < 9 ∧ quotient.scale + count < 0 then none
      else if count = 0 then
        let rounded := divideToEven (quotient.digits * divisor + quotient.rest) divisor
        (settle? rounded true quotient.scale).map (true, ·)
      else append count true

end Quotient

/-- Drops `count` digits if they are zeros behind the point and the mantissa is a multiple of the
power of two that goes with them. -/
def dropZeros (count modulus : Nat) (parts : Nat × Nat) : Nat × Nat :=
  let (mantissa, scale) := parts
  if mantissa % modulus = 0 ∧ count ≤ scale ∧ mantissa % tenTo count = 0 then
    (mantissa / tenTo count, scale - count)
  else parts

/-- Removes the trailing zeros of an extended quotient: eight at a time while that is possible,
then at most four, two and one. Three rounds of eight exhaust the scale. -/
def trimZeros (parts : Nat × Nat) : Nat × Nat :=
  let eight := dropZeros 8 wordLimit
  dropZeros 1 2 (dropZeros 2 4 (dropZeros 4 16 (eight (eight (eight parts)))))

/-- The quotient by a divisor that is not zero. -/
def div? (a b : Decimal) : Option Decimal :=
  if a.isZero then some zero
  else do
    let start : Quotient :=
      ⟨a.mantissa / b.mantissa, a.mantissa % b.mantissa, (a.scale : Int) - b.scale⟩
    let (inexact, mantissa, scale) ← start.extend? b.mantissa 64 false
    let (mantissa, scale) :=
      if inexact then trimZeros (mantissa, scale.toNat) else (mantissa, scale.toNat)
    make? ((a.negative ^^ b.negative) && mantissa ≠ 0) mantissa scale

end SlotScript.Decimal
