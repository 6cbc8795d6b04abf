import SlotScript.Number.Power

/-!
# Binary floating point

Reading and writing the interchange formats of binary floating point in exact arithmetic. A bit
pattern is read as a sign, a natural significand and a power of two; a fraction is written as the
nearest pattern, a tie going to the even significand.

Both directions work on natural numbers only, so a statement about them needs no fact about
machine arithmetic.
-/

namespace SlotScript

/-- A binary interchange format: the bits of the significand, its leading one included, and the
bits of the exponent field. -/
structure BinaryFormat where
  precision : Nat
  exponentBits : Nat

/-- What a bit pattern denotes; a finite one is `significand * 2 ^ exponent`. -/
inductive BinaryReading where
  | nan
  | infinite (negative : Bool)
  | finite (negative : Bool) (significand : Nat) (exponent : Int)

/-- The quotient rounded to the nearest natural number, a half going to the even neighbour. -/
def divideToEven (numerator denominator : Nat) : Nat :=
  let quotient := numerator / denominator
  let twice := 2 * (numerator % denominator)
  if twice > denominator ∨ (twice = denominator ∧ quotient % 2 = 1) then quotient + 1 else quotient

namespace BinaryFormat

def single : BinaryFormat := ⟨24, 8⟩
def double : BinaryFormat := ⟨53, 11⟩

/-- The exponent of the smallest positive number, which is a power of two. -/
def minExponent (format : BinaryFormat) : Int :=
  3 - (twoTo (format.exponentBits - 1) : Int) - format.precision

/-- The value of the last place of the fraction field, and so the weight of the exponent field. -/
def fractionCount (format : BinaryFormat) : Nat :=
  twoTo (format.precision - 1)

/-- The bit pattern of positive infinity, above every finite positive pattern. -/
def infinity (format : BinaryFormat) : Nat :=
  (twoTo format.exponentBits - 1) * format.fractionCount

/-- The weight of the sign bit. -/
def signPlace (format : BinaryFormat) : Nat :=
  twoTo format.exponentBits * format.fractionCount

def withSign (format : BinaryFormat) (negative : Bool) (magnitude : Nat) : Nat :=
  if negative then format.signPlace + magnitude else magnitude

def decode (format : BinaryFormat) (bits : Nat) : BinaryReading :=
  let negative := decide (format.signPlace ≤ bits)
  let magnitude := bits % format.signPlace
  let field := magnitude / format.fractionCount
  let fraction := magnitude % format.fractionCount
  if format.infinity ≤ magnitude then
    if fraction = 0 then .infinite negative else .nan
  else if field = 0 then .finite negative fraction format.minExponent
  else .finite negative (format.fractionCount + fraction) (format.minExponent + (field - 1))

/-- The exponent at which `numerator / denominator` has a significand of full width, or the least
exponent where the format has no such one. -/
def exponentOf (format : BinaryFormat) (numerator denominator : Nat) : Int :=
  let guess : Int := numerator.log2 - denominator.log2 - (format.precision - 1)
  let shifted := numerator * twoTo (-guess).toNat / (denominator * twoTo guess.toNat)
  max format.minExponent (if shifted < format.fractionCount then guess - 1 else guess)

/-- The bit pattern nearest to the fraction; past the largest number stands infinity. A
significand that rounds up to the next power of two carries into the exponent field, which is the
pattern of that power. -/
def nearest (format : BinaryFormat) (negative : Bool) (numerator denominator : Nat) : Nat :=
  if numerator = 0 then format.withSign negative 0
  else
    let exponent := format.exponentOf numerator denominator
    let significand := divideToEven (numerator * twoTo (-exponent).toNat)
      (denominator * twoTo exponent.toNat)
    let magnitude := (exponent - format.minExponent).toNat * format.fractionCount + significand
    format.withSign negative (min magnitude format.infinity)

/-- The bit pattern nearest to `significand * 10 ^ exponent`. A number whose decimal exponent is
out of every format's reach is settled without computing the power of ten. -/
def nearestDecimal (format : BinaryFormat) (negative : Bool) (significand : Nat)
    (exponent : Int) : Nat :=
  let top : Int := (Nat.toDigits 10 significand).length + exponent
  if significand = 0 ∨ top < -400 then format.withSign negative 0
  else if top > 400 then format.withSign negative format.infinity
  else format.nearest negative (significand * tenTo exponent.toNat) (tenTo (-exponent).toNat)

end BinaryFormat

namespace BinaryReading

/-- The nearest integer, a half going to the even neighbour; `none` where there is none. -/
def round? : BinaryReading → Option Int
  | .nan | .infinite _ => none
  | .finite negative significand exponent =>
    let magnitude := divideToEven (significand * twoTo exponent.toNat) (twoTo (-exponent).toNat)
    some (if negative then -magnitude else magnitude)

/-- The bit pattern of `format` nearest to what was read. -/
def encode (format : BinaryFormat) : BinaryReading → Nat
  | .nan => format.infinity + format.fractionCount / 2
  | .infinite negative => format.withSign negative format.infinity
  | .finite negative significand exponent =>
    format.nearest negative (significand * twoTo exponent.toNat) (twoTo (-exponent).toNat)

def ofDouble (x : Float) : BinaryReading :=
  BinaryFormat.double.decode x.toBits.toNat

def ofSingle (x : Float32) : BinaryReading :=
  BinaryFormat.single.decode x.toBits.toNat

def toDouble (reading : BinaryReading) : Float :=
  Float.ofBits (UInt64.ofNat (reading.encode .double))

def toSingle (reading : BinaryReading) : Float32 :=
  Float32.ofBits (UInt32.ofNat (reading.encode .single))

/-- The reading of an integer, which every format then rounds to. -/
def ofInt (n : Int) : BinaryReading :=
  .finite (n < 0) n.natAbs 0

end BinaryReading

end SlotScript
