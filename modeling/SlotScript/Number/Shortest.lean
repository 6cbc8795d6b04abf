import SlotScript.Number.Binary

/-!
# Shortest decimal text of a binary number

Among the decimals that read back as a given number, the ones with the fewest digits are taken,
and of these the nearest; an exact tie goes up. The text is positional whatever the size, without
a fraction where there is none.

The decimals that read back form an interval around the number, half way to each neighbour. If an
`n`-digit decimal lies in it, so does one of the two `n`-digit decimals next to the number, so only
those two are tried.
-/

namespace SlotScript

/-- A decimal `digits * 10 ^ exponent`. -/
structure ScaledDigits where
  digits : Nat
  exponent : Int
deriving DecidableEq

/-- The decimals that read back as a number: from `low / denominator` to `high / denominator`
around `value / denominator`, the ends included or not. -/
structure RoundingInterval where
  low : Nat
  value : Nat
  high : Nat
  denominator : Nat
  closed : Bool

namespace RoundingInterval

/-- The interval of the positive number `significand * 2 ^ exponent`. Below a power of two the
numbers lie twice as close. -/
def around (format : BinaryFormat) (significand : Nat) (exponent : Int) : RoundingInterval :=
  let atPower := significand = format.fractionCount ∧ format.minExponent < exponent
  let scale := twoTo (exponent - 2).toNat
  { low := (4 * significand - if atPower then 1 else 2) * scale
    value := 4 * significand * scale
    high := (4 * significand + 2) * scale
    denominator := twoTo (2 - exponent).toNat
    closed := significand % 2 = 0 }

/-- Whether `candidate` lies in the interval scaled by `factor / divisor`. -/
def holds (interval : RoundingInterval) (factor divisor candidate : Nat) : Bool :=
  let place := candidate * interval.denominator * divisor
  let low := interval.low * factor
  let high := interval.high * factor
  if interval.closed then low ≤ place && place ≤ high else low < place && place < high

/-- The number of digits before the point, or minus the number of zeros after it: the least `k`
with the value below `10 ^ k`. Scaling by a large power of ten first keeps the count positive. -/
def magnitude (interval : RoundingInterval) : Int :=
  (Nat.toDigits 10 (interval.value * tenTo 400 / interval.denominator)).length - 400

/-- The nearer of the two decimals of `count` digits next to the value that read back, if any. -/
def ofCount? (interval : RoundingInterval) (count : Nat) : Option ScaledDigits :=
  let exponent := interval.magnitude - count
  let factor := tenTo (-exponent).toNat
  let divisor := tenTo exponent.toNat
  let unit := interval.denominator * divisor
  let below := interval.value * factor / unit
  let rest := interval.value * factor % unit
  let nearer := if 2 * rest < unit then [below, below + 1] else [below + 1, below]
  (nearer.find? (interval.holds factor divisor)).map fun digits =>
    if digits = tenTo count then ⟨1, exponent + count⟩ else ⟨digits, exponent⟩

/-- The fewest digits that read back. Seventeen always suffice, so the last alternative is never
taken. -/
def shortest (interval : RoundingInterval) : ScaledDigits :=
  ((List.range 17).findSome? fun count => interval.ofCount? (count + 1)).getD
    ⟨interval.value / interval.denominator, 0⟩

end RoundingInterval

namespace ScaledDigits

/-- The positional text: zeros fill the places between the digits and the point. -/
def text (scaled : ScaledDigits) : List Char :=
  let digits := Nat.toDigits 10 scaled.digits
  let places := (-scaled.exponent).toNat
  if places = 0 then digits ++ List.replicate scaled.exponent.toNat '0'
  else
    let padded := List.replicate (places + 1 - digits.length) '0' ++ digits
    padded.take (padded.length - places) ++ '.' :: padded.drop (padded.length - places)

end ScaledDigits

/-- The shortest text of what was read from a pattern of `format`. -/
def BinaryReading.text (format : BinaryFormat) : BinaryReading → String
  | .nan => "NaN"
  | .infinite negative => if negative then "-inf" else "inf"
  | .finite negative significand exponent =>
    let digits :=
      if significand = 0 then ['0']
      else (RoundingInterval.around format significand exponent).shortest.text
    String.ofList (if negative then '-' :: digits else digits)

end SlotScript
