import SlotScript.Decimal.Basic

/-!
# Decimals from binary numbers

A binary number is turned into a decimal by moving its powers of two and five one at a time, so
that the mantissa never leaves its range. The digits that carry no information at the precision of
the source are then rounded away, one at a time, and trailing zeros dropped. Numbers out of range,
infinities and the undefined number have no decimal.
-/

namespace SlotScript.Decimal

/-- A number `bits * 10 ^ tens`, while some powers of two still wait to be moved. -/
structure Shifting where
  bits : Nat
  tens : Int

namespace Shifting

/-- One negative power of two becomes a power of ten and a factor five. -/
def halve (s : Shifting) : Shifting :=
  if s.bits % 2 = 0 then ⟨s.bits / 2, s.tens + 1⟩
  else if 5 * s.bits < mantissaLimit then ⟨5 * s.bits, s.tens⟩
  else ⟨s.bits / 2, s.tens + 1⟩

/-- One positive power of two, `left` of which wait, is taken into the mantissa while there is
room; later it becomes a power of ten over a factor five. -/
def double? (left : Nat) (s : Shifting) : Option Shifting :=
  if s.bits < mantissaLimit / 2 then some ⟨2 * s.bits, s.tens - 1⟩
  else if (left : Int) < 2 * s.tens then none
  else some ⟨s.bits / 5, s.tens⟩

def doubleAll? : Nat → Shifting → Option Shifting
  | 0, s => some s
  | left + 1, s => s.double? (left + 1) >>= doubleAll? left

/-- Powers of ten before the point go into the mantissa. -/
def raise? : Nat → Shifting → Option Shifting
  | 0, s => some s
  | steps + 1, s =>
    if s.tens ≤ 0 then some s
    else if 10 * s.bits < mantissaLimit then raise? steps ⟨10 * s.bits, s.tens - 1⟩
    else none

/-- Rounds away one digit. A mantissa that vanishes needs no powers of ten any more. -/
def dropDigit (vanishing : Bool) (s : Shifting) : Shifting :=
  let bits := s.bits / 10
  if vanishing ∧ bits = 0 then ⟨0, 0⟩
  else ⟨bits + if 5 ≤ s.bits % 10 then 1 else 0, s.tens + 1⟩

/-- Repeats a step while its condition holds, at most `steps` times. -/
def repeatWhile (condition : Shifting → Bool) (step : Shifting → Shifting) :
    Nat → Shifting → Shifting
  | 0, s => s
  | steps + 1, s => if condition s then repeatWhile condition step steps (step s) else s

/-- Brings the number of fraction digits into range, then to the precision of the source. -/
def narrow (precision : Nat) (s : Shifting) : Shifting :=
  let steps := s.tens.natAbs
  let s := repeatWhile (·.tens < -28) (dropDigit true) steps s
  let s := repeatWhile (fun s => s.tens < 0 && twoTo precision ≤ s.bits) (dropDigit false) steps s
  repeatWhile (fun s => s.tens < 0 && s.bits % 10 = 0) (fun s => ⟨s.bits / 10, s.tens + 1⟩) steps s

end Shifting

/-- The decimal of what was read from a binary pattern, with a mantissa of at most `precision` bits
as long as there are fraction digits to round away. -/
def ofReading? (precision : Nat) : BinaryReading → Option Decimal
  | .nan | .infinite _ => none
  | .finite negative significand exponent =>
    if significand = 0 then some { zero with negative }
    else do
      let start : Shifting := ⟨significand, exponent⟩
      let moved ←
        if exponent < 0 then some ((List.range exponent.natAbs).foldl (fun s _ => s.halve) start)
        else start.doubleAll? exponent.natAbs
      let raised ← moved.raise? moved.tens.toNat
      let narrowed := raised.narrow precision
      make? negative narrowed.bits (-narrowed.tens).toNat

def ofDouble? (x : Float) : Option Decimal :=
  ofReading? 52 (.ofDouble x)

def ofSingle? (x : Float32) : Option Decimal :=
  ofReading? 24 (.ofSingle x)

end SlotScript.Decimal
