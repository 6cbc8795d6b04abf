import SlotScript.Text.CharClass
import SlotScript.Number.Binary

/-!
# Reading numbers from text

Integers are an optional sign and decimal digits. Reals also take a fraction, of which either side
of the point may be missing, an exponent, and the names of the infinities and of the undefined
number. A text that is not wholly of this form denotes nothing.
-/

namespace SlotScript.Number

open SlotScript.Text

/-- Takes one leading sign; a minus makes the rest negative. -/
def splitSign : List Char → Bool × List Char
  | '-' :: rest => (true, rest)
  | '+' :: rest => (false, rest)
  | text => (false, text)

/-- The natural number the digits denote; at least one digit is required. -/
def natural? (radix : Nat) (digits : List Char) : Option Nat :=
  if digits.isEmpty then none else number? radix digits

def integer? (text : List Char) : Option Int :=
  let (negative, digits) := splitSign text
  (natural? 10 digits).map fun n => if negative then -n else n

/-- The digits at the front of the text, and what follows them. -/
def spanDigits (text : List Char) : List Char × List Char :=
  (text.takeWhile (isDigit 10), text.dropWhile (isDigit 10))

/-- The exponent that ends a real: nothing, or a mark and an integer. -/
def exponent? : List Char → Option Int
  | [] => some 0
  | mark :: rest => if mark = 'e' ∨ mark = 'E' then integer? rest else none

/-- Digits with an optional fraction and exponent, as significand and decimal exponent. -/
def scaled? (text : List Char) : Option (Nat × Int) :=
  let (whole, rest) := spanDigits text
  let (fraction, rest) :=
    match rest with
    | '.' :: rest => spanDigits rest
    | rest => ([], rest)
  do
    let significand ← natural? 10 (whole ++ fraction)
    let exponent ← exponent? rest
    return (significand, exponent - fraction.length)

/-- The pattern of `format` a text denotes. -/
def real? (format : BinaryFormat) (text : List Char) : Option Nat :=
  let (negative, body) := splitSign text
  let name := String.ofList (lower body)
  if name = "inf" ∨ name = "infinity" then some (format.withSign negative format.infinity)
  else if name = "nan" then some (BinaryReading.nan.encode format)
  else (scaled? body).map fun (significand, exponent) =>
    format.nearestDecimal negative significand exponent

def double? (text : List Char) : Option Float :=
  (real? .double text).map fun bits => Float.ofBits (UInt64.ofNat bits)

def single? (text : List Char) : Option Float32 :=
  (real? .single text).map fun bits => Float32.ofBits (UInt32.ofNat bits)

end SlotScript.Number
