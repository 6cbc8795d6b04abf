import SlotScript.Decimal.Arithmetic
import SlotScript.Number.Text

/-!
# Decimal text

A decimal is written with as many fraction digits as its scale says. Reading takes a plain number,
rounding what does not fit behind the point, or a number with a power of ten.
-/

namespace SlotScript.Decimal

open SlotScript.Text

/-- The digits with the point before the last `scale` of them, padded with zeros in front. -/
def text (d : Decimal) : String :=
  let digits := Nat.toDigits 10 d.mantissa
  let padded := List.replicate (d.scale + 1 - digits.length) '0' ++ digits
  let whole := padded.take (padded.length - d.scale)
  let fraction := padded.drop (padded.length - d.scale)
  let body := if d.scale = 0 then whole else whole ++ '.' :: fraction
  String.ofList (if d.negative then '-' :: body else body)

/-- A decimal being read: what its digits give so far, whether the point and a digit were seen. -/
structure Reading where
  mantissa : Nat := 0
  scale : Nat := 0
  pointSeen : Bool := false
  digitSeen : Bool := false

/-- Characters that may follow the last digit that counts. -/
def isTail (text : List Char) : Bool :=
  text.all fun c => isDigit 10 c || c = '_'

/-- Drops the digits that do not fit, of which `first` is the first, and rounds by it. A mantissa
that rounding makes too large gives up a fraction digit, and there is no number if it has none. -/
def Reading.cutAt? (reading : Reading) (first : Nat) : Option (Nat × Nat) :=
  let mantissa := reading.mantissa + if 5 ≤ first then 1 else 0
  if mantissa < mantissaLimit then some (mantissa, reading.scale)
  else if reading.scale = 0 then none
  else some ((mantissa + 4) / 10, reading.scale - 1)

/-- A mantissa below this is narrow: with a digit more it still fits in 64 bits. -/
def narrowLimit : Nat := 1844674407370954906

/-- Whether an underscore ends the number here: the fraction is full, and its last digit found a
narrow mantissa. -/
def Reading.endsAtUnderscore (reading : Reading) : Bool :=
  reading.scale = maxScale && reading.mantissa / 10 < narrowLimit

/-- Reads the characters after the sign. Before the point every digit has to fit; behind it the
first digit that does not fit ends the number, though not the text. Underscores between digits say
nothing, unless one ends the number before that digit is seen. -/
def Reading.read? (reading : Reading) : List Char → Option (Nat × Nat)
  | [] => if reading.digitSeen then some (reading.mantissa, reading.scale) else none
  | c :: rest =>
    match digit? 10 c with
    | some digit =>
      let mantissa := reading.mantissa * 10 + digit
      if reading.pointSeen then
        if mantissa < mantissaLimit ∧ reading.scale < maxScale then
          read? { reading with mantissa, scale := reading.scale + 1, digitSeen := true } rest
        else if isTail rest then reading.cutAt? digit
        else none
      else if mantissa < mantissaLimit then
        read? { reading with mantissa, digitSeen := true } rest
      else none
    | none =>
      if c = '.' ∧ !reading.pointSeen then read? { reading with pointSeen := true } rest
      else if c = '_' ∧ reading.digitSeen then
        if !reading.endsAtUnderscore then read? reading rest
        else if isTail rest then some (reading.mantissa, reading.scale)
        else none
      else none

/-- Reads a number without an exponent. A zero keeps its scale but has no sign. -/
def ofPlain? (text : List Char) : Option Decimal := do
  let (negative, body) := Number.splitSign text
  let (mantissa, scale) ← Reading.read? {} body
  make? (negative && mantissa ≠ 0) mantissa scale

/-- The largest power of ten one multiplication applies. -/
def powerChunk : Nat := 19

/-- Multiplies by a power of ten in steps of at most nineteen digits, and once more by what is
left. -/
def shiftUp? (d : Decimal) (power : Nat) : Option Decimal := do
  let chunk ← ofInt? (tenTo powerChunk)
  let rest ← ofInt? (tenTo (power % powerChunk))
  let chunks ← (List.replicate (power / powerChunk) chunk).foldlM mul? d
  mul? chunks rest

/-- Without the zeros at the end of the fraction; a zero becomes plain `0`. -/
def normalize (d : Decimal) : Decimal :=
  let dropOne (d : Decimal) : Decimal :=
    if 0 < d.scale ∧ d.mantissa % 10 = 0 then
      (make? d.negative (d.mantissa / 10) (d.scale - 1)).getD d
    else d
  if d.isZero then zero else (List.range maxScale).foldl (fun d _ => dropOne d) d

/-- The exponent of a scientific text: an optional minus, then a word that may carry a plus. -/
def exponent? (text : List Char) : Option (Bool × Nat) :=
  let (negative, digits) :=
    match text with
    | '-' :: rest => (true, rest)
    | text => (false, text)
  let digits := match digits with
    | '+' :: rest => rest
    | digits => digits
  do
    let size ← Number.natural? 10 digits
    if size < wordLimit then some (negative, size) else none

/-- Applies a power of ten, by the scale as far as that reaches. -/
def scaleBy? (d : Decimal) (negative : Bool) (power : Nat) : Option Decimal :=
  if negative then make? d.negative d.mantissa (d.scale + power)
  else if power ≤ d.scale then make? d.negative d.mantissa (d.scale - power)
  else if maxScale < power then none
  else (d.shiftUp? power).map normalize

def isExponentMark (c : Char) : Bool := c = 'e' || c = 'E'

/-- Reads plain or scientific notation. -/
def ofText? (text : List Char) : Option Decimal :=
  if text.any isExponentMark then do
    let base ← ofPlain? (text.takeWhile (!isExponentMark ·))
    let (negative, power) ← exponent? ((text.dropWhile (!isExponentMark ·)).drop 1)
    base.scaleBy? negative power
  else ofPlain? text

end SlotScript.Decimal
