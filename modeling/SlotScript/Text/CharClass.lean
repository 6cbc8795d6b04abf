/-!
# Character classes

The sets of characters the language tells apart. Each set is a list of closed ranges of code
points, so membership is one scan and a set can be compared with another by its ranges.

Blank characters, which `trim` removes, follow the Unicode property White_Space. The separators
between tokens are a different set: they hold the byte order mark and the substitute character,
which are not blank.
-/

namespace SlotScript.Text

/-- Whether the code point of `c` lies in one of the closed ranges. -/
def within (ranges : List (Nat × Nat)) (c : Char) : Bool :=
  ranges.any fun range => range.1 ≤ c.toNat && c.toNat ≤ range.2

/-- Spaces that may stand between tokens. -/
def isSpace (c : Char) : Bool :=
  within [(0x09, 0x09), (0x0B, 0x0C), (0x1A, 0x1A), (0x20, 0x20), (0xA0, 0xA0), (0x1680, 0x1680),
    (0x2000, 0x200A), (0x202F, 0x202F), (0x205F, 0x205F), (0x3000, 0x3000), (0xFEFF, 0xFEFF)] c

/-- Characters that end a line, and with it an unfinished string literal. -/
def isLineBreak (c : Char) : Bool :=
  within [(0x0A, 0x0A), (0x0D, 0x0D), (0x85, 0x85), (0x2028, 0x2029)] c

/-- Characters skipped between tokens. -/
def isSeparator (c : Char) : Bool :=
  isSpace c || isLineBreak c

/-- Unicode format characters (general category Cf), which an identifier may contain but which are
not part of its name. -/
def isFormat (c : Char) : Bool :=
  within [(0xAD, 0xAD), (0x600, 0x605), (0x61C, 0x61C), (0x6DD, 0x6DD), (0x70F, 0x70F),
    (0x890, 0x891), (0x8E2, 0x8E2), (0x180E, 0x180E), (0x200B, 0x200F), (0x202A, 0x202E),
    (0x2060, 0x2064), (0x2066, 0x206F), (0xFEFF, 0xFEFF), (0xFFF9, 0xFFFB), (0x110BD, 0x110BD),
    (0x110CD, 0x110CD), (0x13430, 0x1343F), (0x1BCA0, 0x1BCA3), (0x1D173, 0x1D17A),
    (0xE0001, 0xE0001), (0xE0020, 0xE007F)] c

/-- Characters with the Unicode property White_Space. -/
def isBlank (c : Char) : Bool :=
  within [(0x09, 0x0D), (0x20, 0x20), (0x85, 0x85), (0xA0, 0xA0), (0x1680, 0x1680),
    (0x2000, 0x200A), (0x2028, 0x2029), (0x202F, 0x202F), (0x205F, 0x205F), (0x3000, 0x3000)] c

def isAscii (c : Char) : Bool :=
  c.toNat < 0x80

/-- The value of an ASCII digit below `radix`, which is at most sixteen; letters count in either
case. -/
def digit? (radix : Nat) (c : Char) : Option Nat :=
  let value? :=
    if '0' ≤ c ∧ c ≤ '9' then some (c.toNat - '0'.toNat)
    else if 'a' ≤ c ∧ c ≤ 'f' then some (c.toNat - 'a'.toNat + 10)
    else if 'A' ≤ c ∧ c ≤ 'F' then some (c.toNat - 'A'.toNat + 10)
    else none
  value?.filter (· < radix)

def isDigit (radix : Nat) (c : Char) : Bool :=
  (digit? radix c).isSome

/-- The number a list of digits denotes, or `none` if some character is not a digit. An empty list
denotes zero. -/
def number? (radix : Nat) (digits : List Char) : Option Nat :=
  digits.foldlM (fun total c => (digit? radix c).map (total * radix + ·)) 0

/-- The text without the blank characters at both ends. -/
def trim (text : List Char) : List Char :=
  ((text.dropWhile isBlank).reverse.dropWhile isBlank).reverse

/-- The ASCII letters of the text in lower case, all else as it is. -/
def lower (text : List Char) : List Char :=
  text.map Char.toLower

end SlotScript.Text
