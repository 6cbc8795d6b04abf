import SlotScript.Decimal.Text
import SlotScript.Number.Text
import SlotScript.Value.Basic

/-!
# Literals

Scanning of string and numeric literals. A scanner takes the text from the start of the literal and
returns what it denotes together with the text after it. Nothing is ever refused: a string that is
not closed ends with its line, and digits that denote nothing in their kind denote zero.
-/

namespace SlotScript.Literal

open SlotScript.Text

/-- The character an escape letter stands for; a letter without a meaning stands for itself. -/
def simpleEscape (c : Char) : Char :=
  match c with
  | '0' => '\x00'
  | 'a' => '\x07'
  | 'b' => '\x08'
  | 'f' => '\x0C'
  | 'n' => '\n'
  | 'r' => '\r'
  | 't' => '\t'
  | 'v' => '\x0B'
  | c => c

/-- The character with a code point, which must not be a surrogate nor past the last plane. -/
def charOfCode? (code : Nat) : Option Char :=
  if h : code.isValidChar then some (Char.ofNatAux code h) else none

/-- Decodes `count` hexadecimal digits at the front of the text as one character. -/
def codePoint? (count : Nat) (text : List Char) : Option Char := do
  guard (count ≤ text.length)
  let code ← number? 16 (text.take count)
  charOfCode? code

/-- Decodes a `\uXXXX` or `\UXXXXXXXX` escape at the front of the text and returns what follows
it; `none` if there is no such escape or it denotes no character. -/
def unicodeEscape? : List Char → Option (Char × List Char)
  | '\\' :: 'u' :: rest => (codePoint? 4 rest).map (·, rest.drop 4)
  | '\\' :: 'U' :: rest => (codePoint? 8 rest).map (·, rest.drop 8)
  | _ => none

/-- An escape uses up at least one character. -/
theorem unicodeEscape?_suffix {first c : Char} {rest after : List Char}
    (h : unicodeEscape? (first :: rest) = some (c, after)) : after <:+ rest := by
  unfold unicodeEscape? at h
  split at h
  all_goals rename_i heq
  · cases heq
    obtain ⟨_, _, hr⟩ := Option.map_eq_some_iff.1 h
    cases hr
    exact (List.drop_suffix _ _).trans (List.suffix_cons _ _)
  · cases heq
    obtain ⟨_, _, hr⟩ := Option.map_eq_some_iff.1 h
    cases hr
    exact (List.drop_suffix _ _).trans (List.suffix_cons _ _)
  · cases h

/-- Whether a string literal cannot go on past this character. -/
def endsString (c : Char) : Bool :=
  c = '\x00' || isLineBreak c

/-- The characters of a string literal after the opening quote, escapes decoded, and the text after
the closing quote or after the last character of an unfinished literal. A backslash right before
the end is dropped. -/
def escapedBody (quote : Char) (text : List Char) : List Char × List Char :=
  match text with
  | [] => ([], [])
  | c :: rest =>
    if endsString c then ([], c :: rest)
    else if c = quote then ([], rest)
    else if c = '\\' then
      match h : unicodeEscape? (c :: rest) with
      | some (decoded, after) =>
        have := (unicodeEscape?_suffix h).length_le
        let (body, after) := escapedBody quote after
        (decoded :: body, after)
      | none =>
        match rest with
        | [] => ([], [])
        | escaped :: after =>
          if endsString escaped then ([], escaped :: after)
          else
            let (body, after) := escapedBody quote after
            (simpleEscape escaped :: body, after)
    else
      let (body, after) := escapedBody quote rest
      (c :: body, after)
termination_by text.length

/-- The characters of a verbatim string literal, in which a doubled quote stands for one and
nothing else is special. -/
def verbatimBody (quote : Char) : List Char → List Char × List Char
  | [] => ([], [])
  | c :: rest =>
    if endsString c then ([], c :: rest)
    else if c = quote then
      match rest with
      | d :: after =>
        if d = quote then
          let (body, after) := verbatimBody quote after
          (quote :: body, after)
        else ([], d :: after)
      | [] => ([], [])
    else
      let (body, after) := verbatimBody quote rest
      (c :: body, after)

/-- Scans a string literal from its opening quote, or from the `@` of a verbatim one. -/
def string : List Char → List Char × List Char
  | '@' :: quote :: rest => verbatimBody quote rest
  | quote :: rest => escapedBody quote rest
  | [] => ([], [])

/-- The digits at the front of the text, without the underscores among them. -/
def digits (radix : Nat) : List Char → List Char × List Char
  | [] => ([], [])
  | c :: rest =>
    if c = '_' then digits radix rest
    else if isDigit radix c then
      let (found, after) := digits radix rest
      (c :: found, after)
    else ([], c :: rest)

/-- What the suffix of an integer asks for. -/
structure IntegerSuffix where
  unsigned : Bool
  long : Bool

/-- Skips a letter given in both cases, and tells whether it was there. -/
def skipLetter (small capital : Char) : List Char → Bool × List Char
  | c :: rest => if c = small ∨ c = capital then (true, rest) else (false, c :: rest)
  | [] => (false, [])

/-- Scans a suffix of `l` and `u` in either order and case, both optional. -/
def integerSuffix (text : List Char) : IntegerSuffix × List Char :=
  match skipLetter 'l' 'L' text with
  | (true, rest) =>
    let (unsigned, rest) := skipLetter 'u' 'U' rest
    (⟨unsigned, true⟩, rest)
  | (false, _) =>
    match skipLetter 'u' 'U' text with
    | (true, rest) =>
      let (long, rest) := skipLetter 'l' 'L' rest
      (⟨true, long⟩, rest)
    | (false, _) => (⟨false, false⟩, text)

/-- The value of an integer literal: the first of the kinds int32, uint32, int64 and uint64 that the
suffix allows and that holds it. -/
def integer (n : UInt64) (suffix : IntegerSuffix) : Value :=
  if !suffix.unsigned ∧ !suffix.long ∧ NumericKind.int32.holds n.toNat then .int32 (Int32.ofNat n.toNat)
  else if !suffix.long ∧ NumericKind.uint32.holds n.toNat then .uint32 (UInt32.ofNat n.toNat)
  else if !suffix.unsigned ∧ NumericKind.int64.holds n.toNat then .int64 (Int64.ofNat n.toNat)
  else .uint64 n

/-- The word a list of digits denotes; one that does not fit counts as zero. -/
def word (radix : Nat) (digits : List Char) : UInt64 :=
  match Number.natural? radix digits with
  | some n => if NumericKind.uint64.holds n then UInt64.ofNat n else 0
  | none => 0

/-- Scans an integer after its radix prefix. -/
def radixInteger (radix : Nat) (text : List Char) : Value × List Char :=
  let (found, rest) := digits radix text
  let (suffix, rest) := integerSuffix rest
  (integer (word radix found) suffix, rest)

/-- Scans a fraction: a point counts only if a digit follows it. Returns the text read, the point
included. -/
def fraction : List Char → List Char × List Char
  | '.' :: c :: rest =>
    if isDigit 10 c then
      let (found, rest) := digits 10 (c :: rest)
      ('.' :: found, rest)
    else ([], '.' :: c :: rest)
  | text => ([], text)

/-- The sign of an exponent, if there is one. -/
def exponentSign : List Char → List Char × List Char
  | c :: rest => if c = '+' ∨ c = '-' then ([c], rest) else ([], c :: rest)
  | [] => ([], [])

/-- Scans an exponent, which a mark alone starts; without any digit it counts as zero. -/
def exponent : List Char → List Char × List Char
  | [] => ([], [])
  | c :: rest =>
    if c = 'e' ∨ c = 'E' then
      let (sign, rest) := exponentSign rest
      match rest with
      | d :: after =>
        if d = '_' ∨ isDigit 10 d then
          let (found, rest) := digits 10 (d :: after)
          ('e' :: sign ++ found, rest)
        else ('e' :: sign ++ ['0'], d :: after)
      | [] => ('e' :: sign ++ ['0'], [])
    else ([], c :: rest)

/-- The value of a number that ends in the suffix of a real kind, and the text after it. -/
def realSuffix? (number : List Char) : List Char → Option (Value × List Char)
  | [] => none
  | c :: rest =>
    if c = 'f' ∨ c = 'F' then some (.float ((Number.single? number).getD 0), rest)
    else if c = 'd' ∨ c = 'D' then some (.double ((Number.double? number).getD 0), rest)
    else if c = 'm' ∨ c = 'M' then some (.decimal ((Decimal.ofText? number).getD .zero), rest)
    else none

/-- Scans a number without a radix prefix. A fraction, an exponent or a suffix makes it real; all
else is an integer. -/
def decimalNumber (text : List Char) : Value × List Char :=
  let (whole, rest) := digits 10 text
  let (fraction, rest) := fraction rest
  let (exponent, rest) := exponent rest
  let number := whole ++ fraction ++ exponent
  match realSuffix? number rest with
  | some result => result
  | none =>
    if fraction.isEmpty && exponent.isEmpty then
      let (suffix, rest) := integerSuffix rest
      (integer (word 10 number) suffix, rest)
    else (.double ((Number.double? number).getD 0), rest)

/-- Scans a numeric literal from its first digit. -/
def number : List Char → Value × List Char
  | '0' :: c :: rest =>
    if c = 'x' ∨ c = 'X' then radixInteger 16 rest
    else if c = 'b' ∨ c = 'B' then radixInteger 2 rest
    else decimalNumber ('0' :: c :: rest)
  | text => decimalNumber text

theorem suffix_cons_of_suffix {a l : List Char} (c : Char) (h : a <:+ l) : a <:+ c :: l :=
  h.trans (List.suffix_cons c l)

theorem escapedBody_suffix (quote : Char) (text : List Char) :
    (escapedBody quote text).2 <:+ text := by
  fun_induction escapedBody quote text <;>
    grind [→ unicodeEscape?_suffix, suffix_cons_of_suffix]

theorem verbatimBody_suffix (quote : Char) (text : List Char) :
    (verbatimBody quote text).2 <:+ text := by
  fun_induction verbatimBody quote text <;> grind [suffix_cons_of_suffix]

theorem string_suffix (first : Char) (rest : List Char) :
    (string (first :: rest)).2 <:+ rest := by
  unfold string
  split
  · grind [verbatimBody_suffix]
  · grind [escapedBody_suffix]
  · grind

theorem digits_suffix (radix : Nat) (text : List Char) : (digits radix text).2 <:+ text := by
  fun_induction digits radix text <;> grind

theorem digits_cons_suffix {radix : Nat} {c : Char} (rest : List Char)
    (h : isDigit radix c) : (digits radix (c :: rest)).2 <:+ rest := by
  grind [digits, digits_suffix]

theorem skipLetter_suffix (small capital : Char) (text : List Char) :
    (skipLetter small capital text).2 <:+ text := by
  fun_cases skipLetter small capital text <;> grind

theorem integerSuffix_suffix (text : List Char) : (integerSuffix text).2 <:+ text := by
  fun_cases integerSuffix text <;> grind [skipLetter_suffix]

theorem fraction_suffix (text : List Char) : (fraction text).2 <:+ text := by
  fun_cases fraction text <;> grind [digits_suffix]

theorem exponentSign_suffix (text : List Char) : (exponentSign text).2 <:+ text := by
  fun_cases exponentSign text <;> grind

theorem exponent_suffix (text : List Char) : (exponent text).2 <:+ text := by
  fun_cases exponent text <;> grind [digits_suffix, exponentSign_suffix]

theorem realSuffix?_suffix {number text rest : List Char} {v : Value}
    (h : realSuffix? number text = some (v, rest)) : rest <:+ text := by
  unfold realSuffix? at h
  split at h
  · cases h
  · rename_i c after
    have := List.suffix_cons c after
    grind

theorem radixInteger_suffix (radix : Nat) (text : List Char) :
    (radixInteger radix text).2 <:+ text := by
  grind [radixInteger, digits_suffix, integerSuffix_suffix]

theorem decimalNumber_suffix {c : Char} (rest : List Char) (h : isDigit 10 c) :
    (decimalNumber (c :: rest)).2 <:+ rest := by
  grind [decimalNumber, digits_cons_suffix, fraction_suffix, exponent_suffix, integerSuffix_suffix,
    → realSuffix?_suffix]

theorem number_suffix {c : Char} (rest : List Char) (h : isDigit 10 c) :
    (number (c :: rest)).2 <:+ rest := by
  unfold number
  split
  · rename_i d after heq
    cases heq
    have := suffix_cons_of_suffix d (radixInteger_suffix 16 after)
    have := suffix_cons_of_suffix d (radixInteger_suffix 2 after)
    grind [decimalNumber_suffix]
  · exact decimalNumber_suffix rest h

end SlotScript.Literal
