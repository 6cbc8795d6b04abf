import SlotScript.Operator.Coercion
import SlotScript.Proofs.Token.Digits
import SlotScript.Proofs.Token.Interchange

/-!
# Integer literals denote their value in the narrowest kind

The digits of an integer may stand in three radixes, with zeros before them and underscores among
them, and a suffix may narrow down the kinds. The literal is the number its digits denote, in the
first kind left that holds it; a number that no kind holds counts as zero.
-/

namespace SlotScript

open SlotScript.Text

/-- The value is the integer `n`, of this kind. -/
def Value.IsInteger (v : Value) (kind : NumericKind) (n : Nat) : Prop :=
  v.kind = .number kind ∧ v.integral kind = .ok n

namespace Literal

/-- The letters of a suffix, in lower case. -/
def IntegerSuffix.spellings (suffix : IntegerSuffix) : List (List Char) :=
  match suffix.unsigned, suffix.long with
  | false, false => [[]]
  | true, false => [['u']]
  | false, true => [['l']]
  | true, true => [['u', 'l'], ['l', 'u']]

/-- The kinds a suffix allows, narrowest first. -/
def IntegerSuffix.kinds (suffix : IntegerSuffix) : List NumericKind :=
  match suffix.unsigned, suffix.long with
  | false, false => [.int32, .uint32, .int64, .uint64]
  | true, false => [.uint32, .uint64]
  | false, true => [.int64, .uint64]
  | true, true => [.uint64]

/-- Zero is of every kind. -/
theorem IntegerSuffix.find?_kinds_zero (suffix : IntegerSuffix) :
    suffix.kinds.find? (·.holds 0) = suffix.kinds.head? := by
  obtain ⟨unsigned, long⟩ := suffix
  cases unsigned <;> cases long <;> rfl

/-- Digits of the number, at least one, with underscores anywhere among them. -/
def Spaced (radix n : Nat) (body : List Char) : Prop :=
  body.filter (· ≠ '_') ≠ [] ∧ Denotes radix (body.filter (· ≠ '_')) n

/-- The ways to write an integer with a suffix. -/
inductive SpellsInteger (n : Nat) (suffix : IntegerSuffix) : List Char → Prop
  /-- In decimal, where a digit comes before all underscores. -/
  | decimal {body tail : List Char} : Spaced 10 n body → body.head? ≠ some '_' →
      lower tail ∈ suffix.spellings → SpellsInteger n suffix (body ++ tail)
  | hexadecimal {mark : Char} {body tail : List Char} : mark = 'x' ∨ mark = 'X' →
      Spaced 16 n body → lower tail ∈ suffix.spellings →
      SpellsInteger n suffix ('0' :: mark :: (body ++ tail))
  | binary {mark : Char} {body tail : List Char} : mark = 'b' ∨ mark = 'B' →
      Spaced 2 n body → lower tail ∈ suffix.spellings →
      SpellsInteger n suffix ('0' :: mark :: (body ++ tail))

theorem digits_append {radix : Nat} {body t : List Char}
    (all : ∀ c ∈ body, c = '_' ∨ isDigit radix c)
    (stop : ∀ c ∈ t.head?, c ≠ '_' ∧ isDigit radix c = false) :
    digits radix (body ++ t) = (body.filter (· ≠ '_'), t) := by
  induction body with
  | nil =>
    cases t with
    | nil => rfl
    | cons c t =>
      obtain ⟨noGap, noDigit⟩ := stop c rfl
      simp [digits, noGap, noDigit]
  | cons c body ih =>
    obtain ⟨first, all⟩ := List.forall_mem_cons.mp all
    by_cases gap : c = '_'
    · simp [digits, gap, ih all]
    · simp [digits, gap, first.resolve_left gap, ih all]

theorem Spaced.isDigit {radix n : Nat} {body : List Char} (bounded : radix ≤ 16)
    (spaced : Spaced radix n body) : ∀ c ∈ body, c = '_' ∨ Text.isDigit radix c := by
  intro c inside
  by_cases gap : c = '_'
  · exact .inl gap
  · exact .inr (spaced.2.isDigit bounded c (List.mem_filter.mpr ⟨inside, by simpa using gap⟩))

/-- The letters that a suffix can have. -/
def suffixLetters : List Char := ['u', 'U', 'l', 'L']

theorem integerSuffix_spelled {suffix : IntegerSuffix} {tail : List Char}
    (spelled : lower tail ∈ suffix.spellings) :
    integerSuffix tail = (suffix, []) ∧ tail.all suffixLetters.contains := by
  have unsignedLetter (c : Char) (same : c.toLower = 'u') : c = 'u' ∨ c = 'U' :=
    eq_or_eq_of_toLower same
  have longLetter (c : Char) (same : c.toLower = 'l') : c = 'l' ∨ c = 'L' :=
    eq_or_eq_of_toLower same
  have single {a : Char} (same : lower tail = [a]) : ∃ c, tail = [c] ∧ c.toLower = a :=
    List.map_eq_singleton_iff.mp same
  have pair {a b : Char} (same : lower tail = [a, b]) :
      ∃ c d, tail = [c, d] ∧ c.toLower = a ∧ d.toLower = b := by
    obtain ⟨c, rest, rfl, first, further⟩ := List.map_eq_cons_iff.mp same
    obtain ⟨d, rfl, second⟩ := List.map_eq_singleton_iff.mp further
    exact ⟨c, d, rfl, first, second⟩
  obtain ⟨unsigned, long⟩ := suffix
  cases unsigned <;> cases long <;>
    simp only [IntegerSuffix.spellings, List.mem_cons, List.not_mem_nil, or_false] at spelled
  · obtain rfl : tail = [] := List.map_eq_nil_iff.mp spelled
    exact ⟨rfl, rfl⟩
  · obtain ⟨c, rfl, letter⟩ := single spelled
    obtain rfl | rfl := longLetter c letter <;> exact ⟨rfl, rfl⟩
  · obtain ⟨c, rfl, letter⟩ := single spelled
    obtain rfl | rfl := unsignedLetter c letter <;> exact ⟨rfl, rfl⟩
  · obtain same | same := spelled
    · obtain ⟨c, d, rfl, first, second⟩ := pair same
      obtain rfl | rfl := unsignedLetter c first <;> obtain rfl | rfl := longLetter d second <;>
        exact ⟨rfl, rfl⟩
    · obtain ⟨c, d, rfl, first, second⟩ := pair same
      obtain rfl | rfl := longLetter c first <;> obtain rfl | rfl := unsignedLetter d second <;>
        exact ⟨rfl, rfl⟩

theorem mem_suffixLetters {suffix : IntegerSuffix} {tail : List Char} {c : Char}
    (spelled : lower tail ∈ suffix.spellings) (inside : c ∈ tail) : c ∈ suffixLetters := by
  have listed := List.all_eq_true.mp (integerSuffix_spelled spelled).2 c inside
  simpa using listed

/-- An integer is of the first kind that its suffix allows and that holds it. -/
theorem integer_isInteger (n : UInt64) (suffix : IntegerSuffix) :
    ∃ kind, suffix.kinds.find? (·.holds n.toNat) = some kind ∧
      (integer n suffix).IsInteger kind n.toNat := by
  have bound := n.toNat_lt
  have last : NumericKind.uint64.holds n.toNat := by
    simp [NumericKind.holds]
    omega
  have int32 (held : NumericKind.int32.holds n.toNat) :
      (Value.int32 (Int32.ofNat n.toNat)).IsInteger .int32 n.toNat := by
    simp [NumericKind.holds] at held
    exact ⟨rfl, congrArg Except.ok (Int32.toInt_ofNat_of_lt (by omega))⟩
  have uint32 (held : NumericKind.uint32.holds n.toNat) :
      (Value.uint32 (UInt32.ofNat n.toNat)).IsInteger .uint32 n.toNat := by
    simp [NumericKind.holds] at held
    have bound : n.toNat < UInt32.size := by
      simp only [UInt32.size]
      omega
    exact ⟨rfl, congrArg (fun m : Nat => Except.ok (m : Int)) (UInt32.toNat_ofNat_of_lt' bound)⟩
  have int64 (held : NumericKind.int64.holds n.toNat) :
      (Value.int64 (Int64.ofNat n.toNat)).IsInteger .int64 n.toNat := by
    simp [NumericKind.holds] at held
    exact ⟨rfl, congrArg Except.ok (Int64.toInt_ofNat_of_lt (by omega))⟩
  have uint64 : (Value.uint64 n).IsInteger .uint64 n.toNat := ⟨rfl, rfl⟩
  obtain ⟨unsigned, long⟩ := suffix
  unfold integer
  split
  · rename_i narrow
    refine ⟨.int32, ?_, int32 narrow.2.2⟩
    cases unsigned <;> cases long <;> simp_all [IntegerSuffix.kinds]
  split
  · rename_i narrow
    refine ⟨.uint32, ?_, uint32 narrow.2⟩
    cases unsigned <;> cases long <;> simp_all [IntegerSuffix.kinds]
  split
  · rename_i narrow
    refine ⟨.int64, ?_, int64 narrow.2⟩
    cases unsigned <;> cases long <;> simp_all [IntegerSuffix.kinds]
  · refine ⟨.uint64, ?_, uint64⟩
    cases unsigned <;> cases long <;> simp_all [IntegerSuffix.kinds]

/-- The word of the digits is the number they denote, or zero if it takes more than 64 bits. -/
theorem toNat_word {radix n : Nat} {digits : List Char} (bounded : radix ≤ 16) (some : digits ≠ [])
    (denoted : Denotes radix digits n) :
    (word radix digits).toNat = if n < 2 ^ 64 then n else 0 := by
  have read : Number.natural? radix digits = .some n := by
    rw [Number.natural?, List.isEmpty_eq_false_iff.mpr some, denoted.number? bounded]
    rfl
  simp only [word, read]
  by_cases fits : n < 2 ^ 64
  · have held : NumericKind.uint64.holds n := by
      simp [NumericKind.holds]
      omega
    rw [if_pos held, if_pos fits]
    exact UInt64.toNat_ofNat_of_lt' fits
  · have missed : NumericKind.uint64.holds n = false := by
      simp [NumericKind.holds]
      omega
    rw [missed, if_neg fits]
    rfl

section

variable {n : Nat} {suffix : IntegerSuffix} {body tail : List Char}

/-- A suffix letter is no digit of any radix and no sign of a real. -/
theorem suffixLetter_facts {c : Char} (letter : c ∈ suffixLetters) :
    (c ≠ '_' ∧ ∀ radix ∈ [2, 10, 16], isDigit radix c = false) ∧ c ≠ '.' ∧
      c ∉ ['e', 'E', 'f', 'F', 'd', 'D', 'm', 'M', 'x', 'X', 'b', 'B'] := by
  simp only [suffixLetters, List.mem_cons, List.not_mem_nil, or_false] at letter
  obtain rfl | rfl | rfl | rfl := letter <;> decide

theorem digits_spaced {radix : Nat} (known : radix ∈ [2, 10, 16]) (spaced : Spaced radix n body)
    (suffixed : lower tail ∈ suffix.spellings) :
    digits radix (body ++ tail) = (body.filter (· ≠ '_'), tail) := by
  have bounded : ∀ radix ∈ [2, 10, 16], radix ≤ 16 := by decide
  apply digits_append (spaced.isDigit (bounded radix known))
  intro c inside
  obtain ⟨⟨noGap, noDigit⟩, -⟩ := suffixLetter_facts
    (mem_suffixLetters suffixed (List.mem_of_mem_head? inside))
  exact ⟨noGap, noDigit radix known⟩

theorem radixInteger_spaced {radix : Nat} (known : radix ∈ [2, 10, 16])
    (spaced : Spaced radix n body) (suffixed : lower tail ∈ suffix.spellings) :
    radixInteger radix (body ++ tail) =
      (integer (word radix (body.filter (· ≠ '_'))) suffix, []) := by
  simp only [radixInteger, digits_spaced known spaced suffixed,
    (integerSuffix_spelled suffixed).1]

/-- A suffix of an integer is not taken for a part of a real. -/
theorem decimalNumber_spaced (spaced : Spaced 10 n body)
    (suffixed : lower tail ∈ suffix.spellings) :
    decimalNumber (body ++ tail) = (integer (word 10 (body.filter (· ≠ '_'))) suffix, []) := by
  have read := (integerSuffix_spelled suffixed).1
  have noFraction : fraction tail = ([], tail) := by
    cases tail with
    | nil => rfl
    | cons c tail =>
      have noPoint := (suffixLetter_facts (mem_suffixLetters suffixed (.head _))).2.1
      unfold fraction
      grind
  have noExponent : exponent tail = ([], tail) := by
    cases tail with
    | nil => rfl
    | cons c tail =>
      have other := (suffixLetter_facts (mem_suffixLetters suffixed (.head _))).2.2
      simp_all [exponent]
  have noReal (number : List Char) : realSuffix? number tail = none := by
    cases tail with
    | nil => rfl
    | cons c tail =>
      have other := (suffixLetter_facts (mem_suffixLetters suffixed (.head _))).2.2
      simp_all [realSuffix?]
  simp [decimalNumber, digits_spaced (by decide) spaced suffixed, noFraction, noExponent, noReal,
    read]

/-- A spelling of an integer is scanned to its end. -/
theorem number_spelled {text : List Char} (spelled : SpellsInteger n suffix text) :
    ∃ w : UInt64, w.toNat = (if n < 2 ^ 64 then n else 0) ∧
      number text = (integer w suffix, []) := by
  cases spelled with
  | @decimal body tail spaced first suffixed =>
    refine ⟨_, toNat_word (by decide) spaced.1 spaced.2, ?_⟩
    rw [← decimalNumber_spaced spaced suffixed]
    apply number_decimal List.prefix_rfl
    intro c rest same
    have inside : c ∈ body ++ tail := by
      rw [same]
      exact .tail _ (.head _)
    have unmarked (mark : Char)
        (stranger : mark ≠ '_' ∧ isDigit 10 mark = false ∧ mark ∉ suffixLetters) : c ≠ mark := by
      rintro rfl
      obtain ⟨noGap, noDigit, noLetter⟩ := stranger
      obtain inside | inside := List.mem_append.mp inside
      · obtain gap | digit := spaced.isDigit (by decide) c inside
        · exact noGap gap
        · cases digit.symm.trans noDigit
      · exact noLetter (mem_suffixLetters suffixed inside)
    exact ⟨not_or.mpr ⟨unmarked 'x' (by decide), unmarked 'X' (by decide)⟩,
      not_or.mpr ⟨unmarked 'b' (by decide), unmarked 'B' (by decide)⟩⟩
  | @hexadecimal mark body tail marked spaced suffixed =>
    refine ⟨_, toNat_word (by decide) spaced.1 spaced.2, ?_⟩
    rw [← radixInteger_spaced (by decide) spaced suffixed]
    simp [number, marked]
  | @binary mark body tail marked spaced suffixed =>
    refine ⟨_, toNat_word (by decide) spaced.1 spaced.2, ?_⟩
    rw [← radixInteger_spaced (by decide) spaced suffixed]
    obtain rfl | rfl := marked <;> rfl

/-- A spelling of an integer starts with a digit. -/
theorem SpellsInteger.head {text : List Char} (spelled : SpellsInteger n suffix text) :
    ∃ first rest, text = first :: rest ∧ isDigit 10 first := by
  cases spelled with
  | @decimal body tail spaced first suffixed =>
    cases body with
    | nil => exact absurd rfl spaced.1
    | cons c body =>
      have noGap : c ≠ '_' := by simpa using first
      exact ⟨c, body ++ tail, rfl, (spaced.isDigit (by decide) c (.head _)).resolve_left noGap⟩
  | hexadecimal => exact ⟨'0', _, rfl, rfl⟩
  | binary => exact ⟨'0', _, rfl, rfl⟩

end

end Literal

namespace Lexer

theorem tokenFrom_digit {first : Char} (digit : isDigit 10 first) (rest : List Char) :
    tokenFrom first rest = numericLiteral (first :: rest) := by
  unfold tokenFrom
  split <;> first
    | cases digit
    | rw [if_pos digit]

/-- A text that is one number is read as one token. -/
theorem tokens_numericLiteral {first : Char} {rest : List Char} {v : Value}
    (digit : isDigit 10 first) (read : Literal.number (first :: rest) = (v, [])) :
    tokens (first :: rest) = [⟨.numericLiteral, String.ofList (first :: rest), some v⟩] := by
  apply tokens_single (separator_of_digit digit)
  rw [tokenFrom_digit digit]
  simp only [numericLiteral, read, consumed_nil]

/-- Every spelling of an integer is read as one numeric literal with all of the spelling for its
text. Below the limit of 64 bits its value is the integer, in the first kind that the suffix allows
and that holds it, and from there on it is zero in the first kind that the suffix allows. -/
theorem tokenize_integer {n : Nat} {suffix : Literal.IntegerSuffix} {text : String}
    (spelled : Literal.SpellsInteger n suffix text.toList)
    (short : text.toList.length ≤ maxLength) :
    ∃ v kind, tokenize text = .ok [⟨.numericLiteral, text, some v⟩] ∧
      (n < 2 ^ 64 → suffix.kinds.find? (·.holds n) = some kind ∧ v.IsInteger kind n) ∧
      (2 ^ 64 ≤ n → suffix.kinds.head? = some kind ∧ v.IsInteger kind 0) := by
  obtain ⟨w, size, read⟩ := Literal.number_spelled spelled
  obtain ⟨first, rest, whole, digit⟩ := spelled.head
  obtain ⟨kind, chosen, isInteger⟩ := Literal.integer_isInteger w suffix
  refine ⟨Literal.integer w suffix, kind, ?_, ?_, ?_⟩
  · rw [whole] at read
    rw [tokenize_eq_ok short, whole, tokens_numericLiteral digit read, ← whole,
      String.ofList_toList]
  · intro fits
    rw [if_pos fits] at size
    rw [size] at chosen isInteger
    exact ⟨chosen, isInteger⟩
  · intro large
    rw [if_neg (by omega)] at size
    rw [size] at chosen isInteger
    exact ⟨suffix.find?_kinds_zero.symm.trans chosen, isInteger⟩

/-- The last number of 32 bits as a long integer, and the first one that takes more than 64 bits. -/
theorem tokenize_integer_bounds :
    (∃ v, Literal.SpellsInteger 0xFFFFFFFF ⟨false, true⟩ "0x0_ffFF_ffFFl".toList ∧
      tokenize "0x0_ffFF_ffFFl" = .ok [⟨.numericLiteral, "0x0_ffFF_ffFFl", some v⟩] ∧
      v.IsInteger .int64 0xFFFFFFFF) ∧
    ∃ v, Literal.SpellsInteger 18446744073709551616 ⟨true, false⟩ "18446744073709551616_U".toList ∧
      tokenize "18446744073709551616_U" =
        .ok [⟨.numericLiteral, "18446744073709551616_U", some v⟩] ∧
      v.IsInteger .uint32 0 := by
  constructor
  · have digits : Denotes 16 ['0', 'f', 'f', 'F', 'F', 'f', 'f', 'F', 'F'] 0xFFFFFFFF :=
      ⟨[0, 15, 15, 15, 15, 15, 15, 15, 15], by decide, by decide⟩
    have spelled : Literal.SpellsInteger 0xFFFFFFFF ⟨false, true⟩
        ('0' :: 'x' :: (['0', '_', 'f', 'f', 'F', 'F', '_', 'f', 'f', 'F', 'F'] ++ ['l'])) :=
      .hexadecimal (.inl rfl) ⟨by decide, digits⟩ (by decide)
    have whole : "0x0_ffFF_ffFFl".toList =
        '0' :: 'x' :: (['0', '_', 'f', 'f', 'F', 'F', '_', 'f', 'f', 'F', 'F'] ++ ['l']) := by
      decide
    rw [← whole] at spelled
    obtain ⟨v, kind, read, small, -⟩ := tokenize_integer spelled (by decide)
    obtain ⟨chosen, isInteger⟩ := small (by decide)
    obtain rfl : NumericKind.int64 = kind := Option.some.inj chosen
    exact ⟨v, spelled, read, isInteger⟩
  · have digits : Denotes 10 "18446744073709551616".toList 18446744073709551616 :=
      ⟨[1, 8, 4, 4, 6, 7, 4, 4, 0, 7, 3, 7, 0, 9, 5, 5, 1, 6, 1, 6], by decide, by decide⟩
    have spelled : Literal.SpellsInteger 18446744073709551616 ⟨true, false⟩
        ("18446744073709551616_".toList ++ ['U']) :=
      .decimal ⟨by decide, digits⟩ (by decide) (by decide)
    have whole : "18446744073709551616_U".toList = "18446744073709551616_".toList ++ ['U'] := by
      decide
    rw [← whole] at spelled
    obtain ⟨v, kind, read, -, large⟩ := tokenize_integer spelled (by decide)
    obtain ⟨chosen, isInteger⟩ := large (by decide)
    obtain rfl : NumericKind.uint32 = kind := Option.some.inj chosen
    exact ⟨v, spelled, read, isInteger⟩

end Lexer

end SlotScript
