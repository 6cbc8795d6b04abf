import SlotScript.Proofs.Token.Digits
import SlotScript.Proofs.Token.Interchange

/-!
# String literals decode what was encoded

A string has many spellings. Between plain quotes each of its characters may be written as itself,
by an escape letter that stands for it, or by its code point; between the quotes of a verbatim
literal only the delimiter is special, and is doubled. All of these are read as one literal whose
value is the string, and its text is all of the spelling.
-/

namespace SlotScript

open SlotScript.Text

namespace Literal

/-- The escape letters with the characters they stand for. -/
def escapeLetters : List (Char × Char) :=
  [('0', '\x00'), ('a', '\x07'), ('b', '\x08'), ('f', '\x0C'), ('n', '\n'), ('r', '\r'),
    ('t', '\t'), ('v', '\x0B'), ('\\', '\\'), ('\'', '\''), ('"', '"')]

/-- The ways to write one character between plain quotes. -/
inductive Spells (quote : Char) : Char → List Char → Prop
  | itself {c : Char} : c ≠ '\\' → c ≠ quote → c ≠ '\x00' → isLineBreak c = false →
      Spells quote c [c]
  | letter {c letter : Char} : (letter, c) ∈ escapeLetters → Spells quote c ['\\', letter]
  /-- Its code point in four digits. -/
  | short {c : Char} {digits : List Char} : digits.length = 4 → Denotes 16 digits c.toNat →
      Spells quote c ('\\' :: 'u' :: digits)
  /-- Its code point in eight digits. -/
  | long {c : Char} {digits : List Char} : digits.length = 8 → Denotes 16 digits c.toNat →
      Spells quote c ('\\' :: 'U' :: digits)

/-- The characters of a verbatim literal: those of the string, with the delimiter doubled. -/
def doubled (quote : Char) (s : List Char) : List Char :=
  s.flatMap fun c => if c = quote then [c, c] else [c]

theorem charOfCode?_toNat (c : Char) : charOfCode? c.toNat = some c := by
  have valid : c.toNat.isValidChar := c.valid
  rw [charOfCode?, dif_pos valid]
  exact congrArg some (Char.ext rfl)

theorem codePoint?_of_denotes {count : Nat} {digits : List Char} {c : Char}
    (size : digits.length = count) (denoted : Denotes 16 digits c.toNat) (rest : List Char) :
    codePoint? count (digits ++ rest) = some c := by
  rw [codePoint?_append (Nat.le_of_eq size.symm), codePoint?_eq, if_pos (Nat.le_of_eq size.symm),
    List.take_of_length_le (Nat.le_of_eq size), denoted.number? (Nat.le_refl 16)]
  exact charOfCode?_toNat c

/-- What an escape letter stands for, and that it stands alone. -/
theorem escapeLetter_facts {letter c : Char} (listed : (letter, c) ∈ escapeLetters) :
    simpleEscape letter = c ∧ endsString letter = false ∧ letter ≠ 'u' ∧ letter ≠ 'U' := by
  have all : ∀ entry ∈ escapeLetters, simpleEscape entry.1 = entry.2 ∧
      endsString entry.1 = false ∧ entry.1 ≠ 'u' ∧ entry.1 ≠ 'U' := by decide
  exact all _ listed

section

variable {quote : Char} {rest : List Char}

theorem escapedBody_quote (quoted : isQuote quote) :
    escapedBody quote (quote :: rest) = ([], rest) := by
  rw [escapedBody]
  simp [(quote_plain quoted).1]

theorem escapedBody_itself {c : Char} (unescaped : c ≠ '\\') (unquoted : c ≠ quote)
    (unended : endsString c = false) :
    escapedBody quote (c :: rest) =
      (c :: (escapedBody quote rest).1, (escapedBody quote rest).2) := by
  rw [escapedBody]
  simp [unescaped, unquoted, unended]

/-- A spelling of one character is read as this character. -/
theorem Spells.escapedBody {c : Char} {piece : List Char} (quoted : isQuote quote)
    (spelled : Spells quote c piece) : Literal.escapedBody quote (piece ++ rest) =
      (c :: (Literal.escapedBody quote rest).1, (Literal.escapedBody quote rest).2) := by
  have other : '\\' ≠ quote := (quote_plain quoted).2.1
  cases spelled with
  | itself unescaped unquoted nonzero unbroken =>
    exact escapedBody_itself unescaped unquoted (by simp [endsString, nonzero, unbroken])
  | @letter letter listed =>
    obtain ⟨meaning, unended, notShort, notLong⟩ := escapeLetter_facts listed
    have unread : unicodeEscape? ('\\' :: letter :: rest) = none := by
      unfold unicodeEscape?
      grind
    rw [← meaning]
    exact escapedBody_simple other unread (by simp [unended])
  | @short digits size denoted =>
    have read : unicodeEscape? ('\\' :: 'u' :: (digits ++ rest)) = some (c, rest) := by
      simp [unicodeEscape?, codePoint?_of_denotes size denoted, List.drop_left' size]
    exact escapedBody_unicode other read
  | @long digits size denoted =>
    have read : unicodeEscape? ('\\' :: 'U' :: (digits ++ rest)) = some (c, rest) := by
      simp [unicodeEscape?, codePoint?_of_denotes size denoted, List.drop_left' size]
    exact escapedBody_unicode other read

theorem escapedBody_spelled {s : List Char} {pieces : List (List Char)} (quoted : isQuote quote)
    (spelled : List.Forall₂ (Spells quote) s pieces) :
    escapedBody quote (pieces.flatten ++ quote :: rest) = (s, rest) := by
  induction spelled with
  | nil => exact escapedBody_quote quoted
  | cons first _ ih => rw [List.flatten_cons, List.append_assoc, first.escapedBody quoted, ih]

theorem verbatimBody_doubled {s : List Char} (plain : ∀ c ∈ s, endsString c = false)
    (quoted : isQuote quote) (other : rest.head? ≠ some quote) :
    verbatimBody quote (doubled quote s ++ quote :: rest) = (s, rest) := by
  have unended := (quote_plain quoted).1
  induction s with
  | nil =>
    cases rest with
    | nil => simp [doubled, verbatimBody, unended]
    | cons d rest =>
      have single : d ≠ quote := by simpa using other
      simp [doubled, verbatimBody, unended, single]
  | cons c s ih =>
    obtain ⟨first, plain⟩ := List.forall_mem_cons.mp plain
    have read := ih plain
    unfold doubled at read ⊢
    by_cases same : c = quote
    · simp [same, verbatimBody, unended, read]
    · rw [List.flatMap_cons, if_neg same, List.append_assoc, List.singleton_append,
        verbatimBody.eq_def]
      simp [first, same, read]

end

end Literal

namespace Lexer

theorem separator_of_opens {first : Char} {rest : List Char} (opens : opensString (first :: rest)) :
    isSeparator first = false := by
  obtain ⟨-, -, rfl, -⟩ | quoted := opensString_cons.mp opens
  · decide
  · exact (Literal.quote_plain quoted).2.2.2

/-- A text that is one string literal is read as one token. -/
theorem tokens_stringLiteral {first : Char} {rest body : List Char}
    (opens : opensString (first :: rest)) (read : Literal.string (first :: rest) = (body, [])) :
    tokens (first :: rest) =
      [⟨.stringLiteral, String.ofList (first :: rest), some (.string (String.ofList body))⟩] := by
  apply tokens_single (separator_of_opens opens)
  rw [tokenFrom_string opens]
  simp only [stringLiteral, read, consumed_nil]

/-- Every spelling of a string, between plain quotes or in a verbatim literal, is read as one string
literal with the string for its value and all of the spelling for its text. -/
theorem tokenize_quotation {quote : Char} (quoted : quote = '"' ∨ quote = '\'') (s : String) :
    (∀ pieces : List (List Char), List.Forall₂ (Literal.Spells quote) s.toList pieces →
      ∀ text : String, text.toList = quote :: (pieces.flatten ++ [quote]) →
        text.toList.length ≤ maxLength →
        tokenize text = .ok [⟨.stringLiteral, text, some (.string s)⟩]) ∧
    ((∀ c ∈ s.toList, c ≠ '\x00' ∧ isLineBreak c = false) →
      ∀ text : String, text.toList = '@' :: quote :: (Literal.doubled quote s.toList ++ [quote]) →
        text.toList.length ≤ maxLength →
        tokenize text = .ok [⟨.stringLiteral, text, some (.string s)⟩]) := by
  have quoted := Literal.isQuote_iff.mpr quoted
  constructor
  · intro pieces spelled text whole short
    have opens : opensString (quote :: (pieces.flatten ++ [quote])) :=
      opensString_cons.mpr (.inr quoted)
    have read : Literal.string (quote :: (pieces.flatten ++ [quote])) = (s.toList, []) := by
      rw [Literal.string_of_quote quoted, Literal.escapedBody_spelled quoted spelled]
    rw [tokenize_eq_ok short, whole, tokens_stringLiteral opens read, ← whole,
      String.ofList_toList, String.ofList_toList]
  · intro plain text whole short
    have opens : opensString ('@' :: quote :: (Literal.doubled quote s.toList ++ [quote])) := quoted
    have read : Literal.string ('@' :: quote :: (Literal.doubled quote s.toList ++ [quote])) =
        (s.toList, []) := by
      apply Literal.verbatimBody_doubled
      · intro c inside
        simp [Literal.endsString, plain c inside]
      · exact quoted
      · nofun
    rw [tokenize_eq_ok short, whole, tokens_stringLiteral opens read, ← whole,
      String.ofList_toList, String.ofList_toList]

/-- A delimiter, a letter, a tab and an `é`, each in one of the ways it can be written. -/
theorem tokenize_quotation_mixed :
    List.Forall₂ (Literal.Spells '\'') "'a\té".toList
      [['\\', '\''], ['a'], ['\\', 't'], ['\\', 'u', '0', '0', 'E', '9']] ∧
    (∀ c ∈ "'a\té".toList, c ≠ '\x00' ∧ isLineBreak c = false) ∧
    tokenize "'\\'a\\t\\u00E9'" =
      .ok [⟨.stringLiteral, "'\\'a\\t\\u00E9'", some (.string "'a\té")⟩] ∧
    tokenize "@'''a\té'" = .ok [⟨.stringLiteral, "@'''a\té'", some (.string "'a\té")⟩] := by
  have code : Denotes 16 ['0', '0', 'E', '9'] 'é'.toNat :=
    ⟨[0, 0, 14, 9], by decide, by decide⟩
  have spelled : List.Forall₂ (Literal.Spells '\'') "'a\té".toList
      [['\\', '\''], ['a'], ['\\', 't'], ['\\', 'u', '0', '0', 'E', '9']] :=
    .cons (.letter (by decide)) (.cons (.itself (by decide) (by decide) (by decide) (by decide))
      (.cons (.letter (by decide)) (.cons (.short rfl code) .nil)))
  have plain : ∀ c ∈ "'a\té".toList, c ≠ '\x00' ∧ isLineBreak c = false := by
    intro c inside
    have held :=
      (List.all_eq_true (p := fun c => c ≠ '\x00' && !isLineBreak c)).mp (by decide) c inside
    simpa using held
  obtain ⟨escaped, verbatim⟩ := tokenize_quotation (.inr rfl) "'a\té"
  exact ⟨spelled, plain, escaped _ spelled _ (by decide) (by decide),
    verbatim plain _ (by decide) (by decide)⟩

end Lexer

end SlotScript
