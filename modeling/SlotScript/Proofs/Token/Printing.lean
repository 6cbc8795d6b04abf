import SlotScript.Proofs.Token.Numeral
import SlotScript.Proofs.Token.Quotation

/-! # Tokens are read as they were printed

Tokens can be printed one after the other, each in any of its spellings, as long as something stands
between two of them. A space, a tab or a line break will do: none of them obscures the word before
it, so every token is read as it would be read alone, up to the blank and no further.
-/

namespace SlotScript

open SlotScript.Text

/-- The ways to print a token. -/
inductive Token.Prints : Token → List Char → Prop
  /-- An operator, a mark of punctuation, a keyword or a lone `@`. -/
  | fixed {kind : TokenKind} {text : String} : kind.text? = some text →
      Prints (.ofKind kind) text.toList
  | name {word : List Char} : Lexer.isWord word →
      TokenKind.keyword? (String.ofList word) = none →
      Prints (.identifier (String.ofList word)) word
  /-- An integer of 64 bits, in the first kind that its suffix allows and that holds it. -/
  | integer {n : Nat} {suffix : Literal.IntegerSuffix} {kind : NumericKind} {v : Value}
      {text : List Char} : n < 2 ^ 64 → Literal.SpellsInteger n suffix text →
      suffix.kinds.find? (·.holds n) = some kind → v.IsInteger kind n →
      Prints ⟨.numericLiteral, String.ofList text, some v⟩ text
  /-- A string between quotes, with escapes for what cannot stand for itself. -/
  | string {quote : Char} {s : String} {pieces : List (List Char)} : Literal.isQuote quote →
      List.Forall₂ (Literal.Spells quote) s.toList pieces →
      Prints ⟨.stringLiteral, String.ofList (quote :: (pieces.flatten ++ [quote])),
        some (.string s)⟩ (quote :: (pieces.flatten ++ [quote]))

/-- The characters that may stand between printed tokens. -/
def Lexer.blanks : List Char := [' ', '\t', '\r', '\n']

/-- Tokens printed one after the other, with blanks between any two of them. -/
inductive Token.Printout : List Token → List Char → Prop
  | nil : Printout [] []
  | last {token : Token} {text : List Char} : token.Prints text → Printout [token] text
  | cons {token next : Token} {behind : List Token} {text gap rest : List Char} :
      token.Prints text → gap ≠ [] → (∀ c ∈ gap, c ∈ Lexer.blanks) →
      Printout (next :: behind) rest → Printout (token :: next :: behind) (text ++ (gap ++ rest))

/-- A value is determined by its integral kind and the integer it is. -/
theorem Value.IsInteger.unique {v w : Value} {kind : NumericKind} {n : Nat}
    (integral : kind.holds n) (hv : v.IsInteger kind n) (hw : w.IsInteger kind n) : v = w := by
  obtain ⟨kindV, readV⟩ := hv
  obtain ⟨kindW, readW⟩ := hw
  have same : v.integral kind = w.integral kind := readV.trans readW.symm
  cases kind <;> cases v <;> cases kindV <;> cases w <;> cases kindW <;>
    simp only [Value.integral, Except.ok.injEq, Int.natCast_inj, Int32.toInt_inj, Int64.toInt_inj,
      UInt32.toNat_inj, UInt64.toNat_inj] at same
  case float | double | decimal => cases integral
  all_goals rw [same]

namespace Lexer

/-- Nothing, or a blank before all else. -/
def BlankFirst (text : List Char) : Prop :=
  ∀ c ∈ text.head?, c ∈ blanks

/-- A blank is one of the separators that every word is recognised before. -/
theorem blank_facts {c : Char} (blank : c ∈ blanks) :
    isSeparator c ∧ ∀ word, obscures c word = false := by
  have all : blanks.all fun c => isSeparator c ∧ isAscii c ∧ endsIdentifier c := by decide
  obtain ⟨apart, ascii, ends⟩ := of_decide_eq_true (List.all_eq_true.mp all c blank)
  refine ⟨apart, fun word => ?_⟩
  simp [obscures, ascii, ends]

theorem BlankFirst.apart {text : List Char} (blank : BlankFirst text) : Apart text := by
  intro c first
  exact (blank_facts (blank c first)).1

/-- A token that is read alone is read before blanks. -/
theorem tokenFrom_blank {first : Char} {rest t : List Char} {token : Token}
    (noString : opensString (first :: rest) = false) (alone : tokenFrom first rest = (token, []))
    (blank : BlankFirst t) : tokenFrom first (rest ++ t) = (token, t) := by
  cases t with
  | nil => rw [List.append_nil, alone]
  | cons c t =>
    obtain ⟨apart, shown⟩ := blank_facts (blank c rfl)
    rw [tokenFrom_append apart noString t, alone, before, shown]
    rfl

/-- The text of a kind is read as the token of this kind. -/
theorem tokenFrom_fixed {kind : TokenKind} {text : String} (fixed : kind.text? = some text) :
    ∃ first rest, text.toList = first :: rest ∧ isSeparator first = false ∧
      opensString (first :: rest) = false ∧ tokenFrom first rest = (.ofKind kind, []) := by
  cases kind <;> cases fixed <;> exact ⟨_, _, rfl, rfl, rfl, rfl⟩

theorem tokenFrom_name {word : List Char} (plain : isWord word)
    (free : TokenKind.keyword? (String.ofList word) = none) :
    ∃ first rest, word = first :: rest ∧ isSeparator first = false ∧
      opensString (first :: rest) = false ∧
      tokenFrom first rest = (.identifier (String.ofList word), []) := by
  cases word with
  | nil => cases plain
  | cons first rest =>
    have start := (Bool.and_eq_true_iff.mp plain).1
    have part := (plain_of_part (part_of_start start)).1
    have solid : isSeparator first = false := (Bool.or_eq_false_iff.mp part).2
    have noString : opensString (first :: rest) = false := by
      by_contra opens
      cases plain.symm.trans (isWord_of_opens (Bool.not_eq_false _ ▸ opens))
    have read := identifier_word plain apart_nil
    rw [List.append_nil, named, free, ite_self] at read
    exact ⟨first, rest, rfl, solid, noString, (tokenFrom_of_start start rest).trans read⟩

/-- A printed token is read as it was printed, up to the blanks that follow it. -/
theorem tokenFrom_printed {token : Token} {text : List Char} (printed : token.Prints text) :
    ∃ first rest, text = first :: rest ∧ isSeparator first = false ∧
      ∀ t, BlankFirst t → tokenFrom first (rest ++ t) = (token, t) := by
  cases printed with
  | fixed fixed =>
    obtain ⟨first, rest, whole, solid, noString, alone⟩ := tokenFrom_fixed fixed
    exact ⟨first, rest, whole, solid, fun t => tokenFrom_blank noString alone⟩
  | name plain free =>
    obtain ⟨first, rest, whole, solid, noString, alone⟩ := tokenFrom_name plain free
    exact ⟨first, rest, whole, solid, fun t => tokenFrom_blank noString alone⟩
  | @integer n suffix kind v _ small spelled chosen isInteger =>
    obtain ⟨first, rest, rfl, digit⟩ := spelled.head
    obtain ⟨w, size, read⟩ := Literal.number_spelled spelled
    rw [if_pos small] at size
    have same : Literal.integer w suffix = v := by
      obtain ⟨kind', chosen', isInteger'⟩ := Literal.integer_isInteger w suffix
      rw [size] at chosen' isInteger'
      obtain rfl : kind' = kind := Option.some.inj (chosen'.symm.trans chosen)
      have held : kind'.holds n := by simpa using List.find?_some chosen
      exact isInteger'.unique held isInteger
    have alone : numericLiteral (first :: rest) =
        (⟨.numericLiteral, String.ofList (first :: rest), some v⟩, []) := by
      simp only [numericLiteral, read, consumed_nil, same]
    refine ⟨first, rest, rfl, separator_of_digit digit, fun t blank => ?_⟩
    rw [tokenFrom_digit digit, numericLiteral_append blank.apart digit, alone]
    rfl
  | @string quote s pieces quoted spelled =>
    have opens (t : List Char) : opensString (quote :: (pieces.flatten ++ [quote] ++ t)) :=
      opensString_cons.mpr (.inr quoted)
    refine ⟨quote, _, rfl, (Literal.quote_plain quoted).2.2.2, fun t _ => ?_⟩
    have read : Literal.string (quote :: (pieces.flatten ++ [quote]) ++ t) = (s.toList, t) := by
      rw [List.cons_append, List.append_assoc, Literal.string_of_quote quoted]
      exact Literal.escapedBody_spelled quoted spelled
    have taken := consumed_append (List.nil_suffix (l := quote :: (pieces.flatten ++ [quote]))) t
    rw [tokenFrom_string (opens t), ← List.cons_append]
    simp only [stringLiteral, read, List.nil_append, String.ofList_toList] at taken ⊢
    rw [taken, consumed_nil]

theorem tokens_blanks {gap : List Char} (blank : ∀ c ∈ gap, c ∈ blanks) (rest : List Char) :
    tokens (gap ++ rest) = tokens rest := by
  induction gap with
  | nil => rfl
  | cons c gap ih =>
    obtain ⟨first, others⟩ := List.forall_mem_cons.mp blank
    rw [List.cons_append, tokens_separator (blank_facts first).1, ih others]

theorem tokens_printed {token : Token} {text t : List Char} (printed : token.Prints text)
    (blank : BlankFirst t) : tokens (text ++ t) = token :: tokens t := by
  obtain ⟨first, rest, rfl, solid, read⟩ := tokenFrom_printed printed
  rw [List.cons_append, tokens_cons solid, read t blank]

theorem tokens_printout {printed : List Token} {text : List Char}
    (printout : Token.Printout printed text) : tokens text = printed := by
  induction printout with
  | nil => exact tokens_nil
  | @last token text only =>
    have read := tokens_printed only (t := []) nofun
    rwa [List.append_nil, tokens_nil] at read
  | @cons token next behind text gap rest first spaced blank _ ih =>
    have blankFirst : BlankFirst (gap ++ rest) := by
      cases gap with
      | nil => exact (spaced rfl).elim
      | cons c gap =>
        rintro _ ⟨⟩
        exact blank c (.head _)
    rw [tokens_printed first blankFirst, tokens_blanks blank, ih]

/-- Tokens that are printed with blanks between them, in whatever spelling, are the tokens of the
text, with their kinds, texts and values. -/
theorem tokenize_printout {printed : List Token} {text : String}
    (printout : Token.Printout printed text.toList) (short : text.toList.length ≤ maxLength) :
    tokenize text = .ok printed := by
  rw [tokenize_eq_ok short, tokens_printout printout]

/-- A keyword and an `@` before blanks, digits before what would be their exponent, a quote inside
quotes, and an operator before a sign that it might have been taken together with. -/
def mixedTokens : List Token :=
  [.ofKind .selfWord, .ofKind .atSign,
    ⟨.numericLiteral, "3000000000", some (.uint32 3000000000)⟩, .identifier "e1",
    ⟨.stringLiteral, "'\\''", some (.string "'")⟩, .ofKind .questionQuestion, .ofKind .equals]

theorem tokenize_printout_mixed :
    Token.Printout mixedTokens "self\t@ 3000000000\r\ne1 '\\'' ?? =".toList ∧
    tokenize "self\t@ 3000000000\r\ne1 '\\'' ?? =" = .ok mixedTokens := by
  have digits : Denotes 10 "3000000000".toList 3000000000 :=
    ⟨[3, 0, 0, 0, 0, 0, 0, 0, 0, 0], by decide, by decide⟩
  have spelled : Literal.SpellsInteger 3000000000 ⟨false, false⟩ ("3000000000".toList ++ []) :=
    .decimal ⟨by decide, digits⟩ (by decide) (by decide)
  have integer : Token.Prints ⟨.numericLiteral, "3000000000", some (.uint32 3000000000)⟩
      "3000000000".toList := .integer (by decide) spelled rfl ⟨rfl, rfl⟩
  have escaped : List.Forall₂ (Literal.Spells '\'') "'".toList [['\\', '\'']] :=
    .cons (.letter (by decide)) .nil
  have space : ∀ c ∈ [' '], c ∈ blanks := List.forall_mem_singleton.mpr (by decide)
  have tab : ∀ c ∈ ['\t'], c ∈ blanks := List.forall_mem_singleton.mpr (by decide)
  have newline : ∀ c ∈ ['\r', '\n'], c ∈ blanks :=
    List.forall_mem_cons.mpr ⟨by decide, List.forall_mem_singleton.mpr (by decide)⟩
  have operators : Token.Printout [.ofKind .questionQuestion, .ofKind .equals]
      ("??".toList ++ ([' '] ++ "=".toList)) :=
    .cons (.fixed rfl) nofun space (.last (.fixed rfl))
  have string : Token.Printout _ ("'\\''".toList ++ ([' '] ++ _)) :=
    .cons (.string rfl escaped) nofun space operators
  have name : Token.Printout _ ("e1".toList ++ ([' '] ++ _)) :=
    .cons (.name rfl rfl) nofun space string
  have number : Token.Printout _ ("3000000000".toList ++ (['\r', '\n'] ++ _)) :=
    .cons integer nofun newline name
  have lone : Token.Printout (.ofKind .atSign :: _) ("@".toList ++ ([' '] ++ _)) :=
    .cons (.fixed rfl) nofun space number
  have printout : Token.Printout mixedTokens ("self".toList ++ (['\t'] ++ _)) :=
    .cons (.fixed rfl) nofun tab lone
  exact ⟨printout, tokenize_printout printout (by decide)⟩

end Lexer

end SlotScript
