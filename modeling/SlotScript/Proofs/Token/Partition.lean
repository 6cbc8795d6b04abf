import SlotScript.Proofs.Token.Interchange

/-! # Tokens divide up their text

Every step of the lexer skips separators and takes at least one character behind them, whatever the
text. Nothing is dropped and nothing is read twice: what is skipped and what is taken make up the
text, one after the other. All tokens but names are spelled as they are taken, and an operator is
the longest one that stands there.
-/

namespace SlotScript

open SlotScript.Text

/-- The kinds of operators and of punctuation, with a lone `@`. -/
def TokenKind.operators : List TokenKind :=
  fixed.filter fun kind => !kind.isName

namespace Lexer

/-- What may follow these characters in an operator. -/
def continuations (front : List Char) : List (List Char) :=
  let texts := TokenKind.operators.filterMap TokenKind.text?
  ((texts.map String.toList).filter front.isPrefixOf).map (List.drop front.length)

theorem mem_continuations {front more : List Char} {kind : TokenKind} {op : String}
    (operator : kind ∈ TokenKind.operators) (fixed : kind.text? = some op)
    (goesOn : op.toList = front ++ more) : more ∈ continuations front := by
  have listed : op ∈ TokenKind.operators.filterMap TokenKind.text? :=
    List.mem_filterMap.mpr ⟨kind, operator, fixed⟩
  apply List.mem_map.mpr
  refine ⟨op.toList, List.mem_filter.mpr ⟨List.mem_map_of_mem listed, ?_⟩, ?_⟩
  · rw [goesOn, List.isPrefixOf_iff_prefix]
    exact List.prefix_append front more
  · rw [goesOn, List.drop_left]

/-- The characters that may come next in an operator after these. -/
def continuers (front : List Char) : List Char := (continuations front).filterMap List.head?

theorem mem_continuers {front more : List Char} {c : Char} (goesOn : more ∈ continuations front)
    (first : c ∈ more.head?) : c ∈ continuers front :=
  List.mem_filterMap.mpr ⟨more, goesOn, first⟩

/-- The token and the rest that a text is read as: all but names are spelled as they are taken, and
of the operators that the text starts with none is longer than the one that is read. -/
structure Reads (text : List Char) (read : Token × List Char) : Prop where
  spelled : read.1.kind ≠ .identifier → read.1.text = consumed text read.2
  longest : read.1.kind ∈ TokenKind.operators → read.1.kind.text? = some read.1.text ∧
    ∀ kind ∈ TokenKind.operators, ∀ op : String, kind.text? = some op → op.toList <+: text →
      op.toList.length + read.2.length ≤ text.length

/-- A token that is no operator. -/
theorem Reads.of_spelled {text : List Char} {read : Token × List Char}
    (other : read.1.kind ∉ TokenKind.operators)
    (spelled : read.1.kind ≠ .identifier → read.1.text = consumed text read.2) :
    Reads text read :=
  ⟨spelled, fun operator => absurd operator other⟩

theorem consumed_front (front rest : List Char) :
    consumed (front ++ rest) rest = String.ofList front := by
  simp [consumed]

/-- An operator that is read off the front of a text, which no operator goes on from. -/
theorem Reads.of_front {front rest : List Char} {kind : TokenKind}
    (fixed : kind.text? = some (String.ofList front))
    (ends : ∀ more ∈ continuations front, more <+: rest → more = []) :
    Reads (front ++ rest) (.ofKind kind, rest) := by
  constructor
  case spelled =>
    intro _
    rw [consumed_front]
    simp only [Token.ofKind, fixed, Option.getD_some]
  case longest =>
    intro _
    have own : (Token.ofKind kind).kind.text? = some (Token.ofKind kind).text := by
      simp only [Token.ofKind, fixed, Option.getD_some]
    refine ⟨own, ?_⟩
    intro other operator op spelled inside
    dsimp only
    rw [List.length_append]
    by_cases short : op.toList.length ≤ front.length
    · omega
    -- A longer operator goes on from the front.
    · have goesOn : front <+: op.toList :=
        List.prefix_of_prefix_length_le (List.prefix_append front rest) inside (by omega)
      obtain ⟨more, split⟩ := goesOn
      rw [← split] at inside
      have nothing := ends more (mem_continuations operator spelled split.symm)
        ((List.prefix_append_right_inj front).mp inside)
      rw [← split, nothing, List.append_nil] at short
      exact absurd (Nat.le_refl _) short

/-- The characters in a table are spelled out in the kinds they select, and no operator goes on from
these kinds. -/
structure Selects (front : List Char) (single : TokenKind) (longer : List (Char × TokenKind)) :
    Prop where
  spelled : single.text? = some (String.ofList front)
  spelledLonger : ∀ entry ∈ longer, entry.2.text? = some (String.ofList (front ++ [entry.1]))
  ends : ∀ entry ∈ longer, continuations (front ++ [entry.1]) = [[]]

theorem Selects.reads {front rest : List Char} {single : TokenKind}
    {longer : List (Char × TokenKind)} (selects : Selects front single longer)
    (known : ∀ c ∈ continuers front, c ∈ longer.map Prod.fst ∨ rest.head? ≠ some c) :
    Reads (front ++ rest) (operator single longer rest) := by
  fun_cases operator single longer rest with
  | case1 c after kind found =>
    obtain ⟨before, behind, rfl, -⟩ := List.lookup_eq_some_iff.mp found
    have member : (c, kind) ∈ before ++ (c, kind) :: behind := by simp
    have split : front ++ c :: after = front ++ [c] ++ after := by simp
    rw [split]
    apply Reads.of_front (selects.spelledLonger _ member)
    intro more goesOn _
    rw [selects.ends _ member] at goesOn
    exact List.mem_singleton.mp goesOn
  | case2 c after unfound =>
    apply Reads.of_front selects.spelled
    intro more goesOn inside
    cases more with
    | nil => rfl
    | cons d more =>
      obtain ⟨rfl, -⟩ := List.cons_prefix_cons.mp inside
      rcases known d (mem_continuers goesOn rfl) with listed | other
      · obtain ⟨entry, member, rfl⟩ := List.mem_map.mp listed
        have missing := List.lookup_eq_none_iff.mp unfound entry member
        simp at missing
      · exact absurd rfl other
  | case3 =>
    apply Reads.of_front selects.spelled
    intro more _ inside
    exact List.prefix_nil.mp inside

section

variable {c : Char} {single double doubleEquals : TokenKind} {longer : List (Char × TokenKind)}
  {rest : List Char}

/-- All operators that start with a character are in its table. -/
theorem reads_operator (selects : Selects [c] single longer)
    (known : (continuers [c]).all fun d => d ∈ longer.map Prod.fst) :
    Reads (c :: rest) (operator single longer rest) := by
  apply selects.reads
  intro d next
  have listed := List.all_eq_true.mp known d next
  exact .inl (by simpa using listed)

/-- All operators that start with a character are in its table, or start with two of it. -/
theorem reads_doubling (selects : Selects [c] single longer)
    (selectsDouble : Selects [c, c] double [('=', doubleEquals)])
    (known : (continuers [c]).all fun d => d = c ∨ d ∈ longer.map Prod.fst)
    (knownDouble : (continuers [c, c]).all (· = '=')) :
    Reads (c :: rest) (doubling c single double doubleEquals longer rest) := by
  fun_cases doubling c single double doubleEquals longer rest with
  | case1 after =>
    apply selectsDouble.reads
    intro d next
    have equals := List.all_eq_true.mp knownDouble d next
    exact .inl (by simpa using equals)
  | case2 d after other =>
    apply selects.reads
    intro e next
    have listed := List.all_eq_true.mp known e next
    rcases of_decide_eq_true listed with rfl | listed
    · exact .inr (by simpa using other)
    · exact .inl listed
  | case3 =>
    apply Reads.of_front selects.spelled
    intro more _ inside
    exact List.prefix_nil.mp inside

end

theorem not_operator_of_name {kind : TokenKind} (name : kind.isName) :
    kind ∉ TokenKind.operators := by
  intro operator
  have other := (List.mem_filter.mp operator).2
  simp [name] at other

theorem reads_plainIdentifier {first : Char} {rest : List Char} {read : Token × List Char}
    (found : plainIdentifier? first rest = some read) : Reads (first :: rest) read := by
  have whole : first :: rest =
      (first :: rest.takeWhile isAsciiPart) ++ rest.dropWhile isAsciiPart :=
    congrArg (first :: ·) List.takeWhile_append_dropWhile.symm
  simp only [plainIdentifier?] at found
  split at found
  · cases found
  split at found
  case h_1 kind keyword =>
    have listed := List.mem_of_find?_eq_some keyword
    have names : ∀ kind ∈ [TokenKind.parameterWord, .selfWord, .nullWord, .trueWord, .falseWord],
        kind.isName := by decide
    cases found
    split
    · apply Reads.of_spelled (not_operator_of_name (names kind listed))
      intro _
      rw [whole, consumed_front]
      simp only [Token.ofKind, keyword?_text keyword, Option.getD_some]
    · apply Reads.of_spelled (not_operator_of_name rfl)
      intro other
      exact absurd rfl other
  case h_2 =>
    cases found
    apply Reads.of_spelled (not_operator_of_name rfl)
    intro other
    exact absurd rfl other

theorem reads_identifier (first : Char) (rest : List Char) :
    Reads (first :: rest) (identifier first rest) := by
  unfold identifier
  cases found : plainIdentifier? first rest with
  | some read => exact reads_plainIdentifier found
  | none =>
    have name : (generalIdentifier first rest).1.kind = .identifier := by
      fun_cases generalIdentifier first rest <;> rfl
    apply Reads.of_spelled
    · apply not_operator_of_name
      rw [Option.getD_none, name]
      rfl
    · intro other
      exact absurd name other

theorem reads_stringLiteral (text : List Char) : Reads text (stringLiteral text) := by
  have other : TokenKind.stringLiteral ∉ TokenKind.operators := by decide
  apply Reads.of_spelled other
  intro _
  rfl

theorem reads_numericLiteral (text : List Char) : Reads text (numericLiteral text) := by
  have other : TokenKind.numericLiteral ∉ TokenKind.operators := by decide
  apply Reads.of_spelled other
  intro _
  rfl

theorem reads_alone {c : Char} {kind : TokenKind} (fixed : kind.text? = some (String.ofList [c]))
    (ends : continuations [c] = [[]]) (rest : List Char) :
    Reads (c :: rest) (.ofKind kind, rest) := by
  apply Reads.of_front fixed
  intro more goesOn _
  rw [ends] at goesOn
  exact List.mem_singleton.mp goesOn

theorem reads_afterAt (rest : List Char) : Reads ('@' :: rest) (afterAt rest) := by
  fun_cases afterAt rest with
  | case1 => exact reads_alone rfl (by decide) []
  | case2 => exact reads_stringLiteral _
  | case3 => exact reads_alone rfl (by decide) _
  | case4 => exact reads_identifier _ _

theorem reads_tokenFrom (first : Char) (rest : List Char) :
    Reads (first :: rest) (tokenFrom first rest) := by
  unfold tokenFrom
  split <;> first
    | exact reads_operator ⟨rfl, by decide, by decide⟩ (by decide)
    | exact reads_doubling ⟨rfl, by decide, by decide⟩ ⟨rfl, by decide, by decide⟩ (by decide)
        (by decide)
    | exact reads_alone rfl (by decide) rest
    | exact reads_afterAt rest
    | exact reads_stringLiteral _
    | (split
       · exact reads_numericLiteral _
       · exact reads_identifier _ _)

/-- What is used up at the front of a text for one token. -/
structure Piece where
  skipped : List Char
  taken : List Char
  token : Token

def Piece.text (p : Piece) : List Char := p.skipped ++ p.taken

/-- The lexer comes from the front of a text to `rest` in one step: it skips separators and takes
all else for the token. -/
structure Piece.Before (rest : List Char) (p : Piece) : Prop where
  next : next? (p.text ++ rest) = some (p.token, rest)
  skipped : ∀ c ∈ p.skipped, isSeparator c
  taken : ∃ first behind, p.taken = first :: behind ∧ isSeparator first = false
  /-- The text of a literal, an operator or a keyword is what was taken. -/
  spelled : p.token.kind ≠ .identifier → p.token.text.toList = p.taken
  /-- An operator is the longest one that stands behind what was skipped. -/
  longest : p.token.kind ∈ TokenKind.operators → p.token.kind.text? = some p.token.text ∧
    ∀ kind ∈ TokenKind.operators, ∀ op : String, kind.text? = some op →
      op.toList <+: p.taken ++ rest → op.toList.length ≤ p.taken.length

/-- The pieces that a text is read in, one step after the other, up to `tail`, where the lexer finds
nothing more. -/
inductive Pieces (tail : List Char) : List Piece → List Char → Prop
  | done : next? tail = none → (∀ c ∈ tail, isSeparator c) → Pieces tail [] tail
  | piece {p : Piece} {pieces : List Piece} {rest : List Char} : p.Before rest →
      Pieces tail pieces rest → Pieces tail (p :: pieces) (p.text ++ rest)

theorem next?_eq_none {text : List Char} : next? text = none ↔ ∀ c ∈ text, isSeparator c := by
  unfold next?
  cases left : text.dropWhile isSeparator with
  | nil => simpa using List.dropWhile_eq_nil_iff.mp left
  | cons first rest =>
    refine iff_of_false nofun ?_
    intro all
    rw [List.dropWhile_eq_nil_iff.mpr all] at left
    cases left

/-- What a step has used up is a piece. -/
theorem before_of_next {text rest : List Char} {token : Token}
    (read : next? text = some (token, rest)) :
    ∃ p : Piece, text = p.text ++ rest ∧ p.token = token ∧ p.Before rest := by
  have whole : text.takeWhile isSeparator ++ text.dropWhile isSeparator = text :=
    List.takeWhile_append_dropWhile
  have found := read
  unfold next? at found
  split at found
  case h_1 => cases found
  case h_2 first after left =>
    have same : tokenFrom first after = (token, rest) := Option.some.inj found
    have solid : isSeparator first = false := by
      have stops := List.head?_dropWhile_not isSeparator text
      simpa [left] using stops
    obtain ⟨behind, split⟩ := tokenFrom_suffix first after
    rw [same] at split
    have taken : first :: after = (first :: behind) ++ rest := by rw [← split, List.cons_append]
    have reads := reads_tokenFrom first after
    rw [same, taken] at reads
    rw [left, taken, ← List.append_assoc] at whole
    refine ⟨⟨text.takeWhile isSeparator, first :: behind, token⟩, whole.symm, rfl, ?_⟩
    constructor
    case next => rwa [Piece.text, whole]
    case skipped =>
      intro c member
      exact (List.all_eq_true.mp (List.all_takeWhile)) c member
    case taken => exact ⟨first, behind, rfl, solid⟩
    case spelled =>
      intro other
      rw [reads.spelled other, consumed_front, String.toList_ofList]
    case longest =>
      intro operator
      obtain ⟨own, longest⟩ := reads.longest operator
      refine ⟨own, ?_⟩
      intro kind listed op fixed inside
      have bound := longest kind listed op fixed inside
      rw [List.length_append] at bound
      exact Nat.le_of_add_le_add_right bound

theorem pieces_tokens (text : List Char) :
    ∃ pieces tail, Pieces tail pieces text ∧ tokens text = pieces.map Piece.token := by
  fun_induction tokens text with
  | case1 text nothing =>
    exact ⟨[], text, .done nothing (next?_eq_none.mp nothing), rfl⟩
  | case2 text token rest read _ ih =>
    obtain ⟨p, rfl, rfl, before⟩ := before_of_next read
    obtain ⟨pieces, tail, further, same⟩ := ih
    exact ⟨p :: pieces, tail, .piece before further, by rw [same, List.map_cons]⟩

theorem Pieces.text_eq {tail text : List Char} {pieces : List Piece}
    (read : Pieces tail pieces text) :
    text = pieces.flatMap Piece.text ++ tail ∧ (∀ c ∈ tail, isSeparator c) ∧
      pieces.length ≤ text.length := by
  induction read with
  | done _ apart => exact ⟨rfl, apart, Nat.zero_le _⟩
  | @piece p pieces rest before _ ih =>
    obtain ⟨same, apart, fewer⟩ := ih
    obtain ⟨first, behind, taken, -⟩ := before.taken
    refine ⟨?_, apart, ?_⟩
    · conv_lhs => rw [same]
      rw [List.flatMap_cons, List.append_assoc]
    · simp only [Piece.text, taken, List.length_cons, List.length_append]
      omega

/-- Wherever the lexer stands before anything but separators, it takes a piece off the front of the
text. The pieces of any text and the separators behind the last one make up the text, and there is
one token for each piece, so there are no more tokens than characters. -/
theorem tokens_partition (text : List Char) :
    ((∃ c ∈ text, isSeparator c = false) →
      ∃ (p : Piece) (rest : List Char), text = p.text ++ rest ∧ p.Before rest) ∧
    ∃ pieces tail, Pieces tail pieces text ∧
      text = pieces.flatMap Piece.text ++ tail ∧ (∀ c ∈ tail, isSeparator c) ∧
      tokens text = pieces.map Piece.token ∧ (tokens text).length ≤ text.length ∧
      (text.length ≤ maxLength →
        tokenize (String.ofList text) = .ok (pieces.map Piece.token)) := by
  constructor
  · rintro ⟨c, member, solid⟩
    cases read : next? text with
    | none =>
      have apart := next?_eq_none.mp read c member
      cases apart.symm.trans solid
    | some found =>
      obtain ⟨p, whole, -, before⟩ := before_of_next read
      exact ⟨p, found.2, whole, before⟩
  · obtain ⟨pieces, tail, read, same⟩ := pieces_tokens text
    obtain ⟨whole, apart, fewer⟩ := read.text_eq
    refine ⟨pieces, tail, read, whole, apart, same, ?_, ?_⟩
    · rwa [same, List.length_map]
    · intro short
      rw [tokenize_ofList short, same]

end Lexer

end SlotScript
