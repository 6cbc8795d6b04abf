import SlotScript.Token.Lexer
import SlotScript.Proofs.Token.Literal

/-!
# A token is its kind and its text

Two tokens of one kind with the same text are the same token, values included. A literal is read
from its own text, so that text decides which string or number it denotes, down to the sign of a
zero and the scale of a decimal.
-/

namespace SlotScript

open SlotScript.Text

/-- The token a text is read as when its kind is known. -/
def Token.spelled (kind : TokenKind) (text : String) : Token :=
  match kind with
  | .identifier => .identifier text
  | .stringLiteral => (Lexer.stringLiteral text.toList).1
  | .numericLiteral => (Lexer.numericLiteral text.toList).1
  | kind => .ofKind kind

/-- Whether the kind and the text of a token say all there is to it. -/
def Token.Faithful (token : Token) : Prop :=
  token = .spelled token.kind token.text

theorem Token.Faithful.eq {a b : Token} (ha : a.Faithful) (hb : b.Faithful)
    (kind : a.kind = b.kind) (text : a.text = b.text) : a = b :=
  ha.trans ((congrArg₂ spelled kind text).trans hb.symm)

namespace Lexer

theorem identifier_faithful (name : String) : (Token.identifier name).Faithful := rfl

/-- A kind with a fixed text has one token. -/
theorem ofKind_faithful {kind : TokenKind} (fixed : kind.text?.isSome) :
    (Token.ofKind kind).Faithful := by
  cases kind <;> first | rfl | cases fixed

theorem toList_consumed (text rest : List Char) :
    (consumed text rest).toList = text.take (text.length - rest.length) :=
  String.toList_ofList

/-- All of a text is consumed when nothing is left of it. -/
theorem consumed_toList (text : String) : consumed text.toList [] = text := by
  simp [consumed]

theorem consumed_nil (text : List Char) : consumed text [] = String.ofList text := by
  simp [consumed]

theorem stringLiteral_faithful (text : List Char) : (stringLiteral text).1.Faithful := by
  have alone := (Literal.string_local text).alone
  rw [← toList_consumed] at alone
  simp only [Token.Faithful, Token.spelled, stringLiteral, alone, consumed_toList]

theorem numericLiteral_faithful (text : List Char) : (numericLiteral text).1.Faithful := by
  have alone := (Literal.number_local text).alone
  rw [← toList_consumed] at alone
  simp only [Token.Faithful, Token.spelled, numericLiteral, alone, consumed_toList]

theorem operator_faithful {single : TokenKind} {longer : List (Char × TokenKind)}
    (fixed : ∀ kind ∈ single :: longer.map Prod.snd, kind.text?.isSome) (rest : List Char) :
    (operator single longer rest).1.Faithful := by
  fun_cases operator single longer rest with
  | case1 c after kind found =>
    obtain ⟨before, behind, rfl, -⟩ := List.lookup_eq_some_iff.mp found
    exact ofKind_faithful (fixed kind (by simp))
  | case2 => exact ofKind_faithful (fixed _ (.head _))
  | case3 => exact ofKind_faithful (fixed _ (.head _))

theorem doubling_faithful {c : Char} {single double doubleEquals : TokenKind}
    {longer : List (Char × TokenKind)}
    (fixed : ∀ kind ∈ single :: longer.map Prod.snd, kind.text?.isSome)
    (fixedDouble : ∀ kind ∈ [double, doubleEquals], kind.text?.isSome) (rest : List Char) :
    (doubling c single double doubleEquals longer rest).1.Faithful := by
  fun_cases doubling c single double doubleEquals longer rest with
  | case1 => exact operator_faithful fixedDouble _
  | case2 => exact operator_faithful fixed _
  | case3 => exact ofKind_faithful (fixed _ (.head _))

theorem keyword?_text {text : String} {kind : TokenKind}
    (found : TokenKind.keyword? text = some kind) : kind.text? = some text := by
  unfold TokenKind.keyword? at found
  simpa using List.find?_some found

theorem plainIdentifier?_faithful {first : Char} {rest after : List Char} {token : Token}
    (read : plainIdentifier? first rest = some (token, after)) : token.Faithful := by
  simp only [plainIdentifier?] at read
  split at read
  · cases read
  split at read
  case h_1 kind found =>
    cases read
    split
    · exact ofKind_faithful (by rw [keyword?_text found]; rfl)
    · exact identifier_faithful _
  case h_2 =>
    cases read
    exact identifier_faithful _

theorem identifier_token_faithful (first : Char) (rest : List Char) :
    (identifier first rest).1.Faithful := by
  unfold identifier
  cases read : plainIdentifier? first rest with
  | some found => exact plainIdentifier?_faithful read
  | none =>
    simp only [Option.getD_none, generalIdentifier]
    split <;> exact identifier_faithful _

theorem afterAt_faithful (rest : List Char) : (afterAt rest).1.Faithful := by
  fun_cases afterAt rest with
  | case1 => exact ofKind_faithful rfl
  | case2 => exact stringLiteral_faithful _
  | case3 => exact ofKind_faithful rfl
  | case4 => exact identifier_token_faithful _ _

theorem tokenFrom_faithful (first : Char) (rest : List Char) :
    (tokenFrom first rest).1.Faithful := by
  unfold tokenFrom
  split <;> first
    | exact operator_faithful (by decide) _
    | exact doubling_faithful (by decide) (by decide) _
    | exact ofKind_faithful rfl
    | exact afterAt_faithful _
    | exact stringLiteral_faithful _
    | (split
       · exact numericLiteral_faithful _
       · exact identifier_token_faithful _ _)

theorem next?_faithful {text rest : List Char} {token : Token}
    (read : next? text = some (token, rest)) : token.Faithful := by
  unfold next? at read
  split at read
  case h_1 => cases read
  case h_2 first after _ =>
    have same : (tokenFrom first after).1 = token := congrArg Prod.fst (Option.some.inj read)
    exact same ▸ tokenFrom_faithful first after

theorem tokens_faithful (text : List Char) : ∀ token ∈ tokens text, token.Faithful := by
  fun_induction tokens text with
  | case1 => exact List.forall_mem_nil _
  | case2 text token rest read _ ih =>
    exact List.forall_mem_cons.mpr ⟨next?_faithful read, ih⟩

theorem tokens_eq (text : List Char) :
    tokens text = ((next? text).map fun read => read.1 :: tokens read.2).getD [] := by
  rw [tokens]
  split
  case h_1 none => simp only [none, Option.map_none, Option.getD_none]
  case h_2 found => simp only [found, Option.map_some, Option.getD_some]

theorem tokens_nil : tokens [] = [] := tokens_eq []

theorem tokens_separator {c : Char} (apart : isSeparator c) (text : List Char) :
    tokens (c :: text) = tokens text := by
  have same : next? (c :: text) = next? text := by
    unfold next?
    rw [List.dropWhile_cons_of_pos apart]
  rw [tokens_eq, same, ← tokens_eq]

theorem tokens_cons {first : Char} (solid : isSeparator first = false) (rest : List Char) :
    tokens (first :: rest) = (tokenFrom first rest).1 :: tokens (tokenFrom first rest).2 := by
  have read : next? (first :: rest) = some (tokenFrom first rest) := by
    unfold next?
    rw [List.dropWhile_cons_of_neg (by simp [solid])]
  rw [tokens_eq, read]
  rfl

/-- A text that is used up by its first token. -/
theorem tokens_single {first : Char} {rest : List Char} {token : Token}
    (solid : isSeparator first = false) (read : tokenFrom first rest = (token, [])) :
    tokens (first :: rest) = [token] := by
  rw [tokens_cons solid, read, tokens_nil]

/-- A text that is not too long is read. -/
theorem tokenize_eq_ok {text : String} (short : text.toList.length ≤ maxLength) :
    tokenize text = .ok (tokens text.toList) := by
  simp only [tokenize, characters, if_neg (Nat.not_lt.mpr short)]
  rfl

theorem tokenize_ofList {text : List Char} (short : text.length ≤ maxLength) :
    tokenize (String.ofList text) = .ok (tokens text) := by
  rw [tokenize_eq_ok (by rwa [String.toList_ofList]), String.toList_ofList]

/-- Every token of a text is determined by its kind and its own text. -/
theorem tokenize_faithful {text : String} {read : List Token} (h : tokenize text = .ok read) :
    ∀ token ∈ read, token.Faithful := by
  unfold tokenize at h
  cases found : characters text with
  | error e => simp [found] at h
  | ok whole =>
    rw [found] at h
    cases h
    exact tokens_faithful whole

end Lexer

end SlotScript
