import Mathlib.Data.List.TakeWhile
import SlotScript.Proofs.Token.Separation
import SlotScript.Proofs.Token.Spelling

/-!
# Separators are nearly interchangeable

Where a token ends is decided by several tests on the character after it, and almost all of them
come out the same for every separator: what is read before a separator is what is read where the
text ends.

Two words are read differently before different separators. A keyword is one before the end of the
text and before the separators of the ASCII range, and an identifier before all others; `@` alone is
a token of its own before the four separators that end an identifier, and an identifier of one
character before all others. `tokenize_replace_iff` says that these are all the differences there
are.
-/

namespace SlotScript

open SlotScript.Text

/-- If the token is a string literal, it has its closing quote. -/
def Token.Closed (token : Token) : Prop :=
  token.kind = .stringLiteral → Literal.closed token.text.toList

namespace Lexer

variable {t : List Char}

theorem operator_append {single : TokenKind} {longer : List (Char × TokenKind)}
    (solid : longer.all (!isSeparator ·.1)) (apart : Apart t)
    (rest : List Char) :
    operator single longer (rest ++ t) =
      ((operator single longer rest).1, (operator single longer rest).2 ++ t) := by
  match rest, t with
  | [], [] => rfl
  | [], c :: t =>
    have unfound : longer.lookup c = none := by
      refine List.lookup_eq_none_iff.mpr fun entry inside => ?_
      have solid : isSeparator entry.1 = false := by
        simpa using List.all_eq_true.mp solid entry inside
      exact bne_iff_ne.mpr (ne_of_separator (apart c rfl) solid)
    simp [operator, unfound]
  | c :: rest, t => cases found : longer.lookup c <;> simp [operator, found]

theorem doubling_append {c : Char} {single double doubleEquals : TokenKind}
    {longer : List (Char × TokenKind)} (solidFirst : isSeparator c = false)
    (solid : longer.all (!isSeparator ·.1)) (apart : Apart t)
    (rest : List Char) :
    doubling c single double doubleEquals longer (rest ++ t) =
      ((doubling c single double doubleEquals longer rest).1,
        (doubling c single double doubleEquals longer rest).2 ++ t) := by
  match rest, t with
  | [], [] => rfl
  | [], d :: t =>
    have other : d ≠ c := ne_of_separator (apart d rfl) solidFirst
    have alone : operator single longer ([] ++ d :: t) = _ := operator_append solid apart []
    simpa [doubling, other, operator] using alone
  | d :: rest, t =>
    by_cases same : d = c
    · simp only [doubling, same, List.cons_append, if_true]
      exact operator_append rfl apart rest
    · simp only [doubling, same, List.cons_append, if_false]
      exact operator_append solid apart (d :: rest)

section Name

variable {atStart : Bool} {c : Char} {rest : List Char}

theorem generalName_stop (ends : endsIdentifier c || isSeparator c) :
    generalName atStart (c :: rest) = ([], c :: rest) := by
  rw [generalName, if_pos ends]

theorem generalName_escape {decoded : Char} {after : List Char}
    (goesOn : ¬ (endsIdentifier c || isSeparator c))
    (read : Literal.unicodeEscape? (c :: rest) = some (decoded, after)) :
    generalName atStart (c :: rest) =
      if fitsName atStart decoded then
        (decoded :: (generalName false after).1, (generalName false after).2)
      else ([], c :: rest) := by
  rw [generalName, if_neg goesOn]
  split
  case h_1 found =>
    cases read.symm.trans found
    rfl
  case h_2 none => cases read.symm.trans none

theorem generalName_char (goesOn : ¬ (endsIdentifier c || isSeparator c))
    (unread : Literal.unicodeEscape? (c :: rest) = none) :
    generalName atStart (c :: rest) =
      if !fitsName atStart c then ([], c :: rest)
      else if !isAscii c && isFormat c then generalName atStart rest
      else (c :: (generalName false rest).1, (generalName false rest).2) := by
  rw [generalName, if_neg goesOn]
  split
  case h_1 found => cases unread.symm.trans found
  case h_2 => rfl

end Name

theorem generalName_append (apart : Apart t) (atStart : Bool) (text : List Char) :
    generalName atStart (text ++ t) =
      ((generalName atStart text).1, (generalName atStart text).2 ++ t) := by
  fun_induction generalName atStart text with
  | case1 =>
    cases t with
    | nil => rw [List.nil_append, generalName]
    | cons c t => exact generalName_stop (by simp [apart c rfl])
  | case2 atStart c rest ends => exact generalName_stop ends
  | case3 atStart c rest goesOn decoded after read _ fits name left found ih =>
    obtain ⟨front, ⟨⟩, again⟩ := Literal.unicodeEscape?_split read
    rw [List.cons_append, List.append_assoc, generalName_escape goesOn (again _), if_pos fits, ih,
      found]
  | case4 atStart c rest goesOn decoded after read _ misfit =>
    obtain ⟨front, ⟨⟩, again⟩ := Literal.unicodeEscape?_split read
    rw [List.cons_append, List.append_assoc, generalName_escape goesOn (again _), if_neg misfit]
  | case5 atStart c rest goesOn unread misfit =>
    have unread : Literal.unicodeEscape? (c :: (rest ++ t)) = none :=
      Literal.unicodeEscape?_append_apart apart unread
    rw [List.cons_append, generalName_char goesOn unread, if_pos misfit]
  | case6 atStart c rest goesOn unread fits skipped ih =>
    have unread : Literal.unicodeEscape? (c :: (rest ++ t)) = none :=
      Literal.unicodeEscape?_append_apart apart unread
    rw [List.cons_append, generalName_char goesOn unread, if_neg fits, if_pos skipped, ih]
  | case7 atStart c rest goesOn unread fits kept name left found ih =>
    have unread : Literal.unicodeEscape? (c :: (rest ++ t)) = none :=
      Literal.unicodeEscape?_append_apart apart unread
    rw [List.cons_append, generalName_char goesOn unread, if_neg fits, if_neg kept, ih, found]

theorem generalIdentifier_append (apart : Apart t) (first : Char) (rest : List Char) :
    generalIdentifier first (rest ++ t) =
      ((generalIdentifier first rest).1, (generalIdentifier first rest).2 ++ t) := by
  have stop : ∀ c ∈ t.head?, decide (c = '@') = false := fun c inside =>
    decide_eq_false (ne_of_separator (apart c inside) (by decide))
  unfold generalIdentifier
  rw [← List.cons_append, (takeWhile_append_apart stop _).2, generalName_append apart]
  dsimp only
  split <;> rfl

theorem isAlphanum_of_ends {c : Char} (ends : endsIdentifier c) : c.isAlphanum = false := by
  simp only [endsIdentifier, Bool.or_eq_true, decide_eq_true_eq, List.contains_iff_mem] at ends
  obtain rfl | inside := ends
  · rfl
  · have other := (List.all_eq_true (p := (!·.isAlphanum))).mp (by decide) c inside
    simpa using other

theorem plain_of_part {c : Char} (part : isAsciiPart c) :
    (endsIdentifier c || isSeparator c) = false ∧ c ≠ '\\' ∧ isAscii c ∧ c ≠ '@' := by
  simp only [isAsciiPart, Bool.or_eq_true, decide_eq_true_eq] at part
  obtain rfl | plain := part
  · decide
  have inside := toNat_of_alphanum plain
  have solid : isSeparator c = false := by
    by_contra apart
    have := toNat_of_separator (Bool.not_eq_false _ ▸ apart)
    omega
  have goesOn : endsIdentifier c = false := by
    by_contra ends
    cases plain.symm.trans (isAlphanum_of_ends (Bool.not_eq_false _ ▸ ends))
  refine ⟨by rw [goesOn, solid]; rfl, ?_, ?_, ?_⟩
  · rintro rfl
    cases plain
  · simp only [isAscii, decide_eq_true_eq]
    omega
  · rintro rfl
    cases plain

theorem isAsciiPart_of_separator {c : Char} (apart : isSeparator c) : isAsciiPart c = false := by
  by_contra part
  have goesOn := (plain_of_part (Bool.not_eq_false _ ▸ part)).1
  simp [apart] at goesOn

theorem generalName_part {atStart : Bool} {c : Char} (part : isAsciiPart c)
    (fits : fitsName atStart c) (rest : List Char) :
    generalName atStart (c :: rest) =
      (c :: (generalName false rest).1, (generalName false rest).2) := by
  obtain ⟨goesOn, unescaped, ascii, -⟩ := plain_of_part part
  have unread : Literal.unicodeEscape? (c :: rest) = none := by
    unfold Literal.unicodeEscape?
    grind
  rw [generalName_char (by simp [goesOn]) unread]
  simp [fits, ascii]

theorem generalName_parts {rest : List Char} (parts : ∀ c ∈ rest, isAsciiPart c) :
    generalName false rest = (rest, []) := by
  induction rest with
  | nil => rw [generalName]
  | cons c rest ih =>
    obtain ⟨part, parts⟩ := List.forall_mem_cons.mp parts
    rw [generalName_part part (by simp [fitsName, part]), ih parts]

/-- A word of the plain form: what the names of most slots and all keywords are. -/
def isWord : List Char → Bool
  | [] => false
  | first :: rest => isAsciiStart first && rest.all isAsciiPart

section Word

variable {first c : Char} {rest : List Char}

theorem part_of_start (start : isAsciiStart first) : isAsciiPart first := by
  unfold isAsciiStart isAsciiPart Char.isAlphanum at *
  grind

/-- The general form reads a word as the plain form does. -/
theorem generalIdentifier_word (word : isWord (first :: rest)) :
    generalIdentifier first rest = (.identifier (String.ofList (first :: rest)), []) := by
  obtain ⟨start, parts⟩ := Bool.and_eq_true_iff.mp word
  have part := part_of_start start
  have name := generalName_part part (by simp [fitsName, start] : fitsName true first) rest
  rw [generalName_parts (List.all_eq_true.mp parts)] at name
  unfold generalIdentifier
  rw [List.dropWhile_cons_of_neg (by simpa using (plain_of_part part).2.2.2), name]
  rfl

theorem isWord_of_keyword {text : List Char} {kind : TokenKind}
    (keyword : TokenKind.keyword? (String.ofList text) = some kind) : isWord text := by
  have listed := List.mem_of_find?_eq_some keyword
  have spelled := keyword?_text keyword
  have words : ∀ kind ∈ [TokenKind.parameterWord, .selfWord, .nullWord, .trueWord, .falseWord],
      ∀ word ∈ kind.text?, isWord word.toList := by decide
  simpa using words kind listed _ spelled

/-- Whether the word is read as an identifier before the separator `c`, and as a token of another
kind where the text ends. -/
def obscures (c : Char) (word : List Char) : Bool :=
  (TokenKind.keyword? (String.ofList word)).isSome && !isAscii c ||
    word = ['@'] && !endsIdentifier c

theorem not_obscures (noWord : isWord (first :: rest) = false) (other : first :: rest ≠ ['@']) :
    obscures c (first :: rest) = false := by
  have noKeyword : TokenKind.keyword? (String.ofList (first :: rest)) = none := by
    refine Option.eq_none_iff_forall_ne_some.mpr fun kind keyword => ?_
    cases noWord.symm.trans (isWord_of_keyword keyword)
  unfold obscures
  rw [noKeyword, decide_eq_false other]
  rfl

theorem takeWhile_part (apart : Apart t) (text : List Char) :
    (text ++ t).takeWhile isAsciiPart = text.takeWhile isAsciiPart ∧
      (text ++ t).dropWhile isAsciiPart = text.dropWhile isAsciiPart ++ t :=
  takeWhile_append_apart (fun c inside => isAsciiPart_of_separator (apart c inside)) text

/-- Where an identifier stops before the end, what comes there decides how it is read. -/
theorem plainIdentifier?_append_of_stop (apart : Apart t) {d : Char} {after : List Char}
    (stops : rest.dropWhile isAsciiPart = d :: after) :
    plainIdentifier? first (rest ++ t) =
      (plainIdentifier? first rest).map fun read => (read.1, read.2 ++ t) := by
  obtain ⟨taken, left⟩ := takeWhile_part apart rest
  simp only [plainIdentifier?, taken, left, stops, List.cons_append, needsGeneral, atBoundary]
  split
  · rfl
  · split <;> rfl

/-- No identifier but a keyword is read differently before a separator. -/
theorem identifier_append_of_not_word (apart : Apart t) (noWord : isWord (first :: rest) = false) :
    identifier first (rest ++ t) = ((identifier first rest).1, (identifier first rest).2 ++ t) := by
  have same : plainIdentifier? first (rest ++ t) =
      (plainIdentifier? first rest).map fun read => (read.1, read.2 ++ t) := by
    cases left : rest.dropWhile isAsciiPart with
    | nil =>
      have noStart : isAsciiStart first = false := by
        rw [List.dropWhile_eq_nil_iff] at left
        simpa [isWord, List.all_eq_true.mpr left] using noWord
      simp [plainIdentifier?, noStart]
    | cons d after => exact plainIdentifier?_append_of_stop apart left
  unfold identifier
  rw [same, generalIdentifier_append apart]
  cases plainIdentifier? first rest <;> rfl

/-- The keyword a name spells, or the identifier. -/
def named (name : String) : Token :=
  match TokenKind.keyword? name with
  | some kind => .ofKind kind
  | none => .identifier name

theorem identifier_word (word : isWord (first :: rest)) (apart : Apart t) :
    identifier first (rest ++ t) =
      (if needsGeneral t then .identifier (String.ofList (first :: rest))
        else named (String.ofList (first :: rest)), t) := by
  obtain ⟨start, parts⟩ := Bool.and_eq_true_iff.mp word
  obtain ⟨taken, left⟩ := takeWhile_part apart rest
  rw [List.takeWhile_eq_self_iff.mpr (List.all_eq_true.mp parts)] at taken
  rw [List.dropWhile_eq_nil_iff.mpr (List.all_eq_true.mp parts), List.nil_append] at left
  have ends : atBoundary t := by
    cases t with
    | nil => rfl
    | cons c t => simp [atBoundary, apart c rfl]
  unfold identifier
  by_cases general : needsGeneral t
  · have unread : plainIdentifier? first (rest ++ t) = none := by
      simp [plainIdentifier?, left, general]
    rw [unread, Option.getD_none, generalIdentifier_append apart, generalIdentifier_word word,
      if_pos general]
    rfl
  · simp only [plainIdentifier?, taken, left, start, general, ends, named]
    cases TokenKind.keyword? (String.ofList (first :: rest)) <;> rfl

/-- The token of a text that goes on with a separator, when the token has been read of the text
alone. -/
def before (c : Char) (word : List Char) (token : Token) : Token :=
  if obscures c word then .identifier (String.ofList word) else token

theorem before_eq (noWord : isWord (first :: rest) = false) (other : first :: rest ≠ ['@'])
    (token : Token) : before c (first :: rest) token = token := by
  rw [before, not_obscures noWord other]
  rfl

theorem identifier_append (apart : isSeparator c) (other : first :: rest ≠ ['@'])
    (behind : List Char) :
    identifier first (rest ++ c :: behind) =
      (before c (first :: rest) (identifier first rest).1,
        (identifier first rest).2 ++ c :: behind) := by
  cases word : isWord (first :: rest) with
  | false =>
    rw [identifier_append_of_not_word (apart_cons apart behind) word, before_eq word other]
  | true =>
    have alone := identifier_word word apart_nil
    rw [List.append_nil] at alone
    have general : needsGeneral (c :: behind) = !isAscii c := by
      have unescaped := ne_of_separator apart (d := '\\') (by decide)
      simp [needsGeneral, unescaped]
    rw [identifier_word word (apart_cons apart behind), alone, general]
    unfold before obscures named
    generalize String.ofList (first :: rest) = name
    cases keyword : TokenKind.keyword? name <;> cases isAscii c <;>
      simp [other, needsGeneral]

end Word

/-- A lone `@` before a separator. -/
theorem afterAt_append {c : Char} (apart : isSeparator c) {rest : List Char}
    (unquoted : ∀ d ∈ rest.head?, Literal.isQuote d = false) (behind : List Char) :
    afterAt (rest ++ c :: behind) =
      (before c ('@' :: rest) (afterAt rest).1, (afterAt rest).2 ++ c :: behind) := by
  cases rest with
  | nil =>
    have noQuote : ¬ (c = '"' ∨ c = '\'') :=
      not_or.mpr ⟨ne_of_separator apart (by decide), ne_of_separator apart (by decide)⟩
    have alone : identifier '@' (c :: behind) = (.identifier "@", c :: behind) := by
      have single : identifier '@' [] = (.identifier "@", []) := by
        simp [identifier, plainIdentifier?, isAsciiStart, generalIdentifier, generalName]
      have noWord : isWord ['@'] = false := rfl
      simpa [single] using identifier_append_of_not_word (apart_cons apart behind) noWord
    have noKeyword : TokenKind.keyword? "@" = none := by decide
    cases ends : endsIdentifier c <;>
      simp [afterAt, noQuote, ends, before, obscures, noKeyword, alone]
  | cons d rest =>
    have noQuote : ¬ (d = '"' ∨ d = '\'') := by simpa [Literal.isQuote] using unquoted d rfl
    simp only [List.cons_append, afterAt, noQuote, if_false]
    split
    · rw [before_eq rfl (by simp)]
      rfl
    · have whole : '@' :: d :: rest ≠ ['@'] := by simp
      exact identifier_append apart whole behind

theorem consumed_append {text rest : List Char} (left : rest <:+ text) (t : List Char) :
    consumed (text ++ t) (rest ++ t) = consumed text rest := by
  have shorter := left.length_le
  unfold consumed
  rw [List.length_append, List.length_append, Nat.add_sub_add_right,
    List.take_append_of_le_length (by omega)]

theorem numericLiteral_append (apart : Apart t) {first : Char} {rest : List Char}
    (digit : isDigit 10 first) :
    numericLiteral (first :: (rest ++ t)) =
      ((numericLiteral (first :: rest)).1, (numericLiteral (first :: rest)).2 ++ t) := by
  have left : (Literal.number (first :: rest)).2 <:+ first :: rest :=
    Literal.suffix_cons_of_suffix first (Literal.number_suffix rest digit)
  unfold numericLiteral
  rw [← List.cons_append, Literal.number_append apart]
  exact congrArg (fun text => (Token.mk .numericLiteral text _, _)) (consumed_append left t)

/-- Whether a string literal starts here. -/
def opensString : List Char → Bool
  | '@' :: quote :: _ => Literal.isQuote quote
  | quote :: _ => Literal.isQuote quote
  | [] => false

theorem opensString_cons {first : Char} {rest : List Char} : opensString (first :: rest) ↔
    (∃ quote behind, first = '@' ∧ rest = quote :: behind ∧ Literal.isQuote quote) ∨
      Literal.isQuote first := by
  constructor
  · intro opens
    unfold opensString at opens
    split at opens
    case h_1 quote behind whole =>
      cases whole
      exact .inl ⟨quote, behind, rfl, rfl, opens⟩
    case h_2 whole =>
      cases whole
      exact .inr opens
    case h_3 whole => cases whole
  · rintro (⟨quote, behind, rfl, rfl, quoted⟩ | quoted)
    · exact quoted
    · obtain rfl | rfl := Literal.isQuote_iff.mp quoted <;> rfl

theorem tokenFrom_string {first : Char} {rest : List Char} (opens : opensString (first :: rest)) :
    tokenFrom first rest = stringLiteral (first :: rest) := by
  obtain ⟨quote, behind, rfl, rfl, quoted⟩ | quoted := opensString_cons.mp opens
  · simp [tokenFrom, afterAt, Literal.isQuote_iff.mp quoted]
  · obtain rfl | rfl := Literal.isQuote_iff.mp quoted <;> rfl

theorem isAsciiStart_of_digit {c : Char} (digit : isDigit 10 c) : isAsciiStart c = false := by
  have value : digit? 10 c ≠ none := by simpa [isDigit, Option.isSome_iff_ne_none] using digit
  have le (a b : Char) : a ≤ b ↔ a.toNat ≤ b.toNat := Iff.rfl
  have decimal : c.toNat ≤ 0x39 := by
    unfold digit? at value
    simp only [le] at value
    grind
  have ranges : c.isAlpha = (decide (c.val ≥ 'A'.val ∧ c.val ≤ 'Z'.val) ||
      decide (c.val ≥ 'a'.val) && decide (c.val ≤ 'z'.val)) := rfl
  have same : c.val.toNat = c.toNat := rfl
  have : 'A'.val.toNat = 0x41 ∧ 'a'.val.toNat = 0x61 ∧ '_'.toNat = 0x5F := ⟨rfl, rfl, rfl⟩
  rw [Bool.eq_false_iff]
  simp only [isAsciiStart, ranges, ne_eq, Bool.or_eq_true, Bool.and_eq_true, decide_eq_true_eq,
    ge_iff_le, UInt32.le_iff_toNat_le, same]
  rintro (rfl | start)
  · omega
  · omega

/-- A token before a separator is the one that is read where the text ends, unless the separator
obscures it. -/
theorem tokenFrom_append {c : Char} (apart : isSeparator c) {first : Char} {rest : List Char}
    (noString : opensString (first :: rest) = false) (behind : List Char) :
    tokenFrom first (rest ++ c :: behind) =
      (before c (first :: rest) (tokenFrom first rest).1,
        (tokenFrom first rest).2 ++ c :: behind) := by
  have behind' := apart_cons apart behind
  unfold tokenFrom
  split <;> first
    | (rw [before_eq rfl (by simp)]
       exact operator_append (by decide) behind' rest)
    | (rw [before_eq rfl (by simp)]
       exact doubling_append (by decide) (by decide) behind' rest)
    | (rw [before_eq rfl (by simp)]
       done)
    | cases noString
    | skip
  · refine afterAt_append apart (fun d inside => ?_) behind
    cases rest with
    | nil => cases inside
    | cons e rest =>
      cases inside
      exact noString
  · rename_i other _ _
    have other : first :: rest ≠ ['@'] := by
      rintro ⟨⟩
      exact other rfl
    split
    case isTrue digit =>
      rw [before_eq _ other, numericLiteral_append behind' digit]
      simp [isWord, isAsciiStart_of_digit digit]
    case isFalse => exact identifier_append apart other behind

/-- The lexer comes to stand before `place`, between two tokens, when it reads the text. -/
inductive Between (place : List Char) : List Char → Prop
  | here : Between place place
  /-- A separator is skipped. -/
  | skip {c : Char} {text : List Char} : isSeparator c → Between place text →
      Between place (c :: text)
  /-- A token is read. -/
  | token {first : Char} {rest : List Char} : isSeparator first = false →
      Between place (tokenFrom first rest).2 → Between place (first :: rest)

theorem Between.suffix {place text : List Char} (between : Between place text) :
    place <:+ text := by
  induction between with
  | here => exact List.suffix_rfl
  | skip _ _ ih => exact Literal.suffix_cons_of_suffix _ ih
  | token _ _ ih => exact Literal.suffix_cons_of_suffix _ (ih.trans (tokenFrom_suffix _ _))

section

variable {place text : List Char} {c : Char}

theorem between_separator (apart : isSeparator c) :
    Between place (c :: text) ↔ place = c :: text ∨ Between place text := by
  constructor
  · intro between
    cases between with
    | here => exact .inl rfl
    | skip _ further => exact .inr further
    | token solid => cases apart.symm.trans solid
  · rintro (rfl | further)
    · exact .here
    · exact .skip apart further

theorem between_token (solid : isSeparator c = false) :
    Between place (c :: text) ↔ place = c :: text ∨ Between place (tokenFrom c text).2 := by
  constructor
  · intro between
    cases between with
    | here => exact .inl rfl
    | skip apart => cases apart.symm.trans solid
    | token _ further => exact .inr further
  · rintro (rfl | further)
    · exact .here
    · exact .token solid further

end

/-- A closed string literal is the same before every separator. -/
theorem stringLiteral_append {text rest t s : List Char} (apart : Apart s)
    (left : (stringLiteral (text ++ t)).2 = rest ++ t)
    (shut : (stringLiteral (text ++ t)).1.Closed) :
    stringLiteral (text ++ s) = ((stringLiteral (text ++ t)).1, rest ++ s) := by
  obtain ⟨taken, whole, -⟩ := Literal.string_local (text ++ t)
  have left : (Literal.string (text ++ t)).2 = rest ++ t := left
  rw [left, ← List.append_assoc] at whole
  obtain rfl : text = taken ++ rest := List.append_cancel_right whole
  have spelling (t : List Char) :
      consumed (taken ++ rest ++ t) (rest ++ t) = String.ofList taken := by
    rw [consumed_append (List.suffix_append _ _)]
    simp [consumed]
  have shut : Literal.closed taken := by
    have closed := shut rfl
    simpa only [stringLiteral, left, spelling, String.toList_ofList] using closed
  have again := Literal.string_append apart left rfl shut
  simp only [stringLiteral, again, left, spelling]

theorem tokenFrom_of_start {first : Char} (start : isAsciiStart first) (rest : List Char) :
    tokenFrom first rest = identifier first rest := by
  have noDigit : isDigit 10 first = false := by
    by_contra digit
    cases start.symm.trans (isAsciiStart_of_digit (Bool.not_eq_false _ ▸ digit))
  unfold tokenFrom
  split <;> first
    | cases start
    | rw [if_neg (by simp [noDigit])]

/-- What a separator obscures is no identifier where the text ends. -/
theorem tokenFrom_obscured {c first : Char} {rest : List Char}
    (hidden : obscures c (first :: rest)) : (tokenFrom first rest).1.kind ≠ .identifier := by
  unfold obscures at hidden
  simp only [Bool.or_eq_true, Bool.and_eq_true, decide_eq_true_eq] at hidden
  obtain ⟨keyword, -⟩ | ⟨⟨⟩, -⟩ := hidden
  · obtain ⟨kind, keyword⟩ := Option.isSome_iff_exists.mp keyword
    have word := isWord_of_keyword keyword
    have start := (Bool.and_eq_true_iff.mp word).1
    have read := identifier_word word apart_nil
    rw [List.append_nil, needsGeneral, named, keyword] at read
    rw [tokenFrom_of_start start, read]
    have listed := List.mem_of_find?_eq_some keyword
    have other : ∀ kind ∈ [TokenKind.parameterWord, .selfWord, .nullWord, .trueWord, .falseWord],
        kind ≠ .identifier := by decide
    exact other kind listed
  · intro same
    cases same

theorem opensString_append {first : Char} {rest t : List Char}
    (opens : opensString (first :: rest)) : opensString (first :: (rest ++ t)) := by
  obtain ⟨quote, behind, rfl, rfl, quoted⟩ | quoted := opensString_cons.mp opens
  · exact opensString_cons.mpr (.inl ⟨quote, behind ++ t, rfl, rfl, quoted⟩)
  · exact opensString_cons.mpr (.inr quoted)

theorem isWord_of_opens {first : Char} {rest : List Char} (opens : opensString (first :: rest)) :
    isWord (first :: rest) = false := by
  obtain ⟨quote, behind, rfl, rfl, -⟩ | quoted := opensString_cons.mp opens
  · rfl
  · obtain rfl | rfl := Literal.isQuote_iff.mp quoted <;> rfl

/-- Where the token before it leaves a separator, another separator is left in its place, and the
token is the same one if both obscure it or neither does. -/
theorem tokenFrom_replace {c c' first : Char} {rest left behind : List Char}
    (apart : isSeparator c) (apart' : isSeparator c')
    (reads : (tokenFrom first (rest ++ c :: behind)).2 = left ++ c :: behind)
    (shut : (tokenFrom first (rest ++ c :: behind)).1.Closed) :
    (tokenFrom first (rest ++ c' :: behind)).2 = left ++ c' :: behind ∧
      ((tokenFrom first (rest ++ c' :: behind)).1 = (tokenFrom first (rest ++ c :: behind)).1 ↔
        obscures c (first :: rest) = obscures c' (first :: rest)) := by
  cases opens : opensString (first :: rest) with
  | true =>
    have string (t : List Char) :
        tokenFrom first (rest ++ t) = stringLiteral (first :: rest ++ t) :=
      tokenFrom_string (opensString_append opens)
    have other : first :: rest ≠ ['@'] := by
      rintro ⟨⟩
      cases opens
    have shown (c : Char) : obscures c (first :: rest) = false :=
      not_obscures (isWord_of_opens opens) other
    rw [string] at reads shut
    rw [string, string, stringLiteral_append (apart_cons apart' behind) reads shut, shown, shown]
    exact ⟨rfl, iff_of_true rfl rfl⟩
  | false =>
    rw [tokenFrom_append apart opens] at reads ⊢
    rw [tokenFrom_append apart' opens]
    refine ⟨congrArg (· ++ c' :: behind) (List.append_cancel_right reads), ?_⟩
    have visible (c : Char) (hidden : obscures c (first :: rest)) (name : String) :
        (tokenFrom first rest).1 ≠ .identifier name := by
      intro same
      exact tokenFrom_obscured hidden (congrArg Token.kind same)
    unfold before
    cases hidden : obscures c (first :: rest) <;> cases hidden' : obscures c' (first :: rest)
    · simp
    · simpa using (visible c' hidden' _).symm
    · simpa using visible c hidden _
    · simp

/-- The words before `t` at the places of a text are the whole of it and those at the places
after its first separator or token. -/
theorem forall_between {first : Char} {front left t : List Char} {P : List Char → Prop}
    (places : ∀ place, Between place (first :: (front ++ t)) ↔
      place = first :: (front ++ t) ∨ Between place (left ++ t)) :
    (∀ word, Between (word ++ t) (first :: (front ++ t)) → P word) ↔
      P (first :: front) ∧ ∀ word, Between (word ++ t) (left ++ t) → P word := by
  simp only [places]
  constructor
  · intro all
    exact ⟨all _ (.inl rfl), fun word further => all word (.inr further)⟩
  · rintro ⟨here, all⟩ word (same | further)
    · obtain rfl : word = first :: front := List.append_cancel_right same
      exact here
    · exact all word further

theorem obscures_nil (c : Char) : obscures c [] = false := by
  have noKeyword : TokenKind.keyword? (String.ofList []) = none := by decide
  simp [obscures, noKeyword]

theorem obscures_separator {d : Char} (apart : isSeparator d) (c : Char) (word : List Char) :
    obscures c (d :: word) = false := by
  have noStart : isAsciiStart d = false := by
    by_contra start
    have part := part_of_start (Bool.not_eq_false _ ▸ start)
    cases part.symm.trans (isAsciiPart_of_separator apart)
  apply not_obscures
  · simp [isWord, noStart]
  · rintro ⟨⟩
    cases apart

/-- One separator in place of another leaves the tokens as they are if both obscure every word they
stand behind or neither does. -/
theorem tokens_replace_iff {c c' : Char} {front back : List Char} (apart : isSeparator c)
    (apart' : isSeparator c') (between : Between (c :: back) (front ++ c :: back))
    (shut : ∀ token ∈ tokens (front ++ c :: back), token.Closed) :
    tokens (front ++ c' :: back) = tokens (front ++ c :: back) ↔
      ∀ word, Between (word ++ c :: back) (front ++ c :: back) →
        obscures c word = obscures c' word := by
  have empty : tokens (c' :: back) = tokens (c :: back) ↔
      ∀ word, Between (word ++ c :: back) (c :: back) → obscures c word = obscures c' word := by
    rw [tokens_separator apart', tokens_separator apart]
    refine iff_of_true rfl fun word reached => ?_
    have shorter := reached.suffix.length_le
    rw [List.length_append] at shorter
    obtain rfl : word = [] := List.eq_nil_of_length_eq_zero (by omega)
    rw [obscures_nil, obscures_nil]
  generalize whole : front ++ c :: back = text at between
  induction between generalizing front with
  | here =>
    obtain rfl : front = [] := by simpa using whole
    exact whole ▸ empty
  | @skip d text skipped further ih =>
    cases front with
    | nil => exact whole ▸ empty
    | cons e front =>
      obtain ⟨rfl, rfl⟩ : e = d ∧ front ++ c :: back = text := by simpa using whole
      rw [List.cons_append, tokens_separator skipped] at shut
      rw [List.cons_append, tokens_separator skipped, tokens_separator skipped,
        forall_between fun _ => between_separator skipped, obscures_separator skipped,
        obscures_separator skipped]
      exact (ih shut rfl).trans (and_iff_right rfl).symm
  | @token first rest solid further ih =>
    cases front with
    | nil =>
      cases whole
      cases apart.symm.trans solid
    | cons e front =>
      obtain ⟨rfl, rfl⟩ : e = first ∧ front ++ c :: back = rest := by simpa using whole
      obtain ⟨left, reads⟩ := further.suffix
      rw [List.cons_append, tokens_cons solid] at shut
      obtain ⟨shutFirst, shut⟩ := List.forall_mem_cons.mp shut
      obtain ⟨reads', same⟩ := tokenFrom_replace apart apart' reads.symm shutFirst
      rw [← reads] at shut
      have places (place : List Char) : Between place (e :: (front ++ c :: back)) ↔
          place = e :: (front ++ c :: back) ∨ Between place (left ++ c :: back) := by
        rw [between_token solid, reads]
      rw [List.cons_append, tokens_cons solid, tokens_cons solid, List.cons.injEq, reads',
        forall_between places, reads]
      exact and_congr same (ih shut reads)

/-- Two separators obscure a word alike unless it is a keyword and only one of them is in the ASCII
range, or it is an `@` and only one of them ends identifiers. -/
theorem obscures_eq_iff {c c' : Char} {word : List Char} : obscures c word = obscures c' word ↔
    ((TokenKind.keyword? (String.ofList word)).isSome → isAscii c = isAscii c') ∧
      (word = ['@'] → endsIdentifier c = endsIdentifier c') := by
  by_cases lone : word = ['@']
  · subst lone
    have noKeyword : TokenKind.keyword? (String.ofList ['@']) = none := by decide
    simp [obscures, noKeyword]
  · cases keyword : TokenKind.keyword? (String.ofList word) <;> simp [obscures, keyword, lone]

/-- Where every string literal is closed, a separator that stands between two tokens can be replaced
by another one, and nothing changes in the tokens; except that a keyword right before it needs both
to be in the ASCII range or both outside, and an `@` right before it that both end identifiers or
both do not. -/
theorem tokenize_replace_iff {c c' : Char} {front back : List Char}
    (short : (front ++ c :: back).length ≤ maxLength)
    (shut : ∀ token ∈ tokens (front ++ c :: back), token.Closed)
    (apart : isSeparator c) (apart' : isSeparator c')
    (between : Between (c :: back) (front ++ c :: back)) :
    tokenize (String.ofList (front ++ c' :: back)) = tokenize (String.ofList (front ++ c :: back)) ↔
      ∀ word, Between (word ++ c :: back) (front ++ c :: back) →
        ((TokenKind.keyword? (String.ofList word)).isSome → isAscii c = isAscii c') ∧
          (word = ['@'] → endsIdentifier c = endsIdentifier c') := by
  have short' : (front ++ c' :: back).length ≤ maxLength := by
    simpa using short
  rw [tokenize_ofList short, tokenize_ofList short', Except.ok.injEq,
    tokens_replace_iff apart apart' between shut]
  exact forall_congr' fun word => imp_congr_right fun _ => obscures_eq_iff

/-- The text `@'a' self`. -/
def quotedSelf : List Char := ['@', '\'', 'a', '\'', ' ', 's', 'e', 'l', 'f']

/-- A separator after a keyword can be replaced within the ASCII range. -/
theorem tokenize_replace_quotedSelf :
    (quotedSelf ++ [' ']).length ≤ maxLength ∧
    (∀ token ∈ tokens (quotedSelf ++ [' ']), token.Closed) ∧
    isSeparator ' ' ∧ isSeparator '\t' ∧ Between [' '] (quotedSelf ++ [' ']) ∧
    tokenize (String.ofList (quotedSelf ++ ['\t'])) =
      tokenize (String.ofList (quotedSelf ++ [' '])) := by
  have literal : tokenFrom '@' ['\'', 'a', '\'', ' ', 's', 'e', 'l', 'f', ' '] =
      (⟨.stringLiteral, "@'a'", some (.string "a")⟩, [' ', 's', 'e', 'l', 'f', ' ']) := rfl
  have keyword : tokenFrom 's' ['e', 'l', 'f', ' '] = (.ofKind .selfWord, [' ']) := rfl
  have read : tokens ['@', '\'', 'a', '\'', ' ', 's', 'e', 'l', 'f', ' '] =
      [⟨.stringLiteral, "@'a'", some (.string "a")⟩, .ofKind .selfWord] := by
    rw [tokens_cons rfl, literal, tokens_separator rfl, tokens_cons rfl, keyword,
      tokens_separator rfl, tokens_nil]
  have short : (quotedSelf ++ [' ']).length ≤ maxLength := by decide
  have shut : ∀ token ∈ tokens (quotedSelf ++ [' ']), token.Closed := by
    intro token inside
    have inside : token ∈ tokens ['@', '\'', 'a', '\'', ' ', 's', 'e', 'l', 'f', ' '] := inside
    rw [read] at inside
    simp only [List.mem_cons, List.not_mem_nil, or_false] at inside
    obtain rfl | rfl := inside
    · exact fun _ => by decide
    · nofun
  have between : Between [' '] (quotedSelf ++ [' ']) :=
    .token rfl (.skip rfl (.token rfl .here))
  refine ⟨short, shut, rfl, rfl, between, (tokenize_replace_iff short shut rfl rfl between).mpr ?_⟩
  intro word _
  exact ⟨fun _ => rfl, fun _ => rfl⟩

/-- A keyword is not one before a separator outside the ASCII range. -/
theorem tokenize_keyword_obscured :
    ("true".toList ++ [' ']).length ≤ maxLength ∧
    (∀ token ∈ tokens ("true".toList ++ [' ']), token.Closed) ∧
    isSeparator ' ' ∧ isSeparator '\u00a0' ∧ Between [' '] ("true".toList ++ [' ']) ∧
    tokenize "true " = .ok [.ofKind .trueWord] ∧
    tokenize "true\u00a0" = .ok [.identifier "true"] ∧
    tokenize "true\u00a0" ≠ tokenize "true " := by
  have keyword : tokenFrom 't' ['r', 'u', 'e', ' '] = (.ofKind .trueWord, [' ']) := rfl
  have obscured : tokenFrom 't' ['r', 'u', 'e', '\u00a0'] = (.identifier "true", ['\u00a0']) := by
    have read : identifier 't' (['r', 'u', 'e'] ++ ['\u00a0']) = _ :=
      identifier_word rfl (apart_cons rfl [])
    exact read
  have tokensKeyword : tokens ['t', 'r', 'u', 'e', ' '] = [.ofKind .trueWord] := by
    rw [tokens_cons rfl, keyword, tokens_separator rfl, tokens_nil]
  have tokensObscured : tokens ['t', 'r', 'u', 'e', '\u00a0'] = [.identifier "true"] := by
    rw [tokens_cons rfl, obscured, tokens_separator rfl, tokens_nil]
  have readKeyword : tokenize "true " = .ok [.ofKind .trueWord] := by
    rw [← tokensKeyword]
    exact tokenize_ofList (by decide)
  have readObscured : tokenize "true\u00a0" = .ok [.identifier "true"] := by
    rw [← tokensObscured]
    exact tokenize_ofList (by decide)
  refine ⟨by decide, ?_, rfl, rfl, .token rfl .here, readKeyword, readObscured, ?_⟩
  · intro token inside
    have inside : token ∈ tokens ['t', 'r', 'u', 'e', ' '] := inside
    rw [tokensKeyword, List.mem_singleton] at inside
    rw [inside]
    nofun
  · rw [readKeyword, readObscured]
    intro same
    cases same

end Lexer

end SlotScript
