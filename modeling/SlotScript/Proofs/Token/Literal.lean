import Mathlib.Data.List.Basic
import SlotScript.Token.Literal

/-!
# A literal is read from its own text

A scanner looks at the character after a literal to see that the literal ends there, so it might
have read the same characters differently in another place. It does not: what it takes and what it
makes of that stay the same whatever beginning of the rest is left after it, also when nothing is
left. So the text of a literal, read alone, gives the value of the literal.
-/

namespace SlotScript.Literal

open SlotScript.Text

section Local

variable {α β : Type} {scan : List Char → α × List Char} {text : List Char}

/-- Some characters at the front of the text are taken and the rest is left, and the same characters
are taken, with the same result, from a text in which the rest is cut off anywhere. -/
def Local (scan : List Char → α × List Char) (text : List Char) : Prop :=
  ∃ taken, text = taken ++ (scan text).2 ∧
    ∀ after, after <+: (scan text).2 → scan (taken ++ after) = ((scan text).1, after)

/-- A scanner that takes exactly the characters of `front`. -/
theorem Local.take {rest : List Char} {a : α} (front : List Char)
    (reads : ∀ after, after <+: rest → scan (front ++ after) = (a, after)) :
    Local scan (front ++ rest) := by
  have whole := reads rest List.prefix_rfl
  exact ⟨front, by rw [whole], fun after shorter => by
    rw [whole] at shorter ⊢
    exact reads after shorter⟩

theorem Local.nil {a : α} (reads : scan [] = (a, [])) : Local scan [] :=
  take [] fun after cut => by rw [List.prefix_nil.mp cut, List.append_nil, reads]

/-- A scanner that takes nothing before the character `c`. -/
theorem Local.stop {a : α} {c : Char} (rest : List Char) (atEnd : scan [] = (a, []))
    (reads : ∀ t, scan (c :: t) = (a, c :: t)) : Local scan (c :: rest) :=
  take [] fun after cut => by
    obtain rfl | ⟨t, rfl, -⟩ := List.prefix_cons_iff.mp cut
    · exact atEnd
    · exact reads t

/-- A scanner that takes the characters of `front` and goes on as another scanner, whose result it
changes. -/
theorem Local.prepend {goOn : List Char → β × List Char} {rest : List Char} {f : β → α}
    (front : List Char) (further : Local goOn rest)
    (reads : ∀ t, t <+: rest → scan (front ++ t) = (f (goOn t).1, (goOn t).2)) :
    Local scan (front ++ rest) := by
  obtain ⟨taken, split, again⟩ := further
  have whole := reads rest List.prefix_rfl
  refine ⟨front ++ taken, ?_, ?_⟩
  · rw [whole, List.append_assoc]
    exact congrArg _ split
  · intro after shorter
    rw [whole] at shorter ⊢
    have inside : taken ++ after <+: rest := by
      conv_rhs => rw [split]
      exact (List.prefix_append_right_inj taken).mpr shorter
    rw [List.append_assoc, reads _ inside, again after shorter]

theorem Local.map {goOn : List Char → β × List Char} {f : β → α} (further : Local goOn text)
    (reads : ∀ t, scan t = (f (goOn t).1, (goOn t).2)) : Local scan text :=
  prepend [] further fun t _ => reads t

/-- One scanner after another, which depends on the result of the first. -/
theorem Local.andThen {g : α → List Char → β × List Char} (first : Local scan text)
    (second : Local (g (scan text).1) (scan text).2) :
    Local (fun t => g (scan t).1 (scan t).2) text := by
  obtain ⟨taken, split, again⟩ := first
  obtain ⟨more, splitMore, againMore⟩ := second
  refine ⟨taken ++ more, ?_, ?_⟩
  · rw [List.append_assoc, ← splitMore]
    exact split
  · intro after shorter
    have inside : more ++ after <+: (scan text).2 := by
      conv_rhs => rw [splitMore]
      exact (List.prefix_append_right_inj more).mpr shorter
    simp only [List.append_assoc, again _ inside, againMore after shorter]

/-- The characters a local scanner takes give its result when they are read alone. -/
theorem Local.alone (reads : Local scan text) :
    scan (text.take (text.length - (scan text).2.length)) = ((scan text).1, []) := by
  obtain ⟨taken, split, again⟩ := reads
  have taking : text.take (text.length - (scan text).2.length) = taken := by
    have size : text.length - (scan text).2.length = taken.length := by
      have := congrArg List.length split
      simp only [List.length_append] at this
      omega
    rw [size]
    conv_lhs => rw [split]
    exact List.take_left
  rw [taking]
  simpa using again [] List.nil_prefix

end Local

theorem codePoint?_eq (count : Nat) (text : List Char) :
    codePoint? count text =
      if count ≤ text.length then (number? 16 (text.take count)).bind charOfCode? else none := by
  by_cases enough : count ≤ text.length
  · simp only [codePoint?, guard, enough, if_true]
    rfl
  · simp only [codePoint?, guard, enough, if_false]
    rfl

/-- Hexadecimal digits that are cut short denote nothing, others denote the same. -/
theorem codePoint?_cut {count : Nat} {text shorter : List Char} (cut : shorter <+: text)
    (unread : codePoint? count text = none) : codePoint? count shorter = none := by
  rw [codePoint?_eq] at unread ⊢
  split
  case isTrue long =>
    have same : text.take count = shorter.take count := by
      obtain ⟨more, rfl⟩ := cut
      exact List.take_append_of_le_length long
    rwa [if_pos (Nat.le_trans long cut.length_le), same] at unread
  case isFalse => rfl

/-- What is no escape does not become one by being cut off. -/
theorem unicodeEscape?_cut {text shorter : List Char} (cut : shorter <+: text)
    (unread : unicodeEscape? text = none) : unicodeEscape? shorter = none := by
  fun_cases unicodeEscape? shorter with
  | case1 rest =>
    obtain ⟨more, rfl⟩ := cut
    simp only [unicodeEscape?, List.cons_append, Option.map_eq_none_iff] at unread ⊢
    exact codePoint?_cut (List.prefix_append _ _) unread
  | case2 rest =>
    obtain ⟨more, rfl⟩ := cut
    simp only [unicodeEscape?, List.cons_append, Option.map_eq_none_iff] at unread ⊢
    exact codePoint?_cut (List.prefix_append _ _) unread
  | case3 => rfl

/-- Digits that denote a character are all there, and denote it whatever follows them. -/
theorem codePoint?_split {count : Nat} {text : List Char} {c : Char}
    (read : codePoint? count text = some c) :
    ∃ front, front.length = count ∧ text = front ++ text.drop count ∧
      ∀ t, codePoint? count (front ++ t) = some c := by
  rw [codePoint?_eq] at read
  split at read
  case isTrue enough =>
    have size : (text.take count).length = count := List.length_take_of_le enough
    refine ⟨text.take count, size, (List.take_append_drop ..).symm, fun t => ?_⟩
    rw [codePoint?_eq, List.take_append_of_le_length (Nat.le_of_eq size.symm), List.take_take, Nat.min_self]
    rwa [if_pos (by rw [List.length_append]; omega)]
  case isFalse => cases read

/-- An escape is read off its own characters, whatever follows them. -/
theorem unicodeEscape?_split {text after : List Char} {c : Char}
    (read : unicodeEscape? text = some (c, after)) :
    ∃ front, text = '\\' :: (front ++ after) ∧
      ∀ t, unicodeEscape? ('\\' :: (front ++ t)) = some (c, t) := by
  revert read
  fun_cases unicodeEscape? text with
  | case1 rest =>
    intro read
    obtain ⟨decoded, found, ⟨⟩⟩ := Option.map_eq_some_iff.mp read
    obtain ⟨front, size, split, again⟩ := codePoint?_split found
    exact ⟨'u' :: front, by simp [← split],
      fun t => by simp [unicodeEscape?, again, List.drop_left' size]⟩
  | case2 rest =>
    intro read
    obtain ⟨decoded, found, ⟨⟩⟩ := Option.map_eq_some_iff.mp read
    obtain ⟨front, size, split, again⟩ := codePoint?_split found
    exact ⟨'U' :: front, by simp [← split],
      fun t => by simp [unicodeEscape?, again, List.drop_left' size]⟩
  | case3 => nofun

theorem endsString_backslash : endsString '\\' = false := by decide

section Body

variable {quote c : Char} {rest after : List Char}

/-- An escape goes into the body as the character whose code point it gives. -/
theorem escapedBody_unicode (other : '\\' ≠ quote)
    (read : unicodeEscape? ('\\' :: rest) = some (c, after)) :
    escapedBody quote ('\\' :: rest) =
      (c :: (escapedBody quote after).1, (escapedBody quote after).2) := by
  rw [escapedBody]
  simp only [endsString_backslash, other, Bool.false_eq_true, if_false, if_true]
  split
  case h_1 found =>
    cases read.symm.trans found
    rfl
  case h_2 none => cases read.symm.trans none

/-- Any other escape goes into the body as the character its letter stands for. -/
theorem escapedBody_simple (other : '\\' ≠ quote)
    (unread : unicodeEscape? ('\\' :: c :: after) = none) (unended : ¬ endsString c) :
    escapedBody quote ('\\' :: c :: after) =
      (simpleEscape c :: (escapedBody quote after).1, (escapedBody quote after).2) := by
  rw [escapedBody]
  simp only [endsString_backslash, other, Bool.false_eq_true, if_false, if_true]
  split
  case h_1 found => cases unread.symm.trans found
  case h_2 => simp only [unended, if_false, Bool.false_eq_true]

/-- A backslash before the end of the literal is dropped. -/
theorem escapedBody_dropped (other : '\\' ≠ quote)
    (unread : unicodeEscape? ('\\' :: rest) = none) (ends : ∀ c ∈ rest.head?, endsString c) :
    escapedBody quote ('\\' :: rest) = ([], rest) := by
  rw [escapedBody]
  simp only [endsString_backslash, other, Bool.false_eq_true, if_false, if_true]
  split
  case h_1 found => cases unread.symm.trans found
  case h_2 =>
    cases rest with
    | nil => rfl
    | cons c after => simp only [ends c rfl, if_true]

end Body

theorem escapedBody_local (quote : Char) (text : List Char) : Local (escapedBody quote) text := by
  have atEnd : escapedBody quote [] = ([], []) := by rw [escapedBody]
  fun_induction escapedBody quote text with
  | case1 => exact .nil atEnd
  | case2 c rest ends =>
    exact .stop rest atEnd fun t => by rw [escapedBody]; simp only [ends, if_true]
  | case3 rest unended =>
    exact .take (a := []) [quote] fun t _ => by simp [escapedBody, unended]
  | case4 rest c after _ _ _ _ other read _ ih =>
    obtain ⟨front, split, again⟩ := unicodeEscape?_split read
    rw [split]
    exact .prepend (f := (c :: ·)) ('\\' :: front) ih fun t _ =>
      escapedBody_unicode other (again t)
  | case5 _ other unread =>
    exact .take (a := []) ['\\'] fun t cut => by
      rw [List.prefix_nil.mp cut]
      exact escapedBody_dropped other unread fun _ first => by cases first
  | case6 c after ends _ other unread =>
    refine .take (a := []) ['\\'] fun t cut => ?_
    refine escapedBody_dropped other (unicodeEscape?_cut ?_ unread) fun d first => ?_
    · exact List.cons_prefix_cons.mpr ⟨rfl, cut⟩
    · obtain rfl | ⟨t, rfl, -⟩ := List.prefix_cons_iff.mp cut
      · cases first
      · cases first
        exact ends
  | case7 c after unended _ _ _ _ other unread ih =>
    refine .prepend (f := (simpleEscape c :: ·)) ['\\', c] ih fun t cut => ?_
    refine escapedBody_simple other (unicodeEscape?_cut ?_ unread) unended
    simpa using cut
  | case8 c rest unended unquoted plain _ _ _ ih =>
    exact .prepend (f := (c :: ·)) [c] ih fun t _ => by
      rw [List.cons_append, escapedBody]
      simp [unended, unquoted, plain]

theorem verbatimBody_local (quote : Char) (text : List Char) :
    Local (verbatimBody quote) text := by
  fun_induction verbatimBody quote text with
  | case1 => exact .nil rfl
  | case2 c rest ends =>
    exact .stop rest rfl fun t => by rw [verbatimBody.eq_def]; simp only [ends, if_true]
  | case3 after _ _ _ unended ih =>
    exact .prepend (f := (quote :: ·)) [quote, quote] ih fun t _ => by
      simp [verbatimBody, unended]
  | case4 d after single unended =>
    refine .take (a := []) [quote] fun t cut => ?_
    obtain rfl | ⟨t, rfl, -⟩ := List.prefix_cons_iff.mp cut <;>
      simp [verbatimBody, unended, single]
  | case5 unended =>
    exact .take (a := []) [quote] fun t cut => by
      simp [List.prefix_nil.mp cut, verbatimBody, unended]
  | case6 c rest unended unquoted _ _ _ ih =>
    exact .prepend (f := (c :: ·)) [c] ih fun t _ => by
      rw [List.cons_append, List.nil_append, verbatimBody.eq_def]
      simp [unended, unquoted]

theorem string_local (text : List Char) : Local string text := by
  fun_cases string text with
  | case1 quote rest =>
    exact .prepend (f := id) ['@', quote] (verbatimBody_local quote rest) fun t _ => rfl
  | case2 quote rest escaped =>
    refine .prepend (f := id) [quote] (escapedBody_local quote rest) fun t cut => ?_
    refine string.eq_2 quote t fun d after at_ same => ?_
    obtain ⟨more, rfl⟩ := cut
    exact escaped d (after ++ more) at_ (by rw [same, List.cons_append])
  | case3 => exact .nil rfl

theorem digits_local (radix : Nat) (text : List Char) : Local (digits radix) text := by
  fun_induction digits radix text with
  | case1 => exact .nil rfl
  | case2 rest ih => exact .prepend (f := id) ['_'] ih fun t _ => by simp [digits]
  | case3 c rest gap digit _ _ _ ih =>
    exact .prepend (f := (c :: ·)) [c] ih fun t _ => by simp [digits, gap, digit]
  | case4 c rest gap digit => exact .stop rest rfl fun t => by simp [digits, gap, digit]

theorem skipLetter_local (small capital : Char) (text : List Char) :
    Local (skipLetter small capital) text := by
  fun_cases skipLetter small capital text with
  | case1 c rest letter => exact .take (a := true) [c] fun t _ => by simp [skipLetter, letter]
  | case2 c rest other => exact .stop rest rfl fun t => by simp [skipLetter, other]
  | case3 => exact .nil rfl

theorem integerSuffix_local (text : List Char) : Local integerSuffix text := by
  cases text with
  | nil => exact .nil rfl
  | cons c rest =>
    by_cases long : c = 'l' ∨ c = 'L'
    · exact .prepend (f := (⟨·, true⟩)) [c] (skipLetter_local 'u' 'U' rest) fun t _ => by
        simp [integerSuffix, skipLetter.eq_1 'l', long]
    by_cases unsigned : c = 'u' ∨ c = 'U'
    · exact .prepend (f := (⟨true, ·⟩)) [c] (skipLetter_local 'l' 'L' rest) fun t _ => by
        simp [integerSuffix, skipLetter.eq_1 _ _ c, long, unsigned]
    · exact .stop rest rfl fun t => by simp [integerSuffix, skipLetter, long, unsigned]

theorem radixInteger_local (radix : Nat) (text : List Char) : Local (radixInteger radix) text :=
  .andThen (g := fun found t =>
      (integer (word radix found) (integerSuffix t).1, (integerSuffix t).2))
    (digits_local radix text) ((integerSuffix_local _).map fun _ => rfl)

/-- What a first digit, or a first underscore, adds to the digits that follow does not depend on
them. -/
theorem digits_cons {radix : Nat} {c : Char} (first : c = '_' ∨ isDigit radix c) :
    ∃ front, ∀ t, digits radix (c :: t) = (front ++ (digits radix t).1, (digits radix t).2) := by
  by_cases gap : c = '_'
  · exact ⟨[], fun t => by simp [digits, gap]⟩
  · exact ⟨[c], fun t => by simp [digits, gap, first.resolve_left gap]⟩

theorem fraction_local (text : List Char) : Local fraction text := by
  fun_cases fraction text with
  | case1 c rest digit =>
    obtain ⟨front, goesOn⟩ := digits_cons (.inr digit)
    exact .prepend (f := ('.' :: front ++ ·)) ['.', c] (digits_local 10 rest) fun t _ => by
      simp [fraction, digit, goesOn]
  | case2 c rest other =>
    refine .take (a := []) [] fun t cut => ?_
    fun_cases fraction t with
    | case1 d t digit =>
      cases (List.cons_prefix_cons.mp (List.cons_prefix_cons.mp cut).2).1
      exact absurd digit other
    | case2 => rfl
    | case3 => rfl
  | case3 text other =>
    refine .take (a := []) [] fun t cut => ?_
    fun_cases fraction t with
    | case1 d t digit =>
      obtain ⟨more, rfl⟩ := cut
      exact absurd rfl (other d (t ++ more))
    | case2 => rfl
    | case3 => rfl

theorem exponentSign_local (text : List Char) : Local exponentSign text := by
  fun_cases exponentSign text with
  | case1 c rest sign => exact .take (a := [c]) [c] fun t _ => by simp [exponentSign, sign]
  | case2 c rest other => exact .stop rest rfl fun t => by simp [exponentSign, other]
  | case3 => exact .nil rfl

/-- The part of an exponent after its mark and its sign. -/
def exponentDigits (sign : List Char) : List Char → List Char × List Char
  | d :: after =>
    if d = '_' ∨ isDigit 10 d then
      ('e' :: sign ++ (digits 10 (d :: after)).1, (digits 10 (d :: after)).2)
    else ('e' :: sign ++ ['0'], d :: after)
  | [] => ('e' :: sign ++ ['0'], [])

theorem exponentDigits_local (sign text : List Char) : Local (exponentDigits sign) text := by
  fun_cases exponentDigits sign text with
  | case1 d after digit =>
    obtain ⟨front, goesOn⟩ := digits_cons digit
    exact .prepend (f := ('e' :: sign ++ front ++ ·)) [d] (digits_local 10 after) fun t _ => by
      simp [exponentDigits, digit, goesOn]
  | case2 d after other => exact .stop after rfl fun t => by simp [exponentDigits, other]
  | case3 => exact .nil rfl

theorem exponent_mark {c : Char} (mark : c = 'e' ∨ c = 'E') (text : List Char) :
    exponent (c :: text) = exponentDigits (exponentSign text).1 (exponentSign text).2 := by
  simp only [exponent, mark, if_true]
  unfold exponentDigits
  rfl

theorem exponent_local (text : List Char) : Local exponent text := by
  cases text with
  | nil => exact .nil rfl
  | cons c rest =>
    by_cases mark : c = 'e' ∨ c = 'E'
    · exact .prepend (f := id) [c]
        (.andThen (g := exponentDigits) (exponentSign_local rest) (exponentDigits_local _ _))
        fun t _ => exponent_mark mark t
    · exact .stop rest rfl fun t => by simp [exponent, mark]

/-- The value of a number from its digits, once its fraction and exponent are read. -/
def valued (whole fraction exponent text : List Char) : Value × List Char :=
  match realSuffix? (whole ++ fraction ++ exponent) text with
  | some result => result
  | none =>
    if fraction.isEmpty && exponent.isEmpty then
      (integer (word 10 (whole ++ fraction ++ exponent)) (integerSuffix text).1,
        (integerSuffix text).2)
    else (.double ((Number.double? (whole ++ fraction ++ exponent)).getD 0), text)

/-- Whether a letter is the suffix of a real kind does not depend on what follows it. -/
theorem realSuffix?_cons (number : List Char) (c : Char) :
    (∃ v, ∀ t, realSuffix? number (c :: t) = some (v, t)) ∨
      ∀ t, realSuffix? number (c :: t) = none := by
  by_cases single : c = 'f' ∨ c = 'F'
  · refine .inl ⟨.float ((Number.single? number).getD 0), fun t => ?_⟩
    simp only [realSuffix?, single, if_true]
  by_cases double : c = 'd' ∨ c = 'D'
  · refine .inl ⟨.double ((Number.double? number).getD 0), fun t => ?_⟩
    simp only [realSuffix?, single, double, if_false, if_true]
  by_cases decimal : c = 'm' ∨ c = 'M'
  · refine .inl ⟨.decimal ((Decimal.ofText? number).getD .zero), fun t => ?_⟩
    simp only [realSuffix?, single, double, decimal, if_false, if_true]
  · exact .inr fun t => by simp only [realSuffix?, single, double, decimal, if_false]

/-- Where no suffix of a real kind follows, an integer may still have one of its own. -/
theorem valued_local_of_none {whole fraction exponent text : List Char}
    (bare : ∀ t, t <+: text → realSuffix? (whole ++ fraction ++ exponent) t = none) :
    Local (valued whole fraction exponent) text := by
  by_cases integral : fraction.isEmpty && exponent.isEmpty
  · exact .prepend [] (integerSuffix_local text)
      (f := (integer (word 10 (whole ++ fraction ++ exponent)) ·)) fun t cut => by
        simp only [List.nil_append, valued, bare t cut, integral, if_true]
  · exact .take [] fun t cut => by
      simp only [List.nil_append, valued, bare t cut, integral]
      rfl

theorem valued_local (whole fraction exponent text : List Char) :
    Local (valued whole fraction exponent) text := by
  cases text with
  | nil => exact valued_local_of_none fun t cut => by rw [List.prefix_nil.mp cut]; rfl
  | cons c rest =>
    obtain ⟨v, real⟩ | bare := realSuffix?_cons (whole ++ fraction ++ exponent) c
    · exact .take [c] fun t _ => by
        simp only [List.cons_append, List.nil_append, valued, real]
        rfl
    · refine valued_local_of_none fun t cut => ?_
      obtain rfl | ⟨t, rfl, -⟩ := List.prefix_cons_iff.mp cut
      · rfl
      · exact bare t

theorem decimalNumber_local (text : List Char) : Local decimalNumber text :=
  .andThen (g := fun whole t => valued whole (fraction t).1 (exponent (fraction t).2).1
      (exponent (fraction t).2).2)
    (digits_local 10 text)
    (.andThen (g := fun part t => valued _ part (exponent t).1 (exponent t).2)
      (fraction_local _) (.andThen (exponent_local _) (valued_local _ _ _ _)))

/-- A number without a radix prefix, and every beginning of it. -/
theorem number_decimal {text t : List Char} (cut : t <+: text)
    (plain : ∀ c rest, text = '0' :: c :: rest → ¬ (c = 'x' ∨ c = 'X') ∧ ¬ (c = 'b' ∨ c = 'B')) :
    number t = decimalNumber t := by
  obtain ⟨more, rfl⟩ := cut
  fun_cases number t with
  | case1 c rest mark => exact absurd mark (plain c (rest ++ more) rfl).1
  | case2 c rest _ mark => exact absurd mark (plain c (rest ++ more) rfl).2
  | case3 => rfl
  | case4 => rfl

theorem number_local (text : List Char) : Local number text := by
  fun_cases number text with
  | case1 c rest mark =>
    exact .prepend (f := id) ['0', c] (radixInteger_local 16 rest) fun t _ => by
      simp [number, mark]
  | case2 c rest unmarked mark =>
    exact .prepend (f := id) ['0', c] (radixInteger_local 2 rest) fun t _ => by
      simp [number, unmarked, mark]
  | case3 c rest notHex notBinary =>
    exact .prepend (f := id) [] (decimalNumber_local ('0' :: c :: rest)) fun t cut =>
      number_decimal cut (by rintro _ _ ⟨⟩; exact ⟨notHex, notBinary⟩)
  | case4 text other =>
    exact .prepend (f := id) [] (decimalNumber_local text) fun t cut =>
      number_decimal cut fun c rest same => (other c rest same).elim

end SlotScript.Literal
