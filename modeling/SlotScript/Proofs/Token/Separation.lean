import SlotScript.Proofs.Token.Literal

/-!
# Literals end before separators

A separator behind a literal is as good as the end of the text. No scanner of numbers takes one, and
what a scanner does not take it is not concerned with; an escape that is cut short is none before
every separator. Strings do go on over separators, so they need to be closed: a closed string is the
same literal whatever follows it, except for a verbatim one that its delimiter follows.
-/

namespace SlotScript

open SlotScript.Text

namespace Text

/-- No separator is an ASCII letter or digit. -/
theorem toNat_of_separator {c : Char} (apart : isSeparator c) :
    ¬ (0x30 ≤ c.toNat ∧ c.toNat ≤ 0x39) ∧ ¬ (0x41 ≤ c.toNat ∧ c.toNat ≤ 0x5A) ∧
      ¬ (0x61 ≤ c.toNat ∧ c.toNat ≤ 0x7A) := by
  simp [isSeparator, isSpace, isLineBreak, within] at apart
  omega

theorem digit?_of_separator {c : Char} (apart : isSeparator c) (radix : Nat) :
    digit? radix c = none := by
  have outside := toNat_of_separator apart
  have le (a b : Char) : a ≤ b ↔ a.toNat ≤ b.toNat := Iff.rfl
  unfold digit?
  simp only [le]
  grind

theorem toNat_of_alphanum {c : Char} (plain : c.isAlphanum) :
    (0x30 ≤ c.toNat ∧ c.toNat ≤ 0x39) ∨ (0x41 ≤ c.toNat ∧ c.toNat ≤ 0x5A) ∨
      (0x61 ≤ c.toNat ∧ c.toNat ≤ 0x7A) := by
  have ranges : c.isAlphanum = ((decide (c.val ≥ 'A'.val ∧ c.val ≤ 'Z'.val) ||
      decide (c.val ≥ 'a'.val) && decide (c.val ≤ 'z'.val)) ||
        decide (c.val ≥ '0'.val) && decide (c.val ≤ '9'.val)) := rfl
  have same : c.val.toNat = c.toNat := rfl
  have : 'A'.val.toNat = 0x41 ∧ 'Z'.val.toNat = 0x5A := ⟨rfl, rfl⟩
  have : 'a'.val.toNat = 0x61 ∧ 'z'.val.toNat = 0x7A := ⟨rfl, rfl⟩
  have : '0'.val.toNat = 0x30 ∧ '9'.val.toNat = 0x39 := ⟨rfl, rfl⟩
  simp only [ranges, Bool.or_eq_true, Bool.and_eq_true, decide_eq_true_eq,
    ge_iff_le, UInt32.le_iff_toNat_le, same] at plain
  omega

theorem separator_of_digit {radix : Nat} {c : Char} (digit : isDigit radix c) :
    isSeparator c = false := by
  by_contra apart
  simp [isDigit, digit?_of_separator (Bool.not_eq_false _ ▸ apart)] at digit

theorem ne_of_separator {c d : Char} (apart : isSeparator c) (solid : isSeparator d = false) :
    c ≠ d := by
  rintro rfl
  cases apart.symm.trans solid

/-- Nothing, or a separator before all else: no token goes on into such a text. -/
def Apart (text : List Char) : Prop :=
  ∀ c ∈ text.head?, isSeparator c

theorem apart_nil : Apart [] := nofun

theorem apart_cons {c : Char} (apart : isSeparator c) (text : List Char) : Apart (c :: text) := by
  rintro _ ⟨⟩
  exact apart

/-- A text is taken from the front in the same way whatever follows it apart. -/
theorem takeWhile_append_apart {p : Char → Bool} {t : List Char}
    (stop : ∀ c ∈ t.head?, p c = false) (text : List Char) :
    (text ++ t).takeWhile p = text.takeWhile p ∧
      (text ++ t).dropWhile p = text.dropWhile p ++ t := by
  induction text with
  | nil =>
    cases t with
    | nil => exact ⟨rfl, rfl⟩
    | cons c t => simp [stop c rfl]
  | cons c text ih =>
    cases passes : p c <;> simp [passes, ih]

end Text

namespace Literal

/-- The text from `text` up to `rest` holds no separator. -/
def Solid (text rest : List Char) : Prop :=
  ∃ taken, text = taken ++ rest ∧ ∀ c ∈ taken, isSeparator c = false

theorem Solid.refl (text : List Char) : Solid text text :=
  ⟨[], rfl, nofun⟩

theorem Solid.cons {c : Char} {text rest : List Char} (solid : isSeparator c = false)
    (further : Solid text rest) : Solid (c :: text) rest := by
  obtain ⟨taken, rfl, all⟩ := further
  exact ⟨c :: taken, rfl, List.forall_mem_cons.mpr ⟨solid, all⟩⟩

theorem Solid.trans {text middle rest : List Char} (first : Solid text middle)
    (second : Solid middle rest) : Solid text rest := by
  obtain ⟨taken, rfl, all⟩ := first
  obtain ⟨more, rfl, allMore⟩ := second
  exact ⟨taken ++ more, (List.append_assoc ..).symm,
    List.forall_mem_append.mpr ⟨all, allMore⟩⟩

/-- What follows apart is left. -/
theorem Solid.left {text t rest : List Char} (solid : Solid (text ++ t) rest) (apart : Apart t) :
    t <:+ rest := by
  obtain ⟨taken, split, all⟩ := solid
  obtain ⟨more, rfl, rfl⟩ | ⟨more, rfl, rfl⟩ := List.append_eq_append_iff.mp split
  · cases more with
    | nil => exact List.suffix_rfl
    | cons c more => cases (apart c rfl).symm.trans (all c (by simp))
  · exact List.suffix_append _ _

/-- Characters that are no separators do not lie in what follows apart. -/
theorem split_of_apart (front : List Char) {rest text t : List Char}
    (solid : front.all (!isSeparator ·)) (apart : Apart t)
    (whole : text ++ t = front ++ rest) : ∃ more, text = front ++ more ∧ rest = more ++ t := by
  have passed : Solid (text ++ t) rest := ⟨front, whole, by simpa using solid⟩
  obtain ⟨more, rfl⟩ := passed.left apart
  refine ⟨more, ?_, rfl⟩
  rw [← List.append_assoc] at whole
  exact List.append_cancel_right whole

/-- A local scanner that takes no separator is not concerned with what follows apart. -/
theorem Local.append {α : Type} {scan : List Char → α × List Char} {text t : List Char}
    (reads : Local scan (text ++ t)) (left : t <:+ (scan (text ++ t)).2) :
    scan (text ++ t) = ((scan text).1, (scan text).2 ++ t) := by
  obtain ⟨taken, split, again⟩ := reads
  obtain ⟨rest, same⟩ := left
  obtain rfl : text = taken ++ rest := by
    rw [← same, ← List.append_assoc] at split
    exact List.append_cancel_right split
  rw [again rest ⟨t, same⟩, same]

theorem digits_solid (radix : Nat) (text : List Char) : Solid text (digits radix text).2 := by
  have gap : isSeparator '_' = false := by decide
  fun_induction digits radix text <;> grind [Solid.refl, Solid.cons, separator_of_digit]

theorem skipLetter_solid {small capital : Char} (solid : isSeparator small = false)
    (solidCapital : isSeparator capital = false) (text : List Char) :
    Solid text (skipLetter small capital text).2 := by
  fun_cases skipLetter small capital text <;> grind [Solid.refl, Solid.cons]

theorem integerSuffix_solid (text : List Char) : Solid text (integerSuffix text).2 := by
  have long := @skipLetter_solid 'l' 'L' (by decide) (by decide)
  have unsigned := @skipLetter_solid 'u' 'U' (by decide) (by decide)
  fun_cases integerSuffix text <;> grind [Solid.refl, Solid.trans]

theorem fraction_solid (text : List Char) : Solid text (fraction text).2 := by
  have point : isSeparator '.' = false := by decide
  fun_cases fraction text <;> grind [Solid.refl, Solid.cons, digits_solid]

theorem exponentSign_solid (text : List Char) : Solid text (exponentSign text).2 := by
  have plus : isSeparator '+' = false := by decide
  have minus : isSeparator '-' = false := by decide
  fun_cases exponentSign text <;> grind [Solid.refl, Solid.cons]

theorem exponent_solid (text : List Char) : Solid text (exponent text).2 := by
  have small : isSeparator 'e' = false := by decide
  have capital : isSeparator 'E' = false := by decide
  fun_cases exponent text <;>
    grind [Solid.refl, Solid.cons, Solid.trans, exponentSign_solid, digits_solid]

theorem realSuffix?_solid {number text rest : List Char} {v : Value}
    (read : realSuffix? number text = some (v, rest)) : Solid text rest := by
  have single : isSeparator 'f' = false ∧ isSeparator 'F' = false := by decide
  have double : isSeparator 'd' = false ∧ isSeparator 'D' = false := by decide
  have decimal : isSeparator 'm' = false ∧ isSeparator 'M' = false := by decide
  unfold realSuffix? at read
  split at read
  · cases read
  · grind [Solid.refl, Solid.cons]

theorem radixInteger_solid (radix : Nat) (text : List Char) :
    Solid text (radixInteger radix text).2 :=
  (digits_solid radix text).trans (integerSuffix_solid _)

theorem decimalNumber_solid (text : List Char) : Solid text (decimalNumber text).2 := by
  grind [decimalNumber, Solid.trans, digits_solid, fraction_solid, exponent_solid,
    integerSuffix_solid, realSuffix?_solid]

theorem number_solid (text : List Char) : Solid text (number text).2 := by
  have first : isSeparator '0' = false := by decide
  have hex : isSeparator 'x' = false ∧ isSeparator 'X' = false := by decide
  have binary : isSeparator 'b' = false ∧ isSeparator 'B' = false := by decide
  fun_cases number text <;> grind [Solid.cons, radixInteger_solid, decimalNumber_solid]

/-- A number ends before whatever follows it apart. -/
theorem number_append {t : List Char} (apart : Apart t) (text : List Char) :
    number (text ++ t) = ((number text).1, (number text).2 ++ t) :=
  (number_local _).append ((number_solid _).left apart)

/-- A character that is no digit makes a number of none. -/
theorem number?_of_mem {radix : Nat} {c : Char} {digits : List Char} (inside : c ∈ digits)
    (stranger : digit? radix c = none) : number? radix digits = none := by
  unfold number?
  generalize 0 = total
  induction digits generalizing total with
  | nil => cases inside
  | cons d digits ih =>
    rw [List.foldlM_cons]
    obtain rfl | further := List.mem_cons.mp inside
    · rw [stranger]
      rfl
    · cases digit? radix d with
      | none => rfl
      | some n => exact ih further _

theorem codePoint?_of_mem {count : Nat} {c : Char} {text : List Char} (inside : c ∈ text.take count)
    (stranger : digit? 16 c = none) : codePoint? count text = none := by
  rw [codePoint?_eq, number?_of_mem inside stranger]
  split <;> rfl

/-- Digits that are all there denote the same whatever follows them. -/
theorem codePoint?_append {count : Nat} {text : List Char} (enough : count ≤ text.length)
    (t : List Char) : codePoint? count (text ++ t) = codePoint? count text := by
  rw [codePoint?_eq, codePoint?_eq, List.take_append_of_le_length enough, if_pos enough,
    if_pos (by rw [List.length_append]; omega)]

/-- Digits that are cut short do not go on in what follows apart. -/
theorem codePoint?_append_apart {count : Nat} {text t : List Char} (apart : Apart t)
    (unread : codePoint? count text = none) : codePoint? count (text ++ t) = none := by
  by_cases enough : count ≤ text.length
  · rw [codePoint?_append enough, unread]
  cases t with
  | nil => rw [List.append_nil, unread]
  | cons c t =>
    refine codePoint?_of_mem (c := c) ?_ (digit?_of_separator (apart c rfl) 16)
    have size : count - text.length = (count - text.length - 1) + 1 := by omega
    rw [List.take_append, List.mem_append, size]
    exact .inr (.head _)

/-- What is no escape does not become one by what follows it apart. -/
theorem unicodeEscape?_append_apart {text t : List Char} (apart : Apart t)
    (unread : unicodeEscape? text = none) : unicodeEscape? (text ++ t) = none := by
  generalize whole : text ++ t = all
  fun_cases unicodeEscape? all with
  | case1 rest =>
    obtain ⟨digits, rfl, rfl⟩ := split_of_apart ['\\', 'u'] (by decide) apart whole
    exact Option.map_eq_none_iff.mpr
      (codePoint?_append_apart apart (Option.map_eq_none_iff.mp unread))
  | case2 rest =>
    obtain ⟨digits, rfl, rfl⟩ := split_of_apart ['\\', 'U'] (by decide) apart whole
    exact Option.map_eq_none_iff.mpr
      (codePoint?_append_apart apart (Option.map_eq_none_iff.mp unread))
  | case3 => rfl

/-- Whether the characters after an opening quote end in the closing one. A backslash takes the
character after it along. -/
def closesEscaped (quote : Char) : List Char → Bool
  | [] => false
  | [c] => c = quote
  | c :: d :: rest =>
    if c = '\\' then closesEscaped quote rest else c ≠ quote && closesEscaped quote (d :: rest)

/-- Whether the characters after the opening quote of a verbatim literal end in the closing one.
Inside, quotes come in twos. -/
def closesVerbatim (quote : Char) : List Char → Bool
  | [] => false
  | [c] => c = quote
  | c :: d :: rest =>
    if c = quote then d = quote && closesVerbatim quote rest else closesVerbatim quote (d :: rest)

def isQuote (c : Char) : Bool :=
  c = '"' || c = '\''

theorem isQuote_iff {c : Char} : isQuote c ↔ c = '"' ∨ c = '\'' := by
  simp [isQuote]

/-- Whether this is the whole text of a string literal, with the closing quote. -/
def closed : List Char → Bool
  | '@' :: quote :: body => isQuote quote && closesVerbatim quote body
  | quote :: body => isQuote quote && closesEscaped quote body
  | [] => false

section Closed

variable {quote : Char} {text t : List Char}

theorem quote_plain (quoted : isQuote quote) : endsString quote = false ∧ '\\' ≠ quote ∧
    digit? 16 quote = none ∧ isSeparator quote = false := by
  obtain rfl | rfl := isQuote_iff.mp quoted <;> decide

theorem closesEscaped_cons {c : Char} (unescaped : c ≠ '\\') (unquoted : c ≠ quote) :
    closesEscaped quote (c :: text) = closesEscaped quote text := by
  cases text <;> simp [closesEscaped, unescaped, unquoted]

theorem closesVerbatim_cons {c : Char} (unquoted : c ≠ quote) :
    closesVerbatim quote (c :: text) = closesVerbatim quote text := by
  cases text <;> simp [closesVerbatim, unquoted]

theorem mem_of_closesEscaped (closes : closesEscaped quote text) : quote ∈ text := by
  fun_induction closesEscaped quote text <;> grind

/-- What is no escape inside a closed literal is none either when the literal goes on. -/
theorem unicodeEscape?_append_closed (quoted : isQuote quote) {c : Char}
    (closes : closesEscaped quote text) (unread : unicodeEscape? ('\\' :: c :: text) = none) :
    unicodeEscape? ('\\' :: c :: (text ++ t)) = none := by
  have noDigit := (quote_plain quoted).2.2.1
  have shorter (count : Nat) (unread : codePoint? count text = none) :
      codePoint? count (text ++ t) = none := by
    by_cases enough : count ≤ text.length
    · rw [codePoint?_append enough, unread]
    · refine codePoint?_of_mem (c := quote) ?_ noDigit
      rw [List.take_append, List.take_of_length_le (by omega)]
      exact List.mem_append_left _ (mem_of_closesEscaped closes)
  generalize whole : '\\' :: c :: (text ++ t) = all
  fun_cases unicodeEscape? all with
  | case1 rest =>
    cases whole
    exact Option.map_eq_none_iff.mpr (shorter 4 (Option.map_eq_none_iff.mp unread))
  | case2 rest =>
    cases whole
    exact Option.map_eq_none_iff.mpr (shorter 8 (Option.map_eq_none_iff.mp unread))
  | case3 => rfl

theorem closesEscaped_append {front : List Char} (plain : ∀ c ∈ front, c ≠ '\\' ∧ c ≠ quote) :
    closesEscaped quote (front ++ text) = closesEscaped quote text := by
  induction front with
  | nil => rfl
  | cons c front ih =>
    obtain ⟨⟨unescaped, unquoted⟩, plain⟩ := List.forall_mem_cons.mp plain
    rw [List.cons_append, closesEscaped_cons unescaped unquoted, ih plain]

/-- The digits of an escape do not close a literal. -/
theorem closesEscaped_drop (quoted : isQuote quote) {count : Nat} {c : Char}
    (read : codePoint? count text = some c) :
    closesEscaped quote (text.drop count) = closesEscaped quote text := by
  conv_rhs => rw [← List.take_append_drop count text]
  refine (closesEscaped_append fun d inside => ⟨?_, ?_⟩).symm
  · rintro rfl
    cases read.symm.trans (codePoint?_of_mem inside (by decide))
  · rintro rfl
    cases read.symm.trans (codePoint?_of_mem inside (quote_plain quoted).2.2.1)

theorem closesEscaped_of_escape (quoted : isQuote quote) {c : Char} {after : List Char}
    (read : unicodeEscape? text = some (c, after)) :
    closesEscaped quote after = closesEscaped quote text := by
  revert read
  fun_cases unicodeEscape? text with
  | case1 rest =>
    intro read
    obtain ⟨_, found, ⟨⟩⟩ := Option.map_eq_some_iff.mp read
    exact (closesEscaped_drop quoted found).trans (by simp [closesEscaped])
  | case2 rest =>
    intro read
    obtain ⟨_, found, ⟨⟩⟩ := Option.map_eq_some_iff.mp read
    exact (closesEscaped_drop quoted found).trans (by simp [closesEscaped])
  | case3 =>
    intro read
    cases read

/-- A closed literal ends with its closing quote, whatever follows it. -/
theorem escapedBody_append_closed (quoted : isQuote quote) (closes : closesEscaped quote text)
    {body : List Char} (alone : escapedBody quote text = (body, [])) :
    escapedBody quote (text ++ t) = (body, t) := by
  have other : '\\' ≠ quote := (quote_plain quoted).2.1
  fun_induction escapedBody quote text generalizing body with
  | case1 => cases closes
  | case2 => cases alone
  | case3 rest unended =>
    cases alone
    rw [List.cons_append, escapedBody]
    simp [unended]
  | case4 rest c after _ _ found _ _ read _ ih =>
    cases alone
    obtain ⟨front, split, again⟩ := unicodeEscape?_split read
    rw [split, List.cons_append, List.append_assoc, escapedBody_unicode other (again _),
      ih (closesEscaped_of_escape quoted read ▸ closes) found]
  | case5 => simp [closesEscaped, other] at closes
  | case6 => cases alone
  | case7 c after unended _ _ found _ _ unread ih =>
    cases alone
    have closes : closesEscaped quote after := by simpa [closesEscaped] using closes
    rw [List.cons_append, List.cons_append,
      escapedBody_simple other (unicodeEscape?_append_closed quoted closes unread) unended,
      ih closes found]
  | case8 c rest unended unquoted plain _ _ found ih =>
    cases alone
    rw [closesEscaped_cons plain unquoted] at closes
    rw [List.cons_append, escapedBody]
    simp [unended, unquoted, plain, ih closes found]

/-- A verbatim literal goes on when its delimiter follows. -/
theorem verbatimBody_append_closed (closes : closesVerbatim quote text) {body : List Char}
    (alone : verbatimBody quote text = (body, [])) (other : t.head? ≠ some quote) :
    verbatimBody quote (text ++ t) = (body, t) := by
  fun_induction verbatimBody quote text generalizing body with
  | case1 => cases closes
  | case2 => cases alone
  | case3 after _ _ found unended ih =>
    cases alone
    have closes : closesVerbatim quote after := by simpa [closesVerbatim] using closes
    simp [verbatimBody, unended, ih closes found]
  | case4 => cases alone
  | case5 unended =>
    cases alone
    cases t with
    | nil => simp [verbatimBody, unended]
    | cons d t =>
      have single : d ≠ quote := by simpa using other
      simp [verbatimBody, unended, single]
  | case6 c rest unended unquoted _ _ found ih =>
    cases alone
    rw [closesVerbatim_cons unquoted] at closes
    rw [List.cons_append, verbatimBody.eq_def]
    simp [unended, unquoted, ih closes found]

/-- No delimiter follows a verbatim literal. -/
theorem verbatimBody_left (unended : endsString quote = false) (text : List Char) :
    (verbatimBody quote text).2.head? ≠ some quote := by
  fun_induction verbatimBody quote text <;> grind

end Closed

theorem string_of_quote {quote : Char} (quoted : isQuote quote) (rest : List Char) :
    string (quote :: rest) = escapedBody quote rest := by
  obtain rfl | rfl := isQuote_iff.mp quoted <;> rfl

/-- A closed literal is the same before anything that follows apart, also at a distance. -/
theorem string_append {text rest t s taken : List Char} (apart : Apart s)
    (left : (string (text ++ t)).2 = rest ++ t) (split : text = taken ++ rest)
    (shut : closed taken) : string (text ++ s) = ((string (text ++ t)).1, rest ++ s) := by
  have again : ∀ after, after <+: rest ++ t →
      string (taken ++ after) = ((string (text ++ t)).1, after) := by
    obtain ⟨front, whole, again⟩ := string_local (text ++ t)
    rw [left, ← List.append_assoc] at whole
    obtain rfl : taken = front :=
      List.append_cancel_right (split.symm.trans (List.append_cancel_right whole))
    rwa [left] at again
  have alone := again [] List.nil_prefix
  rw [List.append_nil] at alone
  rw [split, List.append_assoc, ← split]
  fun_cases closed taken with
  | case1 quote body =>
    obtain ⟨quoted, closes⟩ := Bool.and_eq_true_iff.mp shut
    refine verbatimBody_append_closed closes alone fun next => ?_
    cases rest with
    | nil => exact ne_of_separator (apart quote next) (quote_plain quoted).2.2.2 rfl
    | cons d rest =>
      cases next
      refine verbatimBody_left (quote_plain quoted).1 (body ++ [quote]) ?_
      have shorter : verbatimBody quote (body ++ [quote]) = _ := again [quote] (by simp)
      rw [shorter]
      rfl
  | case2 quote body plain =>
    rw [closed.eq_2 quote body plain] at shut
    obtain ⟨quoted, closes⟩ := Bool.and_eq_true_iff.mp shut
    rw [string_of_quote quoted] at alone
    exact (string_of_quote quoted _).trans (escapedBody_append_closed quoted closes alone)
  | case3 => cases shut

end Literal

end SlotScript
