import SlotScript.Error
import SlotScript.Token.Basic
import SlotScript.Token.Literal

/-!
# Tokens of a text

The lexer takes the text from any point and returns the next token together with the text after
it. It never fails: what belongs to no class becomes an identifier of one character. Every token
uses up at least one character (`next?_length`), which is why reading all of them comes to an end.
-/

namespace SlotScript.Lexer

open SlotScript.Text

/-- The longest text that is accepted, in characters. -/
def maxLength : Nat := 1024

/-- The part of a text that was read when `rest` is what is left of it. -/
def consumed (text rest : List Char) : String :=
  String.ofList (text.take (text.length - rest.length))

/-- Characters that end an identifier. -/
def endsIdentifier (c : Char) : Bool :=
  c = '\x00' || "\t\n\r !\"&'()*+,-./:;<=>?[]^\x7b|\x7d~%".toList.contains c

def isAsciiStart (c : Char) : Bool :=
  c = '_' || c.isAlpha

def isAsciiPart (c : Char) : Bool :=
  c = '_' || c.isAlphanum

/-- Whether a keyword may end before this text. -/
def atBoundary : List Char → Bool
  | [] => true
  | c :: _ => endsIdentifier c || isSeparator c

/-- Whether an identifier goes on in a way that only the general form covers. -/
def needsGeneral : List Char → Bool
  | [] => false
  | c :: _ => c = '\\' || !isAscii c

/-- A keyword or an identifier of ASCII letters, digits and underscores; `none` for everything that
only the general form covers. -/
def plainIdentifier? (first : Char) (rest : List Char) : Option (Token × List Char) :=
  let name := String.ofList (first :: rest.takeWhile isAsciiPart)
  let after := rest.dropWhile isAsciiPart
  if !isAsciiStart first || needsGeneral after then none
  else
    match TokenKind.keyword? name with
    | some kind => some (if atBoundary after then .ofKind kind else .identifier name, after)
    | none => some (.identifier name, after)

/-- Whether `c` may stand in a name, at its start or later on. -/
def fitsName (atStart : Bool) (c : Char) : Bool :=
  !isAscii c || if atStart then isAsciiStart c else isAsciiPart c

/-- The name at the front of the text. Escapes are decoded; format characters are skipped unless
they are escaped. -/
def generalName (atStart : Bool) (text : List Char) : List Char × List Char :=
  match text with
  | [] => ([], [])
  | c :: rest =>
    if endsIdentifier c || isSeparator c then ([], c :: rest)
    else
      match h : Literal.unicodeEscape? (c :: rest) with
      | some (decoded, after) =>
        have := (Literal.unicodeEscape?_suffix h).length_le
        if fitsName atStart decoded then
          let (name, after) := generalName false after
          (decoded :: name, after)
        else ([], c :: rest)
      | none =>
        if !fitsName atStart c then ([], c :: rest)
        else if !isAscii c && isFormat c then generalName atStart rest
        else
          let (name, after) := generalName false rest
          (c :: name, after)
termination_by text.length

/-- An identifier in its general form, after any number of `@`. Where no name follows, the first
character alone is the identifier. -/
def generalIdentifier (first : Char) (rest : List Char) : Token × List Char :=
  let (name, after) := generalName true ((first :: rest).dropWhile (· = '@'))
  if name.isEmpty then (.identifier (String.singleton first), rest)
  else (.identifier (String.ofList name), after)

def identifier (first : Char) (rest : List Char) : Token × List Char :=
  (plainIdentifier? first rest).getD (generalIdentifier first rest)

/-- The kind that the next character selects among longer operators, or the shorter operator. -/
def operator (single : TokenKind) (longer : List (Char × TokenKind)) (rest : List Char) :
    Token × List Char :=
  match rest with
  | c :: after =>
    match longer.lookup c with
    | some kind => (.ofKind kind, after)
    | none => (.ofKind single, rest)
  | [] => (.ofKind single, [])

/-- An operator that may be doubled, and then may take an equals sign. -/
def doubling (c : Char) (single double doubleEquals : TokenKind)
    (longer : List (Char × TokenKind)) (rest : List Char) : Token × List Char :=
  match rest with
  | d :: after => if d = c then operator double [('=', doubleEquals)] after
    else operator single longer rest
  | [] => (.ofKind single, [])

def stringLiteral (text : List Char) : Token × List Char :=
  let (body, rest) := Literal.string text
  (⟨.stringLiteral, consumed text rest, some (.string (String.ofList body))⟩, rest)

def numericLiteral (text : List Char) : Token × List Char :=
  let (value, rest) := Literal.number text
  (⟨.numericLiteral, consumed text rest, some value⟩, rest)

/-- An `@` starts a verbatim string, stands alone, or leads an identifier. -/
def afterAt (rest : List Char) : Token × List Char :=
  match rest with
  | [] => (.ofKind .atSign, [])
  | c :: _ =>
    if c = '"' ∨ c = '\'' then stringLiteral ('@' :: rest)
    else if endsIdentifier c then (.ofKind .atSign, rest)
    else identifier '@' rest

/-- The token that starts with `first`, which is not a separator, and the text after it. -/
def tokenFrom (first : Char) (rest : List Char) : Token × List Char :=
  match first with
  | '+' => operator .plus [('+', .plusPlus), ('=', .plusEquals)] rest
  | '-' => operator .minus [('-', .minusMinus), ('=', .minusEquals)] rest
  | '*' => operator .asterisk [('=', .asteriskEquals)] rest
  | '/' => operator .slash [('=', .slashEquals)] rest
  | '&' => operator .ampersand [('&', .ampersandAmpersand), ('=', .ampersandEquals)] rest
  | '|' => operator .bar [('|', .barBar), ('=', .barEquals)] rest
  | '^' => operator .caret [('=', .caretEquals)] rest
  | '=' => operator .equals [('=', .equalEqual)] rest
  | '!' => operator .bang [('=', .bangEquals)] rest
  | '<' => doubling '<' .less .lessLess .lessLessEquals [('=', .lessEquals)] rest
  | '>' => doubling '>' .greater .greaterGreater .greaterGreaterEquals [('=', .greaterEquals)] rest
  | '?' => doubling '?' .question .questionQuestion .questionQuestionEquals [] rest
  | ':' => (.ofKind .colon, rest)
  | ',' => (.ofKind .comma, rest)
  | '.' => (.ofKind .dot, rest)
  | '(' => (.ofKind .openParen, rest)
  | ')' => (.ofKind .closeParen, rest)
  | ';' => (.ofKind .semicolon, rest)
  | '$' => (.ofKind .dollar, rest)
  | '[' => (.ofKind .openBracket, rest)
  | ']' => (.ofKind .closeBracket, rest)
  | '\x7b' => (.ofKind .openBrace, rest)
  | '\x7d' => (.ofKind .closeBrace, rest)
  | '~' => (.ofKind .tilde, rest)
  | '@' => afterAt rest
  | '"' => stringLiteral (first :: rest)
  | '\'' => stringLiteral (first :: rest)
  | first =>
    if isDigit 10 first then numericLiteral (first :: rest) else identifier first rest

theorem plainIdentifier?_suffix {first : Char} {rest after : List Char} {t : Token}
    (h : plainIdentifier? first rest = some (t, after)) : after <:+ rest := by
  have := List.dropWhile_suffix (l := rest) isAsciiPart
  grind [plainIdentifier?]

theorem generalName_suffix (atStart : Bool) (text : List Char) :
    (generalName atStart text).2 <:+ text := by
  fun_induction generalName atStart text <;> grind [→ Literal.unicodeEscape?_suffix]

/-- A name that is not empty has used up a character. -/
theorem generalName_cons_suffix (atStart : Bool) (first : Char) (rest : List Char)
    (h : (generalName atStart (first :: rest)).1 ≠ []) :
    (generalName atStart (first :: rest)).2 <:+ rest := by
  generalize htext : first :: rest = text at h
  revert h
  fun_cases generalName atStart text <;> cases htext <;>
    grind [→ Literal.unicodeEscape?_suffix, generalName_suffix]

theorem generalIdentifier_suffix (first : Char) (rest : List Char) :
    (generalIdentifier first rest).2 <:+ rest := by
  have hd : rest.dropWhile (· = '@') <:+ rest := List.dropWhile_suffix _
  have hat := generalName_suffix true (rest.dropWhile (· = '@'))
  have hother := generalName_cons_suffix true first rest
  fun_cases generalIdentifier first rest <;> grind [List.dropWhile_cons, List.isEmpty_iff]

theorem identifier_suffix (first : Char) (rest : List Char) :
    (identifier first rest).2 <:+ rest := by
  unfold identifier
  cases h : plainIdentifier? first rest with
  | none => exact generalIdentifier_suffix first rest
  | some result => exact plainIdentifier?_suffix (t := result.1) h

theorem operator_suffix (single : TokenKind) (longer : List (Char × TokenKind))
    (rest : List Char) : (operator single longer rest).2 <:+ rest := by
  fun_cases operator single longer rest <;> grind

theorem doubling_suffix (c : Char) (single double doubleEquals : TokenKind)
    (longer : List (Char × TokenKind)) (rest : List Char) :
    (doubling c single double doubleEquals longer rest).2 <:+ rest := by
  fun_cases doubling c single double doubleEquals longer rest <;>
    grind [operator_suffix, Literal.suffix_cons_of_suffix]

theorem stringLiteral_suffix (first : Char) (rest : List Char) :
    (stringLiteral (first :: rest)).2 <:+ rest :=
  Literal.string_suffix first rest

theorem afterAt_suffix (rest : List Char) : (afterAt rest).2 <:+ rest := by
  fun_cases afterAt rest <;> grind [stringLiteral_suffix, identifier_suffix]

theorem tokenFrom_suffix (first : Char) (rest : List Char) :
    (tokenFrom first rest).2 <:+ rest := by
  unfold tokenFrom
  split <;> first
    | exact operator_suffix ..
    | exact doubling_suffix ..
    | exact List.suffix_rfl
    | exact afterAt_suffix ..
    | exact stringLiteral_suffix ..
    | (split
       · exact Literal.number_suffix _ ‹_›
       · exact identifier_suffix ..)

/-- The next token and the text after it; `none` if only separators are left. -/
def next? (text : List Char) : Option (Token × List Char) :=
  match text.dropWhile isSeparator with
  | [] => none
  | first :: rest => some (tokenFrom first rest)

/-- A token uses up at least one character. -/
theorem next?_length {text rest : List Char} {token : Token}
    (h : next? text = some (token, rest)) : rest.length < text.length := by
  unfold next? at h
  have hskip := (List.dropWhile_suffix (l := text) isSeparator).length_le
  split at h
  · cases h
  · rename_i first after heq
    have hrest := (tokenFrom_suffix first after).length_le
    simp only [heq, List.length_cons] at hskip
    simp only [Option.some.injEq] at h
    simp only [h] at hrest
    omega

/-- All tokens of a text, in order. -/
def tokens (text : List Char) : List Token :=
  match h : next? text with
  | none => []
  | some (token, rest) =>
    have := next?_length h
    token :: tokens rest
termination_by text.length

/-- The text as characters, unless it is too long. -/
def characters (text : String) : Except CompileError (List Char) :=
  let length := text.toList.length
  if maxLength < length then .error (.tooLong length maxLength) else .ok text.toList

/-- All tokens of a text that is not too long. -/
def tokenize (text : String) : Except CompileError (List Token) :=
  tokens <$> characters text

end SlotScript.Lexer
