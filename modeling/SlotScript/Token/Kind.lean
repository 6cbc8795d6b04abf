/-!
# Kinds of tokens

Names, string literals and numbers vary in their text; every other kind has one fixed text. The
language recognises more operators than it gives a meaning to, so that using one of the others is
reported by its name.
-/

namespace SlotScript

inductive TokenKind where
  | identifier | stringLiteral | numericLiteral
  | plus | plusPlus | plusEquals
  | minus | minusMinus | minusEquals
  | asterisk | asteriskEquals
  | slash | slashEquals
  | ampersand | ampersandAmpersand | ampersandEquals
  | bar | barBar | barEquals
  | caret | caretEquals
  | less | lessEquals | lessLess | lessLessEquals
  | greater | greaterEquals | greaterGreater | greaterGreaterEquals
  | question | questionQuestion | questionQuestionEquals
  | equals | equalEqual
  | bang | bangEquals
  | colon | comma | dot
  | openParen | closeParen
  | semicolon
  | dollar
  | openBracket | closeBracket
  | openBrace | closeBrace
  | tilde
  | atSign
  | parameterWord | selfWord | nullWord | trueWord | falseWord
deriving DecidableEq

namespace TokenKind

/-- Every kind with a fixed text. -/
def fixed : List TokenKind := [
  plus, plusPlus, plusEquals, minus, minusMinus, minusEquals, asterisk, asteriskEquals, slash,
  slashEquals, ampersand, ampersandAmpersand, ampersandEquals, bar, barBar, barEquals, caret,
  caretEquals, less, lessEquals, lessLess, lessLessEquals, greater, greaterEquals, greaterGreater,
  greaterGreaterEquals, question, questionQuestion, questionQuestionEquals, equals, equalEqual,
  bang, bangEquals, colon, comma, dot, openParen, closeParen, semicolon, dollar, openBracket,
  closeBracket, openBrace, closeBrace, tilde, atSign, parameterWord, selfWord, nullWord, trueWord,
  falseWord]

/-- The fixed text of a kind. -/
def text? : TokenKind → Option String
  | identifier | stringLiteral | numericLiteral => none
  | plus => some "+"
  | plusPlus => some "++"
  | plusEquals => some "+="
  | minus => some "-"
  | minusMinus => some "--"
  | minusEquals => some "-="
  | asterisk => some "*"
  | asteriskEquals => some "*="
  | slash => some "/"
  | slashEquals => some "/="
  | ampersand => some "&"
  | ampersandAmpersand => some "&&"
  | ampersandEquals => some "&="
  | bar => some "|"
  | barBar => some "||"
  | barEquals => some "|="
  | caret => some "^"
  | caretEquals => some "^="
  | less => some "<"
  | lessEquals => some "<="
  | lessLess => some "<<"
  | lessLessEquals => some "<<="
  | greater => some ">"
  | greaterEquals => some ">="
  | greaterGreater => some ">>"
  | greaterGreaterEquals => some ">>="
  | question => some "?"
  | questionQuestion => some "??"
  | questionQuestionEquals => some "??="
  | equals => some "="
  | equalEqual => some "=="
  | bang => some "!"
  | bangEquals => some "!="
  | colon => some ":"
  | comma => some ","
  | dot => some "."
  | openParen => some "("
  | closeParen => some ")"
  | semicolon => some ";"
  | dollar => some "$"
  | openBracket => some "["
  | closeBracket => some "]"
  | openBrace => some "\x7b"
  | closeBrace => some "\x7d"
  | tilde => some "~"
  | atSign => some "@"
  | parameterWord => some "parameter"
  | selfWord => some "self"
  | nullWord => some "null"
  | trueWord => some "true"
  | falseWord => some "false"

/-- The name of a kind in error messages: words are marked off, operators stand for themselves. -/
def name : TokenKind → String
  | identifier => "identifier"
  | stringLiteral => "string literal"
  | numericLiteral => "numeric literal"
  | parameterWord => "`parameter`"
  | selfWord => "`self`"
  | nullWord => "`null`"
  | trueWord => "`true`"
  | falseWord => "`false`"
  | kind => kind.text?.getD "token"

/-- The keyword a whole identifier spells, if it spells one. -/
def keyword? (text : String) : Option TokenKind :=
  [parameterWord, selfWord, nullWord, trueWord, falseWord].find? fun kind => kind.text? = some text

/-- Whether the kind may follow `$` as the name of a slot: keywords may. -/
def isName (kind : TokenKind) : Bool :=
  [identifier, parameterWord, selfWord, nullWord, trueWord, falseWord].contains kind

end TokenKind

end SlotScript
