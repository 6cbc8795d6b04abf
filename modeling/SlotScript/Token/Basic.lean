import SlotScript.Token.Kind
import SlotScript.Value.Basic

/-!
# Tokens

A token is a piece of expression text with its kind. Literals carry the value they denote; the text
of an identifier is its name, without an `@` in front and with its escapes decoded.
-/

namespace SlotScript

structure Token where
  kind : TokenKind
  text : String
  literal? : Option Value

namespace Token

/-- The token of a kind with fixed text; for the other kinds one without text. -/
def ofKind (kind : TokenKind) : Token :=
  ⟨kind, kind.text?.getD "", none⟩

def identifier (name : String) : Token :=
  ⟨.identifier, name, none⟩

/-- The literal value, or the text of a token that is no literal. -/
def value (token : Token) : Value :=
  token.literal?.getD (.string token.text)

end Token

end SlotScript
