import SlotScript.Syntax.Emission
import SlotScript.Syntax.Parser
import SlotScript.Token.Lexer

/-!
# Compilation

From text to code: the tokens of the text, the program they spell, and its code. The first error
ends compilation.
-/

namespace SlotScript

/-- The code of a list of tokens. -/
def Code.ofTokens (mode : AssignMode) (tokens : List Token) : Except CompileError Code :=
  Program.emit mode <$> Program.parse tokens

/-- The code of a text. -/
def Code.compile (mode : AssignMode) (text : String) : Except CompileError Code := do
  Code.ofTokens mode (← Lexer.tokenize text)

end SlotScript
