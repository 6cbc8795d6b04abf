import SlotScript.Compiler

/-!
# Sources

What can be run is given as text, which is compiled when it is needed, or as code.
-/

namespace SlotScript

inductive Source where
  | text (mode : AssignMode) (text : String)
  | code (code : Code)

def Source.compile : Source → Except CompileError Code
  | .text mode body => Code.compile mode body
  | .code c => .ok c

end SlotScript
