import SlotScript.Operator.Arithmetic

/-!
# Syntax trees

The forms an expression can take. Parentheses and unary plus are kept in the tree, so that a tree
says which tokens it was read from. A run of `||` or of `&&` is one node with all its operands: they
share one decision, and it matters to the code whether two of them stand in parentheses.
-/

namespace SlotScript

/-- Where assignments write: to the nearest scope that defines the key, or always locally. -/
inductive AssignMode where
  | nearest
  | direct
deriving DecidableEq

def AssignMode.name : AssignMode → String
  | nearest => "Scoped"
  | direct => "Direct"

inductive UnaryOperator where
  | not | minus | complement | plus
deriving DecidableEq

inductive BinaryOperator where
  | add | subtract | multiply | divide
  | less | lessOrEqual | greater | greaterOrEqual
  | equal | notEqual
  | bitwiseAnd | bitwiseXor | bitwiseOr
deriving DecidableEq

/-- The operators that stop at the operand that decides them. -/
inductive Connective where
  | and | or
deriving DecidableEq

/-- The forms that count a slot up or down. The prefix forms yield the new value. -/
inductive Counting where
  | preIncrement | preDecrement | postIncrement | postDecrement
deriving DecidableEq

mutual

inductive Expr where
  | literal (v : Value)
  | parameter
  | self
  | slot (key : String)
  | element (key : String) (index : Expr)
  | count (form : Counting) (key : String)
  | group (e : Expr)
  | unary (op : UnaryOperator) (e : Expr)
  | binary (op : BinaryOperator) (left right : Expr)
  | chain (op : Connective) (first : Expr) (rest : Operands)
  | coalesce (left right : Expr)
  | conditional (condition yes no : Expr)
  | assign (key : String) (e : Expr)
  | update (key : String) (op : Arithmetic) (e : Expr)
  /-- Assigns only if the slot holds null. -/
  | fill (key : String) (e : Expr)
  | assignElement (key : String) (index value : Expr)

/-- The operands of a chain after the first. -/
inductive Operands where
  | last (e : Expr)
  | more (e : Expr) (rest : Operands)

end

/-- A program is a sequence of statements; the last one gives its result. -/
abbrev Program := List Expr

end SlotScript
