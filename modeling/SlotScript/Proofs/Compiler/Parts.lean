import SlotScript.Proofs.Machine.Run
import SlotScript.Proofs.Syntax.Layout

/-! # Parts of a program

An expression stands somewhere in a program, and its code somewhere in the code of the program. So
what is true of the code of an expression, wherever it stands, is true of all expressions of a
program.
-/

namespace SlotScript

mutual

/-- An expression is another one or a part of it. -/
inductive Expr.Within (part : Expr) : Expr → Prop where
  | whole : Expr.Within part part
  | element {key : String} {index : Expr} : part.Within index →
      Expr.Within part (.element key index)
  | group {e : Expr} : part.Within e → Expr.Within part (.group e)
  | unary {op : UnaryOperator} {e : Expr} : part.Within e → Expr.Within part (.unary op e)
  | left {op : BinaryOperator} {left right : Expr} : part.Within left →
      Expr.Within part (.binary op left right)
  | right {op : BinaryOperator} {left right : Expr} : part.Within right →
      Expr.Within part (.binary op left right)
  | first {op : Connective} {first : Expr} {rest : Operands} : part.Within first →
      Expr.Within part (.chain op first rest)
  | rest {op : Connective} {first : Expr} {rest : Operands} : Operands.Within part rest →
      Expr.Within part (.chain op first rest)
  | present {left right : Expr} : part.Within left → Expr.Within part (.coalesce left right)
  | missing {left right : Expr} : part.Within right → Expr.Within part (.coalesce left right)
  | condition {condition yes no : Expr} : part.Within condition →
      Expr.Within part (.conditional condition yes no)
  | yes {condition yes no : Expr} : part.Within yes →
      Expr.Within part (.conditional condition yes no)
  | no {condition yes no : Expr} : part.Within no →
      Expr.Within part (.conditional condition yes no)
  | assign {key : String} {e : Expr} : part.Within e → Expr.Within part (.assign key e)
  | update {key : String} {op : Arithmetic} {e : Expr} : part.Within e →
      Expr.Within part (.update key op e)
  | fill {key : String} {e : Expr} : part.Within e → Expr.Within part (.fill key e)
  | index {key : String} {index value : Expr} : part.Within index →
      Expr.Within part (.assignElement key index value)
  | value {key : String} {index value : Expr} : part.Within value →
      Expr.Within part (.assignElement key index value)

inductive Operands.Within (part : Expr) : Operands → Prop where
  | last {e : Expr} : part.Within e → Operands.Within part (.last e)
  | more {e : Expr} {rest : Operands} : part.Within e → Operands.Within part (.more e rest)
  | rest {e : Expr} {rest : Operands} : Operands.Within part rest →
      Operands.Within part (.more e rest)

end

section Layout

variable {mode : AssignMode} {code : Code} {part : Expr}

mutual

/-- The code of a part stands somewhere within that of the whole. -/
theorem Expr.holds_within (e : Expr) (within : part.Within e) {start : Nat}
    (here : code.Holds start (e.layout mode start)) :
    ∃ inside, code.Holds inside (part.layout mode inside) := by
  cases within with
  | whole => exact ⟨start, here⟩
  | element within => exact Expr.holds_within _ within (Code.holds_append.mp here).1
  | group within => exact Expr.holds_within _ within here
  | unary within => exact Expr.holds_within _ within (Code.holds_append.mp here).1
  | left within => exact Expr.holds_within _ within (Code.holds_append.mp here).1
  | right within =>
      obtain ⟨-, behind⟩ := Code.holds_append.mp here
      rw [Expr.length_layout] at behind
      exact Expr.holds_within _ within (Code.holds_append.mp behind).1
  | first within => exact Expr.holds_within _ within (Code.holds_append.mp here).1
  | rest within =>
      obtain ⟨-, -, behind⟩ := Code.holds_append.mp here
      rw [Expr.length_layout] at behind
      exact Operands.holds_within _ within (Code.holds_append.mp behind).1
  | present within => exact Expr.holds_within _ within (Code.holds_append.mp here).1
  | missing within =>
      obtain ⟨-, -, -, behind⟩ := Code.holds_append.mp here
      rw [Expr.length_layout] at behind
      exact Expr.holds_within _ within behind
  | condition within => exact Expr.holds_within _ within (Code.holds_append.mp here).1
  | yes within =>
      obtain ⟨-, -, behind⟩ := Code.holds_append.mp here
      rw [Expr.length_layout] at behind
      exact Expr.holds_within _ within (Code.holds_append.mp behind).1
  | no within =>
      obtain ⟨-, -, behind⟩ := Code.holds_append.mp here
      rw [Expr.length_layout] at behind
      obtain ⟨-, -, behind⟩ := Code.holds_append.mp behind
      rw [Expr.length_layout] at behind
      exact Expr.holds_within _ within behind
  | assign within => exact Expr.holds_within _ within (Code.holds_append.mp here).1
  | update within => exact Expr.holds_within _ within (Code.holds_append.mp here.2).1
  | fill within => exact Expr.holds_within _ within (Code.holds_append.mp here.2.2.2).1
  | value within => exact Expr.holds_within _ within (Code.holds_append.mp here).1
  | index within =>
      obtain ⟨-, behind⟩ := Code.holds_append.mp here
      rw [Expr.length_layout] at behind
      exact Expr.holds_within _ within (Code.holds_append.mp behind).1

theorem Operands.holds_within (operands : Operands) (within : Operands.Within part operands)
    {op : Connective} {deciding start : Nat}
    (here : code.Holds start (operands.layout mode op deciding start)) :
    ∃ inside, code.Holds inside (part.layout mode inside) := by
  cases within with
  | last within => exact Expr.holds_within _ within (Code.holds_append.mp here).1
  | more within => exact Expr.holds_within _ within (Code.holds_append.mp here).1
  | rest within =>
      obtain ⟨-, -, behind⟩ := Code.holds_append.mp here
      rw [Expr.length_layout] at behind
      exact Operands.holds_within _ within behind

end

/-- Every part of a program has its code somewhere. -/
theorem Program.holds_within {program : Program} {statement : Expr} (member : statement ∈ program)
    (within : part.Within statement) {start : Nat}
    (here : code.Holds start (program.layout mode start)) :
    ∃ inside, code.Holds inside (part.layout mode inside) := by
  induction program generalizing start with
  | nil => cases member
  | cons first rest ih =>
      obtain ⟨here, behind⟩ := Code.holds_append.mp here
      rw [Expr.length_layout] at behind
      cases member with
      | head => exact Expr.holds_within _ within here
      | tail _ member => exact ih member behind

end Layout

end SlotScript
