import Mathlib.Data.List.Forall2
import SlotScript.Compiler
import SlotScript.Proofs.Syntax.Layout

/-! # The two modes of assignment

The mode of assignment decides which instruction stores a value in a slot, and nothing else: not
what is accepted, nor where a jump leads. Each store of code for the local scope has one for the
nearest scope in its place.
-/

namespace SlotScript

namespace Instruction

/-- The instruction with a write to the nearest scope in place of one to the local scope. -/
def widened (i : Instruction) : Instruction :=
  if i.op = .directSetResource then { i with op := .setResource } else i

/-- What has the place of an instruction when the mode of assignment is the other one. -/
inductive Widens : Instruction → Instruction → Prop where
  | same {i : Instruction} : i.op ≠ .directSetResource → Widens i i
  | store (key : String) : Widens (.keyedWith .directSetResource key (.sentinel .last))
      (.keyedWith .setResource key (.sentinel .last))

theorem Widens.eq_widened {i i' : Instruction} (h : i.Widens i') : i' = i.widened := by
  cases h with
  | same other => exact (if_neg other).symm
  | store => rfl

theorem Widens.operands {i i' : Instruction} (h : i.Widens i') : i'.operands = i.operands := by
  cases h <;> rfl

end Instruction

/-- Code that writes to the local scope, and the same code writing to the nearest one. -/
def Code.Widens (code code' : Code) : Prop := List.Forall₂ Instruction.Widens code code'

namespace Code.Widens

variable {code code' more more' : Code}

theorem nil : Code.Widens [] [] :=
  List.Forall₂.nil

theorem cons {i i' : Instruction} (first : i.Widens i') (h : code.Widens code') :
    Code.Widens (i :: code) (i' :: code') :=
  List.Forall₂.cons first h

theorem append (h : code.Widens code') (h' : more.Widens more') :
    (code ++ more).Widens (code' ++ more') :=
  List.rel_append h h'

/-- An instruction that does not write a slot is the same in both. -/
theorem same {i : Instruction} (other : i.op ≠ .directSetResource) : Code.Widens [i] [i] :=
  .cons (.same other) .nil

theorem eq_widened (h : code.Widens code') : code' = code.map Instruction.widened := by
  induction h with
  | nil => rfl
  | cons first _ ih => rw [List.map_cons, first.eq_widened, ih]

theorem length_eq (h : code.Widens code') : code'.length = code.length :=
  (List.Forall₂.length_eq h).symm

theorem literals_eq (h : code.Widens code') : code'.literals = code.literals := by
  induction h with
  | nil => rfl
  | cons first _ ih =>
      unfold Code.literals at ih ⊢
      rw [List.flatMap_cons, List.flatMap_cons, first.operands, ih]

/-- The same index leads to instructions that have each other's place. -/
theorem getElem? (h : code.Widens code') (n : Nat) :
    Option.Rel Instruction.Widens code[n]? code'[n]? := by
  induction h generalizing n with
  | nil => exact .none
  | cons first _ ih =>
      cases n with
      | zero => exact .some first
      | succ n => exact ih n

end Code.Widens

theorem AssignMode.widens_storeCode (key : String) :
    Code.Widens (direct.storeCode key) (nearest.storeCode key) :=
  .cons (.store key) (.same nofun)

theorem UnaryOperator.widens_code (op : UnaryOperator) : Code.Widens op.code op.code := by
  cases op with
  | plus => exact .nil
  | _ => exact .same nofun

mutual

theorem Expr.widens (start : Nat) (e : Expr) :
    (e.layout .direct start).Widens (e.layout .nearest start) := by
  cases e with
  | literal | parameter | self | slot => exact .same nofun
  | count form key => cases form <;> exact .same nofun
  | element key index => exact (index.widens start).append (.same nofun)
  | group e => exact e.widens start
  | unary op e => exact (e.widens start).append op.widens_code
  | binary op left right =>
      refine (left.widens start).append ((right.widens _).append (.same ?_))
      cases op <;> nofun
  | chain op first rest =>
      refine (first.widens start).append (.cons (.same ?_) ((rest.widens op _ _).append
        (.cons (.same nofun) (.cons (.same nofun) (.same nofun)))))
      cases op <;> nofun
  | coalesce left right =>
      exact (left.widens start).append
        (.cons (.same nofun) (.cons (.same nofun) (right.widens _)))
  | conditional condition yes no =>
      exact (condition.widens start).append (.cons (.same nofun)
        ((yes.widens _).append (.cons (.same nofun) (no.widens _))))
  | assign key e => exact (e.widens start).append (AssignMode.widens_storeCode key)
  | update key op e =>
      refine .cons (.same nofun) ((e.widens _).append (.cons (.same ?_)
        (AssignMode.widens_storeCode key)))
      cases op <;> nofun
  | fill key e =>
      exact .cons (.same nofun) (.cons (.same nofun) (.cons (.same nofun)
        ((e.widens _).append (AssignMode.widens_storeCode key))))
  | assignElement key index value =>
      exact (value.widens start).append ((index.widens _).append (.same nofun))

theorem Operands.widens (op : Connective) (deciding start : Nat) (operands : Operands) :
    (operands.layout .direct op deciding start).Widens
      (operands.layout .nearest op deciding start) := by
  have branch : op.branch ≠ .directSetResource := by cases op <;> nofun
  cases operands with
  | last e => exact (e.widens start).append (.same branch)
  | more e rest => exact (e.widens start).append (.cons (.same branch) (rest.widens op _ _))

end

theorem Program.widens (program : Program) :
    (program.emit .direct).Widens (program.emit .nearest) := by
  have layout (start : Nat) :
      (layout .direct start program).Widens (layout .nearest start program) := by
    induction program generalizing start with
    | nil => exact .nil
    | cons e rest ih => exact (e.widens start).append (ih _)
  rw [emit_eq_layout, emit_eq_layout]
  exact layout 0

/-- Whether the instruction writes a value to a slot, whatever is there. -/
def Opcode.storesResource : Opcode → Bool
  | setResource | directSetResource => true
  | _ => false

/-- All values are written by the instruction of one mode. -/
def Code.StoresBy (mode : AssignMode) (code : Code) : Prop :=
  ∀ i ∈ code, i.op.storesResource → i.op = mode.writeOp

namespace Code.StoresBy

variable {mode : AssignMode} {code more : Code}

theorem nil : Code.StoresBy mode [] :=
  List.forall_mem_nil _

theorem cons {i : Instruction} (first : i.op.storesResource → i.op = mode.writeOp)
    (h : code.StoresBy mode) : Code.StoresBy mode (i :: code) :=
  List.forall_mem_cons.mpr ⟨first, h⟩

theorem append (h : code.StoresBy mode) (h' : more.StoresBy mode) :
    Code.StoresBy mode (code ++ more) :=
  List.forall_mem_append.mpr ⟨h, h'⟩

/-- An instruction that does not store anything suits either mode. -/
theorem other {i : Instruction} (silent : ¬ i.op.storesResource) : Code.StoresBy mode [i] :=
  .cons (fun stores => (silent stores).elim) .nil

end Code.StoresBy

theorem AssignMode.storesBy_storeCode (mode : AssignMode) (key : String) :
    Code.StoresBy mode (mode.storeCode key) :=
  .cons (fun _ => rfl) (.other nofun)

theorem UnaryOperator.storesBy_code (mode : AssignMode) (op : UnaryOperator) :
    Code.StoresBy mode op.code := by
  cases op with
  | plus => exact .nil
  | _ => exact .other nofun

mutual

theorem Expr.storesBy (mode : AssignMode) (start : Nat) (e : Expr) :
    (e.layout mode start).StoresBy mode := by
  cases e with
  | literal | parameter | self | slot => exact .other nofun
  | count form key => cases form <;> exact .other nofun
  | element key index => exact (index.storesBy mode start).append (.other nofun)
  | group e => exact e.storesBy mode start
  | unary op e => exact (e.storesBy mode start).append (op.storesBy_code mode)
  | binary op left right =>
      refine (left.storesBy mode start).append ((right.storesBy mode _).append (.other ?_))
      cases op <;> nofun
  | chain op first rest =>
      refine (first.storesBy mode start).append (.cons ?_ ((rest.storesBy mode op _ _).append
        (.cons nofun (.cons nofun (.other nofun)))))
      cases op <;> nofun
  | coalesce left right =>
      exact (left.storesBy mode start).append (.cons nofun (.cons nofun (right.storesBy mode _)))
  | conditional condition yes no =>
      exact (condition.storesBy mode start).append (.cons nofun
        ((yes.storesBy mode _).append (.cons nofun (no.storesBy mode _))))
  | assign key e => exact (e.storesBy mode start).append (mode.storesBy_storeCode key)
  | update key op e =>
      refine .cons nofun ((e.storesBy mode _).append (.cons ?_ (mode.storesBy_storeCode key)))
      cases op <;> nofun
  | fill key e =>
      exact .cons nofun (.cons nofun (.cons nofun
        ((e.storesBy mode _).append (mode.storesBy_storeCode key))))
  | assignElement key index value =>
      exact (value.storesBy mode start).append ((index.storesBy mode _).append (.other nofun))

theorem Operands.storesBy (mode : AssignMode) (op : Connective) (deciding start : Nat)
    (operands : Operands) : (operands.layout mode op deciding start).StoresBy mode := by
  have branch : ¬ op.branch.storesResource := by cases op <;> nofun
  cases operands with
  | last e => exact (e.storesBy mode start).append (.other branch)
  | more e rest =>
      exact (e.storesBy mode start).append
        (.cons (fun stores => (branch stores).elim) (rest.storesBy mode op _ _))

end

theorem Program.storesBy (mode : AssignMode) (program : Program) :
    (program.emit mode).StoresBy mode := by
  have layout (start : Nat) : (layout mode start program).StoresBy mode := by
    induction program generalizing start with
    | nil => exact .nil
    | cons e rest ih => exact (e.storesBy mode start).append (ih _)
  rw [emit_eq_layout]
  exact layout 0

/-- The mode does not decide what is accepted. -/
theorem Code.widens_of_ofTokens (tokens : List Token) :
    (∃ e, ofTokens .direct tokens = .error e ∧ ofTokens .nearest tokens = .error e) ∨
      ∃ code code', ofTokens .direct tokens = .ok code ∧ ofTokens .nearest tokens = .ok code' ∧
        code.Widens code' := by
  unfold ofTokens
  cases Program.parse tokens with
  | error e => exact .inl ⟨e, rfl, rfl⟩
  | ok program => exact .inr ⟨_, _, rfl, rfl, program.widens⟩

end SlotScript
