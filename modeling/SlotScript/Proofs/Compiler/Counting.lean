import SlotScript.Proofs.Compiler.Acceptance
import SlotScript.Proofs.Machine.Requests
import SlotScript.Proofs.Syntax.Layout

/-! # Where code counts

A slot is counted up or down where a `++` or a `--` stands among the tokens, and nowhere else: no
other form of the grammar has such a token, and no other form of the tree such an instruction.
-/

namespace SlotScript

def TokenKind.counts (kind : TokenKind) : Bool := kind = .plusPlus || kind = .minusMinus

def Code.counts (code : Code) : Bool := code.any (·.op.counts)

mutual

/-- Whether a slot is counted anywhere in the tree. -/
def Expr.counts : Expr → Bool
  | .literal _ | .parameter | .self | .slot _ => false
  | .count _ _ => true
  | .element _ index => index.counts
  | .group e | .unary _ e => e.counts
  | .binary _ left right | .coalesce left right => left.counts || right.counts
  | .chain _ first rest => first.counts || rest.counts
  | .conditional condition yes no => condition.counts || (yes.counts || no.counts)
  | .assign _ e | .update _ _ e | .fill _ e => e.counts
  | .assignElement _ index value => index.counts || value.counts

def Operands.counts : Operands → Bool
  | .last e => e.counts
  | .more e rest => e.counts || rest.counts

end

namespace Code

@[simp] theorem counts_nil : Code.counts [] = false := rfl

@[simp] theorem counts_cons (i : Instruction) (code : Code) :
    Code.counts (i :: code) = (i.op.counts || code.counts) := rfl

@[simp] theorem counts_append (code more : Code) :
    Code.counts (code ++ more) = (code.counts || more.counts) :=
  List.any_append

end Code

@[simp] theorem AssignMode.counts_storeCode (mode : AssignMode) (key : String) :
    Code.counts (mode.storeCode key) = false := by
  cases mode <;> rfl

@[simp] theorem UnaryOperator.counts_code (op : UnaryOperator) : Code.counts op.code = false := by
  cases op <;> rfl

@[simp] theorem BinaryOperator.counts_opcode (op : BinaryOperator) : op.opcode.counts = false := by
  cases op <;> rfl

@[simp] theorem Connective.counts_branch (op : Connective) : op.branch.counts = false := by
  cases op <;> rfl

section Layout

open Instruction

mutual

theorem Expr.counts_layout (mode : AssignMode) (start : Nat) (e : Expr) :
    (e.layout mode start).counts = e.counts := by
  cases e with
  | literal | parameter | self | slot => rfl
  | count form key => cases form <;> rfl
  | element key index =>
      simp [Expr.layout, Expr.counts, index.counts_layout, keyed, Opcode.counts]
  | group e => exact e.counts_layout mode start
  | unary op e => simp [Expr.layout, Expr.counts, e.counts_layout]
  | binary op left right =>
      simp [Expr.layout, Expr.counts, left.counts_layout, right.counts_layout, plain]
  | chain op first rest =>
      cases op <;> simp [Expr.layout, Expr.counts, first.counts_layout, rest.counts_layout,
        Connective.branch, jump, push, Opcode.counts]
  | coalesce left right =>
      simp [Expr.layout, Expr.counts, left.counts_layout, right.counts_layout, jump, Opcode.counts]
  | conditional condition yes no =>
      simp [Expr.layout, Expr.counts, condition.counts_layout, yes.counts_layout, no.counts_layout,
        jump, Opcode.counts]
  | assign key e => simp [Expr.layout, Expr.counts, e.counts_layout]
  | update key op e =>
      cases op <;> simp [Expr.layout, Expr.counts, e.counts_layout, Arithmetic.opcode, keyed, plain,
        Opcode.counts]
  | fill key e => simp [Expr.layout, Expr.counts, e.counts_layout, keyed, jump, Opcode.counts]
  | assignElement key index value =>
      simp [Expr.layout, Expr.counts, index.counts_layout, value.counts_layout, keyed,
        Opcode.counts, Bool.or_comm]

theorem Operands.counts_layout (mode : AssignMode) (op : Connective) (deciding start : Nat)
    (operands : Operands) : (operands.layout mode op deciding start).counts = operands.counts := by
  cases operands with
  | last e => simp [Operands.layout, Operands.counts, e.counts_layout, jump]
  | more e rest =>
      simp [Operands.layout, Operands.counts, e.counts_layout, rest.counts_layout, jump]

end

end Layout

theorem Program.counts_emit (mode : AssignMode) (program : Program) :
    (program.emit mode).counts = program.any Expr.counts := by
  have layout (start : Nat) : (layout mode start program).counts = program.any Expr.counts := by
    induction program generalizing start with
    | nil => rfl
    | cons e rest ih => simp [Program.layout, e.counts_layout, ih]
  rw [emit_eq_layout]
  exact layout 0

section Tokens

open Token TokenKind

theorem TokenKind.not_counts_of_slotName {kind : TokenKind} (h : kind.isSlotName) :
    kind.counts = false := by
  cases kind <;> first | rfl | cases h

theorem Token.not_counts_of_constant {token : Token} {v : Value} (h : token.constant? = some v) :
    token.kind.counts = false := by
  unfold constant? at h
  cases kind : token.kind <;> rw [kind] at h <;> first | rfl | cases h

@[simp] theorem UnaryOperator.counts_kind (op : UnaryOperator) : op.kind.counts = false := by
  cases op <;> rfl

@[simp] theorem BinaryOperator.counts_kind (op : BinaryOperator) : op.kind.counts = false := by
  cases op <;> rfl

@[simp] theorem Connective.counts_kind (op : Connective) : op.kind.counts = false := by
  cases op <;> rfl

@[simp] theorem Arithmetic.counts_assignKind (op : Arithmetic) : op.assignKind.counts = false := by
  cases op <;> rfl

@[simp] theorem Counting.counts_kind (form : Counting) : form.kind.counts = true := by
  cases form <;> rfl

theorem Token.not_counts_of_kind {token : Token} {kind : TokenKind} (same : token.kind = kind)
    (other : kind.counts = false) : token.kind.counts = false :=
  same ▸ other

/-- The tokens of a form hold a sign that counts just when its tree does. -/
theorem Derives.counts {level : Level} {ts : List Token} {e : Expr} (h : Derives level ts e) :
    ts.any (·.kind.counts) = e.counts := by
  induction h using Derives.rec
    (motive_2 := fun _ left ts e _ => (left.counts || ts.any (·.kind.counts)) = e.counts)
    (motive_3 := fun _ ts rest _ => ts.any (·.kind.counts) = rest.counts) with
  | alone _ _ ih => exact ih
  | constant h => simp [Expr.counts, not_counts_of_constant h]
  | group left _ right ih =>
      simp [Expr.counts, not_counts_of_kind left rfl, ih, not_counts_of_kind right rfl]
  | parameter dollar name | self dollar name =>
      simp [Expr.counts, not_counts_of_kind dollar rfl, not_counts_of_kind name rfl]
  | slot dollar name =>
      simp [Expr.counts, not_counts_of_kind dollar rfl, not_counts_of_slotName name]
  | countAfter _ _ _ sign | countBefore _ sign => simp [Expr.counts, sign]
  | element dollar name left _ right ih =>
      simp [Expr.counts, not_counts_of_kind dollar rfl, not_counts_of_slotName name,
        not_counts_of_kind left rfl, ih, not_counts_of_kind right rfl]
  | unary sign _ ih => simp [Expr.counts, sign, ih]
  | binary _ _ first others => simp [← others, first]
  | chain _ sign _ first others => simp [Expr.counts, sign, first, others]
  | coalesce _ sign _ left right =>
      simp [Expr.counts, left, not_counts_of_kind sign rfl, right]
  | conditional _ question _ colon _ condition yes no =>
      simp [Expr.counts, condition, not_counts_of_kind question rfl, yes,
        not_counts_of_kind colon rfl, no]
  | assign dollar name sign _ ih | fill dollar name sign _ ih =>
      simp [Expr.counts, not_counts_of_kind dollar rfl, not_counts_of_slotName name,
        not_counts_of_kind sign rfl, ih]
  | update dollar name sign _ ih =>
      simp [Expr.counts, not_counts_of_kind dollar rfl, not_counts_of_slotName name, sign, ih]
  | assignElement dollar name left _ right equals _ index value =>
      simp [Expr.counts, not_counts_of_kind dollar rfl, not_counts_of_slotName name,
        not_counts_of_kind left rfl, index, not_counts_of_kind right rfl,
        not_counts_of_kind equals rfl, value]
  | done => simp
  | more sign _ _ right others => simp [← others, Expr.counts, sign, right, Bool.or_assoc]
  | last _ ih => exact ih
  | next _ sign _ first others => simp [Operands.counts, sign, first, others]

theorem Program.Spelled.counts {ts : List Token} {program : Program}
    (h : Program.Spelled ts program) : ts.any (·.kind.counts) = program.any Expr.counts := by
  induction h with
  | empty => rfl
  | last derived => simp [derived.counts]
  | more derived semicolon _ ih =>
      simp [derived.counts, Token.not_counts_of_kind semicolon rfl, ih]

end Tokens

/-- Code counts a slot somewhere just when its tokens have a sign for it. -/
theorem Code.counts_of_ofTokens {mode : AssignMode} {tokens : List Token} {code : Code}
    (compiled : Code.ofTokens mode tokens = .ok code) :
    code.counts = tokens.any (·.kind.counts) := by
  obtain ⟨program, spelled, -, rfl⟩ := ofTokens_eq_ok_iff.mp compiled
  rw [program.counts_emit, spelled.counts]

end SlotScript
