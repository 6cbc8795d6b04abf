import SlotScript.Syntax.Emission

/-! # The code of a tree, laid out at once

Emission binds a jump after the code it skips is emitted. Here the length of every piece of code is
known in advance, so each jump is written with its target. Both give the same code, and what is said
of compiled code is proved of this form.
-/

namespace SlotScript

def UnaryOperator.code (op : UnaryOperator) : Code := (op.opcode?.map Instruction.plain).toList

mutual

/-- The number of instructions of an expression. -/
def Expr.size : Expr → Nat
  | .literal _ | .parameter | .self | .slot _ | .count _ _ => 1
  | .element _ index => index.size + 1
  | .group e => e.size
  | .unary op e => e.size + op.code.length
  | .binary _ left right => left.size + right.size + 1
  | .chain _ first rest => first.size + 1 + rest.size + 3
  | .coalesce left right => left.size + 2 + right.size
  | .conditional condition yes no => condition.size + 1 + yes.size + 1 + no.size
  | .assign _ e => e.size + 2
  | .update _ _ e => 1 + e.size + 3
  | .fill _ e => 3 + e.size + 2
  | .assignElement _ index value => value.size + index.size + 1

def Operands.size : Operands → Nat
  | .last e => e.size + 1
  | .more e rest => e.size + 1 + rest.size

end

/-- The two instructions that store the value on top and read it back. -/
def AssignMode.storeCode (mode : AssignMode) (key : String) : Code :=
  [.keyedWith mode.writeOp key (.sentinel .last), .keyed .getResource key]

mutual

/-- The code of an expression whose first instruction has the index `start`. -/
def Expr.layout (mode : AssignMode) (start : Nat) : Expr → Code
  | .literal v => [.push v]
  | .parameter => [.plain .pushParameter]
  | .self => [.plain .pushSelf]
  | .slot key => [.keyed .getResource key]
  | .element key index => index.layout mode start ++ [.keyed .indexGet key]
  | .count form key => [form.instruction key]
  | .group e => e.layout mode start
  | .unary op e => e.layout mode start ++ op.code
  | .binary op left right =>
    left.layout mode start ++ (right.layout mode (start + left.size) ++ [.plain op.opcode])
  | .chain op first rest =>
    let deciding := start + first.size + 1 + rest.size + 2
    first.layout mode start ++ .jump op.branch deciding ::
      (rest.layout mode op deciding (start + first.size + 1) ++
        [.push (.bool !op.decider), .jump .jump (deciding + 1), .push (.bool op.decider)])
  | .coalesce left right =>
    let missing := start + left.size + 2
    left.layout mode start ++ .jump .jumpIfNull missing :: .jump .jump (missing + right.size) ::
      right.layout mode missing
  | .conditional condition yes no =>
    let otherwise := start + condition.size + 1 + yes.size + 1
    condition.layout mode start ++ .jump .jumpIfFalse otherwise ::
      (yes.layout mode (start + condition.size + 1) ++ .jump .jump (otherwise + no.size) ::
        no.layout mode otherwise)
  | .assign key e => e.layout mode start ++ mode.storeCode key
  | .update key op e =>
    .keyed .getResource key ::
      (e.layout mode (start + 1) ++ .plain op.opcode :: mode.storeCode key)
  | .fill key e =>
    .keyed .getResource key :: .jump .jumpIfNull (start + 3) ::
      .jump .jump (start + 3 + e.size + 2) :: (e.layout mode (start + 3) ++ mode.storeCode key)
  | .assignElement key index value =>
    value.layout mode start ++ (index.layout mode (start + value.size) ++ [.keyed .indexSet key])

/-- The code of the operands of a chain, each followed by the jump to where the chain is decided. -/
def Operands.layout (mode : AssignMode) (op : Connective) (deciding start : Nat) : Operands → Code
  | .last e => e.layout mode start ++ [.jump op.branch deciding]
  | .more e rest =>
    e.layout mode start ++ .jump op.branch deciding ::
      rest.layout mode op deciding (start + e.size + 1)

end

/-- The code of statements one after the other. -/
def Program.layout (mode : AssignMode) : Nat → Program → Code
  | _, [] => []
  | start, e :: rest => e.layout mode start ++ Program.layout mode (start + e.size) rest

mutual

@[simp] theorem Expr.length_layout (mode : AssignMode) (start : Nat) (e : Expr) :
    (e.layout mode start).length = e.size := by
  cases e with
  | literal | parameter | self | slot | count => rfl
  | element key index => simp [Expr.layout, Expr.size, index.length_layout]
  | group e => simp [Expr.layout, Expr.size, e.length_layout]
  | unary op e => simp [Expr.layout, Expr.size, e.length_layout]
  | binary op left right =>
      simp [Expr.layout, Expr.size, left.length_layout, right.length_layout]
      omega
  | chain op first rest =>
      simp [Expr.layout, Expr.size, first.length_layout, rest.length_layout]
      omega
  | coalesce left right =>
      simp [Expr.layout, Expr.size, left.length_layout, right.length_layout]
      omega
  | conditional condition yes no =>
      simp [Expr.layout, Expr.size, condition.length_layout, yes.length_layout, no.length_layout]
      omega
  | assign key e => simp [Expr.layout, Expr.size, e.length_layout, AssignMode.storeCode]
  | update key op e =>
      simp [Expr.layout, Expr.size, e.length_layout, AssignMode.storeCode]
      omega
  | fill key e =>
      simp [Expr.layout, Expr.size, e.length_layout, AssignMode.storeCode]
      omega
  | assignElement key index value =>
      simp [Expr.layout, Expr.size, index.length_layout, value.length_layout]
      omega

@[simp] theorem Operands.length_layout (mode : AssignMode) (op : Connective)
    (deciding start : Nat) (operands : Operands) :
    (operands.layout mode op deciding start).length = operands.size := by
  cases operands with
  | last e => simp [Operands.layout, Operands.size, e.length_layout]
  | more e rest =>
      simp [Operands.layout, Operands.size, e.length_layout, rest.length_layout]
      omega

end

/-- No expression is without code, so a jump to the code of one leads to an instruction. -/
theorem Expr.size_pos (e : Expr) : 0 < e.size := by
  induction e using Expr.rec (motive_2 := fun operands => 0 < operands.size) <;>
    simp only [Expr.size, Operands.size] <;> omega

/-- Binding a label rewrites the one jump it stands for. -/
theorem CodeBuilder.bindTo_jump (before : Code) (op : Opcode) (old target : Nat) (after : Code) :
    bindTo ⟨before ++ .jump op old :: after⟩ ⟨before.length⟩ target =
      ⟨before ++ .jump op target :: after⟩ := by
  simp only [bindTo, CodeBuilder.mk.injEq]
  induction before with
  | nil => rfl
  | cons i before ih => simpa using ih

/-- The labels of the jumps behind the operands of a chain. -/
def Operands.labels (start : Nat) : Operands → List Label
  | .last e => [⟨start + e.size⟩]
  | .more e rest => ⟨start + e.size⟩ :: rest.labels (start + e.size + 1)

/-- Binding the label of a jump that stands right behind some piece of code. -/
theorem CodeBuilder.bind_jump (before piece : Code) (op : Opcode) (old : Nat) (after : Code) :
    bind ⟨before ++ (piece ++ .jump op old :: after)⟩ ⟨before.length + piece.length⟩ =
      ⟨before ++ (piece ++
        .jump op (before.length + piece.length + 1 + after.length) :: after)⟩ := by
  have h := bindTo_jump (before ++ piece) op old
    (before.length + piece.length + 1 + after.length) after
  simp only [List.append_assoc, List.length_append] at h
  rw [bind, offset, ← h]
  congr 1
  simp only [List.length_append, List.length_cons]
  omega

/-- Binding the labels of a chain leads all its jumps to the end of the code. -/
theorem Operands.bind_labels (mode : AssignMode) (op : Connective) (old : Nat) (after : Code) :
    ∀ (operands : Operands) (before : Code),
      (operands.labels before.length).foldl CodeBuilder.bind
          ⟨before ++ (operands.layout mode op old before.length ++ after)⟩ =
        ⟨before ++ (operands.layout mode op (before.length + operands.size + after.length)
          before.length ++ after)⟩
  | .last e, before => by
      have h := CodeBuilder.bind_jump before (e.layout mode before.length) op.branch old after
      simpa [labels, layout, size, Nat.add_assoc] using h
  | .more e rest, before => by
      have h := CodeBuilder.bind_jump before (e.layout mode before.length) op.branch old
        (rest.layout mode op old (before.length + e.size + 1) ++ after)
      have ih := bind_labels mode op old after rest
        (before ++ e.layout mode before.length ++
          [.jump op.branch (before.length + (more e rest).size + after.length)])
      simp only [List.length_append, List.length_cons, List.length_nil, Expr.length_layout,
        List.append_assoc, List.cons_append, List.nil_append, Operands.length_layout] at h ih
      simp only [labels, layout, List.foldl_cons, List.append_assoc, List.cons_append]
      rw [h]
      simp only [size, Nat.add_assoc] at ih ⊢
      simpa only [Nat.zero_add] using ih

def Expr.Emits (mode : AssignMode) (e : Expr) : Prop :=
  ∀ b : CodeBuilder, e.emit mode b = ⟨b.code ++ e.layout mode b.code.length⟩

/-- The operands of a chain are emitted with targets that are still to be bound. -/
def Operands.Emits (mode : AssignMode) (operands : Operands) : Prop :=
  ∀ (op : Connective) (b : CodeBuilder), operands.emit mode op b =
    (operands.labels b.code.length, ⟨b.code ++ operands.layout mode op 0 b.code.length⟩)

-- The labels are bound in the order of emission, so each form with jumps is closed by one rewriting
-- step for each bound jump, on code that already has the targets of the jumps bound before.

namespace Expr

variable {mode : AssignMode}

theorem emits_chain (op : Connective) {first : Expr} {rest : Operands}
    (first_emits : first.Emits mode) (rest_emits : rest.Emits mode) :
    (chain op first rest).Emits mode := by
  intro b
  have labels := Operands.bind_labels mode op 0
    [.push (.bool !op.decider), .jump .jump 0] (.more first rest) b.code
  have last := CodeBuilder.bind_jump b.code
    ((Operands.more first rest).layout mode op
      (b.code.length + first.size + 1 + rest.size + 2) b.code.length ++
        [.push (.bool !op.decider)]) .jump 0 [.push (.bool op.decider)]
  simp [Operands.layout, Operands.size, Operands.labels, first.length_layout,
    rest.length_layout, Nat.add_assoc, Nat.add_left_comm 1] at labels last
  simp [emit, layout, first_emits b, rest_emits op, CodeBuilder.jump, CodeBuilder.emitPush,
    CodeBuilder.emit, CodeBuilder.offset, Nat.add_assoc, Nat.add_left_comm 1, labels]
  exact last

theorem emits_coalesce {left right : Expr} (left_emits : left.Emits mode)
    (right_emits : right.Emits mode) : (coalesce left right).Emits mode := by
  intro b
  have first := CodeBuilder.bind_jump b.code (left.layout mode b.code.length) .jumpIfNull 0
    [.jump .jump 0]
  have second := CodeBuilder.bind_jump b.code
    (left.layout mode b.code.length ++
      [.jump .jumpIfNull (b.code.length + left.size + 2)]) .jump 0
    (right.layout mode (b.code.length + left.size + 2))
  simp [left.length_layout, right.length_layout, Nat.add_assoc] at first second
  simp [emit, layout, left_emits b, right_emits _, CodeBuilder.jump, CodeBuilder.emit,
    CodeBuilder.offset, Nat.add_assoc, first]
  exact second

theorem emits_conditional {condition yes no : Expr} (condition_emits : condition.Emits mode)
    (yes_emits : yes.Emits mode) (no_emits : no.Emits mode) :
    (conditional condition yes no).Emits mode := by
  intro b
  have first := CodeBuilder.bind_jump b.code (condition.layout mode b.code.length)
    .jumpIfFalse 0
    (yes.layout mode (b.code.length + condition.size + 1) ++ [.jump .jump 0])
  have second := CodeBuilder.bind_jump b.code
    (condition.layout mode b.code.length ++
      .jump .jumpIfFalse (b.code.length + condition.size + 1 + yes.size + 1) ::
        yes.layout mode (b.code.length + condition.size + 1)) .jump 0
    (no.layout mode (b.code.length + condition.size + 1 + yes.size + 1))
  simp [condition.length_layout, yes.length_layout, no.length_layout, Nat.add_assoc,
    Nat.add_left_comm 1] at first second
  simp [emit, layout, condition_emits b, yes_emits _, no_emits _, CodeBuilder.jump,
    CodeBuilder.emit, CodeBuilder.offset, Nat.add_assoc, Nat.add_left_comm 1, first]
  exact second

theorem emits_fill (key : String) {e : Expr} (emits : e.Emits mode) :
    (fill key e).Emits mode := by
  intro b
  have first := CodeBuilder.bind_jump b.code [.keyed .getResource key] .jumpIfNull 0
    [.jump .jump 0]
  have second := CodeBuilder.bind_jump b.code
    [.keyed .getResource key, .jump .jumpIfNull (b.code.length + 3)] .jump 0
    (e.layout mode (b.code.length + 3) ++ mode.storeCode key)
  simp [e.length_layout, AssignMode.storeCode, Nat.add_assoc] at first second
  simp [emit, layout, emits _, CodeBuilder.emitStore, CodeBuilder.jump, CodeBuilder.emit,
    CodeBuilder.offset, AssignMode.storeCode, Nat.add_assoc, first]
  exact second

end Expr

mutual

theorem Expr.emit_eq (mode : AssignMode) (e : Expr) (b : CodeBuilder) :
    e.emit mode b = ⟨b.code ++ e.layout mode b.code.length⟩ := by
  cases e with
  | literal | parameter | self | slot | count => rfl
  | element key index =>
      simp [Expr.emit, Expr.layout, index.emit_eq, CodeBuilder.emit]
  | group e => simp [Expr.emit, Expr.layout, e.emit_eq]
  | unary op e =>
      cases op <;>
        simp [Expr.emit, Expr.layout, e.emit_eq, UnaryOperator.opcode?, UnaryOperator.code,
          CodeBuilder.emitOp, CodeBuilder.emit]
  | binary op left right =>
      simp [Expr.emit, Expr.layout, left.emit_eq, right.emit_eq, CodeBuilder.emitOp,
        CodeBuilder.emit]
  | chain op first rest =>
      exact Expr.emits_chain op (first.emit_eq mode) (rest.emit_eq mode) b
  | coalesce left right => exact Expr.emits_coalesce (left.emit_eq mode) (right.emit_eq mode) b
  | conditional condition yes no =>
      exact Expr.emits_conditional (condition.emit_eq mode) (yes.emit_eq mode) (no.emit_eq mode) b
  | assign key e => simp [Expr.emit, Expr.layout, e.emit_eq, CodeBuilder.emitStore,
      CodeBuilder.emit, AssignMode.storeCode]
  | update key op e =>
      simp [Expr.emit, Expr.layout, e.emit_eq, CodeBuilder.emitStore, CodeBuilder.emitOp,
        CodeBuilder.emit, AssignMode.storeCode]
  | fill key e => exact Expr.emits_fill key (e.emit_eq mode) b
  | assignElement key index value =>
      simp [Expr.emit, Expr.layout, index.emit_eq, value.emit_eq, CodeBuilder.emit]

theorem Operands.emit_eq (mode : AssignMode) (operands : Operands) (op : Connective)
    (b : CodeBuilder) :
    operands.emit mode op b =
      (operands.labels b.code.length, ⟨b.code ++ operands.layout mode op 0 b.code.length⟩) := by
  cases operands with
  | last e =>
      simp [Operands.emit, Operands.layout, Operands.labels, e.emit_eq, CodeBuilder.jump,
        CodeBuilder.emit, CodeBuilder.offset]
  | more e rest =>
      simp [Operands.emit, Operands.layout, Operands.labels, e.emit_eq, rest.emit_eq,
        CodeBuilder.jump, CodeBuilder.emit, CodeBuilder.offset, Nat.add_assoc]

end

/-- Statements emitted behind some code. -/
theorem Program.foldl_emit (mode : AssignMode) (program : Program) (b : CodeBuilder) :
    (program.foldl (fun b e => e.emit mode b) b).code =
      b.code ++ Program.layout mode b.code.length program := by
  induction program generalizing b with
  | nil => simp [Program.layout]
  | cons e rest ih =>
      rw [List.foldl_cons, ih, e.emit_eq]
      simp [Program.layout]

theorem Program.emit_eq_layout (mode : AssignMode) (program : Program) :
    program.emit mode = Program.layout mode 0 program :=
  program.foldl_emit mode {}

end SlotScript
