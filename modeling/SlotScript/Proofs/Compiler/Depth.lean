import SlotScript.Proofs.Machine.Run
import SlotScript.Proofs.Syntax.Layout

/-! # The depth of the stack at each instruction

The tree of a program says how deep the stack is when an instruction is reached, whichever way led
there: the depths of an expression begin with the depth it is evaluated at, and behind it the stack
is one deeper. `Instruction.Keeps` is what one instruction contributes, and compiled code satisfies
it everywhere.
-/

namespace SlotScript

mutual

/-- The depth before each instruction of an expression that is evaluated at depth `base`. -/
def Expr.depths (base : Nat) : Expr → List Nat
  | .literal _ | .parameter | .self | .slot _ | .count _ _ => [base]
  | .element _ index => index.depths base ++ [base + 1]
  | .group e => e.depths base
  | .unary op e => e.depths base ++ op.code.map fun _ => base + 1
  | .binary _ left right => left.depths base ++ (right.depths (base + 1) ++ [base + 2])
  | .chain _ first rest =>
    first.depths base ++ (base + 1) :: (rest.depths base ++ [base, base + 1, base])
  | .coalesce left right => left.depths base ++ (base + 1) :: (base + 1) :: right.depths base
  | .conditional condition yes no =>
    condition.depths base ++ (base + 1) :: (yes.depths base ++ (base + 1) :: no.depths base)
  | .assign _ e => e.depths base ++ [base + 1, base]
  | .update _ _ e => base :: (e.depths (base + 1) ++ (base + 2) :: [base + 1, base])
  | .fill _ e => base :: (base + 1) :: (base + 1) :: (e.depths base ++ [base + 1, base])
  | .assignElement _ index value =>
    value.depths base ++ (index.depths (base + 1) ++ [base + 2])

/-- Each operand of a chain is taken from the stack by the jump behind it. -/
def Operands.depths (base : Nat) : Operands → List Nat
  | .last e => e.depths base ++ [base + 1]
  | .more e rest => e.depths base ++ (base + 1) :: rest.depths base

end

/-- Each statement leaves its value below the next one. -/
def Program.depths : Nat → Program → List Nat
  | _, [] => []
  | base, e :: rest => e.depths base ++ Program.depths (base + 1) rest

mutual

@[simp] theorem Expr.length_depths (base : Nat) (e : Expr) : (e.depths base).length = e.size := by
  cases e with
  | literal | parameter | self | slot | count => rfl
  | element key index => simp [Expr.depths, Expr.size, index.length_depths]
  | group e => simp [Expr.depths, Expr.size, e.length_depths]
  | unary op e => simp [Expr.depths, Expr.size, e.length_depths]
  | binary op left right =>
      simp [Expr.depths, Expr.size, left.length_depths, right.length_depths]
      omega
  | chain op first rest =>
      simp [Expr.depths, Expr.size, first.length_depths, rest.length_depths]
      omega
  | coalesce left right =>
      simp [Expr.depths, Expr.size, left.length_depths, right.length_depths]
      omega
  | conditional condition yes no =>
      simp [Expr.depths, Expr.size, condition.length_depths, yes.length_depths, no.length_depths]
      omega
  | assign key e => simp [Expr.depths, Expr.size, e.length_depths]
  | update key op e =>
      simp [Expr.depths, Expr.size, e.length_depths]
      omega
  | fill key e =>
      simp [Expr.depths, Expr.size, e.length_depths]
      omega
  | assignElement key index value =>
      simp [Expr.depths, Expr.size, index.length_depths, value.length_depths]
      omega

@[simp] theorem Operands.length_depths (base : Nat) (operands : Operands) :
    (operands.depths base).length = operands.size := by
  cases operands with
  | last e => simp [Operands.depths, Operands.size, e.length_depths]
  | more e rest =>
      simp [Operands.depths, Operands.size, e.length_depths, rest.length_depths]
      omega

end

theorem Program.length_depths (mode : AssignMode) (program : Program) (start base : Nat) :
    (Program.depths base program).length = (Program.layout mode start program).length := by
  induction program generalizing start base with
  | nil => rfl
  | cons e rest ih =>
      simp only [Program.depths, Program.layout, List.length_append, Expr.length_depths,
        Expr.length_layout]
      rw [ih (start + e.size)]

mutual

/-- An expression begins at the depth it is evaluated at. -/
theorem Expr.depths_head (base : Nat) (e : Expr) : ∃ rest, e.depths base = base :: rest := by
  cases e with
  | literal | parameter | self | slot | count => exact ⟨[], rfl⟩
  | update | fill => exact ⟨_, rfl⟩
  | group e => exact e.depths_head base
  | element key e | unary op e | assign key e | binary op e right | chain op e rest
  | coalesce e right | conditional e yes no | assignElement key index e =>
      obtain ⟨rest, head⟩ := e.depths_head base
      simp only [Expr.depths, head, List.cons_append]
      exact ⟨_, rfl⟩

theorem Operands.depths_head (base : Nat) (operands : Operands) :
    ∃ rest, operands.depths base = base :: rest := by
  cases operands with
  | last e | more e others =>
      obtain ⟨rest, head⟩ := e.depths_head base
      simp only [Operands.depths, head, List.cons_append]
      exact ⟨_, rfl⟩

end

namespace Instruction

/-- The instructions that take so many values from the stack and put one back. -/
inductive Takes : Nat → Instruction → Prop where
  | push (v : Value) : Takes 0 (push v)
  | parameter : Takes 0 (plain .pushParameter)
  | self : Takes 0 (plain .pushSelf)
  | read (key : String) : Takes 0 (keyed .getResource key)
  | count (form : Counting) (key : String) : Takes 0 (form.instruction key)
  | element (key : String) : Takes 1 (keyed .indexGet key)
  | unary {op : UnaryOperator} {opcode : Opcode} : op.opcode? = some opcode →
      Takes 1 (plain opcode)
  | binary (op : BinaryOperator) : Takes 2 (plain op.opcode)
  | arithmetic (op : Arithmetic) : Takes 2 (plain op.opcode)
  | change (key : String) : Takes 2 (keyed .indexSet key)

/-- Wherever the instruction at an index leads, the stack has the depth that is expected there, and
jumps lead forward, not beyond the code. -/
inductive Keeps (length : Nat) (depth : Nat → Nat) (index : Nat) : Instruction → Prop where
  | computes {i : Instruction} {taken : Nat} : i.Takes taken → taken ≤ depth index →
      depth (index + 1) + taken = depth index + 1 → Keeps length depth index i
  | write (mode : AssignMode) (key : String) : depth index = depth (index + 1) + 1 →
      Keeps length depth index (.keyedWith mode.writeOp key (.sentinel .last))
  | jump {target : Nat} : index < target → target ≤ length → depth target = depth index →
      Keeps length depth index (.jump .jump target)
  | branch (op : Connective) {target : Nat} : index < target → target < length →
      depth index = depth (index + 1) + 1 → depth index = depth target + 1 →
      Keeps length depth index (.jump op.branch target)
  | jumpIfNull {target : Nat} : index < target → target < length →
      depth (index + 1) = depth index → depth index = depth target + 1 →
      Keeps length depth index (.jump .jumpIfNull target)

/-- No kind of compiled instruction runs a command. -/
theorem Keeps.commandless {length index : Nat} {depth : Nat → Nat} {i : Instruction}
    (keeps : i.Keeps length depth index) : i.op ≠ .invokeResource := by
  cases keeps with
  | computes takes =>
      cases takes with
      | count form => cases form <;> nofun
      | @unary op opcode defined => cases op <;> cases defined <;> nofun
      | binary op => cases op <;> nofun
      | arithmetic op => cases op <;> nofun
      | _ => nofun
  | write mode => cases mode <;> nofun
  | branch op => cases op <;> nofun
  | _ => nofun

end Instruction

/-- From an index on, the depths are these. -/
def Marks (depth : Nat → Nat) : Nat → List Nat → Prop :=
  Along fun index d => depth index = d

/-- The depths of a list, with another one behind it. -/
theorem marks_getD (before ds : List Nat) (last : Nat) :
    Marks (fun index => (before ++ ds)[index]?.getD last) before.length ds := by
  induction ds generalizing before with
  | nil => trivial
  | cons d ds ih =>
      refine ⟨by simp, ?_⟩
      simpa [Marks] using ih (before ++ [d])

/-- Every instruction of a piece of code keeps the depths, where it stands. -/
def Code.Keeps (length : Nat) (depth : Nat → Nat) : Nat → Code → Prop :=
  Along fun index i => i.Keeps length depth index

section Layout

variable {mode : AssignMode} {length : Nat} {depth : Nat → Nat}

/-- One instruction that yields the value of an expression evaluated at depth `base`. -/
theorem Instruction.Takes.keeps {i : Instruction} {taken start base : Nat} (takes : i.Takes taken)
    (here : depth start = base + taken) (behind : depth (start + 1) = base + 1) :
    i.Keeps length depth start :=
  .computes takes (by omega) (by omega)

/-- The two instructions behind an assigned value. -/
theorem AssignMode.keeps_store (key : String) {start base : Nat} (here : depth start = base + 1)
    (stored : depth (start + 1) = base) (behind : depth (start + 2) = base + 1) :
    Code.Keeps length depth start (mode.storeCode key) :=
  ⟨.write mode key (by omega), (Instruction.Takes.read key).keeps stored behind, trivial⟩

theorem Expr.marks_head {e : Expr} {start base : Nat} (here : Marks depth start (e.depths base)) :
    depth start = base := by
  obtain ⟨rest, head⟩ := e.depths_head base
  rw [head] at here
  exact here.1

theorem Operands.marks_head {operands : Operands} {start base : Nat}
    (here : Marks depth start (operands.depths base)) : depth start = base := by
  obtain ⟨rest, head⟩ := operands.depths_head base
  rw [head] at here
  exact here.1

/-- The code of an expression keeps the depths of the expression if the stack is expected to be one
deeper behind it. -/
def Expr.Keeps (mode : AssignMode) (length : Nat) (depth : Nat → Nat) (e : Expr) : Prop :=
  ∀ {start base : Nat}, Marks depth start (e.depths base) →
    depth (start + e.size) = base + 1 → start + e.size ≤ length →
    Code.Keeps length depth start (e.layout mode start)

def Operands.Keeps (mode : AssignMode) (length : Nat) (depth : Nat → Nat) (operands : Operands) :
    Prop :=
  ∀ {op : Connective} {start base deciding : Nat}, Marks depth start (operands.depths base) →
    depth (start + operands.size) = base → depth deciding = base →
    start + operands.size ≤ deciding → deciding < length →
    Code.Keeps length depth start (operands.layout mode op deciding start)

namespace Expr

variable {left right : Expr}

theorem keeps_element (key : String) {index : Expr} (keeps : index.Keeps mode length depth) :
    (element key index).Keeps mode length depth := by
  intro start base here behind inside
  obtain ⟨here, last, -⟩ := along_append.mp here
  rw [length_depths] at last
  simp only [size] at behind inside
  refine along_append.mpr ⟨keeps here last (by omega), ?_⟩
  rw [length_layout]
  exact ⟨(Instruction.Takes.element key).keeps last behind, trivial⟩

theorem keeps_unary (op : UnaryOperator) {e : Expr} (keeps : e.Keeps mode length depth) :
    (unary op e).Keeps mode length depth := by
  intro start base here behind inside
  obtain ⟨operand, last⟩ := along_append.mp here
  rw [length_depths] at last
  simp only [layout, size, UnaryOperator.code] at last behind inside ⊢
  cases defined : op.opcode? with
  | none =>
      rw [defined] at behind inside
      exact along_append.mpr ⟨keeps operand behind inside, trivial⟩
  | some opcode =>
      rw [defined] at last behind inside
      refine along_append.mpr ⟨keeps operand last.1 (Nat.le_of_lt inside), ?_⟩
      rw [length_layout]
      exact ⟨(Instruction.Takes.unary defined).keeps last.1 behind, trivial⟩

theorem keeps_binary (op : BinaryOperator) (left_keeps : left.Keeps mode length depth)
    (right_keeps : right.Keeps mode length depth) :
    (binary op left right).Keeps mode length depth := by
  intro start base here behind inside
  obtain ⟨first, others⟩ := along_append.mp here
  obtain ⟨second, last, -⟩ := along_append.mp others
  simp only [length_depths] at second last
  simp only [size] at behind inside
  refine along_append.mpr ⟨left_keeps first (marks_head second) (by omega), ?_⟩
  rw [length_layout]
  refine along_append.mpr ⟨right_keeps second last (by omega), ?_⟩
  rw [length_layout]
  refine ⟨(Instruction.Takes.binary op).keeps last ?_, trivial⟩
  simpa only [Nat.add_assoc] using behind

theorem keeps_chain (op : Connective) {first : Expr} {rest : Operands}
    (first_keeps : first.Keeps mode length depth) (rest_keeps : rest.Keeps mode length depth) :
    (chain op first rest).Keeps mode length depth := by
  intro start base here behind inside
  obtain ⟨here, branch, others⟩ := along_append.mp here
  obtain ⟨operands, undecided, done, decided, -⟩ := along_append.mp others
  simp only [length_depths, Operands.length_depths] at branch operands undecided done decided
  simp only [size, ← Nat.add_assoc] at behind inside
  have head : depth (start + first.size + 1) = base := Operands.marks_head operands
  have deciding : depth (start + first.size + 1 + rest.size + 2) = base := decided
  refine along_append.mpr ⟨first_keeps here branch (by omega), ?_⟩
  rw [length_layout]
  refine ⟨.branch op (by omega) (by omega) (by omega) (by omega), ?_⟩
  refine along_append.mpr
    ⟨rest_keeps operands undecided decided (by omega) (by omega), ?_⟩
  rw [Operands.length_layout]
  exact ⟨(Instruction.Takes.push _).keeps undecided done,
    .jump (by omega) (by omega) (behind.trans done.symm),
    (Instruction.Takes.push _).keeps decided behind, trivial⟩

theorem keeps_coalesce (left_keeps : left.Keeps mode length depth)
    (right_keeps : right.Keeps mode length depth) :
    (coalesce left right).Keeps mode length depth := by
  intro start base here behind inside
  obtain ⟨here, missing, done, second⟩ := along_append.mp here
  rw [length_depths] at missing done second
  simp only [size, ← Nat.add_assoc] at behind inside
  have head : depth (start + left.size + 2) = base := marks_head second
  have nonempty := right.size_pos
  refine along_append.mpr ⟨left_keeps here missing (by omega), ?_⟩
  rw [length_layout]
  exact ⟨.jumpIfNull (by omega) (by omega) (done.trans missing.symm) (by omega),
    .jump (by omega) (by omega) (behind.trans done.symm), right_keeps second behind inside⟩

theorem keeps_conditional {condition yes no : Expr}
    (condition_keeps : condition.Keeps mode length depth)
    (yes_keeps : yes.Keeps mode length depth) (no_keeps : no.Keeps mode length depth) :
    (conditional condition yes no).Keeps mode length depth := by
  intro start base here behind inside
  obtain ⟨here, otherwise, others⟩ := along_append.mp here
  obtain ⟨second, done, third⟩ := along_append.mp others
  simp only [length_depths] at otherwise second done third
  simp only [size, ← Nat.add_assoc] at behind inside
  have yes_head := marks_head second
  have no_head := marks_head third
  have nonempty := no.size_pos
  refine along_append.mpr ⟨condition_keeps here otherwise (by omega), ?_⟩
  rw [length_layout]
  refine ⟨.branch .and (by omega) (by omega) (by omega) (by omega), ?_⟩
  refine along_append.mpr ⟨yes_keeps second done (by omega), ?_⟩
  rw [length_layout]
  exact ⟨.jump (by omega) (by omega) (behind.trans done.symm), no_keeps third behind inside⟩

theorem keeps_assign (key : String) {e : Expr} (keeps : e.Keeps mode length depth) :
    (assign key e).Keeps mode length depth := by
  intro start base here behind inside
  obtain ⟨here, last, read, -⟩ := along_append.mp here
  rw [length_depths] at last read
  simp only [size] at behind inside
  refine along_append.mpr ⟨keeps here last (by omega), ?_⟩
  rw [length_layout]
  exact AssignMode.keeps_store key last read behind

theorem keeps_update (key : String) (op : Arithmetic) {e : Expr}
    (keeps : e.Keeps mode length depth) : (update key op e).Keeps mode length depth := by
  intro start base here behind inside
  obtain ⟨old, others⟩ := here
  obtain ⟨here, last, store, read, -⟩ := along_append.mp others
  rw [length_depths] at last store read
  simp only [size, ← Nat.add_assoc] at behind inside
  refine ⟨(Instruction.Takes.read key).keeps old (marks_head here), ?_⟩
  refine along_append.mpr ⟨keeps here last (by omega), ?_⟩
  rw [length_layout]
  exact ⟨(Instruction.Takes.arithmetic op).keeps last store,
    AssignMode.keeps_store key store read behind⟩

theorem keeps_fill (key : String) {e : Expr} (keeps : e.Keeps mode length depth) :
    (fill key e).Keeps mode length depth := by
  intro start base here behind inside
  obtain ⟨old, missing, done, others⟩ := here
  obtain ⟨here, store, read, -⟩ := along_append.mp others
  rw [length_depths] at store read
  simp only [size, ← Nat.add_assoc] at behind inside
  have head : depth (start + 3) = base := marks_head here
  refine ⟨(Instruction.Takes.read key).keeps old missing,
    .jumpIfNull (by omega) (by omega) (done.trans missing.symm) (by omega),
    .jump (by omega) (by omega) (behind.trans done.symm), ?_⟩
  refine along_append.mpr ⟨keeps here store (by omega), ?_⟩
  rw [length_layout]
  exact AssignMode.keeps_store key store read behind

theorem keeps_assignElement (key : String) {index value : Expr}
    (index_keeps : index.Keeps mode length depth)
    (value_keeps : value.Keeps mode length depth) :
    (assignElement key index value).Keeps mode length depth := by
  intro start base here behind inside
  obtain ⟨first, others⟩ := along_append.mp here
  obtain ⟨second, last, -⟩ := along_append.mp others
  simp only [length_depths] at second last
  simp only [size] at behind inside
  refine along_append.mpr ⟨value_keeps first (marks_head second) (by omega), ?_⟩
  rw [length_layout]
  refine along_append.mpr ⟨index_keeps second last (by omega), ?_⟩
  rw [length_layout]
  refine ⟨(Instruction.Takes.change key).keeps last ?_, trivial⟩
  simpa only [Nat.add_assoc] using behind

end Expr

namespace Operands

variable {e : Expr}

theorem keeps_last (keeps : e.Keeps mode length depth) : (last e).Keeps mode length depth := by
  intro op start base deciding here behind decided forward inside
  obtain ⟨here, branch, -⟩ := along_append.mp here
  rw [Expr.length_depths] at branch
  simp only [size, ← Nat.add_assoc] at behind forward
  refine along_append.mpr ⟨keeps here branch (by omega), ?_⟩
  rw [Expr.length_layout]
  exact ⟨.branch op (by omega) inside (by omega) (by omega), trivial⟩

theorem keeps_more {rest : Operands} (keeps : e.Keeps mode length depth)
    (rest_keeps : rest.Keeps mode length depth) : (more e rest).Keeps mode length depth := by
  intro op start base deciding here behind decided forward inside
  obtain ⟨here, branch, others⟩ := along_append.mp here
  rw [Expr.length_depths] at branch others
  simp only [size, ← Nat.add_assoc] at behind forward
  have head := marks_head others
  refine along_append.mpr ⟨keeps here branch (by omega), ?_⟩
  rw [Expr.length_layout]
  exact ⟨.branch op (by omega) inside (by omega) (by omega),
    rest_keeps others behind decided forward inside⟩

end Operands

mutual

theorem Expr.keeps (e : Expr) : e.Keeps mode length depth := by
  cases e with
  | literal v =>
      exact fun here behind _ => ⟨(Instruction.Takes.push v).keeps here.1 behind, trivial⟩
  | parameter =>
      exact fun here behind _ => ⟨Instruction.Takes.parameter.keeps here.1 behind, trivial⟩
  | self => exact fun here behind _ => ⟨Instruction.Takes.self.keeps here.1 behind, trivial⟩
  | slot key =>
      exact fun here behind _ => ⟨(Instruction.Takes.read key).keeps here.1 behind, trivial⟩
  | count form key =>
      exact fun here behind _ => ⟨(Instruction.Takes.count form key).keeps here.1 behind, trivial⟩
  | group e => exact e.keeps
  | element key index => exact Expr.keeps_element key index.keeps
  | unary op e => exact Expr.keeps_unary op e.keeps
  | binary op left right => exact Expr.keeps_binary op left.keeps right.keeps
  | chain op first rest => exact Expr.keeps_chain op first.keeps rest.keeps
  | coalesce left right => exact Expr.keeps_coalesce left.keeps right.keeps
  | conditional condition yes no =>
      exact Expr.keeps_conditional condition.keeps yes.keeps no.keeps
  | assign key e => exact Expr.keeps_assign key e.keeps
  | update key op e => exact Expr.keeps_update key op e.keeps
  | fill key e => exact Expr.keeps_fill key e.keeps
  | assignElement key index value =>
      exact Expr.keeps_assignElement key index.keeps value.keeps

theorem Operands.keeps (operands : Operands) : operands.Keeps mode length depth := by
  cases operands with
  | last e => exact Operands.keeps_last e.keeps
  | more e rest => exact Operands.keeps_more e.keeps rest.keeps

end

theorem Program.keeps (program : Program) {start base : Nat}
    (here : Marks depth start (Program.depths base program))
    (behind : depth (start + (Program.layout mode start program).length) =
      base + program.length)
    (inside : start + (Program.layout mode start program).length ≤ length) :
    Code.Keeps length depth start (Program.layout mode start program) := by
  induction program generalizing start base with
  | nil => trivial
  | cons e rest ih =>
      obtain ⟨here, others⟩ := along_append.mp here
      rw [Expr.length_depths] at others
      simp only [Program.layout, List.length_append, Expr.length_layout, List.length_cons,
        ← Nat.add_assoc] at behind inside
      have next : depth (start + e.size) = base + 1 := by
        cases rest with
        | nil => exact behind
        | cons e' rest => exact Expr.marks_head (along_append.mp others).1
      refine along_append.mpr ⟨e.keeps here next (by omega), ?_⟩
      rw [Expr.length_layout]
      exact ih others (by omega) inside

/-- The depth before each instruction of a program, and behind the last one. -/
def Program.depthAt (program : Program) (index : Nat) : Nat :=
  (Program.depths 0 program)[index]?.getD program.length

theorem Program.depthAt_zero (program : Program) : program.depthAt 0 = 0 := by
  cases program with
  | nil => rfl
  | cons e rest =>
      obtain ⟨others, head⟩ := e.depths_head 0
      simp [depthAt, depths, head]

theorem Program.depthAt_length (mode : AssignMode) (program : Program) :
    program.depthAt (program.emit mode).length = program.length := by
  have outside : (Program.depths 0 program).length ≤ (program.emit mode).length := by
    refine Nat.le_of_eq ?_
    rw [program.emit_eq_layout, program.length_depths mode 0]
  rw [depthAt, List.getElem?_eq_none outside, Option.getD_none]

/-- The code of a program keeps the depths of the program. -/
theorem Program.keeps_emit (mode : AssignMode) (program : Program) :
    Code.Keeps (program.emit mode).length program.depthAt 0 (program.emit mode) := by
  have behind := program.depthAt_length mode
  rw [program.emit_eq_layout] at behind ⊢
  apply program.keeps
  · exact marks_getD [] _ _
  · simpa using behind
  · simp

end Layout

end SlotScript
