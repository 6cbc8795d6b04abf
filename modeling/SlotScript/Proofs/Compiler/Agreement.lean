import SlotScript.Proofs.Machine.Run
import SlotScript.Proofs.Syntax.Layout

/-! # Compiled code does what its tree means

The code of an expression, run on any stack, does what evaluation of the expression does and goes on
behind the code with the value on top. What follows is left open, so the statement composes: the
code of an operand is always followed by other code.
-/

namespace SlotScript

variable {mode : AssignMode} {context : Context} {code : Code} {α : Type}
  {Stop : α → Frame → Prop}

/-- From the frame on, the code does what the script does, up to a frame to stop at with the result
of the script, unless the stack overflows on the way. -/
inductive Code.Agrees (context : Context) (code : Code) {α : Type} (Stop : α → Frame → Prop) :
    Frame → Script α → Prop where
  | stop {f : Frame} {a : α} : Stop a f → Agrees context code Stop f (.done a)
  /-- The next instruction begins with some script, and each result of that leads on to a frame
  further behind, or overflows. -/
  | perform {f : Frame} {i : Instruction} {β : Type} {s : Script β} {g : β → Script Frame}
      {t : β → Script α} :
      code[f.next]? = some i →
      i.perform context code.length { f with next := f.next + 1 } = s.bind g →
      (∀ b, g b = .fail (.stackOverflow Stack.maxDepth) ∨
        ∃ f', g b = .done f' ∧ f.next < f'.next) →
      (∀ b f', g b = .done f' → Agrees context code Stop f' (t b)) →
      Agrees context code Stop f (s.bind t)

/-- The end of the code, with what is left there as the outcome. -/
def Code.EndsWith (code : Code) (o : Outcome) (f : Frame) : Prop :=
  code.length ≤ f.next ∧ f.outcome = o

namespace Code.Agrees

/-- No run of compiled code has more instructions than there are from its frame to the end, so that
number of them is always enough. -/
theorem run {f : Frame} {s : Script Outcome} (agrees : code.Agrees context code.EndsWith f s)
    {n : Nat} (enough : code.length ≤ n + f.next) :
    (code.run context n f).Curtails (fun left o => left.map Frame.outcome = some o) s := by
  induction agrees generalizing n with
  | stop ended =>
      obtain ⟨behind, rfl⟩ := ended
      rw [run_end (List.getElem?_eq_none behind)]
      exact .done rfl
  | @perform f i β s g t at_f performs leads _ ih =>
      have inside := (List.getElem?_eq_some_iff.mp at_f).1
      obtain ⟨n, rfl⟩ : ∃ m, n = m + 1 := ⟨n - 1, by omega⟩
      rw [run_succ at_f, performs, Script.bind_assoc]
      apply Script.Curtails.bind
      intro b
      obtain overflows | ⟨f', leads, further⟩ := leads b
      · rw [overflows]
        exact .overflow _
      · have onward := ih b f' leads (n := n) (by omega)
        rwa [leads]

theorem at_end {f : Frame} (h : code.length ≤ f.next) :
    code.Agrees context code.EndsWith f (.done f.outcome) :=
  .stop ⟨h, rfl⟩

/-- An instruction whose script leads on to one frame for each result, or overflows. -/
theorem of_perform {β : Type} {f : Frame} {i : Instruction} {s : Script β}
    {g : β → Script Frame} {t : β → Script α} (at_f : code[f.next]? = some i)
    (performs : i.perform context code.length { f with next := f.next + 1 } = s.bind g)
    (follows : ∀ b, g b = .fail (.stackOverflow Stack.maxDepth) ∨
      ∃ f', g b = .done f' ∧ f.next < f'.next ∧ code.Agrees context Stop f' (t b)) :
    code.Agrees context Stop f (s.bind t) := by
  refine .perform at_f performs (fun b => ?_) fun b f' led => ?_
  · exact (follows b).imp_right fun ⟨f', leads, further, _⟩ => ⟨f', leads, further⟩
  · obtain overflows | ⟨f'', leads, -, agrees⟩ := follows b
    · cases overflows.symm.trans led
    · cases leads.symm.trans led
      exact agrees

/-- A push leads on to the frame with the value on top, or overflows. -/
theorem pushed {start : Nat} {v : Value} {stack : Stack} {t : Script α}
    (follows : code.Agrees context Stop ⟨start + 1, v :: stack⟩ t) :
    Script.ofExcept (Frame.push ⟨start + 1, stack⟩ v) = .fail (.stackOverflow Stack.maxDepth) ∨
      ∃ f', Script.ofExcept (Frame.push ⟨start + 1, stack⟩ v) = .done f' ∧ start < f'.next ∧
        code.Agrees context Stop f' t := by
  by_cases full : Stack.maxDepth ≤ stack.length
  · left
    simp [Frame.push, Stack.push, full, bind, Except.bind]
  · right
    refine ⟨⟨start + 1, v :: stack⟩, ?_, by simp, follows⟩
    simp [Frame.push, Stack.push, full, bind, Except.bind, pure, Except.pure]

theorem computes {start : Nat} {i : Instruction} {before after : Stack} {s : Script Value}
    {t : Value → Script α} (at_start : code[start]? = some i)
    (computes : i.Computes context code.length before after s)
    (follows : ∀ v, code.Agrees context Stop ⟨start + 1, v :: after⟩ (t v)) :
    code.Agrees context Stop ⟨start, before⟩ (s.bind t) :=
  of_perform at_start (computes (start + 1)) fun v => pushed (follows v)

theorem pushes {start : Nat} {v : Value} {stack : Stack} {t : Script α}
    (at_start : code[start]? = some (.push v))
    (follows : code.Agrees context Stop ⟨start + 1, v :: stack⟩ t) :
    code.Agrees context Stop ⟨start, stack⟩ t :=
  of_perform (s := .done ()) (t := fun _ => t) at_start rfl fun _ => pushed follows

theorem jumps {start target : Nat} {stack : Stack} {t : Script α}
    (at_start : code[start]? = some (.jump .jump target)) (forward : start < target)
    (inside : target ≤ code.length) (follows : code.Agrees context Stop ⟨target, stack⟩ t) :
    code.Agrees context Stop ⟨start, stack⟩ t :=
  of_perform (s := .done ()) (g := fun _ => .done ⟨target, stack⟩) (t := fun _ => t) at_start
    (Instruction.perform_jump inside _) fun _ => .inr ⟨_, rfl, forward, follows⟩

/-- A conditional jump, with the value it looks at. -/
theorem branches {start target : Nat} {c : Connective} {v : Value} {stack : Stack}
    {t : Bool → Script α} (at_start : code[start]? = some (.jump c.branch target))
    (forward : start < target) (inside : target < code.length)
    (taken : code.Agrees context Stop ⟨target, stack⟩ (t c.decider))
    (passed : code.Agrees context Stop ⟨start + 1, stack⟩ (t !c.decider)) :
    code.Agrees context Stop ⟨start, v :: stack⟩ ((Script.ofExcept v.toBool).bind t) := by
  apply of_perform (f := ⟨start, v :: stack⟩) at_start
    (Instruction.perform_branch c inside _ v stack)
  intro truth
  right
  by_cases decided : truth = c.decider
  · subst decided
    exact ⟨_, rfl, by simpa using forward, by simpa using taken⟩
  · have passing : truth = !c.decider := by
      cases truth <;> cases h : c.decider <;> simp_all
    refine ⟨_, rfl, by simp [decided], ?_⟩
    simpa [passing] using passed

theorem branches_on_null {start target : Nat} {v : Value} {stack : Stack} {t : Script α}
    (at_start : code[start]? = some (.jump .jumpIfNull target))
    (forward : start < target) (inside : target < code.length)
    (taken : v.isNull → code.Agrees context Stop ⟨target, stack⟩ t)
    (passed : ¬ v.isNull → code.Agrees context Stop ⟨start + 1, v :: stack⟩ t) :
    code.Agrees context Stop ⟨start, v :: stack⟩ t := by
  apply of_perform (f := ⟨start, v :: stack⟩) (s := .done ()) (t := fun _ => t)
    (g := fun _ => .done (if v.isNull then ⟨target, stack⟩ else ⟨start + 1, v :: stack⟩))
    at_start (Instruction.perform_jumpIfNull inside _ v stack)
  intro _
  right
  refine ⟨_, rfl, ?_, ?_⟩
  · split <;> simp [forward]
  · split
    · exact taken ‹_›
    · exact passed ‹_›

/-- The two instructions behind an assigned value. -/
theorem stores {start : Nat} {key : String} {v : Value} {stack : Stack}
    {t : Value → Script α} (here : code.Holds start (mode.storeCode key))
    (follows : ∀ v, code.Agrees context Stop ⟨start + 2, v :: stack⟩ (t v)) :
    code.Agrees context Stop ⟨start, v :: stack⟩ ((mode.store key v).bind t) := by
  have stored : (mode.store key v).bind t =
      (mode.write key v).bind fun _ => (Script.read key).bind t := by
    simp only [AssignMode.store, Script.bind_eq, Script.bind_assoc]
  rw [stored]
  apply of_perform (f := ⟨start, v :: stack⟩) here.1
    (Instruction.perform_write mode key _ v stack)
  intro _
  exact .inr ⟨_, rfl, by simp, computes here.2.1 (Instruction.computes_read key stack) follows⟩

end Code.Agrees

open Code.Agrees

/-- Wherever the code of an expression stands, it does what evaluation of the expression does and
goes on behind itself with the value on top. -/
def Expr.Agrees (mode : AssignMode) (context : Context) (code : Code) (e : Expr) : Prop :=
  ∀ {α : Type} {Stop : α → Frame → Prop} {start : Nat} {stack : Stack} {t : Value → Script α},
    code.Holds start (e.layout mode start) →
    (∀ v, code.Agrees context Stop ⟨start + e.size, v :: stack⟩ (t v)) →
    code.Agrees context Stop ⟨start, stack⟩ ((e.eval mode context).bind t)

/-- The code of the operands of a chain leads on to one of two places. -/
def Operands.Agrees (mode : AssignMode) (context : Context) (code : Code) (operands : Operands) :
    Prop :=
  ∀ {α : Type} {Stop : α → Frame → Prop} {op : Connective} {start deciding : Nat} {stack : Stack}
    {t : Value → Script α},
    code.Holds start (operands.layout mode op deciding start) →
    start + operands.size ≤ deciding → deciding < code.length →
    code.Agrees context Stop ⟨deciding, stack⟩ (t (.bool op.decider)) →
    code.Agrees context Stop ⟨start + operands.size, stack⟩ (t (.bool !op.decider)) →
    code.Agrees context Stop ⟨start, stack⟩ ((operands.eval mode context op).bind t)

namespace Expr

variable {left right : Expr}

theorem agrees_element (key : String) {index : Expr} (agrees : index.Agrees mode context code) :
    (element key index).Agrees mode context code := by
  intro α Stop start stack t here follows
  obtain ⟨here, last⟩ := Code.holds_append.mp here
  rw [length_layout] at last
  simp only [eval, Script.bind_eq, Script.bind_assoc]
  apply agrees here
  intro i
  exact computes last.1 (Instruction.computes_element key i stack) follows

theorem agrees_unary (op : UnaryOperator) {e : Expr} (agrees : e.Agrees mode context code) :
    (unary op e).Agrees mode context code := by
  intro α Stop start stack t here follows
  obtain ⟨here, last⟩ := Code.holds_append.mp here
  rw [length_layout] at last
  simp only [eval, Script.bind_eq, Script.bind_assoc]
  apply agrees here
  intro v
  cases op with
  | plus => exact follows v
  | not | minus | complement =>
      exact computes last.1 (Instruction.computes_unary rfl v stack) follows

theorem agrees_binary (op : BinaryOperator) (left_agrees : left.Agrees mode context code)
    (right_agrees : right.Agrees mode context code) :
    (binary op left right).Agrees mode context code := by
  intro α Stop start stack t here follows
  obtain ⟨first, behind⟩ := Code.holds_append.mp here
  obtain ⟨second, last⟩ := Code.holds_append.mp behind
  rw [length_layout] at second last
  simp only [eval, Script.bind_eq, Script.bind_assoc]
  apply left_agrees first
  intro a
  apply right_agrees second
  intro b
  rw [length_layout] at last
  refine computes last.1 (Instruction.computes_binary op a b stack) ?_
  simpa only [size, Nat.add_assoc] using follows

theorem agrees_chain (op : Connective) {first : Expr} {rest : Operands}
    (first_agrees : first.Agrees mode context code)
    (rest_agrees : rest.Agrees mode context code) :
    (chain op first rest).Agrees mode context code := by
  intro α Stop start stack t here follows
  obtain ⟨here, branch, behind⟩ := Code.holds_append.mp here
  obtain ⟨others, undecided, done, decided⟩ := Code.holds_append.mp behind
  rw [length_layout] at branch others undecided done decided
  rw [Operands.length_layout] at undecided done decided
  have inside := (List.getElem?_eq_some_iff.mp decided.1).1
  have landing :
      start + first.size + 1 + rest.size + 2 + 1 = start + (chain op first rest).size := by
    simp only [size]
    omega
  have stop : code.Agrees context Stop ⟨start + first.size + 1 + rest.size + 2, stack⟩
      (t (.bool op.decider)) := by
    apply pushes decided.1
    rw [landing]
    exact follows _
  have go_on : code.Agrees context Stop ⟨start + first.size + 1 + rest.size, stack⟩
      (t (.bool !op.decider)) := by
    apply pushes undecided
    apply jumps done (by omega) (by omega)
    rw [landing]
    exact follows _
  have other : (!op.decider) ≠ op.decider := by cases op <;> decide
  simp only [eval, Script.bind_eq, Script.bind_assoc, Script.lift_eq, Script.pure_eq]
  apply first_agrees here
  intro v
  apply branches branch (by omega) (by omega)
  · simpa using stop
  · simp only [other, if_false]
    exact rest_agrees others (by omega) (by omega) stop go_on

theorem agrees_coalesce (left_agrees : left.Agrees mode context code)
    (right_agrees : right.Agrees mode context code) :
    (coalesce left right).Agrees mode context code := by
  intro α Stop start stack t here follows
  obtain ⟨first, missing, done, second⟩ := Code.holds_append.mp here
  rw [length_layout] at missing done second
  have inside := Code.Holds.le second (by simpa using right.size_pos)
  have nonempty := right.size_pos
  rw [length_layout] at inside
  have landing : start + left.size + 2 + right.size = start + (coalesce left right).size := by
    simp only [size]
    omega
  simp only [eval, Script.bind_eq, Script.bind_assoc]
  apply left_agrees first
  intro v
  apply branches_on_null missing (by omega) (by omega)
  · intro null
    simp only [null, if_true]
    apply right_agrees second
    rw [landing]
    exact follows
  · intro present
    simp only [present, Script.pure_eq]
    apply jumps done (by omega) (by omega)
    rw [landing]
    exact follows v

theorem agrees_conditional {condition yes no : Expr}
    (condition_agrees : condition.Agrees mode context code)
    (yes_agrees : yes.Agrees mode context code) (no_agrees : no.Agrees mode context code) :
    (conditional condition yes no).Agrees mode context code := by
  intro α Stop start stack t here follows
  obtain ⟨first, otherwise, behind⟩ := Code.holds_append.mp here
  obtain ⟨second, done, third⟩ := Code.holds_append.mp behind
  rw [length_layout] at otherwise second done third
  rw [length_layout] at done third
  have inside := Code.Holds.le third (by simpa using no.size_pos)
  have nonempty := no.size_pos
  rw [length_layout] at inside
  have landing : start + condition.size + 1 + yes.size + 1 + no.size =
      start + (conditional condition yes no).size := by
    simp only [size]
    omega
  simp only [eval, Script.bind_eq, Script.bind_assoc, Script.lift_eq]
  apply condition_agrees first
  intro v
  apply branches (c := .and) otherwise (by omega) (by omega)
  · apply no_agrees third
    rw [landing]
    exact follows
  · apply yes_agrees second
    intro v
    apply jumps done (by omega) (by omega)
    rw [landing]
    exact follows v

theorem agrees_assign (key : String) {e : Expr} (agrees : e.Agrees mode context code) :
    (assign key e).Agrees mode context code := by
  intro α Stop start stack t here follows
  obtain ⟨here, last⟩ := Code.holds_append.mp here
  rw [length_layout] at last
  simp only [eval, Script.bind_eq, Script.bind_assoc]
  apply agrees here
  intro v
  exact stores last follows

theorem agrees_update (key : String) (op : Arithmetic) {e : Expr}
    (agrees : e.Agrees mode context code) : (update key op e).Agrees mode context code := by
  intro α Stop start stack t here follows
  obtain ⟨read, behind⟩ := here
  obtain ⟨here, last⟩ := Code.holds_append.mp behind
  rw [length_layout] at last
  simp only [eval, Script.bind_eq, Script.bind_assoc]
  apply computes read (Instruction.computes_read key stack)
  intro old
  apply agrees here
  intro v
  apply computes last.1 (Instruction.computes_arithmetic op old v stack)
  intro new
  have behind : start + 1 + e.size + 1 + 2 = start + (update key op e).size := by
    simp only [size]
    omega
  apply stores last.2
  rw [behind]
  exact follows

theorem agrees_fill (key : String) {e : Expr} (agrees : e.Agrees mode context code) :
    (fill key e).Agrees mode context code := by
  intro α Stop start stack t here follows
  obtain ⟨read, missing, done, behind⟩ := here
  obtain ⟨here, last⟩ := Code.holds_append.mp behind
  rw [length_layout] at last
  have inside := last.le (by simp [AssignMode.storeCode])
  simp only [AssignMode.storeCode, List.length_cons, List.length_nil] at inside
  have landing : start + 3 + e.size + 2 = start + (fill key e).size := by
    simp only [size]
    omega
  simp only [eval, Script.bind_eq, Script.bind_assoc]
  apply computes read (Instruction.computes_read key stack)
  intro old
  apply branches_on_null missing (by omega) (by omega)
  · intro null
    simp only [null, if_true, Script.bind_assoc]
    apply agrees here
    intro v
    apply stores last
    rw [landing]
    exact follows
  · intro present
    simp only [present, Script.pure_eq]
    apply jumps done (by omega) (by omega)
    rw [landing]
    exact follows old

theorem agrees_assignElement (key : String) {index value : Expr}
    (index_agrees : index.Agrees mode context code)
    (value_agrees : value.Agrees mode context code) :
    (assignElement key index value).Agrees mode context code := by
  intro α Stop start stack t here follows
  obtain ⟨first, behind⟩ := Code.holds_append.mp here
  obtain ⟨second, last⟩ := Code.holds_append.mp behind
  rw [length_layout] at second last
  simp only [eval, Script.bind_eq, Script.bind_assoc]
  apply value_agrees first
  intro v
  apply index_agrees second
  intro i
  rw [length_layout] at last
  refine computes last.1 (Instruction.computes_change key i v stack) ?_
  simpa only [size, Nat.add_assoc] using follows

end Expr

namespace Operands

variable {e : Expr}

theorem agrees_last (agrees : e.Agrees mode context code) :
    (last e).Agrees mode context code := by
  intro α Stop op start deciding stack t here forward inside decided passed
  obtain ⟨here, branch⟩ := Code.holds_append.mp here
  rw [Expr.length_layout] at branch
  simp only [size] at forward passed
  simp only [eval, Script.bind_eq, Script.bind_assoc, Script.lift_eq, Script.pure_eq,
    Script.done_bind]
  apply agrees here
  intro v
  exact branches branch.1 (by omega) inside decided passed

theorem agrees_more {rest : Operands} (agrees : e.Agrees mode context code)
    (rest_agrees : rest.Agrees mode context code) :
    (more e rest).Agrees mode context code := by
  intro α Stop op start deciding stack t here forward inside decided passed
  obtain ⟨here, branch, others⟩ := Code.holds_append.mp here
  rw [Expr.length_layout] at branch others
  simp only [size] at forward passed
  simp only [eval, Script.bind_eq, Script.bind_assoc, Script.lift_eq, Script.pure_eq]
  apply agrees here
  intro v
  apply branches branch (by omega) inside
  · simpa using decided
  · have other : (!op.decider) ≠ op.decider := by cases op <;> decide
    simp only [other, if_false]
    apply rest_agrees others (by omega) inside decided
    rw [Nat.add_assoc, Nat.add_assoc, ← Nat.add_assoc e.size]
    exact passed

end Operands

mutual

theorem Expr.agrees (e : Expr) : e.Agrees mode context code := by
  cases e with
  | literal v => exact fun here => computes here.1 (Instruction.computes_push v _)
  | parameter => exact fun here => computes here.1 (Instruction.computes_parameter _)
  | self => exact fun here => computes here.1 (Instruction.computes_self _)
  | slot key => exact fun here => computes here.1 (Instruction.computes_read key _)
  | count form key => exact fun here => computes here.1 (Instruction.computes_count form key _)
  | group e => exact e.agrees
  | element key index => exact Expr.agrees_element key index.agrees
  | unary op e => exact Expr.agrees_unary op e.agrees
  | binary op left right => exact Expr.agrees_binary op left.agrees right.agrees
  | chain op first rest => exact Expr.agrees_chain op first.agrees rest.agrees
  | coalesce left right => exact Expr.agrees_coalesce left.agrees right.agrees
  | conditional condition yes no =>
      exact Expr.agrees_conditional condition.agrees yes.agrees no.agrees
  | assign key e => exact Expr.agrees_assign key e.agrees
  | update key op e => exact Expr.agrees_update key op e.agrees
  | fill key e => exact Expr.agrees_fill key e.agrees
  | assignElement key index value => exact Expr.agrees_assignElement key index.agrees value.agrees

theorem Operands.agrees (operands : Operands) : operands.Agrees mode context code := by
  cases operands with
  | last e => exact Operands.agrees_last e.agrees
  | more e rest => exact Operands.agrees_more e.agrees rest.agrees

end

/-- Statements leave their values on the stack, where only the last one matters. -/
theorem Program.agrees (e : Expr) (rest : Program) {start : Nat} {stack : Stack}
    (here : code.Holds start (Program.layout mode start (e :: rest)))
    (last : start + (Program.layout mode start (e :: rest)).length = code.length) :
    code.Agrees context code.EndsWith ⟨start, stack⟩ (Program.eval mode context (e :: rest)) := by
  induction rest generalizing e start stack with
  | nil =>
      obtain ⟨here, -⟩ := Code.holds_append.mp here
      apply e.agrees here
      intro v
      refine at_end (f := ⟨start + e.size, v :: stack⟩) ?_
      simp only [Program.layout, List.append_nil, Expr.length_layout] at last
      exact Nat.le_of_eq last.symm
  | cons next rest ih =>
      obtain ⟨here, behind⟩ := Code.holds_append.mp here
      rw [Expr.length_layout] at behind
      apply e.agrees here
      intro v
      apply ih next behind
      rw [Program.layout, List.length_append, Expr.length_layout] at last
      omega

/-- The code of a program does what evaluation of the program does, and ends within as many
instructions as it has, unless the stack overflows. -/
theorem Program.run_emit (mode : AssignMode) (context : Context) (program : Program) {n : Nat}
    (enough : (program.emit mode).length ≤ n) :
    ((program.emit mode).run context n .start).Curtails
      (fun left o => left.map Frame.outcome = some o) (program.eval mode context) := by
  rw [program.emit_eq_layout] at enough ⊢
  cases program with
  | nil =>
      rw [Program.layout, Code.run_end rfl]
      exact .done rfl
  | cons e rest => exact (Program.agrees e rest (Code.holds_behind [] _) (Nat.zero_add _)).run enough

end SlotScript
