import SlotScript.Proofs.Compiler.Agreement
import SlotScript.Proofs.Compiler.Depth
import SlotScript.Proofs.Network.Course
import SlotScript.Proofs.Network.Waiting

/-! # Compiled code is safe to run

An instruction that keeps the depths is reached with the depth that is expected there, finds what it
takes from the stack and leads forward. It can fail as an operation on values does, or because the
stack is full, and the second happens only to an instruction that adds a value at depth 64. From
this follows what every run of compiled code keeps, in a network where anything else may happen. It
ends after a number of steps that the length of its code limits, unless it comes to wait for itself.
-/

namespace SlotScript

/-- Whether an instruction leaves one more value on the stack than it finds there. -/
def Opcode.addsValue : Opcode → Bool
  | .push | .getResource | .pushParameter | .pushSelf | .preIncrementResource
  | .postIncrementResource | .preDecrementResource | .postDecrementResource => true
  | _ => false

section Operations

open FailsRegularly Script

theorem Script.regular_done {α : Type} (a : α) : (done a).Regular :=
  trivial

theorem Script.regular_read (key : String) : (Script.read key).Regular :=
  fun _ _ => trivial

theorem Script.regular_element (key : String) (index : Value) :
    (Script.element key index).Regular := by
  intro collection _ answer possible
  cases answer with
  | ok v => trivial
  | error e => exact Exchange.Possible.regular possible

theorem Script.regular_changeElement (key : String) (index v : Value) :
    (Script.changeElement key index v).Regular := by
  intro collection _ answer possible
  cases answer with
  | ok => trivial
  | error e => exact Exchange.Possible.regular possible

theorem Counting.regular_apply (form : Counting) (key : String) : (form.apply key).Regular :=
  fun old _ => (regular_ofExcept (old.step_fails _)).bind fun _ _ _ _ => trivial

theorem UnaryOperator.apply_fails (op : UnaryOperator) (v : Value) :
    FailsRegularly (op.apply v) := by
  cases op with
  | not => exact v.toBool_fails.bind fun _ => ok _
  | minus => exact v.negate_fails
  | complement => exact v.bitwiseNot_fails
  | plus => exact ok v

theorem Value.regular_sum (a b : Value) : (a.sum b).Regular := by
  unfold Value.sum
  split
  · exact fun _ _ _ _ => trivial
  · exact regular_ofExcept (Value.arithmetic_fails _ a b)

theorem BinaryOperator.regular_apply (op : BinaryOperator) (a b : Value) :
    (op.apply a b).Regular := by
  cases op with
  | add => exact a.regular_sum b
  | subtract | multiply | divide => exact regular_ofExcept (Value.arithmetic_fails _ a b)
  | less | lessOrEqual | greater | greaterOrEqual =>
      exact regular_ofExcept ((a.compare_fails b).bind fun _ => ok _)
  | equal | notEqual => trivial
  | bitwiseAnd | bitwiseXor | bitwiseOr => exact regular_ofExcept (Value.bitwise_fails _ a b)

theorem Arithmetic.regular_apply (op : Arithmetic) (a b : Value) : (op.apply a b).Regular := by
  cases op with
  | add => exact a.regular_sum b
  | _ => exact regular_ofExcept (Value.arithmetic_fails _ a b)

end Operations

namespace Instruction

variable {context : Context} {length : Nat} {depth : Nat → Nat} {i : Instruction} {f : Frame}

/-- With what it takes on top of the stack, an instruction computes one value from it, whatever lies
below. -/
theorem Takes.computes (context : Context) (length : Nat) {taken : Nat} (takes : i.Takes taken)
    (args : Stack) (enough : args.length = taken) :
    ∃ s : Script Value, s.Regular ∧
      ∀ after, i.Computes context length (args ++ after) after s := by
  match takes, args, enough with
  | .push v, [], _ => exact ⟨_, Script.regular_done v, computes_push v⟩
  | .parameter, [], _ => exact ⟨_, Script.regular_done _, computes_parameter⟩
  | .self, [], _ => exact ⟨_, Script.regular_done _, computes_self⟩
  | .read key, [], _ => exact ⟨_, Script.regular_read key, computes_read key⟩
  | .count form key, [], _ => exact ⟨_, form.regular_apply key, computes_count form key⟩
  | .element key, [index], _ =>
    exact ⟨_, Script.regular_element key index, computes_element key index⟩
  | @Takes.unary op _ defined, [v], _ =>
    exact ⟨_, Script.regular_ofExcept (op.apply_fails v), computes_unary defined v⟩
  | .binary op, [b, a], _ => exact ⟨_, op.regular_apply a b, computes_binary op a b⟩
  | .arithmetic op, [b, a], _ => exact ⟨_, op.regular_apply a b, computes_arithmetic op a b⟩
  | .change key, [index, v], _ =>
    exact ⟨_, Script.regular_changeElement key index v, computes_change key index v⟩

theorem Takes.addsValue {taken : Nat} (takes : i.Takes taken) :
    i.op.addsValue = decide (taken = 0) := by
  cases takes with
  | count form => cases form <;> rfl
  | @unary op _ defined => cases op <;> cases defined <;> rfl
  | binary op => cases op <;> rfl
  | arithmetic op => cases op <;> rfl
  | _ => rfl

/-- A frame that an instruction at an index of code may lead to: further on, not beyond the end, and
with the stack that is expected there. -/
def Onward (length : Nat) (depth : Nat → Nat) (index : Nat) (f : Frame) : Prop :=
  index < f.next ∧ f.next ≤ length ∧ f.stack.length = depth f.next ∧
    f.stack.length ≤ Stack.maxDepth

theorem push_of_room {next : Nat} {stack : Stack} (room : stack.length < Stack.maxDepth)
    (v : Value) : Frame.push ⟨next, stack⟩ v = .ok ⟨next, v :: stack⟩ := by
  simp [Frame.push, Stack.push, Nat.not_le.mpr room, bind, Except.bind, pure, Except.pure]

theorem push_of_full {next : Nat} {stack : Stack} (full : stack.length = Stack.maxDepth)
    (v : Value) : Frame.push ⟨next, stack⟩ v = .error (.stackOverflow Stack.maxDepth) := by
  simp [Frame.push, Stack.push, full, bind, Except.bind]

/-- Unless it would overflow the stack, an instruction leads onward. -/
theorem Keeps.yields (context : Context) {next : Nat} {stack : Stack}
    (keeps : i.Keeps length depth next) (inside : next < length) (level : stack.length = depth next)
    (fits : stack.length ≤ Stack.maxDepth)
    (room : ¬ (depth next = Stack.maxDepth ∧ i.op.addsValue)) :
    (i.perform context length ⟨next + 1, stack⟩).Yields (Onward length depth next) := by
  cases keeps with
  | computes takes enough behind =>
      rename_i taken
      obtain ⟨s, regular, computes⟩ := takes.computes context length (List.take taken stack)
        (by simp only [List.length_take]; omega)
      have performs := computes (stack.drop taken) (next + 1)
      rw [List.take_append_drop] at performs
      rw [performs]
      rw [takes.addsValue, decide_eq_true_iff] at room
      have shorter : (stack.drop taken).length < Stack.maxDepth := by
        rw [List.length_drop]
        omega
      apply regular.bind
      intro v _
      rw [push_of_room shorter]
      refine ⟨Nat.lt_succ_self _, inside, ?_, shorter⟩
      simp only [List.length_cons, List.length_drop]
      omega
  | write mode key behind =>
      cases stack with
      | nil =>
          rw [List.length_nil] at level
          omega
      | cons v stack =>
          rw [perform_write]
          simp only [List.length_cons] at level fits
          have led : Onward length depth next ⟨next + 1, stack⟩ :=
            ⟨Nat.lt_succ_self _, inside, by simp only; omega, by simp only; omega⟩
          cases mode <;> exact fun _ _ => led
  | jump forward bounded same =>
      rw [perform_jump bounded]
      exact ⟨forward, bounded, level.trans same.symm, fits⟩
  | branch op forward bounded here there =>
      cases stack with
      | nil =>
          rw [List.length_nil] at level
          omega
      | cons v stack =>
          rw [perform_branch op bounded]
          simp only [List.length_cons] at level fits
          apply (Script.regular_ofExcept v.toBool_fails).bind
          intro truth _
          by_cases taken : truth = op.decider
          · rw [if_pos taken]
            exact ⟨forward, Nat.le_of_lt bounded, by simp only; omega, by simp only; omega⟩
          · rw [if_neg taken]
            exact ⟨Nat.lt_succ_self _, inside, by simp only; omega, by simp only; omega⟩
  | jumpIfNull forward bounded here there =>
      cases stack with
      | nil =>
          rw [List.length_nil] at level
          omega
      | cons v stack =>
          rw [perform_jumpIfNull bounded]
          split
          · simp only [List.length_cons] at level fits
            exact ⟨forward, Nat.le_of_lt bounded, by simp only; omega, by simp only; omega⟩
          · exact ⟨Nat.lt_succ_self _, inside, level.trans here.symm, fits⟩

/-- What an instruction does that adds a value to a full stack. -/
theorem Keeps.performs_full (context : Context) {next : Nat} {stack : Stack}
    (keeps : i.Keeps length depth next)
    (full : stack.length = Stack.maxDepth) (adds : i.op.addsValue) :
    ∃ s : Script Value, s.Regular ∧
      (i.perform context length ⟨next + 1, stack⟩ =
        s.bind fun _ => .fail (.stackOverflow Stack.maxDepth)) ∧
      i.perform context length ⟨next + 1, []⟩ = s.bind fun v => .done ⟨next + 1, [v]⟩ := by
  cases keeps with
  | computes takes =>
      rw [takes.addsValue, decide_eq_true_iff] at adds
      obtain ⟨s, regular, computes⟩ := takes.computes context length [] adds.symm
      have room : ([] : Stack).length < Stack.maxDepth := by decide
      refine ⟨s, regular, ?_, ?_⟩
      · have without := computes stack (next + 1)
        rw [List.nil_append] at without
        simp only [without, push_of_full full, Script.ofExcept_error]
      · have within := computes [] (next + 1)
        rw [List.nil_append] at within
        simp only [within, push_of_room room, Script.ofExcept_ok]
  | write mode => cases mode <;> cases adds
  | branch op => cases op <;> cases adds
  | jump | jumpIfNull => cases adds

/-- An instruction that comes to its end leads onward. -/
theorem Keeps.onward {next : Nat} {stack : Stack} (keeps : i.Keeps length depth next)
    (inside : next < length) (level : stack.length = depth next)
    (fits : stack.length ≤ Stack.maxDepth) {es : List Exchange} (possible : ∀ x ∈ es, x.Possible)
    (made : (i.perform context length ⟨next + 1, stack⟩).Made es (.done f)) :
    Onward length depth next f := by
  by_cases full : depth next = Stack.maxDepth ∧ i.op.addsValue
  · obtain ⟨s, -, performs, -⟩ :=
      keeps.performs_full context (level.trans full.1) full.2
    rw [performs] at made
    obtain ⟨e, -, last⟩ | ⟨v, -, last⟩ := made.end_of_bind trivial fun _ => trivial
    · cases last
    · cases last
  · exact (keeps.yields context inside level fits full).made made possible

/-- An instruction that fails does so regularly, or because the stack is full. -/
theorem Keeps.fails {next : Nat} {stack : Stack} (keeps : i.Keeps length depth next)
    (inside : next < length) (level : stack.length = depth next)
    (fits : stack.length ≤ Stack.maxDepth) {es : List Exchange} (possible : ∀ x ∈ es, x.Possible)
    {e : RuntimeError} (made : (i.perform context length ⟨next + 1, stack⟩).Made es (.fail e)) :
    e.Regular ∨ e = .stackOverflow Stack.maxDepth := by
  by_cases full : depth next = Stack.maxDepth ∧ i.op.addsValue
  · obtain ⟨s, regular, performs, -⟩ :=
      keeps.performs_full context (level.trans full.1) full.2
    rw [performs] at made
    obtain ⟨e', first, last⟩ | ⟨v, -, last⟩ := made.end_of_bind trivial fun _ => trivial
    · obtain rfl := Script.fail.inj last
      exact .inl (regular.made first possible)
    · exact .inr (Script.fail.inj last)
  · exact .inl ((keeps.yields context inside level fits full).made made possible)

/-- The stack overflows at depth 64, when a value is added and nothing has failed before: where there
is room, the instruction would come to its end. -/
theorem Keeps.overflows_iff {next : Nat} {stack : Stack} (keeps : i.Keeps length depth next)
    (inside : next < length) (level : stack.length = depth next)
    (fits : stack.length ≤ Stack.maxDepth) {es : List Exchange} (possible : ∀ x ∈ es, x.Possible) :
    (i.perform context length ⟨next + 1, stack⟩).Made es (.fail (.stackOverflow Stack.maxDepth)) ↔
      depth next = Stack.maxDepth ∧ i.op.addsValue ∧
        ∃ f, (i.perform context length ⟨next + 1, []⟩).Made es (.done f) := by
  constructor
  · intro made
    by_cases full : depth next = Stack.maxDepth ∧ i.op.addsValue
    · refine ⟨full.1, full.2, ?_⟩
      obtain ⟨s, regular, performs, within⟩ :=
        keeps.performs_full context (level.trans full.1) full.2
      rw [performs] at made
      rw [within]
      obtain ⟨e, first, last⟩ | ⟨v, first, -⟩ := made.end_of_bind trivial fun _ => trivial
      · obtain rfl := Script.fail.inj last
        have failed : RuntimeError.Regular _ := regular.made first possible
        exact failed.elim
      · exact ⟨_, first.bind _⟩
    · have failed : RuntimeError.Regular _ :=
        (keeps.yields context inside level fits full).made made possible
      exact failed.elim
  · rintro ⟨deep, adds, f, made⟩
    obtain ⟨s, -, performs, within⟩ :=
      keeps.performs_full context (level.trans deep) adds
    rw [within] at made
    rw [performs]
    obtain ⟨e, -, last⟩ | ⟨v, first, -⟩ := made.end_of_bind trivial fun _ => trivial
    · cases last
    · exact first.bind _

theorem Keeps.of_indexSet {index : Nat} (keeps : i.Keeps length depth index)
    (op : i.op = .indexSet) : (∃ key, i = .keyed .indexSet key) ∧ 2 ≤ depth index := by
  cases keeps with
  | computes takes enough =>
      cases takes with
      | change key => exact ⟨⟨key, rfl⟩, enough⟩
      | count form => cases form <;> cases op
      | @unary form _ defined => cases form <;> cases defined <;> cases op
      | binary form | arithmetic form => cases form <;> cases op
      | _ => cases op
  | write mode => cases mode <;> cases op
  | branch form => cases form <;> cases op
  | jump | jumpIfNull => cases op

/-- To change an element, an instruction first asks for its collection. -/
theorem performs_replace {key key' : String} {next : Nat} {index index' v v' collection : Value}
    {below : Stack} {es : List Exchange} {rest : Except RuntimeError Unit → Script Frame}
    (made : ((keyed .indexSet key).perform context length ⟨next, index :: v :: below⟩).Made es
      (.ask (.replace key' collection index' v') rest)) :
    es = [⟨.fetch key .null, collection⟩] ∧ index' = index := by
  rw [computes_change key index v below] at made
  cases made with
  | one made =>
      cases made with
      | none => exact ⟨rfl, rfl⟩
      | @one _ _ answer _ _ made =>
          cases answer with
          | error => cases made
          | ok =>
              change (Script.ofExcept (Frame.push ⟨next, below⟩ v)).Made _ _ at made
              cases pushed : Frame.push ⟨next, below⟩ v <;>
                · rw [pushed] at made
                  cases made

end Instruction

/-- The errors of a machine whose code is wrong. -/
def RuntimeError.Fault : RuntimeError → Prop
  | stackEmpty | jumpOutOfRange .. | malformed .. | notACommand _ => True
  | _ => False

theorem RuntimeError.Regular.not_fault {e : RuntimeError} (h : e.Regular) : ¬ e.Fault := by
  cases e <;> first | exact h.elim | exact id

namespace Code

variable {context : Context} {code : Code} {depth : Nat → Nat}

theorem Keeps.get {index : Nat} {i : Instruction} (keeps : Code.Keeps code.length depth 0 code)
    (at_index : code[index]? = some i) : i.Keeps code.length depth index := by
  simpa using Along.get keeps at_index

theorem Keeps.commandless (keeps : Code.Keeps code.length depth 0 code) :
    ∀ i ∈ code, i.op ≠ .invokeResource := by
  intro i member
  obtain ⟨index, at_index⟩ := List.mem_iff_getElem?.mp member
  exact (keeps.get at_index).commandless

/-- A path through code that keeps the depths meets every instruction at its depth and is no longer
than the code. -/
theorem Path.keeps {frames : List Frame} {es : List Exchange} {f : Frame}
    (path : code.Path context frames es f) (keeps : Code.Keeps code.length depth 0 code)
    (empty : depth 0 = 0) (possible : ∀ x ∈ es, x.Possible) :
    (∀ g ∈ frames, g.next < code.length ∧ g.stack.length = depth g.next) ∧
      frames.length ≤ f.next ∧ f.next ≤ code.length ∧ f.stack.length = depth f.next ∧
      f.stack.length ≤ Stack.maxDepth := by
  induction path with
  | start => exact ⟨nofun, Nat.le_refl 0, Nat.zero_le _, empty.symm, Nat.zero_le _⟩
  | @step frames es es' f f' i path at_f made ih =>
      have before : ∀ x ∈ es, x.Possible := fun x member =>
        possible x (List.mem_append_left _ member)
      have now : ∀ x ∈ es', x.Possible := fun x member =>
        possible x (List.mem_append_right _ member)
      obtain ⟨reached, steps, -, level, fits⟩ := ih before
      have inside := (List.getElem?_eq_some_iff.mp at_f).1
      obtain ⟨forward, bounded, level', fits'⟩ :=
        (keeps.get at_f).onward inside level fits now made
      refine ⟨?_, ?_, bounded, level', fits'⟩
      · intro g member
        obtain member | member := List.mem_append.mp member
        · exact reached g member
        · obtain rfl := List.mem_singleton.mp member
          exact ⟨inside, level⟩
      · rw [List.length_append, List.length_singleton]
        omega

/-- Two exchanges are enough for each instruction. -/
theorem Path.exchanges_le {frames : List Frame} {es : List Exchange} {f : Frame}
    (path : code.Path context frames es f) (commandless : ∀ i ∈ code, i.op ≠ .invokeResource) :
    es.length ≤ 2 * frames.length := by
  induction path with
  | start => exact Nat.le_refl 0
  | @step frames es es' f f' i path at_f made ih =>
      have now := Instruction.exchanges_le (commandless i (List.mem_of_getElem? at_f)) made
      simp only [List.length_append, List.length_singleton]
      omega

end Code

/-- Steps of its own that a run has taken. To wait for itself is no step. -/
def Course.steps (log : List (Network × Task)) : Nat :=
  log.countP fun (net, task) => ¬ task.Waits net

/-- How many steps without an exchange the instruction may need to come to its end, once begun. -/
def Task.remains : Task → Nat
  | .proceed .. => 1
  | _ => 0

theorem Task.remains_le (task : Task) : task.remains ≤ 1 := by
  unfold remains
  split <;> omega

theorem Course.steps_append (log : List (Network × Task)) (net : Network) (task : Task) :
    steps (log ++ [(net, task)]) = steps log + if task.Waits net then 0 else 1 := by
  by_cases waits : task.Waits net <;> simp [steps, waits]

namespace Run.Stands

variable {r : Run} {depth : Nat → Nat} {frames : List Frame} {es : List Exchange} {task : Task}

theorem exchanges_le (stands : r.Stands frames es task)
    (commandless : ∀ i ∈ r.activation.code, i.op ≠ .invokeResource) :
    es.length ≤ 2 * frames.length := by
  cases stands with
  | between path => exact path.exchanges_le commandless
  | @within frames es es' f i script path at_f made =>
      have before := path.exchanges_le commandless
      have now := Instruction.exchanges_le (commandless i (List.mem_of_getElem? at_f)) made
      simp only [List.length_append, List.length_singleton]
      omega

/-- A step begins an instruction, or it makes an exchange, or it ends an instruction. -/
theorem pays (stands : r.Stands frames es task)
    (commandless : ∀ i ∈ r.activation.code, i.op ≠ .invokeResource)
    (unfinished : task.ending? = none) {net : Network} {above : List Task} {own : Task}
    (performed : (task.perform net).2 = above ++ [own]) :
    own.remains + (if task.Waits net then 0 else 1) ≤
      task.remains + 2 * task.frame?.toList.length + (task.exchange? net).toList.length := by
  have led := own.remains_le
  cases stands with
  | between =>
      show _ ≤ 0 + 2 * 1 + 0
      split <;> omega
  | @within _ _ _ f i script _ at_f made =>
      cases script with
      | done f' =>
          obtain ⟨-, rfl⟩ := eq_of_agenda performed.symm
          show 0 + _ ≤ 1 + 2 * 0 + 0
          split <;> omega
      | fail => cases unfinished
      | invoke =>
          have other := commandless i (List.mem_of_getElem? at_f)
          exact ((Instruction.perform_asks other _).made made).2.elim
      | ask request next =>
          by_cases waits : (Task.proceed (r.standingAt f) (.ask request next)).Waits net
          · rw [if_pos waits]
            show _ ≤ 1 + 2 * 0 + _
            omega
          · obtain ⟨x, answered⟩ := Option.ne_none_iff_exists'.mp (mt Task.waits_iff.mpr waits)
            rw [if_neg waits]
            simp only [Task.exchange?, answered, Option.map_some, Option.toList_some,
              List.length_singleton]
            show _ ≤ 1 + 2 * 0 + 1
            omega

end Run.Stands

/-- A run takes no more than four steps for each instruction. -/
theorem Course.steps_le {r : Run} (commandless : ∀ i ∈ r.activation.code, i.op ≠ .invokeResource)
    (fresh : r.activation.frame = .start) {rest : List Task} {net : Network}
    {log : List (Network × Task)} {p : Propagation}
    (course : Course rest ⟨net, .run r :: rest⟩ log p) :
    steps log ≤ 4 * (frames log).length := by
  have start : r.Stands [] [] (.run r) ∧ (Task.run r).remains + 0 ≤ 2 * 0 + 0 :=
    ⟨.start fresh, Nat.le_refl 0⟩
  obtain ⟨above, own, -, stands, paid⟩ := course.keeps
    (I := fun log own => r.Stands (frames log) (exchanges log) own ∧
      own.remains + steps log ≤ 2 * (frames log).length + (exchanges log).length)
    start fun {log task} net kept unfinished => by
      obtain ⟨stands, paid⟩ := kept
      obtain ⟨above, own, performed, next⟩ := stands.perform commandless unfinished net
      have pays := stands.pays commandless unfinished performed
      refine ⟨above, own, performed, ?_⟩
      rw [frames_append, exchanges_append, steps_append]
      refine ⟨next, ?_⟩
      simp only [List.length_append]
      omega
  have asked := stands.exchanges_le commandless
  omega

namespace Code

/-- What is promised of code, given the depth of the stack before each instruction and behind the
last one. -/
structure Safe (code : Code) (depth : Nat → Nat) (statements : Nat) : Prop where
  /-- Jumps lead forward, and only an unconditional one to the end of the code. -/
  forward {index target : Nat} {i : Instruction} : code[index]? = some i → i.target = .ok target →
    index < target ∧ target ≤ code.length ∧ (i.op ≠ .jump → target < code.length)
  /-- At its depth, an instruction overflows the stack exactly if that is 64, it adds a value, and
  it would come to its end where there is room. -/
  overflows {context : Context} {f : Frame} {i : Instruction} {es : List Exchange} :
    code[f.next]? = some i → f.stack.length = depth f.next → f.stack.length ≤ Stack.maxDepth →
    (∀ x ∈ es, x.Possible) →
    ((i.perform context code.length { f with next := f.next + 1 }).Made es
        (.fail (.stackOverflow Stack.maxDepth)) ↔
      depth f.next = Stack.maxDepth ∧ i.op.addsValue ∧
        ∃ f', (i.perform context code.length ⟨f.next + 1, []⟩).Made es (.done f'))
  /-- As many instructions as the code has are always enough where all requests are answered. -/
  halts {context : Context} {es : List Exchange} {left : Option Frame} :
    (code.run context code.length .start).Made es (.done left) → left ≠ none
  /-- A run performs no more instructions than the code has, each at its depth. -/
  reached {r : Run} {rest : List Task} {net : Network} {log : List (Network × Task)}
    {p : Propagation} : r.activation.code = code → r.activation.frame = .start →
    Course rest ⟨net, .run r :: rest⟩ log p →
    (Course.frames log).length ≤ code.length ∧
      ∀ f ∈ Course.frames log, f.next < code.length ∧ f.stack.length = depth f.next
  /-- It takes no more than four steps for each of them, so it ends, unless it waits for itself. -/
  steps {r : Run} {rest : List Task} {net : Network} {log : List (Network × Task)}
    {p : Propagation} : r.activation.code = code → r.activation.frame = .start →
    Course rest ⟨net, .run r :: rest⟩ log p → Course.steps log ≤ 4 * code.length
  /-- A run that waits for itself is about to change an element of the collection it has just found
  under the key of an assignment, at an index that is this very collection. -/
  waits {r : Run} {rest : List Task} {net : Network} {log : List (Network × Task)}
    {p : Propagation} {task : Task} : r.activation.code = code → r.activation.frame = .start →
    Course rest ⟨net, .run r :: rest⟩ log p → p.agenda = task :: rest → task.Waits p.net →
    ∃ f key collection index v below, (Course.frames log).getLast? = some f ∧
      code[f.next]? = some (.keyed .indexSet key) ∧ f.stack = index :: v :: below ∧
      (Course.exchanges log).getLast? = some ⟨.fetch key .null, collection⟩ ∧
      p.net.OwnIndex collection index
  /-- A run that succeeds leaves the value of each statement. -/
  succeeds {r : Run} {rest : List Task} {net : Network} {log : List (Network × Task)}
    {p : Propagation} {task : Task} {f : Frame} : r.activation.code = code →
    r.activation.frame = .start → Course rest ⟨net, .run r :: rest⟩ log p →
    p.agenda = task :: rest → task.ending? = some (.ok f) →
    f.stack.length = statements ∧ (f.outcome = .void ↔ statements = 0)
  /-- A run that fails has no fault of its code, and if it overflows the stack, it does so at an
  instruction of depth 64 that adds a value and got all the answers it needs. -/
  fails {r : Run} {rest : List Task} {net : Network} {log : List (Network × Task)}
    {p : Propagation} {task : Task} {e : RuntimeError} : r.activation.code = code →
    r.activation.frame = .start → Course rest ⟨net, .run r :: rest⟩ log p →
    p.agenda = task :: rest → task.ending? = some (.error e) →
    ¬ e.Fault ∧ ∀ limit, e = .stackOverflow limit → limit = Stack.maxDepth ∧
      ∃ f i es, (Course.frames log).getLast? = some f ∧ code[f.next]? = some i ∧
        depth f.next = Stack.maxDepth ∧ i.op.addsValue ∧ es <:+ Course.exchanges log ∧
        ∃ f', (i.perform r.activation.context code.length ⟨f.next + 1, []⟩).Made es (.done f')

end Code

theorem Instruction.Keeps.forward {length index target : Nat} {depth : Nat → Nat} {i : Instruction}
    (keeps : i.Keeps length depth index) (jumps : i.target = .ok target) :
    index < target ∧ target ≤ length ∧ (i.op ≠ .jump → target < length) := by
  cases keeps with
  | computes takes =>
      cases takes with
      | count form => cases form <;> cases jumps
      | _ => cases jumps
  | write mode => cases mode <;> cases jumps
  | jump forward bounded =>
      cases jumps
      exact ⟨forward, bounded, fun other => (other rfl).elim⟩
  | branch op forward bounded =>
      cases jumps
      exact ⟨forward, Nat.le_of_lt bounded, fun _ => bounded⟩
  | jumpIfNull forward bounded =>
      cases jumps
      exact ⟨forward, Nat.le_of_lt bounded, fun _ => bounded⟩

namespace Run.Stands

variable {r : Run} {depth : Nat → Nat} {frames : List Frame} {es : List Exchange} {task : Task}

/-- Wherever the task of a run of such code stands, the run met every instruction at its depth. -/
theorem keeps (stands : r.Stands frames es task)
    (keeps : Code.Keeps r.activation.code.length depth 0 r.activation.code) (empty : depth 0 = 0)
    (possible : ∀ x ∈ es, x.Possible) :
    frames.length ≤ r.activation.code.length ∧
      ∀ f ∈ frames, f.next < r.activation.code.length ∧ f.stack.length = depth f.next := by
  cases stands with
  | between path =>
      obtain ⟨reached, steps, bounded, -⟩ := path.keeps keeps empty possible
      exact ⟨Nat.le_trans steps bounded, reached⟩
  | within path at_f made =>
      obtain ⟨reached, steps, -, level, -⟩ := path.keeps keeps empty fun x member =>
        possible x (List.mem_append_left _ member)
      have inside := (List.getElem?_eq_some_iff.mp at_f).1
      refine ⟨?_, ?_⟩
      · rw [List.length_append, List.length_singleton]
        omega
      · intro g member
        obtain member | member := List.mem_append.mp member
        · exact reached g member
        · obtain rfl := List.mem_singleton.mp member
          exact ⟨inside, level⟩

/-- The only instruction that a run may never come to the end of. -/
theorem waits (stands : r.Stands frames es task)
    (keeps : Code.Keeps r.activation.code.length depth 0 r.activation.code) (empty : depth 0 = 0)
    (possible : ∀ x ∈ es, x.Possible) {net : Network} (waits : task.Waits net) :
    ∃ f key collection index v below, frames.getLast? = some f ∧
      r.activation.code[f.next]? = some (.keyed .indexSet key) ∧ f.stack = index :: v :: below ∧
      es.getLast? = some ⟨.fetch key .null, collection⟩ ∧ net.OwnIndex collection index := by
  obtain ⟨request, asks, own⟩ := waits
  cases stands with
  | between => cases asks
  | @within frames es es' f i script path at_f made =>
      cases script with
      | done | fail | invoke => cases asks
      | ask request' next =>
          cases asks
          cases request with
          | replace key' collection index' v' =>
              have commandless := keeps.commandless i (List.mem_of_getElem? at_f)
              have op : i.op = .indexSet :=
                ((Instruction.perform_asks commandless _).made made).2.1
              obtain ⟨⟨key, rfl⟩, enough⟩ := (keeps.get at_f).of_indexSet op
              obtain ⟨-, -, -, level, -⟩ := path.keeps keeps empty fun x member =>
                possible x (List.mem_append_left _ member)
              rw [← level] at enough
              obtain ⟨here, _ | ⟨index, _ | ⟨v, below⟩⟩⟩ := f
              · cases enough
              · simp at enough
              · obtain ⟨rfl, rfl⟩ := Instruction.performs_replace made
                exact ⟨_, key, collection, index', v, below, List.getLast?_concat, at_f, rfl,
                  List.getLast?_concat, own⟩
          | _ => exact own.elim

theorem succeeds (stands : r.Stands frames es task)
    (keeps : Code.Keeps r.activation.code.length depth 0 r.activation.code) (empty : depth 0 = 0)
    (possible : ∀ x ∈ es, x.Possible) {f : Frame} (ended : task.ending? = some (.ok f)) :
    f.stack.length = depth r.activation.code.length := by
  cases stands with
  | @between _ _ f' path =>
      obtain ⟨-, -, bounded, level, -⟩ := path.keeps keeps empty possible
      cases behind : r.activation.code[f'.next]? with
      | some i => simp [Task.ending?, standingAt, behind] at ended
      | none =>
          obtain rfl : f' = f := by simpa [Task.ending?, standingAt, behind] using ended
          have last := List.getElem?_eq_none_iff.mp behind
          rw [level, Nat.le_antisymm bounded last]
  | @within _ _ _ _ _ script => cases script <;> cases ended

theorem fails (stands : r.Stands frames es task)
    (keeps : Code.Keeps r.activation.code.length depth 0 r.activation.code) (empty : depth 0 = 0)
    (possible : ∀ x ∈ es, x.Possible) {e : RuntimeError} (ended : task.ending? = some (.error e)) :
    e.Regular ∨ e = .stackOverflow Stack.maxDepth ∧
      ∃ f i es', frames.getLast? = some f ∧ r.activation.code[f.next]? = some i ∧
        depth f.next = Stack.maxDepth ∧ i.op.addsValue ∧ es' <:+ es ∧
        ∃ f', (i.perform r.activation.context r.activation.code.length ⟨f.next + 1, []⟩).Made es'
          (.done f') := by
  cases stands with
  | @between _ _ f' path =>
      cases behind : r.activation.code[f'.next]? <;>
        simp [Task.ending?, standingAt, behind] at ended
  | @within _ es es' f i script path at_f made =>
      obtain rfl : script = .fail e := by
        cases script <;> simp [Task.ending?] at ended
        rw [ended]
      obtain ⟨-, -, -, level, fits⟩ := path.keeps keeps empty fun x member =>
        possible x (List.mem_append_left _ member)
      have now : ∀ x ∈ es', x.Possible := fun x member =>
        possible x (List.mem_append_right _ member)
      have inside := (List.getElem?_eq_some_iff.mp at_f).1
      obtain regular | rfl := (keeps.get at_f).fails inside level fits now made
      · exact .inl regular
      · obtain ⟨deep, adds, finished⟩ :=
          ((keeps.get at_f).overflows_iff inside level fits now).mp made
        exact .inr ⟨rfl, f, i, es', List.getLast?_concat, at_f, deep, adds,
          List.suffix_append _ _, finished⟩

end Run.Stands

theorem Frame.outcome_eq_void_iff (f : Frame) : f.outcome = .void ↔ f.stack.length = 0 := by
  obtain ⟨next, _ | ⟨v, stack⟩⟩ := f
  · exact ⟨fun _ => rfl, fun _ => rfl⟩
  · exact ⟨nofun, nofun⟩

/-- The code of a program is safe to run at the depths of the program. -/
theorem Program.safe_emit (mode : AssignMode) (program : Program) :
    (program.emit mode).Safe program.depthAt program.length := by
  have keeps := program.keeps_emit mode
  have empty := program.depthAt_zero
  have last := program.depthAt_length mode
  have runs := fun context => program.run_emit mode context (Nat.le_refl _)
  generalize program.emit mode = code at keeps last runs ⊢
  refine ⟨?_, ?_, ?_, ?_, ?_, ?_, ?_, ?_⟩
  · intro index target i at_index jumps
    exact (keeps.get at_index).forward jumps
  · intro context f i es at_f level fits possible
    have inside := (List.getElem?_eq_some_iff.mp at_f).1
    exact (keeps.get at_f).overflows_iff inside level fits possible
  · rintro context es left made rfl
    obtain ⟨left', -, curtails⟩ := (runs context).made made
    cases curtails with
    | done same => cases same
  · intro r rest net log p own fresh course
    subst own
    obtain ⟨-, task, -, stands⟩ := course.stands keeps.commandless fresh
    exact stands.keeps keeps empty (Course.possible log)
  · intro r rest net log p own fresh course
    subst own
    obtain ⟨-, task, -, stands⟩ := course.stands keeps.commandless fresh
    have few := (stands.keeps keeps empty (Course.possible log)).1
    have steps := course.steps_le keeps.commandless fresh
    omega
  · intro r rest net log p task own fresh course at_top waiting
    subst own
    have stands := course.stands_on_top keeps.commandless fresh at_top
    exact stands.waits keeps empty (Course.possible log) waiting
  · intro r rest net log p task f own fresh course at_top ended
    subst own
    have stands := course.stands_on_top keeps.commandless fresh at_top
    have values := stands.succeeds keeps empty (Course.possible log) ended
    rw [last] at values
    exact ⟨values, values ▸ f.outcome_eq_void_iff⟩
  · intro r rest net log p task e own fresh course at_top ended
    subst own
    have stands := course.stands_on_top keeps.commandless fresh at_top
    obtain regular | ⟨rfl, overflowed⟩ := stands.fails keeps empty (Course.possible log) ended
    · refine ⟨regular.not_fault, ?_⟩
      rintro limit rfl
      exact regular.elim
    · refine ⟨id, ?_⟩
      intro limit same
      obtain rfl := RuntimeError.stackOverflow.inj same
      exact ⟨rfl, overflowed⟩

end SlotScript
