import SlotScript.Proofs.Machine.Exchange
import SlotScript.Proofs.Syntax.Evaluation

/-! # What code does from a frame on

`Code.run` joins the scripts of the instructions of a run to one script. The number of instructions
is limited, since code that was not compiled may run forever. Then each instruction that compiled
code contains is described once: most of them compute one value from those on top of the stack.
-/

namespace SlotScript

/-- Each element of a list has a property together with its index, counted from a start. -/
def Along {α : Type} (P : Nat → α → Prop) : Nat → List α → Prop
  | _, [] => True
  | start, a :: rest => P start a ∧ Along P (start + 1) rest

theorem along_append {α : Type} {P : Nat → α → Prop} {start : Nat} {front back : List α} :
    Along P start (front ++ back) ↔ Along P start front ∧ Along P (start + front.length) back := by
  induction front generalizing start with
  | nil => simp [Along]
  | cons a front ih =>
      simp only [List.cons_append, Along, ih, List.length_cons, and_assoc]
      rw [Nat.add_assoc, Nat.add_comm 1]

theorem Along.get {α : Type} {P : Nat → α → Prop} {start : Nat} {l : List α} (h : Along P start l)
    {k : Nat} {a : α} (found : l[k]? = some a) : P (start + k) a := by
  induction l generalizing start k with
  | nil => simp at found
  | cons b l ih =>
      cases k with
      | zero =>
          obtain rfl : b = a := by simpa using found
          exact h.1
      | succ k =>
          have later := ih h.2 (by simpa using found)
          rwa [Nat.add_assoc, Nat.add_comm 1] at later

/-- What a frame that has come to the end of its code leaves behind. -/
def Frame.outcome (f : Frame) : Outcome :=
  match f.stack with
  | v :: _ => .value v
  | [] => .void

@[simp] theorem Frame.pop_cons (next : Nat) (v : Value) (stack : Stack) :
    Frame.pop ⟨next, v :: stack⟩ = .ok (v, ⟨next, stack⟩) := rfl

namespace Code

/-- The script of at most so many instructions; there is no final frame if they were not enough. -/
def run (context : Context) (code : Code) : Nat → Frame → Script (Option Frame)
  | 0, f =>
    match code[f.next]? with
    | some _ => .done none
    | none => .done (some f)
  | n + 1, f =>
    match code[f.next]? with
    | some i => (i.perform context code.length { f with next := f.next + 1 }).bind (run context code n)
    | none => .done (some f)

theorem run_end {context : Context} {code : Code} {f : Frame} (h : code[f.next]? = none) (n : Nat) :
    code.run context n f = .done (some f) := by
  cases n <;> simp only [run, h]

theorem run_succ {context : Context} {code : Code} {f : Frame} {i : Instruction}
    (h : code[f.next]? = some i) (n : Nat) :
    code.run context (n + 1) f =
      (i.perform context code.length { f with next := f.next + 1 }).bind (code.run context n) := by
  simp only [run, h]

/-- The code contains a piece from an index on. -/
def Holds (code : Code) : Nat → Code → Prop :=
  Along fun index i => code[index]? = some i

theorem holds_append {code : Code} {start : Nat} {piece rest : Code} :
    code.Holds start (piece ++ rest) ↔
      code.Holds start piece ∧ code.Holds (start + piece.length) rest :=
  along_append

theorem holds_behind (before piece : Code) : Holds (before ++ piece) before.length piece := by
  induction piece generalizing before with
  | nil => trivial
  | cons i piece ih =>
      refine ⟨by simp, ?_⟩
      simpa [Holds] using ih (before ++ [i])

theorem Holds.le {code : Code} {start : Nat} {piece : Code} (h : code.Holds start piece)
    (nonempty : 0 < piece.length) : start + piece.length ≤ code.length := by
  induction piece generalizing start with
  | nil => simp at nonempty
  | cons i piece ih =>
      cases piece with
      | nil => exact (List.getElem?_eq_some_iff.mp h.1).1
      | cons j piece =>
          have := ih h.2 (by simp)
          simp only [List.length_cons] at this ⊢
          omega

end Code

namespace Instruction

variable {context : Context} {length : Nat}

/-- On a stack the instruction does what the script does, and the value of the script goes on top of
another stack, where there may be no room for it. -/
def Computes (context : Context) (length : Nat) (i : Instruction) (before after : Stack)
    (s : Script Value) : Prop :=
  ∀ next, i.perform context length ⟨next, before⟩ =
    s.bind fun v => Script.ofExcept (Frame.push ⟨next, after⟩ v)

theorem computes_push (v : Value) (stack : Stack) :
    (push v).Computes context length stack stack (.done v) :=
  fun _ => rfl

theorem computes_parameter (stack : Stack) :
    (plain .pushParameter).Computes context length stack stack (.done context.parameter) :=
  fun _ => rfl

theorem computes_self (stack : Stack) :
    (plain .pushSelf).Computes context length stack stack (.done context.self) :=
  fun _ => rfl

theorem computes_read (key : String) (stack : Stack) :
    (keyed .getResource key).Computes context length stack stack (Script.read key) :=
  fun _ => rfl

theorem computes_count (form : Counting) (key : String) (stack : Stack) :
    (form.instruction key).Computes context length stack stack (form.apply key) := by
  intro next
  cases form <;>
    · simp only [Counting.apply, Script.request_eq, Script.bind_eq, Script.ask_bind,
        Script.done_bind, Script.bind_assoc]
      rfl

theorem computes_element (key : String) (index : Value) (stack : Stack) :
    (keyed .indexGet key).Computes context length (index :: stack) stack
      (Script.element key index) :=
  fun _ => rfl

theorem computes_change (key : String) (index v : Value) (stack : Stack) :
    (keyed .indexSet key).Computes context length (index :: v :: stack) stack
      (Script.changeElement key index v) := by
  intro next
  simp only [Script.changeElement, Script.read, Script.request_eq, Script.bind_eq, Script.ask_bind,
    Script.done_bind, Script.bind_assoc]
  rfl

theorem computes_unary {op : UnaryOperator} {opcode : Opcode} (h : op.opcode? = some opcode)
    (v : Value) (stack : Stack) :
    (plain opcode).Computes context length (v :: stack) stack (Script.ofExcept (op.apply v)) := by
  intro next
  cases op <;> cases h
  case not =>
    show (Script.ofExcept v.toBool).bind _ = _
    simp only [UnaryOperator.apply]
    cases v.toBool <;> rfl
  all_goals rfl

theorem ofExcept_binary (operation : Value → Value → Except RuntimeError Value) (a b : Value)
    (next : Nat) (stack : Stack) :
    Script.ofExcept (binary ⟨next, b :: a :: stack⟩ operation) =
      (Script.ofExcept (operation a b)).bind fun v =>
        Script.ofExcept (Frame.push ⟨next, stack⟩ v) := by
  cases h : operation a b <;>
    simp [binary, Frame.pop, Stack.pop, h, bind, Except.bind, pure, Except.pure]

theorem computes_sum (a b : Value) (stack : Stack) :
    (plain .add).Computes context length (b :: a :: stack) stack (a.sum b) := by
  intro next
  simp only [perform, plain, add, Frame.pop_cons, Script.lift_eq, Script.ofExcept_ok,
    Script.bind_eq, Script.done_bind, Value.sum]
  split <;> rfl

theorem computes_binary (op : BinaryOperator) (a b : Value) (stack : Stack) :
    (plain op.opcode).Computes context length (b :: a :: stack) stack (op.apply a b) := by
  intro next
  cases op with
  | add => exact computes_sum a b stack next
  | _ => exact ofExcept_binary _ a b next stack

theorem computes_arithmetic (op : Arithmetic) (a b : Value) (stack : Stack) :
    (plain op.opcode).Computes context length (b :: a :: stack) stack (op.apply a b) := by
  intro next
  cases op with
  | add => exact computes_sum a b stack next
  | _ => exact ofExcept_binary _ a b next stack

theorem perform_write (mode : AssignMode) (key : String) (next : Nat) (v : Value) (stack : Stack) :
    (keyedWith mode.writeOp key (.sentinel .last)).perform context length ⟨next, v :: stack⟩ =
      (mode.write key v).bind fun _ => .done ⟨next, stack⟩ := by
  cases mode <;> rfl

theorem checkedTarget_jump {op : Opcode} {target : Nat}
    (h : target < length ∨ op = .jump ∧ target = length) :
    (jump op target).checkedTarget length = .ok target := by
  simp only [checkedTarget, jump, Instruction.target, bind, Except.bind, pure, Except.pure, h,
    if_true]

theorem perform_jump {target : Nat} (h : target ≤ length) (f : Frame) :
    (jump .jump target).perform context length f = .done (f.jumpTo target) := by
  have inside : target < length ∨ Opcode.jump = .jump ∧ target = length :=
    (Nat.lt_or_eq_of_le h).imp_right fun last => ⟨rfl, last⟩
  show (Script.ofExcept ((jump .jump target).checkedTarget length)).bind _ = _
  rw [checkedTarget_jump inside]
  rfl

theorem perform_branch (op : Connective) {target : Nat} (h : target < length) (next : Nat)
    (v : Value) (stack : Stack) :
    (jump op.branch target).perform context length ⟨next, v :: stack⟩ =
      (Script.ofExcept v.toBool).bind fun truth =>
        .done ⟨if truth = op.decider then target else next, stack⟩ := by
  have jumped : (jump op.branch target).perform context length ⟨next, v :: stack⟩ =
      Script.ofExcept ((jump op.branch target).jumpOn length ⟨next, v :: stack⟩ op.decider) := by
    cases op <;> rfl
  rw [jumped, jumpOn, checkedTarget_jump (.inl h)]
  simp only [bind, Except.bind, Frame.pop_cons]
  cases v.toBool with
  | error e => rfl
  | ok truth =>
      simp only [pure, Except.pure, Script.ofExcept_ok, Script.done_bind, Frame.jumpTo]
      split <;> rfl

theorem perform_jumpIfNull {target : Nat} (h : target < length) (next : Nat) (v : Value)
    (stack : Stack) :
    (jump .jumpIfNull target).perform context length ⟨next, v :: stack⟩ =
      .done (if v.isNull then ⟨target, stack⟩ else ⟨next, v :: stack⟩) := by
  show (Script.ofExcept ((jump .jumpIfNull target).checkedTarget length)).bind _ = _
  rw [checkedTarget_jump (.inl h)]
  simp only [Script.ofExcept_ok, Script.done_bind, Script.lift_eq, Stack.peek, Script.bind_eq]
  split <;> rfl

end Instruction

end SlotScript
