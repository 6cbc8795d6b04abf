import SlotScript.Proofs.Network.Course

/-! # Sessions

Operations asked for from outside, one after the other, each with everything that follows from it.
All stores and objects are there from the start; one that is made later might as well have been
there before, where nobody refers to it. Nothing is assumed of the operations or of the code they
run, and actions of callbacks may be nested as deep as the network they start in allows.
-/

namespace SlotScript

/-- Nobody has subscribed to anything yet, nor observed or bound it. -/
structure Network.Untouched (net : Network) : Prop where
  subscriptions : net.subscriptions = .empty
  observables : net.observables = .empty
  bindings : net.bindings = .empty

/-- What an operation that is asked for from outside starts with. -/
def Network.ask (net : Network) (op : Operation) : Propagation :=
  ⟨{ net with events := [], returned := none }, [.operate op .null none]⟩

/-- The first task is done, or if none is left, something is asked for from outside. -/
inductive Propagation.Next : Propagation → Propagation → Prop where
  | task {p : Propagation} : p.agenda ≠ [] → Next p p.step
  | ask (net : Network) (op : Operation) : Next ⟨net, []⟩ (net.ask op)

/-- From one moment of a session to another, with a property at each moment from the one to the
other. -/
inductive Session (P : Propagation → Prop) (p : Propagation) : Propagation → Prop where
  | start : P p → Session P p p
  | next {q q' : Propagation} : Session P p q → q.Next q' → P q' → Session P p q'

theorem Session.task {P : Propagation → Prop} {p q : Propagation} {task : Task} {rest : List Task}
    (session : Session P p q) (agenda : q.agenda = task :: rest) (holds : P q.step) :
    Session P p q.step :=
  session.next (.task (agenda ▸ List.cons_ne_nil task rest)) holds

/-- What a step preserves, a session preserves. -/
theorem Session.preserves {P Q : Propagation → Prop} {p q : Propagation} (session : Session P p q)
    (start : Q p) (step : ∀ {q q'}, P q → Q q → q.Next q' → P q' → Q q') : Q q ∧ P q := by
  induction session with
  | start holds => exact ⟨start, holds⟩
  | next _ next holds ih => exact ⟨step ih.2 ih.1 next holds, holds⟩

/-- An observable of some code is asked for without a host, its first run succeeds, and it is made
with a number. -/
inductive Creation (code : Code) (store : StoreId) (id : ObservableId) :
    Propagation → Propagation → Prop where
  | made {net : Network} {name : String} {source : Source} {parameter delivered : Value}
      {label : Option String} {rest : List Task} {log : List (Network × Task)} {q : Propagation}
      {task : Task} {f : Frame} : source.compile = .ok code →
      Course rest (Propagation.step
        ⟨net, .operate (.observe name source store none parameter) delivered label :: rest⟩) log q →
      q.agenda = task :: rest → task.ending? = some (.ok f) → q.net.nextObservable = id →
      Creation code store id
        ⟨net, .operate (.observe name source store none parameter) delivered label :: rest⟩ q.step

/-- An observable that is neither disposed nor released. -/
def Network.live? (net : Network) (id : ObservableId) : Option Observable :=
  (net.observables.find? id).filter fun o => !o.disposed

/-- The outermost scope of a store. -/
def Network.root (net : Network) (store : StoreId) : StoreId :=
  (net.chain store).getLast (List.cons_ne_nil _ _)

/-- The outermost scope of a store has the keys. -/
def Network.RootDefines (net : Network) (store : StoreId) (keys : List String) : Prop :=
  ∀ key ∈ keys, (net.slot? (net.root store) key).isSome

instance (net : Network) (store : StoreId) (keys : List String) :
    Decidable (net.RootDefines store keys) :=
  inferInstanceAs (Decidable (∀ key ∈ keys, (net.slot? (net.root store) key).isSome))

/-- Changes an element of a collection. -/
def Task.Replaces : Task → Prop
  | .proceed _ (.ask (.replace ..) _) => True
  | _ => False

/-- A moment at which the outermost scope of a store has the keys, and no element of a collection is
about to change. -/
structure Propagation.Calm (store : StoreId) (keys : List String) (p : Propagation) : Prop where
  defines : p.net.RootDefines store keys
  unchanged : ∀ task, p.agenda.head? = some task → ¬ task.Replaces

namespace Propagation.Calm

variable {store : StoreId} {keys : List String} {p : Propagation}

theorem of_cons {task : Task} {rest : List Task} (agenda : p.agenda = task :: rest)
    (defines : p.net.RootDefines store keys) (unchanged : ¬ task.Replaces) : p.Calm store keys := by
  refine ⟨defines, fun top is_top => ?_⟩
  rw [agenda] at is_top
  cases is_top
  exact unchanged

theorem of_nil (agenda : p.agenda = []) (defines : p.net.RootDefines store keys) :
    p.Calm store keys := by
  refine ⟨defines, fun top is_top => ?_⟩
  rw [agenda] at is_top
  cases is_top

end Propagation.Calm

theorem Propagation.drive_done (net : Network) (steps : Nat) :
    Propagation.drive steps ⟨net, []⟩ = some net := by
  cases steps <;> rfl

/-- The moment after so many steps. -/
def Propagation.skip : Nat → Propagation → Propagation
  | 0, p => p
  | n + 1, p => skip n p.step

theorem Propagation.skip_add (n m : Nat) (p : Propagation) :
    p.skip (n + m) = (p.skip n).skip m := by
  induction n generalizing p with
  | zero => rw [Nat.zero_add, skip]
  | succ n ih => rw [Nat.add_right_comm, skip, ih, skip]

/-- What is driven to its end in some steps is at its end after more. -/
theorem Propagation.drive_add {p : Propagation} {steps : Nat} {net : Network}
    (driven : p.drive steps = some net) (more : Nat) : p.drive (steps + more) = some net := by
  induction steps generalizing p with
  | zero =>
      cases agenda : p.agenda with
      | nil =>
          obtain ⟨net', agenda'⟩ := p
          cases agenda
          rwa [drive_done] at driven ⊢
      | cons => simp [Propagation.drive, agenda] at driven
  | succ steps ih =>
      rw [Nat.add_right_comm]
      simp only [Propagation.drive] at driven ⊢
      split
      case isTrue done => rwa [if_pos done] at driven
      case isFalse busy =>
          rw [if_neg busy] at driven
          exact ih driven

/-- What returns does so in one way. -/
theorem Propagation.drive_unique {p : Propagation} {steps steps' : Nat} {net net' : Network}
    (driven : p.drive steps = some net) (driven' : p.drive steps' = some net') : net = net' := by
  have later := drive_add driven steps'
  have later' := drive_add driven' steps
  rw [Nat.add_comm, later] at later'
  exact Option.some.inj later'

/-- Doing tasks leads from one moment to another. -/
inductive Propagation.Leads : Propagation → Propagation → Prop where
  | here (p : Propagation) : Leads p p
  | step {p q : Propagation} : Leads p.step q → Leads p q

namespace Propagation.Leads

theorem trans {p q q' : Propagation} (first : p.Leads q) (second : q.Leads q') : p.Leads q' := by
  induction first with
  | here => exact second
  | step _ ih => exact .step (ih second)

theorem of_skip (n : Nat) (p : Propagation) : p.Leads (p.skip n) := by
  induction n generalizing p with
  | zero => exact .here p
  | succ n ih => exact .step (ih p.step)

/-- What leads to a moment at which nothing is left to be done is not given up. -/
theorem drive {p q : Propagation} (leads : p.Leads q) (done : q.agenda = []) :
    ∃ steps, p.drive steps = some q.net := by
  induction leads with
  | here p =>
      refine ⟨0, ?_⟩
      simp [Propagation.drive, done]
  | @step p q _ ih =>
      obtain ⟨steps, driven⟩ := ih done
      cases agenda : p.agenda with
      | nil =>
          have still : p.step = p := by
            simp only [Propagation.step, agenda]
          exact ⟨steps, still ▸ driven⟩
      | cons task rest =>
          refine ⟨steps + 1, ?_⟩
          simpa [Propagation.drive, agenda] using driven

theorem skip {p q : Propagation} (leads : p.Leads q) : ∃ n, p.skip n = q := by
  induction leads with
  | here => exact ⟨0, rfl⟩
  | step _ ih =>
      obtain ⟨n, there⟩ := ih
      exact ⟨n + 1, there⟩

/-- What leads to a moment from which there is no end has none either. -/
theorem drive_none {p q : Propagation} (leads : p.Leads q)
    (endless : ∀ steps, q.drive steps = none) (steps : Nat) : p.drive steps = none := by
  induction leads generalizing steps with
  | here => exact endless steps
  | @step p q _ ih =>
      have busy : p.agenda.isEmpty = false := by
        cases agenda : p.agenda with
        | nil =>
            have ended := ih endless 0
            simp [Propagation.drive, Propagation.step, agenda] at ended
        | cons => rfl
      cases steps <;> simp [Propagation.drive, busy, ih endless]

end Propagation.Leads

/-- What a run asked for from outside would return, if it was asked for now. -/
def Network.WouldReturn (net : Network) (op : Operation) (result : Except Failure Outcome) : Prop :=
  ∃ steps net', (net.ask op).drive steps = some net' ∧ net'.returned = some result

/-- If running the code of the observable would succeed now, the value is what it would return, or
identical to it. -/
def Network.UpToDate (net : Network) (o : Observable) : Prop :=
  ∀ outcome, net.WouldReturn (.execute (.code o.code) o.store o.host (some o.parameter))
    (.ok outcome) → o.value = outcome.toValue ∨ o.value.identical outcome.toValue

end SlotScript
