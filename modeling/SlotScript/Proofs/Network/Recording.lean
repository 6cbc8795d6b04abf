import SlotScript.Proofs.Network.Independence

/-! # Sessions in which callbacks only record

Two sessions that differ in who observes go on in lockstep as soon as everyone has been told: what
is still to be done is the same in both, and so is what is due to anyone who observes in both. So
what an observer receives is settled by what is asked for from outside alone, and an observer that
leaves takes nothing from the others.
-/

namespace SlotScript

namespace Propagation

/-- What has been asked for from outside and is done now. -/
def asked? (p : Propagation) : Option Operation :=
  match p.agenda with
  | .operate op _ none :: _ => some op
  | _ => none

/-- Whatever is to be released has been released. -/
def Released (p : Propagation) : Prop :=
  (p.net.release p.agenda).core = p.net.core

/-- Everything is in order, what tells observers comes first, and nothing is left to be released. -/
structure InOrder (p : Propagation) : Prop where
  orderly : p.Orderly
  tellsFirst : p.TellsFirst
  released : p.Released

/-- Two propagations that are alike to all but some observers once everyone has been told. -/
structure Akin (gone : Subscription) (p p' : Propagation) : Prop where
  agenda : p.agenda.filter Task.quiet = p'.agenda.filter Task.quiet
  net : Network.Akin gone (p.net.release (p.agenda.filter Task.quiet))
    (p'.net.release (p'.agenda.filter Task.quiet))

end Propagation

open Network Propagation

variable {p p' q : Propagation} {net net' : Network} {task : Task} {rest : List Task}
  {gone : Subscription} {s : Publisher} {n : Nat} {observer : Observer} {label : String}

namespace Propagation

theorem holds_less_quiet (agenda : List Task) :
    ∀ x ∈ (agenda.filter Task.quiet).flatMap Holding.ofTask, x ∈ agenda.flatMap Holding.ofTask := by
  intro x member
  obtain ⟨t, here, holds⟩ := List.mem_flatMap.mp member
  exact List.mem_flatMap.mpr ⟨t, (List.mem_filter.mp here).1, holds⟩

theorem Released.next (orderly : p.Orderly) (h : p.Released) (next : p.Next q) : q.Released := by
  cases next with
  | task busy =>
      obtain ⟨task, rest, agenda⟩ := List.exists_cons_of_ne_nil busy
      rw [step_eq agenda]
      exact congrArg Network.core
        (release_release (orderly.upstream_perform agenda) fun _ => id)
  | ask net op =>
      have asked : (net.ask op).net.core = net.core := rfl
      have held : [Task.operate op .null none].flatMap Holding.ofTask =
          ([] : List Task).flatMap Holding.ofTask := rfl
      unfold Released
      rw [asked, core_release, asked, ← core_release]
      exact (congrArg Network.core (net.release_congr held)).trans h

theorem InOrder.next (h : p.InOrder) (next : p.Next q) (passive : q.Passive) : q.InOrder :=
  ⟨h.orderly.next next, h.tellsFirst.next h.orderly next passive, h.released.next h.orderly next⟩

/-- At first there is nothing to be done, nor anything to be released. -/
theorem inOrder_of_untouched {start : Network} (untouched : start.Untouched) :
    InOrder ⟨start, []⟩ := by
  refine ⟨orderly_of_untouched untouched,
    ⟨[], [], rfl, List.forall_mem_nil _, List.forall_mem_nil _⟩, ?_⟩
  have bindings : start.releaseBindings = start := by
    refine releaseBindings_of_named fun id member => ?_
    rw [untouched.bindings] at member
    cases member
  have unnamed : start.unnamed = [] := by
    simp only [unnamed, untouched.observables]
    rfl
  simp only [Released, release, bindings, releaseObservables, unnamed]

end Propagation

/-- In a session in which no action of a callback is done, everything is in order. -/
theorem Session.inOrder {start : Network} (session : Session Passive ⟨start, []⟩ p)
    (untouched : start.Untouched) : p.InOrder :=
  (session.preserves (Q := InOrder) (inOrder_of_untouched untouched)
    fun _ h next passive => h.next next passive).1

namespace Propagation

namespace Akin

theorem symm (h : p.Akin gone p') : p'.Akin gone p :=
  ⟨h.agenda.symm, h.net.symm⟩

/-- In the one, an observer is told of something. -/
theorem told (h : p.Akin gone p') (orderly : p.Orderly) (agenda : p.agenda = task :: rest)
    (tells : task.Tells) (passive : p.step.Passive) : p.step.Akin gone p' := by
  obtain ⟨events, step⟩ := told_alone agenda tells passive
  have quiet : p.agenda.filter Task.quiet = rest.filter Task.quiet := by
    have loud : ¬ task.quiet = true := fun quiet => Task.quiet_iff.mp quiet tells
    rw [agenda, List.filter_cons_of_neg loud]
  have upstream : Upstream { p.net with events } := orderly.upstream
  have released := release_release upstream (holds_less_quiet rest)
  have core : Network.core { p.net with events } = p.net.core := rfl
  have same : Network.Akin gone (Network.release { p.net with events } (rest.filter Task.quiet))
      (p.net.release (rest.filter Task.quiet)) := by
    refine .of_core ?_ ?_
    · rw [core_release, core, ← core_release]
    · rw [subscriptions_release, subscriptions_release]
  have net := h.net
  rw [quiet] at net
  rw [step]
  refine ⟨quiet.symm.trans h.agenda, ?_⟩
  rw [released]
  exact same.trans net

/-- Where nobody is told of anything, the networks are alike. -/
theorem quiet (h : p.Akin gone p') (released : p.Released) (released' : p'.Released)
    (quiet : ∀ t ∈ p.agenda, ¬ t.Tells) (quiet' : ∀ t ∈ p'.agenda, ¬ t.Tells) :
    p.agenda = p'.agenda ∧ Network.Akin gone p.net p'.net := by
  have all {p : Propagation} (quiet : ∀ t ∈ p.agenda, ¬ t.Tells) :
      p.agenda.filter Task.quiet = p.agenda :=
    List.filter_eq_self.mpr fun t member => Task.quiet_iff.mpr (quiet t member)
  have back {p : Propagation} (released : p.Released) :
      Network.Akin gone (p.net.release p.agenda) p.net :=
    .of_core released (subscriptions_release _ _)
  have agenda := h.agenda
  have net := h.net
  rw [all quiet, all quiet'] at agenda net
  exact ⟨agenda, (back released).symm.trans (net.trans (back released'))⟩

/-- The same is done in both. -/
theorem done (akin : Network.Akin gone p.net p'.net) (seats : gone.Seats) (orderly : p.Orderly)
    (orderly' : p'.Orderly) (agenda : p.agenda = task :: rest)
    (agenda' : p'.agenda = task :: rest) : p.step.Akin gone p'.step := by
  have performed := akin.perform seats task
  rw [step_eq agenda, step_eq agenda']
  refine ⟨by simp only [List.filter_append, performed.tasks], ?_⟩
  dsimp only
  rw [release_release (orderly.upstream_perform agenda) (holds_less_quiet _),
    release_release (orderly'.upstream_perform agenda') (holds_less_quiet _)]
  simp only [List.filter_append, performed.tasks]
  exact performed.net.release _

/-- The same is asked for in both. -/
theorem ask (akin : Network.Akin gone net net') (op : Operation) :
    (net.ask op).Akin gone (net'.ask op) := by
  have asked : Network.Akin gone (net.ask op).net (net'.ask op).net := ⟨akin.core, akin.kept⟩
  exact ⟨rfl, asked.release _⟩

end Akin

/-- Either an observer is told now, or nobody is told of anything that is still to be done. -/
theorem TellsFirst.now (h : p.TellsFirst) :
    (∃ task rest, p.agenda = task :: rest ∧ task.Tells) ∨ ∀ t ∈ p.agenda, ¬ t.Tells := by
  cases agenda : p.agenda with
  | nil => exact .inr (List.forall_mem_nil _)
  | cons task rest => exact (h.head agenda).imp (fun tells => ⟨task, rest, rfl, tells⟩) id

/-- While an observer is told, nothing is due and nothing is asked for. -/
theorem InOrder.tells (h : p.InOrder) {past : List Propagation} (lasts : Lasts Passive p past q)
    (done : q.agenda = []) (agenda : p.agenda = task :: rest) (tells : task.Tells) :
    ∃ past', past = p :: past' ∧ Lasts Passive p.step past' q ∧ p.step.InOrder ∧
      p.asked? = none ∧ p.due? s n = none ∧ ∀ p', p.Akin gone p' → p.step.Akin gone p' := by
  obtain ⟨past', split, lasts⟩ := lasts.busy done agenda
  have passive : p.step.Passive := lasts.first
  refine ⟨past', split, lasts, h.next (.task (agenda ▸ List.cons_ne_nil _ _)) passive, ?_,
    due?_of_uneventful agenda (uneventful_of_tells tells) s n,
    fun p' akin => akin.told h.orderly agenda tells passive⟩
  cases task with
  | deliver | complete => simp only [asked?, agenda]
  | _ => exact tells.elim

/-- Where nothing is to be done, a session has come to its end, or something is asked for. -/
theorem InOrder.idle (h : p.InOrder) {past : List Propagation} (lasts : Lasts Passive p past q)
    (done : q.agenda = []) (idle : p.agenda = []) : past = [] ∨ ∃ op past' others,
      past = p :: past' ∧ Lasts Passive (p.net.ask op) past' q ∧ (p.net.ask op).InOrder ∧
      past'.filterMap asked? = op :: others := by
  obtain ⟨ended, -⟩ | ⟨p', past', split, next, lasts⟩ := lasts.head
  · exact .inl ended
  · cases next with
    | task busy => exact (busy idle).elim
    | ask net op =>
        obtain ⟨past'', first, -⟩ := lasts.busy done rfl
        have asked : (net.ask op).asked? = some op := rfl
        refine .inr ⟨op, past', past''.filterMap asked?, split, lasts,
          h.next (.ask net op) lasts.first, ?_⟩
        rw [first, List.filterMap_cons_some asked]

theorem InOrder.lasts (h : p.InOrder) (seated : p.Seated s n observer) {past : List Propagation}
    (lasts : Lasts (Recording observer.label) p past q) : q.InOrder ∧ q.Seated s n observer :=
  (lasts.preserves (Q := fun _ m => m.InOrder ∧ m.Seated s n observer) ⟨h, seated⟩
    fun ⟨_, spares⟩ ⟨inOrder, seated⟩ next ⟨passive, _⟩ =>
      ⟨inOrder.next next passive, seated.next inOrder.orderly spares next⟩).1

end Propagation

end SlotScript
