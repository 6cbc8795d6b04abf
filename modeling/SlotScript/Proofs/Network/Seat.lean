import SlotScript.Proofs.Network.Shift

/-! # An observer in its seat

An observer is known by its label. It sits with its publisher from its subscription on, until the
subscription that keeps its seat is dropped or the publisher comes to its end. Meanwhile it is due
whatever is news of its publisher, and nobody else has its label.
-/

namespace SlotScript

/-- A session from one moment to another, with the moments before the last one. -/
inductive Lasts (P : Propagation → Prop) (p : Propagation) :
    List Propagation → Propagation → Prop where
  | start : P p → Lasts P p [] p
  | next {past : List Propagation} {q q' : Propagation} : Lasts P p past q → q.Next q' → P q' →
      Lasts P p (past ++ [q]) q'

/-- A session has its moments, known or not. -/
theorem Lasts.session {P : Propagation → Prop} {p q : Propagation} {past : List Propagation}
    (lasts : Lasts P p past q) : Session P p q := by
  induction lasts with
  | start holds => exact .start holds
  | next _ next holds ih => exact ih.next next holds

theorem Lasts.first {P : Propagation → Prop} {p q : Propagation} {past : List Propagation}
    (lasts : Lasts P p past q) : P p := by
  induction lasts with
  | start holds => exact holds
  | next _ _ _ ih => exact ih

theorem Lasts.last {P : Propagation → Prop} {p q : Propagation} {past : List Propagation}
    (lasts : Lasts P p past q) : P q := by
  cases lasts with
  | start holds | next _ _ holds => exact holds

/-- What a step preserves, given the moments before it, a session preserves. -/
theorem Lasts.preserves {P : Propagation → Prop} {Q : List Propagation → Propagation → Prop}
    {p q : Propagation} {past : List Propagation} (lasts : Lasts P p past q) (start : Q [] p)
    (step : ∀ {past q q'}, P q → Q past q → q.Next q' → P q' → Q (past ++ [q]) q') :
    Q past q ∧ P q := by
  induction lasts with
  | start holds => exact ⟨start, holds⟩
  | next _ next holds ih => exact ⟨step ih.2 ih.1 next holds, holds⟩

/-- A session has ended, or goes on with a first step. -/
theorem Lasts.head {P : Propagation → Prop} {p q : Propagation} {past : List Propagation}
    (lasts : Lasts P p past q) :
    past = [] ∧ q = p ∨ ∃ p' past', past = p :: past' ∧ p.Next p' ∧ Lasts P p' past' q := by
  induction lasts with
  | start holds => exact .inl ⟨rfl, rfl⟩
  | @next past q q' _ next holds ih =>
      obtain ⟨rfl, rfl⟩ | ⟨p', past', rfl, first, lasts⟩ := ih
      · exact .inr ⟨q', [], rfl, next, .start holds⟩
      · exact .inr ⟨p', past' ++ [q], rfl, first, lasts.next next holds⟩

/-- While something is to be done, a session that comes to rest goes on with it. -/
theorem Lasts.busy {P : Propagation → Prop} {p q : Propagation} {past : List Propagation}
    (lasts : Lasts P p past q) {task : Task} {rest : List Task} (done : q.agenda = [])
    (agenda : p.agenda = task :: rest) :
    ∃ past', past = p :: past' ∧ Lasts P p.step past' q := by
  obtain ⟨-, rfl⟩ | ⟨p', past', split, next, lasts⟩ := lasts.head
  · cases done.symm.trans agenda
  · cases next with
    | task => exact ⟨past', split, lasts⟩
    | ask => cases agenda

/-- The first moments of what is done from now on. -/
def Propagation.walk : Nat → Propagation → List Propagation
  | 0, _ => []
  | n + 1, p => p :: walk n p.step

theorem Lasts.walk {P : Propagation → Prop} {p q : Propagation} {past : List Propagation} (n : Nat)
    (lasts : Lasts P p past q) (busy : ∀ m ∈ q.walk n, m.agenda.isEmpty = false)
    (holds : ∀ m ∈ q.step.walk n, P m) : Lasts P p (past ++ q.walk n) (q.skip n) := by
  induction n generalizing q past with
  | zero => exact (List.append_nil past).symm ▸ lasts
  | succ n ih =>
      have onward : Lasts P p (past ++ [q]) q.step := by
        refine lasts.next (.task fun idle => ?_) (holds _ (.head _))
        have := busy q (.head _)
        simp [idle] at this
      have rest := ih onward (fun m member => busy m (.tail _ member))
        fun m member => holds m (.tail _ member)
      rwa [List.append_assoc] at rest

theorem Lasts.ask {P : Propagation → Prop} {p q : Propagation} {past : List Propagation}
    (lasts : Lasts P p past q) (done : q.agenda.isEmpty = true) {op : Operation}
    (holds : P (q.net.ask op)) : Lasts P p (past ++ [q]) (q.net.ask op) := by
  obtain ⟨net, agenda⟩ := q
  obtain rfl := List.isEmpty_iff.mp done
  exact lasts.next (.ask net op) holds

theorem filterMap_cons {α β : Type} (f : α → Option β) (a : α) (as : List α) :
    (a :: as).filterMap f = (f a).toList ++ as.filterMap f := by
  cases h : f a <;> simp [h]

theorem filterMap_concat {α β : Type} (f : α → Option β) (as : List α) (a : α) :
    (as ++ [a]).filterMap f = as.filterMap f ++ (f a).toList := by
  cases h : f a <;> simp [h]

/-- The observers of a publisher that have a label, with the numbers of their seats. -/
def Publication.under (b : Publication) (label : String) : List (Nat × Observer) :=
  b.observers.list.filter fun entry => entry.2.label = label

namespace Propagation

/-- No observer has the label. -/
def Unheard (label : String) (p : Propagation) : Prop :=
  ∀ k b, p.net.publication? k = some b → b.under label = []

theorem unheard_of_values {label : String} {p : Propagation}
    (observables : ∀ o ∈ p.net.observables.values, o.publication.under label = [])
    (bindings : ∀ b ∈ p.net.bindings.values, b.publication.under label = []) :
    p.Unheard label := by
  intro k b found
  cases k with
  | observable id =>
      obtain ⟨o, here, rfl⟩ := Option.map_eq_some_iff.mp found
      exact observables o (Table.mem_values here)
  | binding id =>
      obtain ⟨b, here, rfl⟩ := Option.map_eq_some_iff.mp found
      exact bindings b (Table.mem_values here)

/-- What is due to an observer while its seat is kept. -/
def due? (s : Publisher) (n : Nat) (p : Propagation) : Option Signal :=
  if 0 < p.copies (s.seat n) then
    match p.news? s with
    | some news => some (.next news.shown)
    | none => if p.disposes s then some .completed else none
  else none

/-- An observer sits with its publisher while its seat is kept and the publisher is not disposed,
and nobody else has its label. The seat of one that came too late is kept by nobody. -/
structure Seated (s : Publisher) (n : Nat) (observer : Observer) (p : Propagation) : Prop where
  made : p.net.Made s
  sole : p.copies (s.seat n) ≤ 1
  numbered : ∀ b, p.net.publication? s = some b → b.disposed = true ∨ n < b.observers.next
  here : ∀ b, p.net.publication? s = some b → b.under observer.label =
    if b.disposed = false ∧ 0 < p.copies (s.seat n) then [(n, observer)] else []
  elsewhere : ∀ k b, k ≠ s → p.net.publication? k = some b → b.under observer.label = []

end Propagation

open Network Propagation

variable {p q : Propagation} {task : Task} {gone : Subscription} {rest : List Task}
  {s k : Publisher} {n : Nat} {observer : Observer} {label : String}

theorem Publication.under_without (b : Publication) (k : Publisher) (gone : Subscription)
    (label : String) :
    (b.without k gone).under label = (b.under label).filter fun entry => k.seat entry.1 ∉ gone := by
  simp only [under, without, List.filter_filter, Bool.and_comm]

/-- Who has a label after a step: the same as before, but for those whose seats are given up. -/
theorem Network.Turns.under {net : Network} {b b' : Publication}
    (turns : net.Turns task gone k b b')
    (others : ∀ entry ∈ net.arrivals task k, entry.2.label ≠ label) : b'.under label =
      if net.disposes task k then []
      else (b.under label).filter fun entry => k.seat entry.1 ∉ gone := by
  have none : (net.arrivals task k).filter (fun entry => entry.2.label = label) = [] := by
    simpa using others
  rw [← b.under_without k gone label, Publication.under, turns.list]
  split
  · rfl
  · rw [List.filter_append, none, List.append_nil]
    rfl

theorem Network.mem_arrivals {net : Network} {entry : Nat × Observer}
    (member : entry ∈ net.arrivals task k) : task.subscribing? net = some (k, entry.2) ∧
      ∃ b, net.publication? k = some b ∧ b.disposed = false := by
  unfold arrivals at member
  split at member
  · rename_i s m observer arriving
    split at member
    · rename_i same
      obtain rfl := List.mem_singleton.mp member
      simp only [arriving?, Option.bind_eq_some_iff, Option.map_eq_some_iff] at arriving
      obtain ⟨⟨k', o⟩, subscribing, b, there, here⟩ := arriving
      cases here
      subst same
      obtain ⟨found, active⟩ := Option.filter_eq_some_iff.mp there
      exact ⟨subscribing, b, found, by simpa using active⟩
    · cases member
  · cases member

namespace Propagation

/-- Nobody else is given the label. -/
theorem Spares.arrivals (spares : p.Spares label) (agenda : p.agenda = task :: rest)
    (k : Publisher) : ∀ entry ∈ p.net.arrivals task k, entry.2.label ≠ label := by
  intro entry member
  refine spares (k, entry.2) ?_
  simp only [subscribing?, agenda, List.head?_cons, Option.bind_some, (mem_arrivals member).1,
    Option.mem_some_iff]

namespace Seated

/-- A seat is not given out twice. -/
theorem not_new (h : p.Seated s n observer) (task : Task) : s.seat n ∉ p.net.newSeats task := by
  intro new
  obtain ⟨b, observer, there, active, rfl, -⟩ := mem_newSeats new
  obtain ended | lt := h.numbered b there
  · cases active.symm.trans ended
  · exact Nat.lt_irrefl _ lt

theorem copies (h : p.Seated s n observer) (shift : Shift task gone p q) :
    q.copies (s.seat n) + gone.count (s.seat n) = p.copies (s.seat n) := by
  rw [shift.copies, List.count_eq_zero.mpr (h.not_new task), Nat.add_zero]

theorem shift (h : p.Seated s n observer) (agenda : p.agenda = task :: rest)
    (spares : p.Spares observer.label) (shift : Shift task gone p q) : q.Seated s n observer := by
  have copies := h.copies shift
  have sole := h.sole
  refine ⟨shift.made s h.made, by omega, fun b' found => ?_, fun b' found => ?_,
    fun k b' other found => ?_⟩
  · obtain ⟨-, new | ⟨b, before, turns⟩⟩ := shift.publication s b' found
    · exact (new.fresh h.made).elim
    · refine (h.numbered b before).imp (fun ended => ?_) (Nat.lt_of_lt_of_le · turns.next)
      rw [turns.disposed, ended, Bool.true_or]
  · obtain ⟨-, new | ⟨b, before, turns⟩⟩ := shift.publication s b' found
    · exact (new.fresh h.made).elim
    · rw [turns.under (spares.arrivals agenda s), h.here b before, turns.disposed]
      cases p.net.disposes task s with
      | true => simp
      | false =>
          by_cases seated : b.disposed = false ∧ 0 < p.copies (s.seat n)
          · by_cases dropped : s.seat n ∈ gone
            · have given := List.count_pos_iff.mpr dropped
              have none : q.copies (s.seat n) = 0 := by omega
              simp [seated, dropped, none]
            · rw [List.count_eq_zero.mpr dropped] at copies
              have kept : q.copies (s.seat n) = p.copies (s.seat n) := by omega
              simp [seated, dropped, kept]
          · have unseated : ¬ (b.disposed = false ∧ 0 < q.copies (s.seat n)) := by
              rintro ⟨active, kept⟩
              exact seated ⟨active, by omega⟩
            simp [seated, unseated]
  · obtain ⟨-, new | ⟨b, before, turns⟩⟩ := shift.publication k b' found
    · simp [Publication.under, new.blank.empty]
    · rw [turns.under (spares.arrivals agenda k), h.elsewhere k b other before]
      simp

theorem ask {net : Network} (h : Seated s n observer ⟨net, []⟩) (op : Operation) :
    (net.ask op).Seated s n observer := by
  have same (k : Publisher) : (net.ask op).net.publication? k = net.publication? k :=
    publication?_of_eq rfl rfl k
  refine ⟨h.made, h.sole, fun b found => ?_, fun b found => ?_, fun k b other found => ?_⟩
  · exact h.numbered b (same s ▸ found)
  · exact h.here b (same s ▸ found)
  · exact h.elsewhere k b other (same k ▸ found)

theorem next (h : p.Seated s n observer) (orderly : p.Orderly) (spares : p.Spares observer.label)
    (next : p.Next q) : q.Seated s n observer := by
  cases next with
  | task busy =>
      obtain ⟨task, rest, agenda⟩ := List.exists_cons_of_ne_nil busy
      obtain ⟨⟨gone, shift⟩, -⟩ := orderly.step agenda
      exact h.shift agenda spares shift
  | ask net op => exact h.ask op

/-- Whoever is subscribed under a new label sits. -/
theorem start (orderly : p.Orderly) (agenda : p.agenda = task :: rest)
    (unheard : p.Unheard observer.label) {b : Publication}
    (subscribing : task.subscribing? p.net = some (s, observer))
    (there : p.net.publication? s = some b) (active : b.disposed = false) :
    p.step.Seated s b.observers.next observer := by
  have arriving := arriving?_of_subscribing subscribing there active
  have stays := disposes_of_none (finding?_of_subscribing subscribing).2
  have made := orderly.made s b there
  obtain ⟨⟨gone, shift⟩, -⟩ := orderly.step agenda
  have none : p.copies (s.seat b.observers.next) = 0 := by
    refine Nat.eq_zero_of_not_pos fun kept => ?_
    exact Nat.lt_irrefl _ ((orderly.numbered s _ kept).2 b there)
  have copies := shift.copies s b.observers.next
  have given := shift.given s b.observers.next
  have new : (p.net.newSeats task).count (s.seat b.observers.next) = 1 := by
    simp [newSeats, arriving]
  refine ⟨shift.made s made, by omega, fun b' found => ?_, fun b' found => ?_,
    fun k b' other found => ?_⟩
  · obtain ⟨-, new | ⟨c, before, turns⟩⟩ := shift.publication s b' found
    · exact (new.fresh made).elim
    · exact .inr (turns.new (_, observer) (by simp [arrivals, arriving])).2
  · obtain ⟨-, new | ⟨c, before, turns⟩⟩ := shift.publication s b' found
    · exact (new.fresh made).elim
    · obtain rfl := Option.some.inj (there.symm.trans before)
      have kept : p.step.copies (s.seat b.observers.next) = 1 := by omega
      have others : (b.without s gone).under observer.label = [] := by
        rw [b.under_without, unheard s b there]
        rfl
      rw [Publication.under] at others
      rw [turns.disposed, stays, active, Publication.under, turns.list, stays,
        if_neg Bool.false_ne_true, List.filter_append, others]
      simp [arrivals, arriving, kept]
  · obtain ⟨-, new | ⟨c, before, turns⟩⟩ := shift.publication k b' found
    · simp [Publication.under, new.blank.empty]
    · have nobody : ∀ entry ∈ p.net.arrivals task k, entry.2.label ≠ observer.label := by
        simp [arrivals, arriving, Ne.symm other]
      rw [turns.under nobody, unheard k c before]
      simp

/-- Whoever comes too late has no seat. -/
theorem start_late (orderly : p.Orderly) (agenda : p.agenda = task :: rest)
    (unheard : p.Unheard observer.label) {b : Publication}
    (subscribing : task.subscribing? p.net = some (s, observer))
    (there : p.net.publication? s = some b) (ended : b.disposed = true) :
    p.step.Seated s b.observers.next observer ∧ p.step.copies (s.seat b.observers.next) = 0 := by
  have late : p.net.Uneventful task := by
    refine uneventful_of_late subscribing fun c here => ?_
    obtain rfl := Option.some.inj (there.symm.trans here)
    exact ended
  have made := orderly.made s b there
  obtain ⟨⟨gone, shift⟩, -⟩ := orderly.step agenda
  have none : p.copies (s.seat b.observers.next) = 0 := by
    refine Nat.eq_zero_of_not_pos fun kept => ?_
    exact Nat.lt_irrefl _ ((orderly.numbered s _ kept).2 b there)
  have copies := shift.copies s b.observers.next
  rw [late.newSeats, List.count_nil, none] at copies
  have none : p.step.copies (s.seat b.observers.next) = 0 := by omega
  have nobody (k : Publisher) (b' : Publication) (found : p.step.net.publication? k = some b') :
      b'.under observer.label = [] := by
    obtain ⟨-, new | ⟨c, before, turns⟩⟩ := shift.publication k b' found
    · simp [Publication.under, new.blank.empty]
    · rw [turns.under (late.arrivals k ▸ List.forall_mem_nil _), unheard k c before]
      simp
  refine ⟨⟨shift.made s made, by omega, fun b' found => ?_, fun b' found => ?_,
    fun k b' _ found => nobody k b' found⟩, none⟩
  · obtain ⟨-, new | ⟨c, before, turns⟩⟩ := shift.publication s b' found
    · exact (new.fresh made).elim
    · obtain rfl := Option.some.inj (there.symm.trans before)
      exact .inl (by rw [turns.disposed, ended, Bool.true_or])
  · simp [nobody s b' found, none]

end Seated

end Propagation

/-- A new observer is told of the current value first. -/
theorem Propagation.Orderly.greeted (orderly : p.Orderly) (agenda : p.agenda = task :: rest)
    {b : Publication} (subscribing : task.subscribing? p.net = some (s, observer))
    (there : p.net.publication? s = some b) (active : b.disposed = false) :
    p.step.agenda = .deliver observer (b.shown p.net.sizes) ::
      .adopt observer.label [s.seat b.observers.next] :: rest := by
  have arriving := arriving?_of_subscribing subscribing there active
  rw [agenda_step agenda]
  cases effect_perform orderly.upstream (orderly.blank task (agenda ▸ .head _)) with
  | moves uneventful | converts uneventful | makes uneventful | late uneventful =>
      exact nomatch uneventful.nobody.symm.trans arriving
  | stores finding => exact nomatch (disposing?_of_finding finding).2.symm.trans subscribing
  | closes disposing => exact nomatch (finding?_of_disposing disposing).2.symm.trans subscribing
  | seats subscribing' found _ _ follows =>
      cases subscribing'.symm.trans subscribing
      cases found.symm.trans there
      rw [follows]
      rfl

/-- An observer that comes too late is completed. -/
theorem Propagation.greeted_late (agenda : p.agenda = task :: rest) {b : Publication}
    (subscribing : task.subscribing? p.net = some (s, observer))
    (there : p.net.publication? s = some b) (ended : b.disposed = true) :
    p.step.agenda = .complete observer :: .adopt observer.label [] :: rest := by
  rw [agenda_step agenda]
  cases task with
  | operate op =>
      cases op with
      | subscribe name label plain action =>
          obtain ⟨id, named, same⟩ := Option.map_eq_some_iff.mp subscribing
          cases same
          obtain ⟨o, found, rfl⟩ := Option.map_eq_some_iff.mp there
          have disposed : o.disposed = true := ended
          simp [Task.perform, operate, withObservable, named, subscribeObservable, found, disposed]
      | subscribeBinding name label plain action =>
          obtain ⟨id, named, same⟩ := Option.map_eq_some_iff.mp subscribing
          cases same
          obtain ⟨b, found, rfl⟩ := Option.map_eq_some_iff.mp there
          have disposed : b.disposed = true := ended
          simp [Task.perform, operate, withBinding, named, subscribeBinding, found, disposed]
      | _ => cases subscribing
  | _ => cases subscribing

theorem signals_of_silent {tasks : List Task} (silent : ∀ t ∈ tasks, t.Silent) (label : String) :
    tasks.filterMap (Task.signal? label) = [] := by
  refine List.filterMap_eq_nil_iff.mpr fun t member => ?_
  have := silent t member
  cases t with
  | deliver | complete => exact this.elim
  | _ => rfl

/-- A delivery to all observers of a publisher, as one label sees it. -/
theorem Publication.signals_deliver (b : Publication) (label : String) (v : Value) :
    (b.observers.current.map (Task.deliver · v)).filterMap (Task.signal? label) =
      (b.under label).map fun _ => .next v := by
  simp only [Observers.current, under]
  induction b.observers.list with
  | nil => rfl
  | cons entry list ih =>
      by_cases mine : entry.2.label = label
      · simpa [Task.signal?, mine] using ih
      · simpa [Task.signal?, mine] using ih

theorem Publication.signals_complete (b : Publication) (label : String) :
    (b.observers.current.map Task.complete).filterMap (Task.signal? label) =
      (b.under label).map fun _ => .completed := by
  simp only [Observers.current, under]
  induction b.observers.list with
  | nil => rfl
  | cons entry list ih =>
      by_cases mine : entry.2.label = label
      · simpa [Task.signal?, mine] using ih
      · simpa [Task.signal?, mine] using ih

namespace Propagation

theorem news?_eq (agenda : p.agenda = task :: rest) (s : Publisher) :
    p.news? s = p.net.news? task s := by
  simp only [news?, agenda, List.head?_cons, Option.bind_some]

theorem disposes_eq (agenda : p.agenda = task :: rest) (s : Publisher) :
    p.disposes s = p.net.disposes task s := by
  simp only [disposes, agenda, List.head?_cons, Option.any_some]

theorem due?_of_uneventful (agenda : p.agenda = task :: rest) (uneventful : p.net.Uneventful task)
    (s : Publisher) (n : Nat) : p.due? s n = none := by
  simp [due?, news?_eq agenda, disposes_eq agenda, uneventful.news, uneventful.stays]

/-- What follows from a task brings an observer what is due to it. -/
theorem Seated.told (h : p.Seated s n observer) (orderly : p.Orderly)
    (agenda : p.agenda = task :: rest) (spares : p.Spares observer.label) :
    (task.perform p.net).2.filterMap (Task.signal? observer.label) = (p.due? s n).toList := by
  have blank : task.Blank := orderly.blank task (agenda ▸ .head _)
  have other (k : Publisher) (o : Observer) (subscribing : task.subscribing? p.net = some (k, o)) :
      o.label ≠ observer.label := by
    refine spares (k, o) ?_
    simp only [subscribing?, agenda, List.head?_cons, Option.bind_some, subscribing,
      Option.mem_some_iff]
  cases effect_perform orderly.upstream blank with
  | moves uneventful _ _ silent | converts uneventful _ _ silent
  | makes uneventful _ _ _ _ silent =>
      rw [signals_of_silent silent, due?_of_uneventful agenda uneventful]
      rfl
  | @stores k b v others finding found active new updates follows silent =>
      have news := news?_of_finding finding found active new s
      have stays := disposes_of_none (disposing?_of_finding finding).1 s
      rw [follows, List.filterMap_append, signals_of_silent silent, List.append_nil,
        b.signals_deliver]
      by_cases same : s = k
      · subst same
        rw [h.here b found]
        by_cases kept : 0 < p.copies (s.seat n)
        · simp [due?, news?_eq agenda, news, kept, active]
        · simp [due?, kept]
      · rw [h.elsewhere k b (Ne.symm same) found]
        simp [due?, news?_eq agenda, disposes_eq agenda, news, stays, same]
  | seats subscribing found active updates follows =>
      obtain ⟨finding, disposing⟩ := finding?_of_subscribing subscribing
      rw [follows]
      simp [Task.signal?, other _ _ subscribing, due?, news?_eq agenda, disposes_eq agenda,
        news?_of_none finding, disposes_of_none disposing]
  | late uneventful subscribing found ended inert follows =>
      rw [follows, due?_of_uneventful agenda uneventful]
      simp [Task.signal?, other _ _ subscribing]
  | @closes k b disposing found active updates follows =>
      have news : p.net.news? task s = none := news?_of_none (finding?_of_disposing disposing).1 s
      have disposes := disposes_of_disposing disposing found active s
      rw [follows, b.signals_complete]
      by_cases same : s = k
      · subst same
        rw [h.here b found]
        by_cases kept : 0 < p.copies (s.seat n)
        · simp [due?, news?_eq agenda, disposes_eq agenda, news, disposes, kept, active]
        · simp [due?, kept]
      · rw [h.elsewhere k b (Ne.symm same) found]
        simp [due?, news?_eq agenda, disposes_eq agenda, news, disposes, same]

/-- What is on its way to an observer: what it receives now, and what it receives afterwards. -/
theorem coming_eq (agenda : p.agenda = task :: rest) (label : String) :
    p.coming label = (p.signal? label).toList ++ rest.filterMap (Task.signal? label) := by
  simp only [coming, signal?, agenda, List.head?_cons, Option.bind_some, List.filterMap_cons]
  cases task.signal? label <;> rfl

theorem Seated.coming_step (h : p.Seated s n observer) (orderly : p.Orderly)
    (agenda : p.agenda = task :: rest) (spares : p.Spares observer.label) :
    p.step.coming observer.label =
      (p.due? s n).toList ++ rest.filterMap (Task.signal? observer.label) := by
  rw [coming, agenda_step agenda, List.filterMap_append, h.told orderly agenda spares]

/-- A publisher has what was news of it last, and is disposed once it has been disposed of. -/
theorem Seated.publication (h : p.Seated s n observer) (shift : Shift task gone p q)
    (agenda : p.agenda = task :: rest) {b' : Publication}
    (found : q.net.publication? s = some b') : ∃ b, p.net.publication? s = some b ∧
      b'.value = ((p.news? s).map News.stored).getD b.value ∧
      b'.disposed = (b.disposed || p.disposes s) ∧
      (b'.converter = b.converter ∨ task.converts = true) := by
  obtain ⟨-, new | ⟨b, before, turns⟩⟩ := shift.publication s b' found
  · exact (new.fresh h.made).elim
  · rw [news?_eq agenda, disposes_eq agenda]
    exact ⟨b, before, turns.value, turns.disposed, turns.converter⟩

/-- A publisher has the same value after somebody has been subscribed to it. -/
theorem Orderly.same_value (orderly : p.Orderly) (agenda : p.agenda = task :: rest)
    (subscribing : task.subscribing? p.net = some (s, observer)) {b b' : Publication}
    (there : p.net.publication? s = some b) (found : p.step.net.publication? s = some b') :
    b'.value = b.value := by
  obtain ⟨⟨gone, shift⟩, -⟩ := orderly.step agenda
  obtain ⟨-, new | ⟨c, before, turns⟩⟩ := shift.publication s b' found
  · exact (new.fresh (orderly.made s b there)).elim
  · obtain rfl := Option.some.inj (there.symm.trans before)
    rw [turns.value, news?_of_none (finding?_of_subscribing subscribing).1]
    rfl

/-- Nothing but the current value is on its way to a new observer. -/
theorem Orderly.coming_greeted (orderly : p.Orderly) (agenda : p.agenda = task :: rest)
    (silent : rest.filterMap (Task.signal? observer.label) = []) {b : Publication}
    (subscribing : task.subscribing? p.net = some (s, observer))
    (there : p.net.publication? s = some b) (active : b.disposed = false) :
    p.step.coming observer.label = [.next (b.shown p.net.sizes)] := by
  have greeting : Task.signal? observer.label (.deliver observer (b.shown p.net.sizes)) =
      some (.next (b.shown p.net.sizes)) := if_pos rfl
  rw [coming, orderly.greeted agenda subscribing there active,
    List.filterMap_cons_some greeting, List.filterMap_cons_none rfl, silent]

/-- What is news differs from what is stored, and its publisher is not disposed. -/
theorem news?_eq_some {news : News} (h : p.news? s = some news) :
    ∃ b, p.net.publication? s = some b ∧ b.disposed = false ∧
      b.value.identical news.stored = false := by
  obtain ⟨task, -, here⟩ := Option.bind_eq_some_iff.mp h
  unfold Network.news? at here
  split at here
  · rename_i k v b _ found
    split at here
    · rename_i new
      cases here
      exact ⟨b, found, new.2⟩
    · cases here
  · cases here

theorem disposes_eq_true (h : p.disposes s = true) :
    ∃ b, p.net.publication? s = some b ∧ b.disposed = false := by
  obtain ⟨task, -, here⟩ := (Option.any_eq_true _ _).mp h
  obtain ⟨b, found, active⟩ := (Option.any_eq_true _ _).mp ((Bool.and_eq_true _ _).mp here).2
  exact ⟨b, found, by simpa using active⟩

/-- Whoever has news is not disposed of at the same time. -/
theorem disposes_of_news? {news : News} (h : p.news? s = some news) : p.disposes s = false := by
  obtain ⟨task, now, here⟩ := Option.bind_eq_some_iff.mp h
  have finding : task.finding? p.net ≠ none := by
    intro none
    rw [news?_of_none none] at here
    cases here
  obtain ⟨found, finding⟩ := Option.ne_none_iff_exists'.mp finding
  simp only [disposes, now, Option.any_some]
  exact disposes_of_none (disposing?_of_finding finding).1 s

/-- What is known of a publisher after a step. -/
theorem Seated.next_publication (h : p.Seated s n observer) (orderly : p.Orderly)
    (next : p.Next q) {b' : Publication} (found : q.net.publication? s = some b') :
    ∃ b, p.net.publication? s = some b ∧
      b'.value = ((p.news? s).map News.stored).getD b.value ∧
      b'.disposed = (b.disposed || p.disposes s) := by
  cases next with
  | ask net op =>
      refine ⟨b', ?_, rfl, (Bool.or_false _).symm⟩
      rw [← found]
      exact (publication?_of_eq rfl rfl s).symm
  | task busy =>
      obtain ⟨task, rest, agenda⟩ := List.exists_cons_of_ne_nil busy
      obtain ⟨⟨gone, shift⟩, -⟩ := orderly.step agenda
      obtain ⟨b, before, value, disposed, -⟩ := h.publication shift agenda found
      exact ⟨b, before, value, disposed⟩

/-- A seat that is given up is not taken again. -/
theorem Seated.next_copies (h : p.Seated s n observer) (orderly : p.Orderly) (next : p.Next q) :
    q.copies (s.seat n) ≤ p.copies (s.seat n) := by
  cases next with
  | ask net op => exact Nat.le_refl _
  | task busy =>
      obtain ⟨task, rest, agenda⟩ := List.exists_cons_of_ne_nil busy
      obtain ⟨⟨gone, shift⟩, -⟩ := orderly.step agenda
      have copies := h.copies shift
      omega

end Propagation

/-- A store with one slot. -/
def oneSlot : Network where
  stores := [{ ancestors := [], owner := .null, slots := Table.empty.insert "$a" (.int32 0) }]

/-- The slot is bound. -/
def binding : Propagation := oneSlot.ask (.bind "x" 0 "$a")

/-- `B` is subscribed to it. -/
def recorderFirst : Propagation :=
  (binding.skip 2).net.ask (.subscribeBinding "x" "B" false none)

end SlotScript
