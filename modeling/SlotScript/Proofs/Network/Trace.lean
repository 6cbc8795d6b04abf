import Mathlib.Data.List.Chain
import SlotScript.Proofs.Network.Seat

/-! # What an observer receives

As long as callbacks only record, an observer receives the value it finds and then whatever is news
of its publisher, each value once and in order, until its subscription is dropped or the publisher
is disposed of, which it is told. Nothing is left out and nothing is told late, since whatever tells
observers is done before anything else goes on.
-/

namespace SlotScript

/-- Does something as the action of a callback. -/
def Task.acts : Task → Bool
  | .operate _ _ (some _) => true
  | _ => false

/-- What an observer has received when it was subscribed to a publisher, first of all with what was
stored then. Its seat was kept during some of the moments, and not afterwards. -/
structure Trace (s : Publisher) (n : Nat) (label : String) (first : News)
    (during afterwards : List Propagation) (q : Propagation) : Prop where
  kept : ∀ m ∈ during, m.Kept (s.seat n)
  /-- Nothing is received without a seat. -/
  dropped : ∀ m ∈ afterwards, ¬ m.Kept (s.seat n) ∧ m.coming label = []
  quiet : ¬ q.Kept (s.seat n) → q.coming label = []
  /-- A seat that has been given up is not taken again. -/
  finished : afterwards ≠ [] → ¬ q.Kept (s.seat n)
  /-- What has been received, together with what is on its way. -/
  received : (during ++ afterwards).filterMap (Propagation.signal? label) ++ q.coming label =
    (first :: during.filterMap (Propagation.news? s)).map (Signal.next ·.shown) ++
      if during.any (Propagation.disposes s) then [.completed] else []
  /-- What is stored anew is not identical to what was stored before. -/
  changes : List.IsChain (fun v w => v.identical w = false)
    ((first :: (during ++ afterwards).filterMap (Propagation.news? s)).map News.stored)
  /-- What was stored last is what is stored. -/
  latest : ∀ b, q.net.publication? s = some b →
    ((first :: (during ++ afterwards).filterMap (Propagation.news? s)).map News.stored).getLast? =
      some b.value

namespace Propagation

/-- No action of a callback is done now. -/
def Passive (p : Propagation) : Prop :=
  p.agenda.head?.any Task.acts = false

instance (p : Propagation) : Decidable p.Passive :=
  inferInstanceAs (Decidable (p.agenda.head?.any Task.acts = false))

/-- A moment at which no action of a callback is done, and nobody is subscribed under a label. -/
def Recording (label : String) (p : Propagation) : Prop :=
  p.Passive ∧ p.Spares label

instance (label : String) (p : Propagation) : Decidable (p.Recording label) :=
  inferInstanceAs (Decidable (_ ∧ _))

/-- What tells observers comes before everything else. -/
def TellsFirst (p : Propagation) : Prop :=
  ∃ tells others, p.agenda = tells ++ others ∧ (∀ t ∈ tells, t.Tells) ∧ ∀ t ∈ others, ¬ t.Tells

end Propagation

open Network Propagation

variable {p q q' : Propagation} {task : Task} {rest : List Task} {s : Publisher} {n : Nat}
  {observer : Observer} {label : String}

theorem Task.Silent.not_tells {t : Task} (silent : t.Silent) : ¬ t.Tells := by
  cases t with
  | deliver | complete => exact silent.elim
  | _ => exact id

theorem signals_of_not_tells {tasks : List Task} (none : ∀ t ∈ tasks, ¬ t.Tells)
    (label : String) : tasks.filterMap (Task.signal? label) = [] := by
  refine List.filterMap_eq_nil_iff.mpr fun t member => ?_
  have := none t member
  cases t with
  | deliver | complete => exact (this trivial).elim
  | _ => rfl

/-- In what follows from a task, observers are told first. -/
theorem Network.Effect.tellsFirst {net : Network} {followed : Followed}
    (effect : Effect net task followed) : ∃ tells others, followed.2 = tells ++ others ∧
      (∀ t ∈ tells, t.Tells) ∧ ∀ t ∈ others, ¬ t.Tells := by
  cases effect with
  | moves _ _ _ silent | converts _ _ _ silent | makes _ _ _ _ _ silent =>
      exact ⟨[], _, rfl, List.forall_mem_nil _, fun t member => (silent t member).not_tells⟩
  | stores _ _ _ _ _ follows silent =>
      exact ⟨_, _, follows, List.forall_mem_map.mpr fun _ _ => trivial,
        fun t member => (silent t member).not_tells⟩
  | seats _ _ _ _ follows | late _ _ _ _ _ follows =>
      exact ⟨[_], [_], follows, List.forall_mem_singleton.mpr trivial,
        List.forall_mem_singleton.mpr id⟩
  | closes _ _ _ _ follows =>
      exact ⟨_, [], follows.trans (List.append_nil _).symm,
        List.forall_mem_map.mpr fun _ _ => trivial, List.forall_mem_nil _⟩

namespace Propagation

/-- An observer that does not act is told, and that is all. -/
theorem told_alone (agenda : p.agenda = task :: rest) (tells : task.Tells)
    (passive : p.step.Passive) :
    ∃ events, p.step = ⟨{ p.net with events }.release rest, rest⟩ := by
  have done (events : List Event) (follows : task.perform p.net = ({ p.net with events }, [])) :
      ∃ events, p.step = ⟨{ p.net with events }.release rest, rest⟩ := by
    refine ⟨events, ?_⟩
    simp only [step, agenda, follows]
    rfl
  cases task with
  | complete observer =>
      cases plain : observer.plain with
      | true => exact done p.net.events (by simp only [Task.perform, plain]; rfl)
      | false => exact done _ (by simp only [Task.perform, plain]; rfl)
  | deliver observer v =>
      cases acts : observer.action with
      | none => exact done _ (by simp only [Task.perform, act, acts]; rfl)
      | some op =>
          by_cases room : p.net.actingLimit ≤ p.net.acting
          · refine done ((p.net.report (.next observer.label (p.net.portrait v))).report
              (.skipped observer.label)).events ?_
            simp only [Task.perform, act, acts]
            rw [if_pos (by exact room)]
            rfl
          · have acting : p.step.agenda.head? = some (.operate op v (some observer.label)) := by
              rw [agenda_step agenda]
              simp only [Task.perform, act, acts]
              rw [if_neg (by exact room)]
              rfl
            simp [Passive, acting, Task.acts] at passive
  | _ => exact tells.elim

theorem TellsFirst.next (h : p.TellsFirst) (orderly : p.Orderly) (next : p.Next q)
    (passive : q.Passive) : q.TellsFirst := by
  cases next with
  | ask net op =>
      exact ⟨[], _, rfl, List.forall_mem_nil _, List.forall_mem_singleton.mpr id⟩
  | task busy =>
      obtain ⟨task, rest, agenda⟩ := List.exists_cons_of_ne_nil busy
      obtain ⟨tells, others, split, tell, quiet⟩ := h
      rw [agenda] at split
      cases tells with
      | cons first tells =>
          obtain ⟨rfl, rfl⟩ := List.cons.inj split
          refine ⟨tells, others, ?_, fun t member => tell t (.tail _ member), quiet⟩
          obtain ⟨events, told⟩ := told_alone agenda (tell _ (.head _)) passive
          exact congrArg Propagation.agenda told
      | nil =>
          subst split
          have blank := orderly.blank task (agenda ▸ .head _)
          obtain ⟨tells', others', follows, tell', quiet'⟩ :=
            (effect_perform orderly.upstream blank).tellsFirst
          refine ⟨tells', others' ++ rest, ?_, tell', ?_⟩
          · rw [agenda_step agenda, follows, List.append_assoc]
          · exact List.forall_mem_append.mpr ⟨quiet', fun t member => quiet t (.tail _ member)⟩

/-- Either an observer is told now, or nobody is told of anything that is still to be done. -/
theorem TellsFirst.head (h : p.TellsFirst) (agenda : p.agenda = task :: rest) :
    task.Tells ∨ ∀ t ∈ task :: rest, ¬ t.Tells := by
  obtain ⟨tells, others, split, tell, quiet⟩ := h
  rw [agenda] at split
  cases tells with
  | cons first tells =>
      obtain ⟨rfl, -⟩ := List.cons.inj split
      exact .inl (tell _ (.head _))
  | nil => exact .inr (split ▸ quiet)

/-- Where nobody is told now, nothing is on its way to anyone. -/
theorem signals_of_quiet (quiet : ∀ t ∈ task :: rest, ¬ t.Tells) (label : String) :
    rest.filterMap (Task.signal? label) = [] :=
  signals_of_not_tells (fun t member => quiet t (.tail _ member)) label

/-- What an observer receives now and what is on its way to it afterwards is what was on its way,
and then what is due to it. -/
theorem Seated.received (h : p.Seated s n observer) (orderly : p.Orderly)
    (tellsFirst : p.TellsFirst) (spares : p.Spares observer.label) (next : p.Next q)
    (passive : q.Passive) : (p.signal? observer.label).toList ++ q.coming observer.label =
      p.coming observer.label ++ (p.due? s n).toList := by
  cases next with
  | ask net op => simp [signal?, coming, Network.ask, Task.signal?, due?, news?, disposes]
  | task busy =>
      obtain ⟨task, rest, agenda⟩ := List.exists_cons_of_ne_nil busy
      rw [coming_eq agenda, h.coming_step orderly agenda spares]
      obtain tells | quiet := tellsFirst.head agenda
      · rw [due?_of_uneventful agenda (uneventful_of_tells tells)]
        simp
      · rw [signals_of_quiet quiet]
        simp

/-- Nothing is on its way to anyone while somebody is subscribed. -/
theorem silent_of_subscribing (tellsFirst : p.TellsFirst) (agenda : p.agenda = task :: rest)
    {comer : Publisher × Observer} (subscribing : task.subscribing? p.net = some comer)
    (label : String) : rest.filterMap (Task.signal? label) = [] := by
  obtain tells | quiet := tellsFirst.head agenda
  · cases task with
    | deliver | complete => cases subscribing
    | _ => exact tells.elim
  · exact signals_of_quiet quiet label

/-- While an observer is told, nobody gives up a seat. -/
theorem Orderly.copies_told (orderly : p.Orderly) (agenda : p.agenda = task :: rest)
    (tells : task.Tells) (s : Publisher) (n : Nat) :
    p.step.copies (s.seat n) = p.copies (s.seat n) := by
  obtain ⟨inert, silent⟩ : Moves [] [] p.net (task.perform p.net).1 ∧
    ∀ t ∈ (task.perform p.net).2, t.Silent := tell_nothing tells
  have uneventful : p.net.Uneventful task := uneventful_of_tells tells
  have own (s : Publisher) (n : Nat) :
      ([] : Subscription).count (s.seat n) = task.keeping.count (s.seat n) := by
    cases task with
    | adopt => exact tells.elim
    | _ => rfl
  have shift : Shift task [] p p.step := orderly.shift agenda
    (shift_of_moves orderly.made uneventful inert own (keeping_of_silent silent))
  have copies := shift.copies s n
  rw [uneventful.newSeats] at copies
  exact copies

/-- Whoever is due something keeps the seat. -/
theorem Orderly.copies_due (orderly : p.Orderly) (agenda : p.agenda = task :: rest)
    (due : p.due? s n ≠ none) : p.copies (s.seat n) ≤ p.step.copies (s.seat n) := by
  have kept (shift : Shift task [] p p.step) : p.copies (s.seat n) ≤ p.step.copies (s.seat n) := by
    have copies := shift.copies s n
    rw [List.count_nil] at copies
    omega
  cases effect_perform orderly.upstream (orderly.blank task (agenda ▸ .head _)) with
  | moves uneventful | converts uneventful | makes uneventful | late uneventful =>
      exact (due (due?_of_uneventful agenda uneventful s n)).elim
  | seats subscribing =>
      obtain ⟨finding, disposing⟩ := finding?_of_subscribing subscribing
      refine (due ?_).elim
      simp [due?, news?_eq agenda, disposes_eq agenda, news?_of_none finding,
        disposes_of_none disposing]
  | stores finding found active new updates follows silent =>
      refine kept (orderly.shift agenda
        (shift_of_stores orderly.made finding found active new updates ?_))
      rw [follows, List.flatMap_append, keeping_of_silent silent, List.append_nil]
      exact keeping_of_tells (List.forall_mem_map.mpr fun _ _ => trivial)
  | closes disposing found active updates follows =>
      refine kept (orderly.shift agenda
        (shift_of_closes orderly.made disposing found active updates ?_))
      rw [follows]
      exact keeping_of_tells (List.forall_mem_map.mpr fun _ _ => trivial)

/-- A seat is not given up while something is on its way to it. -/
theorem Seated.quiet (h : p.Seated s n observer) (orderly : p.Orderly) (tellsFirst : p.TellsFirst)
    (spares : p.Spares observer.label) (next : p.Next q) (passive : q.Passive)
    (quiet : ¬ p.Kept (s.seat n) → p.coming observer.label = []) (dropped : ¬ q.Kept (s.seat n)) :
    q.coming observer.label = [] := by
  cases next with
  | ask net op => rfl
  | task busy =>
      obtain ⟨task, rest, agenda⟩ := List.exists_cons_of_ne_nil busy
      rw [kept_iff] at dropped
      by_cases kept : p.Kept (s.seat n)
      · obtain tells | silent := tellsFirst.head agenda
        · rw [orderly.copies_told agenda tells] at dropped
          exact (dropped (kept_iff.mp kept)).elim
        · have due : p.due? s n = none := Classical.byContradiction fun due =>
            dropped (Nat.lt_of_lt_of_le (kept_iff.mp kept) (orderly.copies_due agenda due))
          rw [h.coming_step orderly agenda spares, due, signals_of_quiet silent]
          rfl
      · have nothing := quiet kept
        rw [coming_eq agenda] at nothing
        rw [h.coming_step orderly agenda spares, (List.append_eq_nil_iff.mp nothing).2, due?,
          if_neg fun pos => kept (kept_iff.mpr pos)]
        rfl

end Propagation

/-- An observer with what it has received, and everything in order. -/
structure Attends (s : Publisher) (n : Nat) (observer : Observer) (first : News)
    (during afterwards : List Propagation) (q : Propagation) : Prop
    extends Trace s n observer.label first during afterwards q where
  orderly : q.Orderly
  tellsFirst : q.TellsFirst
  seated : q.Seated s n observer
  ended : during.any (Propagation.disposes s) = true →
    ∀ b, q.net.publication? s = some b → b.disposed = true

namespace Attends

variable {first : News} {during afterwards : List Propagation}

/-- What is stored after a step is what was stored last, which is new. -/
theorem stored (h : Attends s n observer first during afterwards q) (next : q.Next q') :
    List.IsChain (fun v w => v.identical w = false)
        ((first :: (during ++ afterwards ++ [q]).filterMap (news? s)).map News.stored) ∧
      ∀ b, q'.net.publication? s = some b →
        ((first :: (during ++ afterwards ++ [q]).filterMap (news? s)).map News.stored).getLast? =
          some b.value := by
  rw [filterMap_concat, ← List.cons_append, List.map_append]
  refine ⟨?_, fun b' found => ?_⟩
  · cases news : q.news? s with
    | none => simpa using h.changes
    | some news =>
        obtain ⟨b, found, -, new⟩ := news?_eq_some news
        refine List.isChain_append.mpr ⟨h.changes, List.isChain_singleton _, ?_⟩
        intro v last w is_new
        rw [h.latest b found] at last
        cases last
        cases is_new
        exact new
  · obtain ⟨b, before, value, -⟩ := h.seated.next_publication h.orderly next found
    cases news : q.news? s with
    | none =>
        rw [news] at value
        simpa [value] using h.latest b before
    | some news =>
        rw [news] at value
        rw [List.getLast?_append]
        simp [value]

/-- What is received in a step is what was due. -/
theorem heard (h : Attends s n observer first during afterwards q)
    (spares : q.Spares observer.label) (next : q.Next q') (passive : q'.Passive) :
    (during ++ afterwards ++ [q]).filterMap (Propagation.signal? observer.label) ++
        q'.coming observer.label =
      (first :: during.filterMap (news? s)).map (Signal.next ·.shown) ++
        (if during.any (disposes s) then [.completed] else []) ++ (q.due? s n).toList := by
  rw [filterMap_concat, List.append_assoc,
    h.seated.received h.orderly h.tellsFirst spares next passive, ← List.append_assoc, h.received]

/-- Nothing is due to an observer of a publisher that has been disposed of. -/
theorem active (h : Attends s n observer first during afterwards q) {b : Publication}
    (found : q.net.publication? s = some b) (active : b.disposed = false) :
    during.any (disposes s) = false := by
  refine Bool.eq_false_iff.mpr fun ended => ?_
  cases active.symm.trans (h.ended ended b found)

/-- In a moment at which its seat is kept, an observer is due what is news, or the end. -/
theorem next_kept (h : Attends s n observer first during [] q)
    (spares : q.Spares observer.label) (next : q.Next q') (passive : q'.Passive)
    (kept : q.Kept (s.seat n)) : Attends s n observer first (during ++ [q]) [] q' := by
  obtain ⟨changes, latest⟩ := h.stored next
  have heard := h.heard spares next passive
  rw [List.append_nil] at heard changes latest
  have quiet := h.seated.quiet h.orderly h.tellsFirst spares next passive h.quiet
  refine ⟨⟨?_, List.forall_mem_nil _, quiet, fun some => (some rfl).elim, ?_,
    by rwa [List.append_nil], by rwa [List.append_nil]⟩, h.orderly.next next,
    h.tellsFirst.next h.orderly next passive, h.seated.next h.orderly spares next, ?_⟩
  · exact List.forall_mem_append.mpr ⟨h.kept, List.forall_mem_singleton.mpr kept⟩
  · rw [List.append_nil, heard, filterMap_concat, List.any_append, due?, if_pos (kept_iff.mp kept)]
    cases news : q.news? s with
    | some news' =>
        obtain ⟨b, found, active, -⟩ := news?_eq_some news
        simp [h.active found active, disposes_of_news? news]
    | none =>
        cases disposed : q.disposes s with
        | true =>
            obtain ⟨b, found, active⟩ := disposes_eq_true disposed
            simp [h.active found active, disposed]
        | false => simp [disposed]
  · intro ended b' found
    obtain ⟨b, before, -, disposed⟩ := h.seated.next_publication h.orderly next found
    rw [disposed, Bool.or_eq_true]
    rw [List.any_append, Bool.or_eq_true] at ended
    exact ended.imp (h.ended · b before) fun now => by simpa using now

/-- When its seat has been given up, nothing is due to an observer any more. -/
theorem next_dropped (h : Attends s n observer first during afterwards q)
    (spares : q.Spares observer.label) (next : q.Next q') (passive : q'.Passive)
    (dropped : ¬ q.Kept (s.seat n)) :
    Attends s n observer first during (afterwards ++ [q]) q' := by
  obtain ⟨changes, latest⟩ := h.stored next
  have heard := h.heard spares next passive
  rw [List.append_assoc] at heard changes latest
  have quiet := h.seated.quiet h.orderly h.tellsFirst spares next passive h.quiet
  refine ⟨⟨h.kept, ?_, quiet, ?_, ?_, changes, latest⟩, h.orderly.next next,
    h.tellsFirst.next h.orderly next passive, h.seated.next h.orderly spares next, ?_⟩
  · exact List.forall_mem_append.mpr
      ⟨h.dropped, List.forall_mem_singleton.mpr ⟨dropped, h.quiet dropped⟩⟩
  · intro _ kept
    have copies := h.seated.next_copies h.orderly next
    exact dropped (kept_iff.mpr (Nat.lt_of_lt_of_le (kept_iff.mp kept) copies))
  · rw [heard, due?, if_neg fun kept => dropped (kept_iff.mpr kept)]
    exact List.append_nil _
  · intro ended b' found
    obtain ⟨b, before, -, disposed⟩ := h.seated.next_publication h.orderly next found
    rw [disposed, h.ended ended b before, Bool.true_or]

theorem next (h : Attends s n observer first during afterwards q)
    (spares : q.Spares observer.label) (next : q.Next q') (passive : q'.Passive) :
    ∃ during' afterwards', during' ++ afterwards' = during ++ afterwards ++ [q] ∧
      Attends s n observer first during' afterwards' q' := by
  by_cases kept : q.Kept (s.seat n)
  · have none : afterwards = [] := Classical.byContradiction fun some => h.finished some kept
    subst none
    exact ⟨_, _, by simp, h.next_kept spares next passive kept⟩
  · exact ⟨_, _, (List.append_assoc _ _ _).symm, h.next_dropped spares next passive kept⟩

/-- Whoever is subscribed under a new label attends from then on. -/
theorem start (orderly : p.Orderly) (tellsFirst : p.TellsFirst) (passive : p.step.Passive)
    (agenda : p.agenda = task :: rest) (subscribing : task.subscribing? p.net = some (s, observer))
    {b : Publication} (there : p.net.publication? s = some b) (unheard : p.Unheard observer.label)
    (active : b.disposed = false) :
    Attends s b.observers.next observer ⟨b.value, b.shown p.net.sizes⟩ [] [] p.step := by
  have next : p.Next p.step := .task (agenda ▸ List.cons_ne_nil task rest)
  have silent := silent_of_subscribing tellsFirst agenda subscribing observer.label
  have kept : p.step.Kept (s.seat b.observers.next) := by
    refine .inr ⟨observer.label, [s.seat b.observers.next], ?_, List.mem_singleton_self _⟩
    rw [orderly.greeted agenda subscribing there active]
    exact .tail _ (.head _)
  refine ⟨⟨List.forall_mem_nil _, List.forall_mem_nil _, fun dropped => (dropped kept).elim,
    fun some => (some rfl).elim, ?_, List.isChain_singleton _, fun b' found => ?_⟩,
    orderly.next next, tellsFirst.next orderly next passive,
    .start orderly agenda unheard subscribing there active, nofun⟩
  · rw [orderly.coming_greeted agenda silent subscribing there active]
    rfl
  · rw [orderly.same_value agenda subscribing there found]
    rfl

/-- Whoever attends at first attends to the end. -/
theorem lasts (h : Attends s n observer first [] [] p) {past : List Propagation}
    (lasts : Lasts (Recording observer.label) p past q) :
    ∃ during afterwards, during ++ afterwards = past ∧
      Attends s n observer first during afterwards q := by
  refine (lasts.preserves (Q := fun past m => ∃ during afterwards, during ++ afterwards = past ∧
    Attends s n observer first during afterwards m) ⟨[], [], rfl, h⟩ ?_).1
  rintro past m m' ⟨-, spares⟩ ⟨during, afterwards, rfl, attends⟩ next ⟨passive, -⟩
  exact attends.next spares next passive

end Attends

/-- An observer that has come too late, and everything in order. -/
structure Misses (s : Publisher) (n : Nat) (observer : Observer) (past : List Propagation)
    (q : Propagation) : Prop where
  orderly : q.Orderly
  tellsFirst : q.TellsFirst
  seated : q.Seated s n observer
  nowhere : q.copies (s.seat n) = 0
  received : past.filterMap (Propagation.signal? observer.label) ++ q.coming observer.label =
    [.completed]

namespace Misses

variable {past : List Propagation}

theorem next (h : Misses s n observer past q) (spares : q.Spares observer.label)
    (next : q.Next q') (passive : q'.Passive) : Misses s n observer (past ++ [q]) q' := by
  have copies := h.seated.next_copies h.orderly next
  refine ⟨h.orderly.next next, h.tellsFirst.next h.orderly next passive,
    h.seated.next h.orderly spares next, by have := h.nowhere; omega, ?_⟩
  rw [filterMap_concat, List.append_assoc,
    h.seated.received h.orderly h.tellsFirst spares next passive, ← List.append_assoc, h.received,
    due?, h.nowhere]
  rfl

theorem start (orderly : p.Orderly) (tellsFirst : p.TellsFirst) (passive : p.step.Passive)
    (agenda : p.agenda = task :: rest) (subscribing : task.subscribing? p.net = some (s, observer))
    {b : Publication} (there : p.net.publication? s = some b) (unheard : p.Unheard observer.label)
    (ended : b.disposed = true) : Misses s b.observers.next observer [] p.step := by
  have next : p.Next p.step := .task (agenda ▸ List.cons_ne_nil task rest)
  have silent := silent_of_subscribing tellsFirst agenda subscribing observer.label
  have greeting : Task.signal? observer.label (.complete observer) = some .completed := if_pos rfl
  obtain ⟨seated, nowhere⟩ := Seated.start_late orderly agenda unheard subscribing there ended
  refine ⟨orderly.next next, tellsFirst.next orderly next passive, seated, nowhere, ?_⟩
  rw [coming, greeted_late agenda subscribing there ended, List.filterMap_cons_some greeting,
    List.filterMap_cons_none rfl, silent]
  rfl

theorem lasts (h : Misses s n observer [] p)
    (lasts : Lasts (Recording observer.label) p past q) : Misses s n observer past q :=
  (lasts.preserves (Q := Misses s n observer) h
    fun ⟨_, spares⟩ misses next ⟨passive, _⟩ => misses.next spares next passive).1

end Misses

/-- When nothing is left to be done, whoever has a seat has been told of what is stored, and of
nothing after it but the end. -/
theorem Trace.told {first : News} {during afterwards : List Propagation}
    (trace : Trace s n label first during afterwards q) (done : q.agenda = [])
    (kept : q.Kept (s.seat n)) {b : Publication} (found : q.net.publication? s = some b) :
    ∃ (earlier : List Signal) (news : News), news.stored = b.value ∧
      (during ++ afterwards).filterMap (signal? label) = earlier ++ .next news.shown ::
        if during.any (disposes s) then [.completed] else [] := by
  have none : afterwards = [] := Classical.byContradiction fun some => trace.finished some kept
  subst none
  have received := trace.received
  have latest := trace.latest b found
  rw [coming, done, List.filterMap_nil, List.append_nil] at received
  rw [List.append_nil] at received latest ⊢
  rw [List.getLast?_map] at latest
  obtain ⟨news, last, stored⟩ := Option.map_eq_some_iff.mp latest
  obtain ⟨earlier, split⟩ := List.getLast?_eq_some_iff.mp last
  refine ⟨earlier.map (Signal.next ·.shown), news, stored, ?_⟩
  rw [received, split, List.map_append, List.append_assoc]
  rfl

end SlotScript
