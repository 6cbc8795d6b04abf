import SlotScript.Proofs.Network.Seat

/-! # How a subscription ends

Whoever is told may act, and what it does may end the subscriptions of those that are yet to be
told: it may drop them, or have their publisher disposed of. The observers to be told of a value
have been settled before the first of them is told, so what is on its way to an observer still
reaches it. Nothing else does: once its seat is given up or its publisher is disposed of, nothing
becomes due to it.
-/

namespace SlotScript

namespace Propagation

/-- An observer has given up its seat, or its publisher has been disposed of. -/
def Over (s : Publisher) (n : Nat) (p : Propagation) : Prop :=
  ¬ p.Kept (s.seat n) ∨ ∀ b, p.net.publication? s = some b → b.disposed = true

/-- A publisher is disposed of while an observer keeps its seat. The observer has been told values
before; `completed` overtakes those that are on their way to it. -/
structure Ending (s : Publisher) (n : Nat) (label : String) (before : List Propagation)
    (m : Propagation) (after : List Propagation) (q : Propagation) : Prop where
  disposes : m.disposes s = true
  kept : m.Kept (s.seat n)
  silent : m.signal? label = none
  earlier : ∃ vs : List Value, before.filterMap (signal? label) = vs.map Signal.next
  late : ∃ vs : List Value, m.coming label = vs.map Signal.next
  received : after.filterMap (signal? label) ++ q.coming label = .completed :: m.coming label
  finished : q.Over s n

/-- What an observer has been told and what is on its way to it are values, unless its publisher has
been disposed of. -/
inductive Told (s : Publisher) (n : Nat) (label : String) :
    List Propagation → Propagation → Prop where
  | values {past : List Propagation} {q : Propagation} (vs : List Value) :
      past.filterMap (signal? label) ++ q.coming label = vs.map .next → Told s n label past q
  | ended {before after : List Propagation} {m q : Propagation} :
      Ending s n label before m after q → Told s n label (before ++ m :: after) q

end Propagation

open Network Propagation

variable {p q q' : Propagation} {task : Task} {rest : List Task} {s : Publisher} {n : Nat}
  {observer : Observer} {label : String}

namespace Propagation

/-- Nobody is told of anything while something becomes due. -/
theorem silent_of_due (agenda : p.agenda = task :: rest) (due : p.due? s n ≠ none)
    (label : String) : p.signal? label = none := by
  simp only [signal?, agenda, List.head?_cons, Option.bind_some]
  cases task with
  | deliver | complete =>
      exact (due (due?_of_uneventful agenda (uneventful_of_tells trivial) s n)).elim
  | _ => rfl

/-- What an observer receives now and what is on its way to it afterwards is what is due to it, and
then what was on its way before. -/
theorem Seated.overtaken (h : p.Seated s n observer) (orderly : p.Orderly)
    (spares : p.Spares observer.label) (next : p.Next q) :
    (p.signal? observer.label).toList ++ q.coming observer.label =
      (p.due? s n).toList ++ p.coming observer.label := by
  cases next with
  | ask net op => simp [signal?, coming, Network.ask, Task.signal?, due?, news?, disposes]
  | task busy =>
      obtain ⟨task, rest, agenda⟩ := List.exists_cons_of_ne_nil busy
      rw [h.coming_step orderly agenda spares, coming_eq agenda]
      by_cases due : p.due? s n = none
      · rw [due]
        rfl
      · rw [silent_of_due agenda due]
        rfl

theorem Over.due? (h : p.Over s n) : p.due? s n = none := by
  unfold Propagation.due?
  split
  · rename_i kept
    obtain dropped | ended := h
    · exact (dropped (kept_iff.mpr kept)).elim
    · cases news : p.news? s with
      | some fresh =>
          obtain ⟨b, found, active, -⟩ := news?_eq_some news
          cases active.symm.trans (ended b found)
      | none =>
          refine if_neg fun disposed => ?_
          obtain ⟨b, found, active⟩ := disposes_eq_true disposed
          cases active.symm.trans (ended b found)
  · rfl

theorem Over.next (h : p.Over s n) (seated : p.Seated s n observer) (orderly : p.Orderly)
    (next : p.Next q) : q.Over s n := by
  obtain dropped | ended := h
  · refine .inl fun kept => dropped ?_
    rw [kept_iff] at kept ⊢
    exact Nat.lt_of_lt_of_le kept (seated.next_copies orderly next)
  · refine .inr fun b' found => ?_
    obtain ⟨b, before, -, disposed⟩ := seated.next_publication orderly next found
    rw [disposed, ended b before, Bool.true_or]

/-- Whoever is disposed of is so from then on. -/
theorem Seated.over_of_disposes (h : p.Seated s n observer) (orderly : p.Orderly)
    (disposed : p.disposes s = true) (next : p.Next q) : q.Over s n := by
  refine .inr fun b' found => ?_
  obtain ⟨b, -, -, ended⟩ := h.next_publication orderly next found
  rw [ended, disposed, Bool.or_true]

/-- What is due to an observer is a value, or its publisher is disposed of. -/
theorem due?_eq_some {signal : Signal} (due : p.due? s n = some signal) :
    (∃ v, signal = .next v) ∨
      signal = .completed ∧ p.disposes s = true ∧ p.Kept (s.seat n) := by
  unfold due? at due
  split at due
  · rename_i kept
    split at due
    · cases due
      exact .inl ⟨_, rfl⟩
    · split at due
      · rename_i disposed
        cases due
        exact .inr ⟨rfl, disposed, kept_iff.mpr kept⟩
      · cases due
  · cases due

theorem Ending.next {before after : List Propagation} {m : Propagation}
    (h : Ending s n observer.label before m after p) (seated : p.Seated s n observer)
    (orderly : p.Orderly) (spares : p.Spares observer.label) (next : p.Next q) :
    Ending s n observer.label before m (after ++ [p]) q := by
  refine ⟨h.disposes, h.kept, h.silent, h.earlier, h.late, ?_, h.finished.next seated orderly next⟩
  rw [filterMap_concat, List.append_assoc, seated.overtaken orderly spares next, h.finished.due?]
  exact h.received

/-- When a publisher is disposed of, an observer that has been told values only is told so. -/
theorem Ending.start {past : List Propagation} {vs : List Value}
    (values : past.filterMap (signal? observer.label) ++ p.coming observer.label = vs.map .next)
    (seated : p.Seated s n observer) (orderly : p.Orderly) (spares : p.Spares observer.label)
    (next : p.Next q) (due : p.due? s n = some .completed) :
    Ending s n observer.label past p [] q := by
  obtain ⟨v, same⟩ | ⟨-, disposed, kept⟩ := due?_eq_some due
  · cases same
  obtain ⟨earlier, late, -, told, coming⟩ := List.map_eq_append_iff.mp values.symm
  have silent : p.signal? observer.label = none := by
    cases next with
    | ask net op => rfl
    | task busy =>
        obtain ⟨task, rest, agenda⟩ := List.exists_cons_of_ne_nil busy
        exact silent_of_due agenda (due ▸ Option.some_ne_none _) observer.label
  refine ⟨disposed, kept, silent, ⟨earlier, told.symm⟩, ⟨late, coming.symm⟩, ?_,
    seated.over_of_disposes orderly disposed next⟩
  have overtaken := seated.overtaken orderly spares next
  rwa [silent, due] at overtaken

theorem Told.next {past : List Propagation} (h : Told s n observer.label past p)
    (seated : p.Seated s n observer) (orderly : p.Orderly) (spares : p.Spares observer.label)
    (next : p.Next q) : Told s n observer.label (past ++ [p]) q := by
  cases h with
  | @ended before after m _ ending =>
      rw [List.append_assoc, List.cons_append]
      exact .ended (ending.next seated orderly spares next)
  | values vs values =>
      cases due : p.due? s n with
      | none =>
          refine .values vs ?_
          rw [filterMap_concat, List.append_assoc, seated.overtaken orderly spares next, due]
          exact values
      | some signal =>
          obtain ⟨v, rfl⟩ | ⟨rfl, -⟩ := due?_eq_some due
          · obtain ⟨earlier, late, -, told, coming⟩ := List.map_eq_append_iff.mp values.symm
            refine .values (earlier ++ v :: late) ?_
            rw [filterMap_concat, List.append_assoc, seated.overtaken orderly spares next, due,
              ← told, ← coming, List.map_append]
            rfl
          · exact .ended (.start values seated orderly spares next due)

/-- An observer in its seat, with everything in order. -/
structure Sitting (s : Publisher) (n : Nat) (observer : Observer) (p : Propagation) : Prop where
  orderly : p.Orderly
  seated : p.Seated s n observer

theorem Sitting.next (h : p.Sitting s n observer) (spares : p.Spares observer.label)
    (next : p.Next q) : q.Sitting s n observer :=
  ⟨h.orderly.next next, h.seated.next h.orderly spares next⟩

theorem Told.lasts {past : List Propagation} (told : Told s n observer.label [] p)
    (sitting : p.Sitting s n observer) (lasts : Lasts (Spares observer.label) p past q) :
    Told s n observer.label past q ∧ q.Sitting s n observer :=
  (lasts.preserves
    (Q := fun past m => Told s n observer.label past m ∧ m.Sitting s n observer) ⟨told, sitting⟩
    fun spares ⟨told, sitting⟩ next _ =>
      ⟨told.next sitting.seated sitting.orderly spares next, sitting.next spares next⟩).1

/-- When something is over, only what is on its way is still received. -/
theorem Over.lasts {past : List Propagation} (finished : p.Over s n)
    (sitting : p.Sitting s n observer) (lasts : Lasts (Spares observer.label) p past q) :
    past.filterMap (signal? observer.label) ++ q.coming observer.label =
      p.coming observer.label := by
  obtain ⟨⟨received, -⟩, -⟩ := lasts.preserves
    (Q := fun past m => past.filterMap (signal? observer.label) ++ m.coming observer.label =
      p.coming observer.label ∧ m.Over s n ∧ m.Sitting s n observer) ⟨rfl, finished, sitting⟩
    fun spares ⟨received, finished, sitting⟩ next _ => by
      refine ⟨?_, finished.next sitting.seated sitting.orderly next, sitting.next spares next⟩
      rw [filterMap_concat, List.append_assoc, sitting.seated.overtaken sitting.orderly spares next,
        finished.due?]
      exact received
  exact received

end Propagation

/-- `A` writes another slot whenever it is told. -/
def heraldFirst : Propagation :=
  (binding.skip 2).net.ask (.subscribeBinding "x" "A" false (some (.set 0 "$c" (.int32 1))))

/-- `B` sits behind `A`. -/
def recorderAfterHerald : Propagation :=
  (heraldFirst.skip 5).net.ask (.subscribeBinding "x" "B" false none)

/-- The binding is to be disposed of when the other slot is written. -/
def fuse : Propagation :=
  (recorderAfterHerald.skip 3).net.ask (.watch 0 "$c" "W" (some (.disposeBinding "x")))

/-- The bound slot is written. -/
def blown : Propagation := (fuse.skip 1).net.ask (.set 0 "$a" (.int32 1))

/-- `A` has `B` unsubscribed whenever it is told. -/
def rivalFirst : Propagation :=
  (binding.skip 2).net.ask (.subscribeBinding "x" "A" false (some (.unsubscribe "B")))

/-- `B` sits behind `A`. -/
def recorderAfterRival : Propagation :=
  (rivalFirst.skip 5).net.ask (.subscribeBinding "x" "B" false none)

/-- The bound slot is written. -/
def ousted : Propagation := (recorderAfterRival.skip 3).net.ask (.set 0 "$a" (.int32 1))

/-- Whoever sits behind an observer that acts may be told of a value after `completed`, or after its
seat has been given up. -/
theorem Lasts.told_after_end :
    (∃ past, Lasts (fun _ => True) ⟨oneSlot, []⟩ past (blown.skip 11) ∧
      (blown.skip 11).agenda = [] ∧
      past.filterMap (signal? "B") = [.next (.int32 0), .completed, .next (.int32 1)]) ∧
    ∃ past later, Lasts (fun _ => True) ⟨oneSlot, []⟩ past (ousted.skip 4) ∧
      Lasts (fun _ => True) (ousted.skip 4) later (ousted.skip 6) ∧
      past.filterMap (signal? "B") = [.next (.int32 0)] ∧
      ¬ (ousted.skip 4).Kept (.bindingObserver 0 1) ∧
      later.filterMap (signal? "B") = [.next (.int32 1)] := by
  have made : Lasts (fun _ => True) ⟨oneSlot, []⟩ _ (binding.skip 2) :=
    (Lasts.ask (.start trivial) rfl trivial).walk 2 (by decide +kernel) fun _ _ => trivial
  have herald : Lasts (fun _ => True) ⟨oneSlot, []⟩ _ (heraldFirst.skip 5) :=
    (made.ask (by decide +kernel) trivial).walk 5 (by decide +kernel) fun _ _ => trivial
  have recorder : Lasts (fun _ => True) ⟨oneSlot, []⟩ _ (recorderAfterHerald.skip 3) :=
    (herald.ask (by decide +kernel) trivial).walk 3 (by decide +kernel) fun _ _ => trivial
  have watched : Lasts (fun _ => True) ⟨oneSlot, []⟩ _ (fuse.skip 1) :=
    (recorder.ask (by decide +kernel) trivial).walk 1 (by decide +kernel) fun _ _ => trivial
  have last : Lasts (fun _ => True) ⟨oneSlot, []⟩ _ (blown.skip 11) :=
    (watched.ask (by decide +kernel) trivial).walk 11 (by decide +kernel) fun _ _ => trivial
  have rival : Lasts (fun _ => True) ⟨oneSlot, []⟩ _ (rivalFirst.skip 5) :=
    (made.ask (by decide +kernel) trivial).walk 5 (by decide +kernel) fun _ _ => trivial
  have recorder' : Lasts (fun _ => True) ⟨oneSlot, []⟩ _ (recorderAfterRival.skip 3) :=
    (rival.ask (by decide +kernel) trivial).walk 3 (by decide +kernel) fun _ _ => trivial
  have dropped : Lasts (fun _ => True) ⟨oneSlot, []⟩ _ (ousted.skip 4) :=
    (recorder'.ask (by decide +kernel) trivial).walk 4 (by decide +kernel) fun _ _ => trivial
  have onward : Lasts (fun _ => True) (ousted.skip 4) _ (ousted.skip 6) :=
    (Lasts.start trivial).walk 2 (by decide +kernel) fun _ _ => trivial
  refine ⟨⟨_, last, rfl, rfl⟩, _, _, dropped, onward, rfl, fun kept => ?_, rfl⟩
  have none : (ousted.skip 4).copies (.bindingObserver 0 1) = 0 := by decide +kernel
  exact absurd (kept_iff.mp kept) (by omega)

/-- How the observer of a label is told of an end, whatever is done by those who are called. Nobody
else is subscribed under its label, which is what it is known by.

If the publisher has been disposed of before, the observer is completed, and that is all. Otherwise
it is told values and is completed at most once, when the publisher is disposed of while its seat is
kept; after that it is told only values that were on their way to it. Once its seat is given up, its
publisher is disposed of or gone, it is told only what is on its way to it. -/
theorem Lasts.receives_until_end {start : Network} {during later : List Propagation}
    {m : Propagation} {b : Publication} (untouched : start.Untouched)
    (before : Session (fun _ => True) ⟨start, []⟩ p)
    (subscribing : p.subscribing? = some (s, observer)) (there : p.net.publication? s = some b)
    (unheard : p.Unheard observer.label) (silent : p.coming observer.label = [])
    (since : Lasts (Spares observer.label) p.step during m)
    (onward : Lasts (Spares observer.label) m later q) :
    (b.disposed = true →
      during.filterMap (signal? observer.label) ++ m.coming observer.label = [.completed]) ∧
    (b.disposed = false → Told s b.observers.next observer.label during m) ∧
    (m.Over s b.observers.next →
      later.filterMap (signal? observer.label) ++ q.coming observer.label =
        m.coming observer.label) := by
  have orderly : p.Orderly := (before.preserves (Q := Orderly) (orderly_of_untouched untouched)
    fun _ orderly next _ => orderly.next next).1
  obtain ⟨task, top, subscribing⟩ := Option.bind_eq_some_iff.mp subscribing
  obtain ⟨rest, agenda⟩ := List.head?_eq_some_iff.mp top
  have begun : p.step.Orderly := (orderly.step agenda).2
  have quiet : rest.filterMap (Task.signal? observer.label) = [] := by
    rw [coming_eq agenda] at silent
    exact (List.append_eq_nil_iff.mp silent).2
  cases ended : b.disposed with
  | false =>
      have seated : p.step.Seated s b.observers.next observer :=
        .start orderly agenda unheard subscribing there ended
      have greeted : Told s b.observers.next observer.label [] p.step :=
        .values [b.shown p.net.sizes]
          (orderly.coming_greeted agenda quiet subscribing there ended)
      obtain ⟨told, sitting⟩ := greeted.lasts ⟨begun, seated⟩ since
      exact ⟨(absurd · Bool.false_ne_true), fun _ => told,
        fun finished => finished.lasts sitting onward⟩
  | true =>
      obtain ⟨seated, none⟩ := Seated.start_late orderly agenda unheard subscribing there ended
      have late : p.step.Over s b.observers.next := by
        refine .inl fun kept => ?_
        exact absurd (kept_iff.mp kept) (by omega)
      have completed : p.step.coming observer.label = [.completed] := by
        have own : Task.signal? observer.label (.complete observer) = some .completed := if_pos rfl
        rw [coming, greeted_late agenda subscribing there ended, List.filterMap_cons_some own,
          List.filterMap_cons_none rfl, quiet]
      have sitting : m.Sitting s b.observers.next observer :=
        (since.preserves (Q := fun _ m => m.Sitting s b.observers.next observer) ⟨begun, seated⟩
          fun spares sitting next _ => sitting.next spares next).1
      exact ⟨fun _ => (late.lasts ⟨begun, seated⟩ since).trans completed,
        (absurd ·.symm Bool.false_ne_true), fun finished => finished.lasts sitting onward⟩

/-- When the binding has been disposed of, `completed` is on its way to `B`, and the value after
it. -/
theorem Lasts.receives_until_end_blown : ∃ during later,
    Lasts (Spares "B") recorderAfterHerald.step during (blown.skip 7) ∧
    Lasts (Spares "B") (blown.skip 7) later (blown.skip 11) ∧
    Told (.binding 0) 1 "B" during (blown.skip 7) ∧
    later.filterMap (signal? "B") = [.completed, .next (.int32 1)] := by
  have made : Lasts (fun _ => True) ⟨oneSlot, []⟩ _ (binding.skip 2) :=
    (Lasts.ask (.start trivial) rfl trivial).walk 2 (by decide +kernel) fun _ _ => trivial
  have herald : Lasts (fun _ => True) ⟨oneSlot, []⟩ _ (heraldFirst.skip 5) :=
    (made.ask (by decide +kernel) trivial).walk 5 (by decide +kernel) fun _ _ => trivial
  have first : Lasts (fun _ => True) ⟨oneSlot, []⟩ _ recorderAfterHerald :=
    herald.ask (by decide +kernel) trivial
  have alone : Lasts (Spares "B") recorderAfterHerald.step _ (recorderAfterHerald.step.skip 2) :=
    (Lasts.start (by decide +kernel)).walk 2 (by decide +kernel) (by decide +kernel)
  have watched : Lasts (Spares "B") recorderAfterHerald.step _ (fuse.skip 1) :=
    (alone.ask (by decide +kernel) (by decide +kernel)).walk 1 (by decide +kernel)
      (by decide +kernel)
  have disposed : Lasts (Spares "B") recorderAfterHerald.step _ (blown.skip 7) :=
    (watched.ask (by decide +kernel) (by decide +kernel)).walk 7 (by decide +kernel)
      (by decide +kernel)
  have last : Lasts (Spares "B") (blown.skip 7) _ (blown.skip 11) :=
    (Lasts.start (by decide +kernel)).walk 4 (by decide +kernel) (by decide +kernel)
  have finished : (blown.skip 7).Over (.binding 0) 1 := by
    refine .inr fun b found => ?_
    cases found
    rfl
  obtain ⟨-, told, received⟩ := Lasts.receives_until_end ⟨rfl, rfl, rfl⟩ first.session rfl rfl
    (unheard_of_values (by decide +kernel) (by decide +kernel)) rfl disposed last
  exact ⟨_, _, disposed, last, told rfl, (List.append_nil _).symm.trans (received finished)⟩

end SlotScript
