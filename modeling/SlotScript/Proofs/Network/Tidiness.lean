import SlotScript.Proofs.Network.Freshness
import SlotScript.Proofs.Network.Registry
import SlotScript.Proofs.Network.Sequel

/-! # No listener is left behind

Observables and bindings come and go, and at every moment the stores have the listeners that those
who are there need, each of them once, and no others but those that are kept under labels. If the
first run of an observable fails, nothing has been registered for it. Once an observable is disposed
of, nothing runs its code again and nothing touches its value.
-/

namespace SlotScript

/-- A binding that is neither disposed nor released. -/
def Network.liveBinding? (net : Network) (id : BindingId) : Option Binding :=
  (net.bindings.find? id).filter fun b => !b.disposed

/-- The listeners of a store are the right ones. -/
structure Network.Tidy (net : Network) (s : StoreId) (st : Store) : Prop where
  /-- A live observable has one for each key that its code may read, in every scope of its store. -/
  reads : ∀ id key, (st.listeners.countP fun l =>
      l.callback.wakes? = some (.observable id) ∧ l.key = some key) =
    if (net.live? id).any fun o => key ∈ o.code.readKeys ∧ s ∈ net.chain o.store then 1 else 0
  /-- It has one more for its own store being cleared. -/
  clearings : ∀ id, (st.listeners.countP fun l =>
      l.callback.wakes? = some (.observable id) ∧ l.key = none) =
    if (net.live? id).any fun o => s = o.store then 1 else 0
  /-- A live binding has one for its key, in every scope of its store. -/
  bindings : ∀ id key?, (st.listeners.countP fun l =>
      l.callback.wakes? = some (.binding id) ∧ l.key = key?) =
    if (net.liveBinding? id).any fun b => key? = some b.key ∧ s ∈ net.chain b.store then 1 else 0
  /-- Everything else is kept under just one label. -/
  kept : ∀ l ∈ st.listeners, l.callback.wakes? = none → net.copies (.listener s l.id) = 1
  /-- What is kept under a label is there. -/
  there : ∀ id, 0 < net.copies (.listener s id) →
    ∃ l ∈ st.listeners, l.id = id ∧ l.callback.wakes? = none

namespace Network

variable {net net' net'' : Network} {s : StoreId} {st : Store} {k : Publisher}

theorem due_observable (net : Network) (id : ObservableId) (s : StoreId) :
    net.due (.observable id) s = match net.live? id with
      | some o => (if s ∈ net.chain o.store then o.code.readKeys.map some else []) ++
          if s = o.store then [none] else []
      | none => [] := by
  simp only [due, upkeep?, live?]
  cases net.observables.find? id with
  | none => rfl
  | some o =>
      cases ended : o.disposed <;> simp [Observable.upkeep, Upkeep.due, Option.filter, ended]

theorem due_binding (net : Network) (id : BindingId) (s : StoreId) :
    net.due (.binding id) s = match net.liveBinding? id with
      | some b => if s ∈ net.chain b.store then [some b.key] else []
      | none => [] := by
  simp only [due, upkeep?, liveBinding?]
  cases net.bindings.find? id with
  | none => rfl
  | some b => cases ended : b.disposed <;> simp [Binding.upkeep, Upkeep.due, Option.filter, ended]

end Network

/-- How often a publisher is registered for a key is how often that is due. -/
theorem Store.Lists.count {st : Store} {due : Publisher → List (Option String)}
    {owns : Publisher → Nat → Prop} {kept : Nat → Nat} (h : st.Lists due owns kept)
    (k : Publisher) (key? : Option String) : (st.listeners.countP fun l =>
      l.callback.wakes? = some k ∧ l.key = key?) = (due k).count key? := by
  rw [← h.due, List.count, List.countP_map, List.countP_filter]
  refine List.countP_congr fun l _ => ?_
  simp [and_comm]

namespace Network

variable {net net' net'' : Network} {s : StoreId} {st : Store} {k : Publisher}

theorem Registered.tidy (h : Registered net) (found : net.stores[s]? = some st) :
    net.Tidy s st := by
  have lists := h.lists s st found
  have once (k : Publisher) (key? : Option String) : (st.listeners.countP fun l =>
      l.callback.wakes? = some k ∧ l.key = key?) = if key? ∈ net.due k s then 1 else 0 :=
    (lists.count k key?).trans (net.due_nodup k s).count
  refine ⟨fun id key => ?_, fun id => ?_, fun id key? => ?_, fun l member own => ?_,
    fun id kept => ?_⟩
  · rw [once, due_observable]
    cases net.live? id with
    | none => rfl
    | some o => by_cases here : s ∈ net.chain o.store <;> simp [here]
  · rw [once, due_observable]
    cases net.live? id with
    | none => rfl
    | some o => by_cases here : s ∈ net.chain o.store <;> simp [here]
  · rw [once, due_binding]
    cases net.liveBinding? id with
    | none => rfl
    | some b => by_cases here : s ∈ net.chain b.store <;> simp [here]
  · refine Nat.le_antisymm (lists.kept_le_one l.id) ?_
    rw [lists.kept]
    exact List.countP_pos_iff.mpr ⟨l, member, by simpa using own⟩
  · rw [lists.kept] at kept
    obtain ⟨l, member, own⟩ := List.countP_pos_iff.mp kept
    exact ⟨l, member, of_decide_eq_true own⟩

/-- Some publishers have been released, and apart from their listeners, which are gone, every store
has the listeners that it had. -/
structure Shrinks (net net' : Network) : Prop where
  upkeep : ∀ k, net'.upkeep? k = none ∨ net'.upkeep? k = net.upkeep? k
  listeners : ∀ s : StoreId, (net'.stores[s]?).map Store.listeners = (net.stores[s]?).map fun st =>
    st.listeners.filter fun l => l.callback.wakes?.all fun k => (net'.upkeep? k).isSome

theorem Registered.present (h : Registered net) (found : net.stores[s]? = some st) {l : Listener}
    (member : l ∈ st.listeners) (wakes : l.callback.wakes? = some k) : (net.upkeep? k).isSome := by
  obtain ⟨u, here, -⟩ := ((h.lists s st found).owned k l.id).mpr ⟨l, member, rfl, wakes⟩
  rw [here]
  rfl

/-- As long as nobody is released, all listeners are there for somebody. -/
theorem Registered.listeners_of_stay (h : Registered net)
    (stay : ∀ k, (net.upkeep? k).isSome → (net'.upkeep? k).isSome) (s : StoreId) :
    ((net.stores[s]?).map fun st => st.listeners.filter fun l =>
      l.callback.wakes?.all fun k => (net'.upkeep? k).isSome) =
      (net.stores[s]?).map Store.listeners := by
  cases found : net.stores[s]? with
  | none => rfl
  | some st =>
      rw [Option.map_some, Option.map_some, Option.some.injEq]
      refine List.filter_eq_self.mpr fun l member => ?_
      cases wakes : l.callback.wakes? with
      | none => rfl
      | some k => exact stay k (h.present found member wakes)

namespace Shrinks

theorem same (h : Registered net) (upkeep : ∀ k, net'.upkeep? k = net.upkeep? k)
    (listeners : ∀ s : StoreId,
      (net'.stores[s]?).map Store.listeners = (net.stores[s]?).map Store.listeners) :
    Shrinks net net' :=
  ⟨fun k => .inr (upkeep k),
    fun s => (listeners s).trans (h.listeners_of_stay (fun k => by rw [upkeep]; exact id) s).symm⟩

theorem refl (h : Registered net) : Shrinks net net := .same h (fun _ => rfl) fun _ => rfl

theorem of_tables (h : Registered net) (same : SameTables net net') : Shrinks net net' := by
  refine .same h same.upkeep fun s => ?_
  have listeners := congrArg (Option.map fun table => table.2.1) (same.tables s)
  rwa [Option.map_map, Option.map_map] at listeners

theorem trans (first : Shrinks net net') (second : Shrinks net' net'') : Shrinks net net'' := by
  refine ⟨fun k => ?_, fun s => ?_⟩
  · obtain gone | same := second.upkeep k
    · exact .inl gone
    · exact same ▸ first.upkeep k
  · have listeners := congrArg (Option.map fun ls : List Listener => ls.filter fun l =>
      l.callback.wakes?.all fun k => (net''.upkeep? k).isSome) (first.listeners s)
    rw [Option.map_map, Option.map_map] at listeners
    refine (second.listeners s).trans (listeners.trans ?_)
    congr 1
    funext st
    rw [Function.comp_apply, List.filter_filter]
    refine List.filter_congr fun l _ => ?_
    cases l.callback.wakes? with
    | none => rfl
    | some k =>
        simp only [Option.all_some]
        obtain gone | same := second.upkeep k
        · simp [gone]
        · simp [same]

theorem ends (h : Registered net) {u : Upkeep} (ends : Ends k u none net net') :
    Shrinks net net' := by
  refine ⟨fun j => ?_, fun s => ?_⟩
  · rw [ends.upkeep]
    split
    · exact .inl rfl
    · exact .inr rfl
  · rw [ends.spared, Option.map_map]
    cases found : net.stores[s]? with
    | none => rfl
    | some st =>
        refine congrArg some (List.filter_congr fun l member => ?_)
        have mine : .listener s l.id ∈ u.watching ↔ l.callback.wakes? = some k := by
          rw [← (h.lists s st found).owns_iff member]
          simp only [Owns, ends.found, Option.some.injEq, exists_eq_left']
        obtain none | ⟨j, wakes⟩ := Option.eq_none_or_eq_some l.callback.wakes?
        · simp [mine, none]
        · have present := h.present found member wakes
          by_cases same : j = k
          · simp [mine, wakes, ends.upkeep, same]
          · simp [mine, wakes, ends.upkeep, same, present]

theorem release (h : Registered net) (agenda : List Task) :
    Shrinks net (net.release agenda) :=
  (release_preserves (P := fun net' => Registered net' ∧ Shrinks net net')
    (fun before left => ⟨before.1.ends left, before.2.trans (.ends before.1 left)⟩)
    ⟨h, .refl h⟩ agenda).2

end Shrinks

end Network

open Network

variable {p q : Propagation} {task : Task} {rest : List Task} {id : ObservableId}

namespace Propagation

/-- The listeners of all stores are there for somebody, and what is still to be done knows of no
others. -/
structure WellKept (p : Propagation) : Prop where
  net : p.net.Registered
  clean : ∀ t ∈ p.agenda, t.Clean

namespace WellKept

theorem perform (h : p.WellKept) (agenda : p.agenda = task :: rest) :
    (task.perform p.net).1.Registered :=
  h.net.registers (deed_perform h.net.forest (h.clean task (agenda ▸ .head _))).registers

theorem step (h : p.WellKept) (agenda : p.agenda = task :: rest) : p.step.WellKept := by
  have deed := deed_perform h.net.forest (h.clean task (agenda ▸ .head _))
  refine ⟨?_, ?_⟩
  · rw [step_eq agenda]
    exact (h.perform agenda).release _
  · rw [agenda_step agenda]
    exact List.forall_mem_append.mpr
      ⟨deed.clean, fun t member => h.clean t (agenda ▸ .tail _ member)⟩

theorem ask {net : Network} (h : WellKept ⟨net, []⟩) (op : Operation) : (net.ask op).WellKept :=
  ⟨h.net.same (.of_eq rfl rfl rfl rfl rfl rfl), List.forall_mem_singleton.mpr trivial⟩

theorem next (h : p.WellKept) (next : p.Next q) : q.WellKept := by
  cases next with
  | ask net op => exact h.ask op
  | task busy =>
      obtain ⟨task, rest, agenda⟩ := List.exists_cons_of_ne_nil busy
      exact h.step agenda

/-- Nobody is registered at first. -/
theorem of_untouched {start : Network} (untouched : start.Untouched) (forest : start.Forest)
    (unheard : ∀ st ∈ start.stores, st.listeners = []) : WellKept ⟨start, []⟩ := by
  have nobody (k : Publisher) : start.upkeep? k = none := by
    cases k with
    | observable id => simp [upkeep?, untouched.observables, Table.find?_empty]
    | binding id => simp [upkeep?, untouched.bindings, Table.find?_empty]
  refine ⟨⟨forest, fun k u found => ?_, fun s st found => ?_⟩, List.forall_mem_nil _⟩
  · cases (nobody k).symm.trans found
  · have silent := unheard st (List.mem_of_getElem? found)
    refine ⟨?_, ?_, fun k => ?_, fun k id => ?_, fun id => ?_⟩
    · exact silent ▸ List.nodup_nil
    · exact silent ▸ List.forall_mem_nil _
    · rw [silent, due_of_none (nobody k)]
      rfl
    · simp [Owns, nobody, silent]
    · rw [silent, Network.copies, untouched.subscriptions]
      rfl

end WellKept

/-- An operation that was asked for of a network is still to return, or has returned. As long as it
has not succeeded, nobody has been registered. -/
structure Tries (net : Network) (p : Propagation) : Prop where
  kept : p.WellKept
  inner : ∀ t ∈ p.agenda, t.Inner
  result : (net.Shrinks p.net ∧ p.net.returned = none ∧ p.agenda.countP Task.returns = 1) ∨
    p.agenda.countP Task.returns = 0 ∧ ∃ result, p.net.returned = some result ∧
      ∀ e, result = .error e → net.Shrinks p.net

theorem Tries.step {net : Network} (h : p.Tries net) (passive : p.step.Passive) :
    p.step.Tries net := by
  cases agenda : p.agenda with
  | nil =>
      have idle : p.step = p := by simp only [Propagation.step, agenda]
      rwa [idle]
  | cons task rest =>
      have stepped := congrArg Propagation.net (step_eq agenda)
      have left : (task.perform p.net).1.Shrinks p.step.net :=
        stepped ▸ .release (h.kept.perform agenda) _
      have returned : p.step.net.returned = (task.perform p.net).1.returned :=
        stepped ▸ returned_release _ _
      have result := h.result
      rw [agenda, List.countP_cons] at result
      have others : ∀ t ∈ rest, t.Inner := fun t member => h.inner t (agenda ▸ .tail _ member)
      cases within_perform p.net (h.inner task (agenda ▸ .head _)) with
      | acts acting =>
          obtain ⟨t, top, acts⟩ := (Option.any_eq_true _ _).mp acting
          rw [Passive, agenda_step agenda, List.head?_append, top] at passive
          cases passive.symm.trans acts
      | goes same unchanged inner count =>
          have shrinks : p.net.Shrinks p.step.net := (Shrinks.of_tables h.kept.net same).trans left
          have counted : p.step.agenda.countP Task.returns =
              rest.countP Task.returns + if task.returns then 1 else 0 := by
            rw [agenda_step agenda, List.countP_append, count, Nat.add_comm]
          refine ⟨h.kept.step agenda, ?_, ?_⟩
          · rw [agenda_step agenda]
            exact List.forall_mem_append.mpr ⟨inner, others⟩
          · rw [counted, returned, unchanged]
            obtain ⟨before, rest⟩ | ⟨none, value, kept, failed⟩ := result
            · exact .inl ⟨before.trans shrinks, rest⟩
            · exact .inr ⟨none, value, kept, fun e error => (failed e error).trans shrinks⟩
      | ends own found nothing failed =>
          rw [own, if_pos rfl] at result
          obtain ⟨before, -, alone⟩ | ⟨none, -⟩ := result
          · have counted : p.step.agenda.countP Task.returns = 0 := by
              rw [agenda_step agenda, nothing]
              exact Nat.succ_inj.mp alone
            refine ⟨h.kept.step agenda, ?_, .inr ⟨counted, _, returned.trans found, ?_⟩⟩
            · rw [agenda_step agenda, nothing]
              exact others
            · exact fun e error =>
                (before.trans (.of_tables h.kept.net (failed e error))).trans left
          · exact (Nat.succ_ne_zero _ none).elim

/-- An observable is asked for. -/
theorem Tries.observe {net : Network} (kept : WellKept ⟨net, []⟩) (name : String)
    (source : Source) (store : StoreId) (host : Option Host) (parameter : Value) :
    (net.ask (.observe name source store host parameter)).step.Tries net := by
  let op := Operation.observe name source store host parameter
  have kept' : (net.ask op).step.WellKept := (kept.ask op).step rfl
  have asked : SameTables net (net.ask op).net := .of_eq rfl rfl rfl rfl rfl rfl
  have left {net' : Network} (agenda : List Task) (same : SameTables net net') :
      net.Shrinks (net'.release agenda) :=
    (Shrinks.of_tables kept.net same).trans (.release (kept.net.same same) agenda)
  cases compiled : source.compile with
  | ok code =>
      have started : (Task.operate op .null none).perform (net.ask op).net = ((net.ask op).net,
          [.run ⟨(net.ask op).net.activate code store host parameter, [],
            .creation name { store, host, code, parameter }⟩]) := by
        simp only [op, Task.perform, operate, start, compiled]
      have same := step_eq (p := net.ask op) rfl
      rw [started] at same
      refine ⟨kept', ?_, ?_⟩
      · rw [same]
        exact List.forall_mem_singleton.mpr trivial
      · rw [same]
        exact .inl ⟨left _ asked, returned_release _ _, rfl⟩
  | error e =>
      have failed : (Task.operate op .null none).perform (net.ask op).net =
          ({ (net.ask op).net with returned := some (.error (.compile e)) }, []) := by
        simp only [op, Task.perform, operate, start, compiled, conclude]
      have same := step_eq (p := net.ask op) rfl
      rw [failed] at same
      refine ⟨kept', ?_, ?_⟩
      · rw [same]
        exact List.forall_mem_nil _
      · rw [same]
        exact .inr
          ⟨rfl, _, returned_release _ _, fun _ _ => left _ (.of_eq rfl rfl rfl rfl rfl rfl)⟩

theorem Tries.skip {net : Network} (h : p.Tries net) (n : Nat)
    (passive : ∀ m ≤ n, (p.skip m).Passive) : (p.skip n).Tries net := by
  induction n generalizing p with
  | zero => exact h
  | succ n ih =>
      have first := h.step (passive 1 (Nat.succ_le_succ (Nat.zero_le n)))
      exact ih first fun m le => passive (m + 1) (Nat.succ_le_succ le)

/-- A publisher has been disposed of with a value, and no run of an observable goes on unless it was
under way at some moment. -/
structure Retired (k : Publisher) (v : Value) (p q : Propagation) : Prop where
  orderly : q.Orderly
  made : q.net.Made k
  ended : ∀ b, q.net.publication? k = some b → b.disposed = true ∧ b.value = v
  runs : ∀ id, k = .observable id → ∀ t ∈ q.agenda, t.Evaluates id →
    ∃ t' ∈ p.agenda, t'.Evaluates id

theorem Retired.dead {v : Value} (h : Retired (.observable id) v p q) :
    q.net.live? id = none := by
  refine Option.eq_none_iff_forall_ne_some.mpr fun o alive => ?_
  obtain ⟨found, active⟩ := live?_eq_some_iff.mp alive
  obtain ⟨ended, -⟩ := h.ended o.publication (publication?_observable found)
  cases active.symm.trans ended

theorem Retired.next {k : Publisher} {v : Value} {q' : Propagation} (h : Retired k v p q)
    (next : q.Next q') : Retired k v p q' := by
  cases next with
  | ask net op =>
      exact ⟨h.orderly.ask op, h.made, fun b found => h.ended b found,
        fun id _ t member evaluates => by
          cases List.mem_singleton.mp member
          exact evaluates.elim⟩
  | task busy =>
      obtain ⟨task, rest, agenda⟩ := List.exists_cons_of_ne_nil busy
      obtain ⟨⟨gone, shift⟩, orderly⟩ := h.orderly.step agenda
      refine ⟨orderly, shift.made k h.made, fun b' found => ?_,
        fun id same t member evaluates => ?_⟩
      · obtain ⟨-, new | ⟨b, before, turns⟩⟩ := shift.publication k b' found
        · exact (new.fresh h.made).elim
        · obtain ⟨ended, value⟩ := h.ended b before
          have nothing : q.net.news? task k = none := by
            unfold Network.news?
            split
            · rename_i there
              cases before.symm.trans there
              refine if_neg fun new => ?_
              cases ended.symm.trans new.2.1
            · rfl
          rw [turns.disposed, ended, Bool.true_or, turns.value, nothing]
          exact ⟨rfl, value⟩
      · subst same
        have before : task.Evaluates id → ∃ t' ∈ p.agenda, t'.Evaluates id :=
          h.runs id rfl task (agenda ▸ .head _)
        rw [agenda_step agenda] at member
        obtain follows | member := List.mem_append.mp member
        · refine (evaluates_perform follows evaluates).elim before fun starts => ?_
          have alive := starts.2
          rw [h.dead] at alive
          cases alive
        · exact h.runs id rfl t (agenda ▸ .tail _ member) evaluates

end Propagation

theorem Session.wellKept {start : Network} (untouched : start.Untouched) (forest : start.Forest)
    (unheard : ∀ st ∈ start.stores, st.listeners = [])
    (before : Session (fun _ => True) ⟨start, []⟩ p) : p.WellKept ∧ p.Orderly :=
  (before.preserves (Q := fun p => p.WellKept ∧ p.Orderly)
    ⟨.of_untouched untouched forest unheard, Propagation.orderly_of_untouched untouched⟩
    fun _ h next _ => ⟨h.1.next next, h.2.next next⟩).1

end SlotScript
