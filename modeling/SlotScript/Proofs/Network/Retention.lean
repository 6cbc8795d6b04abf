import Mathlib.Data.List.Basic
import SlotScript.Proofs.Network.Unobserved

/-! # What is released

What is held is the greatest set of things each of which is held by a root or by another one of
them. So it does not matter when what is no longer held is released, nor in which order: released
late, while observers are still to be told, or at once, the same is left in the end.
-/

namespace SlotScript

namespace Holding

variable {net net' : Network} {roots roots' things things' : List Holding} {x : Holding}

/-- Every one of some things is held by a root or by one of them. -/
def Supported (net : Network) (roots : List Holding) (S : Holding → Prop) : Prop :=
  ∀ x, S x → x ∈ roots ∨ ∃ y, S y ∧ x ∈ heldBy net y

theorem mem_stillHeld : x ∈ stillHeld net roots things ↔
    x ∈ things ∧ (x ∈ roots ∨ ∃ y ∈ things, x ∈ heldBy net y) := by
  simp [stillHeld]

theorem mem_of_mem_settled (member : x ∈ settled net roots things) : x ∈ things := by
  fun_induction settled net roots things with
  | case1 things left fewer ih => exact (mem_stillHeld.mp (ih member)).1
  | case2 things left same => exact member

theorem supported_settled : Supported net roots (· ∈ settled net roots things) := by
  fun_induction settled net roots things with
  | case1 things left fewer ih => exact ih
  | case2 things left same =>
      have shorter : left.length ≤ things.length := List.length_filter_le _ _
      have all : left = things :=
        List.filter_eq_self.mpr (List.length_filter_eq_length_iff.mp
          (Nat.le_antisymm shorter (Nat.not_lt.mp same)))
      intro x member
      exact (mem_stillHeld.mp (all.symm ▸ member : x ∈ left)).2

/-- What is left is the most that can support itself. -/
theorem mem_settled {S : Holding → Prop} (supported : Supported net roots S)
    (among : ∀ x, S x → x ∈ things) (member : S x) : x ∈ settled net roots things := by
  fun_induction settled net roots things with
  | case1 things left fewer ih =>
      refine ih fun x member => mem_stillHeld.mpr ⟨among x member, ?_⟩
      exact (supported x member).imp id fun ⟨y, here, holds⟩ => ⟨y, among y here, holds⟩
  | case2 things left same => exact among x member

/-- What is left in one network is left in another one in which it is held as well. -/
theorem settled_mono (among : ∀ x ∈ settled net roots things, x ∈ things')
    (rooted : ∀ x ∈ roots, x ∈ roots')
    (holds : ∀ y ∈ settled net roots things, ∀ x ∈ heldBy net y, x ∈ heldBy net' y)
    (member : x ∈ settled net roots things) : x ∈ settled net' roots' things' := by
  refine mem_settled (S := (· ∈ settled net roots things)) (fun x member => ?_) among member
  obtain root | ⟨y, here, held⟩ := supported_settled x member
  · exact .inl (rooted x root)
  · exact .inr ⟨y, here, holds y here x held⟩

end Holding

namespace Table

variable {κ α : Type}

theorem keys_filterKeys (t : Table κ α) (keep : κ → Bool) :
    (t.filterKeys keep).keys = t.keys.filter keep := by
  simp only [keys, filterKeys, List.filter_map]
  rfl

theorem filterKeys_filterKeys (t : Table κ α) (keep keep' : κ → Bool) :
    (t.filterKeys keep).filterKeys keep' = t.filterKeys fun key => keep key && keep' key := by
  refine eq_of_entries ?_
  simp only [filterKeys, List.filter_filter, Bool.and_comm]

theorem filterKeys_of_true (t : Table κ α) {keep : κ → Bool} (all : ∀ key ∈ t.keys, keep key) :
    t.filterKeys keep = t := by
  refine eq_of_entries (List.filter_eq_self.mpr fun entry member => ?_)
  exact all _ (List.mem_map_of_mem member)

variable [DecidableEq κ]

theorem find?_ne_none {t : Table κ α} {key : κ} (member : key ∈ t.keys) : t.find? key ≠ none := by
  obtain ⟨entries, nodup⟩ := t
  simp only [keys, find?] at member ⊢
  clear nodup
  induction entries with
  | nil => cases member
  | cons entry rest ih =>
      by_cases here : entry.1 = key
      · simp [look?, here]
      · simp only [look?, here, if_false]
        exact ih (((List.mem_cons.mp member).resolve_left (Ne.symm here)))

theorem erase_of_find?_eq_none {t : Table κ α} {key : κ} (absent : t.find? key = none) :
    t.erase key = t := by
  refine t.filterKeys_of_true fun other member => ?_
  have different : other ≠ key := by
    rintro rfl
    exact find?_ne_none member absent
  simpa using different

theorem keys_adjust (t : Table κ α) (key : κ) (f : α → α) : (t.adjust key f).keys = t.keys := by
  unfold adjust
  cases found : t.find? key with
  | none => rfl
  | some a =>
      dsimp only
      generalize f a = b
      obtain ⟨entries, nodup⟩ := t
      simp only [find?, keys, insert] at found ⊢
      clear nodup
      induction entries with
      | nil => cases found
      | cons entry rest ih =>
          by_cases here : entry.1 = key
          · simp [put, here]
          · simp only [look?, here, if_false] at found
            simp [put, here, ih found]

end Table

namespace Network

variable {net : Network}

/-- The network with some registrations with stores dropped. -/
def deaf (net : Network) (sub : Subscription) : Network :=
  { net with stores := net.stores.mapIdx fun i st =>
      { st with listeners := st.listeners.filter fun l => .listener i l.id ∉ sub } }

theorem deaf_nil : net.deaf [] = net := by
  have same : net.stores.mapIdx (fun i st =>
      { st with listeners :=
          st.listeners.filter fun l => .listener i l.id ∉ ([] : Subscription) }) = net.stores := by
    refine List.ext_getElem? fun i => ?_
    rw [List.getElem?_mapIdx]
    cases net.stores[i]? <;> simp
  simp only [deaf, same]

theorem deaf_deaf (sub sub' : Subscription) :
    (net.deaf sub).deaf sub' = net.deaf (sub ++ sub') := by
  simp only [deaf, List.mapIdx_mapIdx, Function.comp_def, List.filter_filter, List.mem_append,
    not_or, Bool.decide_and, Bool.and_comm]

theorem deaf_congr {sub sub' : Subscription} (same : ∀ reg, reg ∈ sub ↔ reg ∈ sub') :
    net.deaf sub = net.deaf sub' := by
  simp only [deaf, same]

theorem unregister_listener (store : StoreId) (id : Nat) :
    net.unregister (.listener store id) = net.deaf [.listener store id] := by
  have same : net.stores.modify store (fun st =>
      { st with listeners := st.listeners.filter fun l => l.id ≠ id }) =
      net.stores.mapIdx fun i st =>
        { st with listeners :=
            st.listeners.filter fun l => Registration.listener i l.id ∉ [.listener store id] } := by
    refine List.ext_getElem? fun i => ?_
    rw [List.getElem?_modify, List.getElem?_mapIdx]
    by_cases here : store = i
    · simp [here]
    · cases net.stores[i]? <;> simp [here, Ne.symm here]
  simp only [unregister, modifyStore, deaf, same]

theorem drop_of_listens {sub : Subscription} (listens : sub.Listens) :
    net.drop sub = net.deaf sub := by
  unfold drop
  induction sub generalizing net with
  | nil => exact deaf_nil.symm
  | cons reg sub ih =>
      have others : Subscription.Listens sub := fun s n member => listens s n (.tail _ member)
      cases reg with
      | listener store id =>
          rw [List.foldl_cons, ih others, unregister_listener, deaf_deaf]
          rfl
      | observer id n => exact (listens (.observable id) n (.head _)).elim
      | bindingObserver id n => exact (listens (.binding id) n (.head _)).elim

/-- What keeps an observable told of changes. -/
def watchingOf (net : Network) (id : ObservableId) : Subscription :=
  ((net.observables.find? id).map Observable.watching).getD []

/-- The network without some observables and what they registered. -/
def shed (net : Network) (ids : List ObservableId) : Network :=
  deaf { net with observables := net.observables.filterKeys fun id => id ∉ ids }
    (ids.flatMap net.watchingOf)

theorem find?_shed (ids : List ObservableId) (id : ObservableId) :
    (net.shed ids).observables.find? id = if id ∈ ids then none else net.observables.find? id := by
  simp only [shed, deaf, Table.find?_filterKeys]
  by_cases gone : id ∈ ids <;> simp [gone]

theorem watchingOf_shed (ids : List ObservableId) (id : ObservableId) :
    (net.shed ids).watchingOf id = if id ∈ ids then [] else net.watchingOf id := by
  unfold watchingOf
  rw [find?_shed]
  split <;> rfl

/-- Releasing some observables and then others is releasing them all. -/
theorem shed_shed {first second both : List ObservableId}
    (same : ∀ id, id ∈ both ↔ id ∈ first ∨ id ∈ second) :
    (net.shed first).shed second = net.shed both := by
  have observables : (net.observables.filterKeys fun id => id ∉ first).filterKeys
      (fun id => id ∉ second) = net.observables.filterKeys fun id => id ∉ both := by
    rw [Table.filterKeys_filterKeys]
    simp only [same, not_or, Bool.decide_and]
  have dropped (reg : Registration) :
      reg ∈ first.flatMap net.watchingOf ++ second.flatMap (net.shed first).watchingOf ↔
        reg ∈ both.flatMap net.watchingOf := by
    simp only [List.mem_append, List.mem_flatMap, watchingOf_shed, same]
    constructor
    · rintro (⟨id, member, keeps⟩ | ⟨id, member, keeps⟩)
      · exact ⟨id, .inl member, keeps⟩
      · split at keeps
        · cases keeps
        · exact ⟨id, .inr member, keeps⟩
    · rintro ⟨id, member, keeps⟩
      by_cases before : id ∈ first
      · exact .inl ⟨id, before, keeps⟩
      · exact .inr ⟨id, member.resolve_left before, by rwa [if_neg before]⟩
  have twice : (net.shed first).shed second =
      deaf { net with observables := ((net.observables.filterKeys fun id => id ∉ first).filterKeys
          fun id => id ∉ second) }
        (first.flatMap net.watchingOf ++ second.flatMap (net.shed first).watchingOf) := by
    rw [← deaf_deaf]
    rfl
  rw [twice, observables, deaf_congr dropped]
  rfl

theorem releaseObservable_eq (upstream : net.Upstream) (id : ObservableId) :
    net.releaseObservable id = net.shed [id] := by
  have erased : net.observables.erase id = net.observables.filterKeys fun k => k ∉ [id] := by
    simp [Table.erase]
  unfold releaseObservable
  cases found : net.observables.find? id with
  | some o =>
      have listens : Subscription.Listens o.watching :=
        upstream (.observable id) o.publication (publication?_observable found)
      simp [shed, watchingOf, found, drop_of_listens listens, erased]
  | none =>
      have same : net.observables.filterKeys (fun k => k ∉ [id]) = net.observables :=
        erased.symm.trans (Table.erase_of_find?_eq_none found)
      have nothing : [id].flatMap net.watchingOf = [] := by simp [watchingOf, found]
      simp only [shed, same, nothing]
      exact deaf_nil.symm

theorem shed_nil : net.shed [] = net := by
  have same : net.observables.filterKeys (fun k => k ∉ ([] : List ObservableId)) =
      net.observables := Table.filterKeys_of_true _ fun k _ => by simp
  simp only [shed, same]
  exact deaf_nil

theorem foldl_releaseObservable (upstream : net.Upstream) (ids : List ObservableId) :
    ids.foldl releaseObservable net = net.shed ids ∧ (net.shed ids).Upstream := by
  induction ids generalizing net with
  | nil => exact ⟨shed_nil.symm, shed_nil.symm ▸ upstream⟩
  | cons id ids ih =>
      obtain ⟨others, still⟩ := ih ((Sheds.releaseObservable upstream id).upstream upstream)
      have both : (net.releaseObservable id).shed ids = net.shed (id :: ids) := by
        rw [releaseObservable_eq upstream]
        exact shed_shed fun k => by rw [List.mem_cons, List.mem_singleton]
      exact ⟨others.trans both, both ▸ still⟩

/-- The observables that nothing holds. -/
def unheld (net : Network) (agenda : List Task) : List ObservableId :=
  net.unnamed.filter fun id => !(Holding.all net agenda).contains (.observable id)

theorem mem_unheld {agenda : List Task} {id : ObservableId} : id ∈ net.unheld agenda ↔
    id ∈ net.unnamed ∧ .observable id ∉ Holding.all net agenda := by
  simp [unheld]

theorem releaseObservables_foldl (agenda : List Task) :
    net.releaseObservables agenda = (net.unheld agenda).foldl releaseObservable net := by
  unfold releaseObservables unheld
  split
  · rename_i none
    rw [none]
    rfl
  · rfl

theorem flatMap_deaf {α : Type} (net : Network) (sub : Subscription) {f : Store → List α}
    (same : ∀ st listeners, f { st with listeners } = f st) :
    (net.deaf sub).stores.flatMap f = net.stores.flatMap f := by
  have images : (net.deaf sub).stores.map f = net.stores.map f := by
    refine List.ext_getElem? fun i => ?_
    simp only [deaf, List.getElem?_map, List.getElem?_mapIdx]
    cases net.stores[i]? <;> simp [same]
  rw [List.flatMap_def, List.flatMap_def, images]

theorem roots_shed (ids : List ObservableId) (agenda : List Task) :
    Holding.roots (net.shed ids) agenda = Holding.roots net agenda := by
  have stores := flatMap_deaf { net with
    observables := net.observables.filterKeys fun id => id ∉ ids } (ids.flatMap net.watchingOf)
    (f := fun s => Holding.ofValues (s.owner :: s.slots.values)) fun _ _ => rfl
  simp only [Holding.roots, shed]
  rw [stores]
  rfl

theorem heldBy_shed (ids : List ObservableId) {y : Holding}
    (kept : ∀ id ∈ ids, y ≠ .observable id) :
    Holding.heldBy (net.shed ids) y = Holding.heldBy net y := by
  cases y with
  | object id => rfl
  | observable id =>
      have other : id ∉ ids := fun member => kept id member rfl
      simp only [Holding.heldBy, find?_shed, if_neg other]

theorem keys_shed (ids : List ObservableId) :
    (net.shed ids).observables.keys = net.observables.keys.filter fun id => id ∉ ids :=
  Table.keys_filterKeys _ _

/-- What is held does not change when something is released that is not held. -/
theorem mem_all_shed {ids : List ObservableId} {agenda : List Task}
    (gone : ∀ id ∈ ids, .observable id ∉ Holding.all net agenda) (x : Holding) :
    x ∈ Holding.all (net.shed ids) agenda ↔ x ∈ Holding.all net agenda := by
  have released {y : Holding} {id : ObservableId} (member : y ∈ Holding.all (net.shed ids) agenda)
      (here : id ∈ ids) : y ≠ .observable id := by
    rintro rfl
    have present := Holding.mem_of_mem_settled member
    simp [Holding.everything, keys_shed, here] at present
  have kept {y : Holding} {id : ObservableId} (member : y ∈ Holding.all net agenda)
      (here : id ∈ ids) : y ≠ .observable id := by
    rintro rfl
    exact gone id here member
  constructor
  · refine Holding.settled_mono (fun y member => ?_) (fun y => by rw [roots_shed]; exact id)
      fun y member => ?_
    · have present := Holding.mem_of_mem_settled member
      simp only [Holding.everything, keys_shed, List.mem_append, List.mem_map,
        List.mem_filter] at present ⊢
      exact present.imp id fun ⟨id, ⟨present, _⟩, same⟩ => ⟨id, present, same⟩
    · rw [heldBy_shed ids fun id here => released member here]
      exact fun x => id
  · refine Holding.settled_mono (fun y member => ?_) (fun y => by rw [roots_shed]; exact id)
      fun y member => ?_
    · have present := Holding.mem_of_mem_settled member
      simp only [Holding.everything, keys_shed, List.mem_append, List.mem_map,
        List.mem_filter, decide_eq_true_eq] at present ⊢
      refine present.imp id fun ⟨id, present, same⟩ => ⟨id, ⟨present, fun here => ?_⟩, same⟩
      exact kept member here same.symm
    · rw [heldBy_shed ids fun id here => kept member here]
      exact fun x => id

/-- The more is still to be done, the more is held. -/
theorem all_mono {less more : List Task}
    (fewer : ∀ x ∈ less.flatMap Holding.ofTask, x ∈ more.flatMap Holding.ofTask) {x : Holding}
    (member : x ∈ Holding.all net less) : x ∈ Holding.all net more := by
  refine Holding.settled_mono (fun y => Holding.mem_of_mem_settled) (fun y root => ?_)
    (fun y _ x => id) member
  simp only [Holding.roots, List.mem_append] at root ⊢
  exact root.imp id (fewer y)

/-- All bindings have names. -/
def Named (net : Network) : Prop :=
  ∀ id ∈ net.bindings.keys, id ∈ net.bindingNames.values

theorem releaseBindings_of_named (named : net.Named) : net.releaseBindings = net := by
  have none : net.bindings.keys.filter (!net.bindingNames.values.contains ·) = [] := by
    refine List.filter_eq_nil_iff.mpr fun id member => ?_
    simpa using named id member
  simp only [releaseBindings, none]
  rfl

theorem bindingNames_releaseBinding (id : BindingId) :
    (net.releaseBinding id).bindingNames = net.bindingNames :=
  releaseBinding_cases (fun _ => rfl) fun b _ =>
    drop_keeps Network.bindingNames (fun _ reg => by cases reg <;> rfl) _ b.watching

theorem keys_releaseBinding {id k : BindingId}
    (member : k ∈ (net.releaseBinding id).bindings.keys) : k ∈ net.bindings.keys ∧ k ≠ id := by
  have keeps (net : Network) (sub : Subscription) :
      (net.drop sub).bindings.keys = net.bindings.keys := by
    refine drop_keeps (fun net => net.bindings.keys) (fun net reg => ?_) net sub
    cases reg with
    | bindingObserver id n => exact Table.keys_adjust _ _ _
    | _ => rfl
  unfold releaseBinding at member
  split at member
  · rw [keeps] at member
    simpa [Table.erase, Table.keys_filterKeys] using member
  · rename_i missing
    refine ⟨member, ?_⟩
    rintro rfl
    exact Table.find?_ne_none member missing

theorem named_releaseBindings : net.releaseBindings.Named := by
  have released (ids : List BindingId) (net : Network) :
      (ids.foldl releaseBinding net).bindingNames = net.bindingNames ∧
      ∀ k ∈ (ids.foldl releaseBinding net).bindings.keys, k ∈ net.bindings.keys ∧ k ∉ ids := by
    induction ids generalizing net with
    | nil => exact ⟨rfl, fun k member => ⟨member, List.not_mem_nil⟩⟩
    | cons id ids ih =>
        obtain ⟨names, keys⟩ := ih (net.releaseBinding id)
        refine ⟨names.trans (bindingNames_releaseBinding id), fun k member => ?_⟩
        obtain ⟨present, others⟩ := keys k member
        obtain ⟨present, other⟩ := keys_releaseBinding present
        exact ⟨present, List.not_mem_cons_of_ne_of_not_mem other others⟩
  intro k member
  obtain ⟨names, keys⟩ := released (net.bindings.keys.filter
    (!net.bindingNames.values.contains ·)) net
  obtain ⟨present, kept⟩ := keys k member
  show k ∈ net.releaseBindings.bindingNames.values
  simp only [releaseBindings, names]
  simpa [present] using kept

theorem releaseObservables_eq (upstream : net.Upstream) (agenda : List Task) :
    net.releaseObservables agenda = net.shed (net.unheld agenda) :=
  (releaseObservables_foldl agenda).trans (foldl_releaseObservable upstream _).1

/-- What is still unheld when some is released that was not held. -/
theorem mem_unheld_shed {ids : List ObservableId} {agenda : List Task}
    (gone : ∀ id ∈ ids, .observable id ∉ Holding.all net agenda) {id : ObservableId} :
    id ∈ (net.shed ids).unheld agenda ↔ id ∈ net.unheld agenda ∧ id ∉ ids := by
  rw [mem_unheld, mem_unheld, mem_all_shed gone]
  have unnamed : id ∈ (net.shed ids).unnamed ↔ id ∈ net.unnamed ∧ id ∉ ids := by
    have names : (net.shed ids).observableNames = net.observableNames := rfl
    simp only [unnamed, keys_shed, names, List.mem_filter, decide_eq_true_eq]
    exact and_right_comm
  rw [unnamed]
  exact and_right_comm

/-- What is released depends on what the agenda holds, and on nothing else in it. -/
theorem release_congr (net : Network) {agenda agenda' : List Task}
    (same : agenda.flatMap Holding.ofTask = agenda'.flatMap Holding.ofTask) :
    net.release agenda = net.release agenda' := by
  have all (net : Network) : Holding.all net agenda = Holding.all net agenda' := by
    simp only [Holding.all, Holding.roots, same]
  simp only [release, releaseObservables, all]

/-- Releasing late is releasing all the same. -/
theorem release_release (upstream : net.Upstream) {less more : List Task}
    (fewer : ∀ x ∈ less.flatMap Holding.ofTask, x ∈ more.flatMap Holding.ofTask) :
    (net.release more).release less = net.release less := by
  have upstream := (Sheds.releaseBindings upstream).upstream upstream
  have named : net.releaseBindings.Named := named_releaseBindings
  unfold release
  generalize net.releaseBindings = net at upstream named ⊢
  have gone (id : ObservableId) (member : id ∈ net.unheld more) :
      .observable id ∉ Holding.all net less :=
    fun held => (mem_unheld.mp member).2 (all_mono fewer held)
  have first := releaseObservables_eq upstream more
  have later : (net.shed (net.unheld more)).Upstream := (foldl_releaseObservable upstream _).2
  have same : (net.shed (net.unheld more)).Named := named
  rw [first, releaseBindings_of_named same, releaseObservables_eq later,
    releaseObservables_eq upstream]
  refine shed_shed fun id => ?_
  rw [mem_unheld_shed gone]
  constructor
  · intro member
    by_cases before : id ∈ net.unheld more
    · exact .inl before
    · exact .inr ⟨member, before⟩
  · rintro (member | ⟨member, -⟩)
    · exact mem_unheld.mpr ⟨(mem_unheld.mp member).1, gone id member⟩
    · exact member

theorem core_releaseBinding (net : Network) (id : BindingId) :
    (net.releaseBinding id).core = (net.core.releaseBinding id).core := by
  simp only [releaseBinding, find?_core_bindings]
  cases net.bindings.find? id with
  | none => exact net.core_core.symm
  | some b =>
      have dropped := congrArg (fun n : Network => (n.drop b.watching).core)
        (net.core_eraseBinding id)
      exact (core_drop _ _).trans (dropped.trans (core_drop _ _).symm)

theorem core_releaseObservable (net : Network) (id : ObservableId) :
    (net.releaseObservable id).core = (net.core.releaseObservable id).core := by
  simp only [releaseObservable, find?_core_observables]
  cases net.observables.find? id with
  | none => exact net.core_core.symm
  | some o =>
      have dropped := congrArg (fun n : Network => (n.drop o.watching).core)
        (net.core_eraseObservable id)
      exact (core_drop _ _).trans (dropped.trans (core_drop _ _).symm)

theorem mem_all_core (net : Network) (agenda : List Task) (x : Holding) :
    x ∈ Holding.all net.core agenda ↔ x ∈ Holding.all net agenda := by
  have heldBy (y : Holding) : Holding.heldBy net.core y = Holding.heldBy net y := by
    cases y with
    | object id => rfl
    | observable id =>
        simp only [Holding.heldBy, find?_core_observables]
        cases net.observables.find? id <;> rfl
  have roots : Holding.roots net.core agenda = Holding.roots net agenda := by
    have values := Table.values_map net.bindings Binding.unobserved
    simp only [Holding.roots, core, values, List.flatMap_map]
    rfl
  have everything : Holding.everything net.core = Holding.everything net := by
    simp only [Holding.everything, core, Table.keys_map]
  constructor
  · exact Holding.settled_mono (fun y member => everything ▸ Holding.mem_of_mem_settled member)
      (fun y => by rw [roots]; exact id) fun y _ x => by rw [heldBy]; exact id
  · exact Holding.settled_mono (fun y member => everything ▸ Holding.mem_of_mem_settled member)
      (fun y => by rw [roots]; exact id) fun y _ x => by rw [heldBy]; exact id

theorem unheld_core (net : Network) (agenda : List Task) :
    net.core.unheld agenda = net.unheld agenda := by
  have unnamed : net.core.unnamed = net.unnamed := by
    simp only [unnamed, core, Table.keys_map]
  unfold unheld
  rw [unnamed]
  refine List.filter_congr fun id _ => ?_
  simp only [List.contains_eq_mem, mem_all_core]

/-- What is released can be seen in the core. -/
theorem core_release (net : Network) (agenda : List Task) :
    (net.release agenda).core = (net.core.release agenda).core := by
  have bindings : net.releaseBindings.core = net.core.releaseBindings.core := by
    have keys : net.core.bindings.keys = net.bindings.keys := Table.keys_map _ _
    have names : net.core.bindingNames = net.bindingNames := rfl
    unfold releaseBindings
    rw [keys, names]
    exact core_foldl core_releaseBinding _ net
  have observables (net : Network) : (net.releaseObservables agenda).core =
      (net.core.releaseObservables agenda).core := by
    rw [releaseObservables_foldl, releaseObservables_foldl, unheld_core]
    exact core_foldl core_releaseObservable _ net
  unfold release
  rw [observables, bindings, ← observables]

theorem subscriptions_release (net : Network) (agenda : List Task) :
    (net.release agenda).subscriptions = net.subscriptions :=
  release_keeps Network.subscriptions (fun _ reg => by cases reg <;> rfl) (fun _ _ => rfl)
    (fun _ _ => rfl) net agenda

end Network

end SlotScript
