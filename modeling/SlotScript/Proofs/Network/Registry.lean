import Mathlib.Data.List.Nodup
import SlotScript.Proofs.Network.Deed

/-! # Every listener is there for somebody

The listeners of a store are just those that there have to be: one for each thing that an observable
or a binding has to be told of there, and one for each registration that somebody keeps under a
label. They are made with whom they are made for and dropped with it, so this is so at all times.
-/

namespace SlotScript

/-- The listeners of a store are those that are due to publishers, and those that are kept under
labels. Publishers own theirs by their numbers. -/
structure Store.Lists (st : Store) (due : Publisher → List (Option String))
    (owns : Publisher → Nat → Prop) (kept : Nat → Nat) : Prop where
  distinct : (st.listeners.map Listener.id).Nodup
  numbered : ∀ l ∈ st.listeners, l.id < st.nextListener
  due : ∀ k, (st.listeners.filter fun l => l.callback.wakes? = some k).map Listener.key = due k
  owned : ∀ k id, owns k id ↔ ∃ l ∈ st.listeners, l.id = id ∧ l.callback.wakes? = some k
  kept : ∀ id, kept id = st.listeners.countP fun l => l.id = id ∧ l.callback.wakes? = none

namespace Store.Lists

variable {st st' : Store} {due due' : Publisher → List (Option String)}
  {owns owns' : Publisher → Nat → Prop} {kept kept' : Nat → Nat} {s : StoreId} {k : Publisher}
  {gone : Subscription} {l : Listener}

theorem congr (h : st.Lists due owns kept) (same_due : ∀ k, due' k = due k)
    (same_owns : ∀ k id, owns' k id ↔ owns k id) (same_kept : ∀ id, kept' id = kept id) :
    st.Lists due' owns' kept' :=
  ⟨h.distinct, h.numbered, fun k => (h.due k).trans (same_due k).symm,
    fun k id => (same_owns k id).trans (h.owned k id), fun id => (same_kept id).trans (h.kept id)⟩

theorem of_table (h : st.Lists due owns kept) (same : st'.table = st.table) :
    st'.Lists due owns kept := by
  obtain ⟨-, listeners, next⟩ : _ ∧ st'.listeners = st.listeners ∧
    st'.nextListener = st.nextListener := by simpa [table] using same
  obtain ⟨distinct, numbered, due, owned, kept⟩ := h
  rw [← listeners] at distinct numbered due owned kept
  rw [← next] at numbered
  exact ⟨distinct, numbered, due, owned, kept⟩

/-- One more listener. -/
theorem enlist_one (h : st.Lists due owns kept) (callback : Callback) (key : Option String) :
    (st.enlist callback [key]).Lists
      (fun k => due k ++ if callback.wakes? = some k then [key] else [])
      (fun k id => owns k id ∨ callback.wakes? = some k ∧ id = st.nextListener)
      (fun id => kept id + if callback.wakes? = none ∧ id = st.nextListener then 1 else 0) := by
  have listeners : (st.enlist callback [key]).listeners =
      st.listeners ++ [⟨st.nextListener, key, callback⟩] := rfl
  refine ⟨?_, ?_, fun k => ?_, fun k id => ?_, fun id => ?_⟩
  · rw [listeners, List.map_append]
    refine List.nodup_append.mpr ⟨h.distinct, ?_, fun id older _ new => ?_⟩
    · exact List.nodup_cons.mpr ⟨List.not_mem_nil, List.nodup_nil⟩
    · obtain ⟨l, member, rfl⟩ := List.mem_map.mp older
      rw [List.mem_singleton.mp new]
      exact Nat.ne_of_lt (h.numbered l member)
  · refine List.forall_mem_append.mpr ⟨fun l member => ?_, List.forall_mem_singleton.mpr ?_⟩
    · exact Nat.lt_succ_of_lt (h.numbered l member)
    · exact Nat.lt_succ_self _
  · rw [listeners, List.filter_append, List.map_append, h.due]
    congr 1
    by_cases own : callback.wakes? = some k
    · rw [List.filter_cons_of_pos (by simpa using own), if_pos own]
      rfl
    · rw [List.filter_cons_of_neg (by simpa using own), if_neg own]
      rfl
  · rw [listeners, h.owned]
    simp only [List.mem_append, List.mem_singleton, or_and_right, exists_or, exists_eq_left]
    exact or_congr_right (and_comm.trans (and_congr_left' eq_comm))
  · rw [listeners, List.countP_append, h.kept, List.countP_singleton]
    grind

theorem enlist (h : st.Lists due owns kept) (callback : Callback) (keys : List (Option String)) :
    (st.enlist callback keys).Lists
      (fun k => due k ++ if callback.wakes? = some k then keys else [])
      (fun k id => owns k id ∨ callback.wakes? = some k ∧
        st.nextListener ≤ id ∧ id < st.nextListener + keys.length)
      (fun id => kept id + if callback.wakes? = none ∧
        st.nextListener ≤ id ∧ id < st.nextListener + keys.length then 1 else 0) := by
  induction keys generalizing st due owns kept with
  | nil =>
      rw [enlist_nil]
      refine h.congr (fun k => ?_) (fun k id => ?_) fun id => ?_
      · simp
      · exact or_iff_left fun added => Nat.not_lt.mpr added.2.1 added.2.2
      · rw [if_neg fun added => Nat.not_lt.mpr added.2.1 added.2.2, Nat.add_zero]
  | cons key keys ih =>
      have more := ih (h.enlist_one callback key)
      rw [enlist_enlist] at more
      have next : (st.enlist callback [key]).nextListener = st.nextListener + 1 := rfl
      refine more.congr (fun k => ?_) (fun k id => ?_) fun id => ?_
      · by_cases own : callback.wakes? = some k <;> simp [own]
      · rw [next, List.length_cons]
        grind
      · rw [next, List.length_cons]
        grind

/-- A listener is known by its number. -/
theorem unique (h : st.Lists due owns kept) {l' : Listener} (member : l ∈ st.listeners)
    (member' : l' ∈ st.listeners) (same : l.id = l'.id) : l = l' :=
  List.inj_on_of_nodup_map h.distinct member member' same

/-- A publisher owns the listeners that wake it. -/
theorem owns_iff (h : st.Lists due owns kept) (member : l ∈ st.listeners) :
    owns k l.id ↔ l.callback.wakes? = some k := by
  rw [h.owned]
  constructor
  · rintro ⟨l', member', same, wakes⟩
    exact h.unique member' member same ▸ wakes
  · exact fun wakes => ⟨l, member, rfl, wakes⟩

theorem kept_le_one (h : st.Lists due owns kept) (id : Nat) : kept id ≤ 1 :=
  calc kept id = st.listeners.countP fun l => l.id = id ∧ l.callback.wakes? = none := h.kept id
    _ ≤ st.listeners.countP (Listener.id · == id) :=
      List.countP_mono_left fun l _ own => by simp_all
    _ = (st.listeners.map Listener.id).count id := by rw [List.count, List.countP_map]; rfl
    _ ≤ 1 := List.nodup_iff_count_le_one.mp h.distinct id

theorem sublist (h : st.Lists due owns kept) :
    ((st.spared s gone).listeners.map Listener.id).Nodup ∧
      ∀ l ∈ (st.spared s gone).listeners, l.id < st.nextListener :=
  ⟨h.distinct.sublist (List.filter_sublist.map _),
    fun l member => h.numbered l (List.mem_filter.mp member).1⟩

/-- All that a publisher owns is dropped. -/
theorem spare_publisher (h : st.Lists due owns kept)
    (all : ∀ id, .listener s id ∈ gone ↔ owns k id) :
    (st.spared s gone).Lists (fun j => if j = k then [] else due j)
      (fun j id => j ≠ k ∧ owns j id) kept := by
  have dropped (l : Listener) (member : l ∈ st.listeners) :
      .listener s l.id ∈ gone ↔ l.callback.wakes? = some k :=
    (all l.id).trans (h.owns_iff member)
  have listeners : (st.spared s gone).listeners =
      st.listeners.filter fun l => l.callback.wakes? ≠ some k :=
    List.filter_congr fun l member => by simp [dropped l member]
  refine ⟨h.sublist.1, h.sublist.2, fun j => ?_, fun j id => ?_, fun id => ?_⟩
  · rw [listeners, List.filter_filter]
    split
    · rename_i same
      rw [same, List.filter_eq_nil_iff.mpr]
      · rfl
      · simp
    · rename_i other
      rw [← h.due]
      congr 1
      refine List.filter_congr fun l _ => ?_
      by_cases own : l.callback.wakes? = some j <;> simp [own, other]
  · rw [listeners, h.owned]
    grind
  · rw [listeners, List.countP_filter, h.kept]
    refine List.countP_congr fun l _ => ?_
    grind

/-- What is dropped of what is kept under labels wakes no publisher. -/
theorem unwoken (h : st.Lists due owns kept)
    (sum : ∀ id, kept' id + gone.count (.listener s id) = kept id) (member : l ∈ st.listeners)
    (dropped : .listener s l.id ∈ gone) : l.callback.wakes? = none := by
  have counted := List.count_pos_iff.mpr dropped
  have pos : 0 < kept l.id := by
    rw [← sum]
    omega
  rw [h.kept, List.countP_pos_iff] at pos
  obtain ⟨l', member', own⟩ := pos
  obtain ⟨same, wakes⟩ := of_decide_eq_true own
  exact h.unique member' member same ▸ wakes

/-- Some of what is kept under labels is dropped. -/
theorem spare_kept (h : st.Lists due owns kept)
    (sum : ∀ id, kept' id + gone.count (.listener s id) = kept id) :
    (st.spared s gone).Lists due owns kept' := by
  have stays (l : Listener) (member : l ∈ st.listeners) (k : Publisher)
      (wakes : l.callback.wakes? = some k) : .listener s l.id ∉ gone := by
    intro dropped
    cases (h.unwoken sum member dropped).symm.trans wakes
  refine ⟨h.sublist.1, h.sublist.2, fun k => ?_, fun k id => ?_, fun id => ?_⟩
  · rw [← h.due, spared, List.filter_filter]
    congr 1
    refine List.filter_congr fun l member => ?_
    by_cases own : l.callback.wakes? = some k
    · simp [own, stays l member k own]
    · simp [own]
  · rw [h.owned]
    constructor
    · rintro ⟨l, member, rfl, wakes⟩
      exact ⟨l, List.mem_filter.mpr ⟨member, by simpa using stays l member k wakes⟩, rfl, wakes⟩
    · rintro ⟨l, member, rfl, wakes⟩
      exact ⟨l, (List.mem_filter.mp member).1, rfl, wakes⟩
  · have counted := sum id
    rw [h.kept] at counted
    rw [spared, List.countP_filter]
    by_cases dropped : .listener s id ∈ gone
    · have none_left : st.listeners.countP (fun l =>
          decide (l.id = id ∧ l.callback.wakes? = none) && decide (.listener s l.id ∉ gone)) = 0 :=
        List.countP_eq_zero.mpr fun l _ => by grind
      have pos := List.count_pos_iff.mpr dropped
      have one := h.kept_le_one id
      rw [h.kept] at one
      omega
    · rw [List.count_eq_zero.mpr dropped, Nat.add_zero] at counted
      rw [counted]
      refine List.countP_congr fun l _ => ?_
      grind

end Store.Lists

namespace Network

/-- A publisher keeps the listener of a store with this number. -/
def Owns (net : Network) (s : StoreId) (k : Publisher) (id : Nat) : Prop :=
  ∃ u, net.upkeep? k = some u ∧ .listener s id ∈ u.watching

/-- Every listener of every store is there for somebody, and nobody lacks one. -/
structure Registered (net : Network) : Prop where
  forest : net.Forest
  made : ∀ k u, net.upkeep? k = some u → net.Made k
  lists : ∀ (s : StoreId) (st : Store), net.stores[s]? = some st →
    st.Lists (net.due · s) (net.Owns s) fun id => net.copies (.listener s id)

variable {net net' : Network} {k : Publisher}

theorem due_of_none (nobody : net.upkeep? k = none) (s : StoreId) : net.due k s = [] := by
  simp only [due, nobody]

theorem due_of_some {u : Upkeep} (found : net.upkeep? k = some u) (s : StoreId) :
    net.due k s = u.due (net.chain u.store) s := by
  simp only [due, found]

theorem SameScopes.due (h : SameScopes net net') (same : net'.upkeep? k = net.upkeep? k)
    (s : StoreId) : net'.due k s = net.due k s := by
  simp only [Network.due, same, h.chain]

theorem owns_of_same (same : net'.upkeep? k = net.upkeep? k) (s : StoreId) (id : Nat) :
    net'.Owns s k id ↔ net.Owns s k id := by
  simp only [Owns, same]

namespace Registered

theorem same (h : Registered net) (same : SameTables net net') : Registered net' := by
  refine ⟨same.scopes.forest h.forest, fun k u found => (same.made k).mpr (h.made k u ?_),
    fun s st' later => ?_⟩
  · rw [← same.upkeep, found]
  · have table := same.tables s
    rw [later, Option.map_some, eq_comm, Option.map_eq_some_iff] at table
    obtain ⟨st, found, table⟩ := table
    exact ((h.lists s st found).of_table table.symm).congr
      (fun k => same.scopes.due (same.upkeep k) s)
      (fun k id => owns_of_same (same.upkeep k) s id) fun id => same.copies _

/-- Somebody comes to watch under a label, and others stop watching. -/
theorem keeps (h : Registered net) {callback : Callback}
    {due : StoreId → List (Option String)} {sub gone : Subscription} {mid : Network}
    (own : callback.wakes? = none) (enrolled : Enrolls callback due sub net mid)
    (spared : ∀ s : StoreId, net'.stores[s]? = (mid.stores[s]?).map fun st => st.spared s gone)
    (upkeep : ∀ k, net'.upkeep? k = net.upkeep? k) (made : ∀ k, net'.Made k ↔ net.Made k)
    (copies : ∀ s id, net'.copies (.listener s id) + gone.count (.listener s id) =
      net.copies (.listener s id) + sub.count (.listener s id)) : Registered net' := by
  have scopes : SameScopes net net' := enrolled.scopes.trans (.spared spared)
  refine ⟨scopes.forest h.forest, fun k u found => (made k).mpr (h.made k u ?_),
    fun s st' later => ?_⟩
  · rw [← upkeep, found]
  · rw [spared, enrolled.stores, Option.map_map] at later
    obtain ⟨st, found, rfl⟩ := Option.map_eq_some_iff.mp later
    refine (((h.lists s st found).enlist callback (due s)).spare_kept fun id => ?_).congr
      (fun k => ?_) (fun k id => ?_) fun _ => rfl
    · rw [copies, enrolled.made s st found]
      simp only [own, true_and]
    · rw [scopes.due (upkeep k), own, if_neg nofun, List.append_nil]
    · rw [owns_of_same (upkeep k), own]
      exact (or_iff_left nofun).symm

/-- An observable or a binding is made. -/
theorem makes (h : Registered net) {u : Upkeep} {mid : Network} (fresh : ¬ net.Made k)
    (enrolled : Enrolls k.callback (u.due (net.chain u.store)) u.watching net mid)
    (stores : net'.stores = mid.stores)
    (upkeep : ∀ j, net'.upkeep? j = if j = k then some u else net.upkeep? j)
    (made : ∀ j, net'.Made j ↔ j = k ∨ net.Made j)
    (copies : ∀ reg, net'.copies reg = net.copies reg) : Registered net' := by
  have scopes : SameScopes net net' := enrolled.scopes.trans (.of_eq stores)
  have nobody : net.upkeep? k = none :=
    Option.eq_none_iff_forall_ne_some.mpr fun u found => fresh (h.made k u found)
  have mine : net'.upkeep? k = some u := by rw [upkeep, if_pos rfl]
  have others (j : Publisher) (other : j ≠ k) : net'.upkeep? j = net.upkeep? j := by
    rw [upkeep, if_neg other]
  refine ⟨scopes.forest h.forest, fun j v found => ?_, fun s st' later => ?_⟩
  · by_cases same : j = k
    · exact (made j).mpr (.inl same)
    · exact (made j).mpr (.inr (h.made j v (others j same ▸ found)))
  · rw [stores, enrolled.stores] at later
    obtain ⟨st, found, rfl⟩ := Option.map_eq_some_iff.mp later
    refine ((h.lists s st found).enlist k.callback _).congr (fun j => ?_) (fun j id => ?_)
      fun id => ?_
    · by_cases same : j = k
      · subst same
        rw [due_of_some mine, due_of_none nobody, scopes.chain, Publisher.wakes?_callback,
          if_pos rfl, List.nil_append]
      · rw [scopes.due (others j same), Publisher.wakes?_callback,
          if_neg fun own => same (Option.some.inj own).symm, List.append_nil]
    · by_cases same : j = k
      · subst same
        have counted := enrolled.made s st found id
        simp only [Owns, mine, nobody, Option.some.injEq, exists_eq_left', ← List.count_pos_iff,
          counted, Publisher.wakes?_callback]
        split <;> simp_all
      · rw [owns_of_same (others j same), Publisher.wakes?_callback]
        exact (or_iff_left fun own => same (Option.some.inj own.1).symm).symm
    · rw [copies, Publisher.wakes?_callback, if_neg nofun, Nat.add_zero]

/-- One of them comes to its end. -/
theorem ends (h : Registered net) {u : Upkeep} {left? : Option Upkeep}
    (ends : Ends k u left? net net') : Registered net' := by
  obtain ⟨found, ended, spared, upkeep, made, copies⟩ := ends
  have scopes : SameScopes net net' := .spared spared
  have mine : net'.upkeep? k = left? := by rw [upkeep, if_pos rfl]
  have others (j : Publisher) (other : j ≠ k) : net'.upkeep? j = net.upkeep? j := by
    rw [upkeep, if_neg other]
  refine ⟨scopes.forest h.forest, fun j v later => (made j).mpr ?_, fun s st' later => ?_⟩
  · by_cases same : j = k
    · exact h.made j u (same ▸ found)
    · exact h.made j v (others j same ▸ later)
  · rw [spared] at later
    obtain ⟨st, before, rfl⟩ := Option.map_eq_some_iff.mp later
    have all (id : Nat) : .listener s id ∈ u.watching ↔ net.Owns s k id := by
      simp only [Owns, found, Option.some.injEq, exists_eq_left']
    refine ((h.lists s st before).spare_publisher all).congr (fun j => ?_) (fun j id => ?_)
      fun id => copies _
    · split
      · rename_i same
        subst same
        cases left? with
        | none => exact due_of_none mine s
        | some left =>
            rw [due_of_some mine, Upkeep.due, if_pos (ended left rfl).1]
      · rename_i other
        exact scopes.due (others j other) s
    · by_cases same : j = k
      · subst same
        refine iff_of_false ?_ fun own => own.1 rfl
        rintro ⟨left, there, member⟩
        rw [(ended left (mine.symm.trans there)).2] at member
        cases member
      · rw [owns_of_same (others j same), and_iff_right same]

/-- Whatever happens to the listeners keeps them in order. -/
theorem registers (h : Registered net) (registers : Registers net net') : Registered net' := by
  cases registers with
  | same same => exact h.same same
  | keeps gone own enrolled spared upkeep made copies =>
      exact h.keeps own enrolled spared upkeep made copies
  | makes fresh _ enrolled stores upkeep made copies =>
      exact h.makes fresh enrolled stores upkeep made copies
  | ends ends => exact h.ends ends

theorem release (h : Registered net) (agenda : List Task) : Registered (net.release agenda) :=
  release_preserves (fun before ends => before.ends ends) h agenda

end Registered

end Network

end SlotScript
