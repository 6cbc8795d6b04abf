import Mathlib.Data.List.Forall2
import SlotScript.Proofs.Network.Independence

/-! # Who watches

Whoever watches is registered with each store of a scope, under a number of its own in each, and
what is kept under its handle lists just these. So the listeners of all stores agree with one list
of those who watch, in the order in which they came, and nothing but that list has to be looked at
to know who is told of a change.
-/

namespace SlotScript

/-- Somebody watches a key of a store, or a store being cleared. -/
structure Watch where
  /-- The label under which its subscription is kept. -/
  handle : String
  /-- The label under which it reports. -/
  label : String
  store : StoreId
  key : Option String

namespace Operation

/-- Who watches from then on. -/
def comer? : Operation → Option Watch
  | .watch store key label _ => some ⟨label, label, store, some key⟩
  | .watchAll store label _ => some ⟨label, label, store, none⟩
  | _ => none

/-- What becomes of somebody who watches, unless the subscription is dropped. -/
def retain? (op : Operation) (w : Watch) : Option Watch :=
  match op with
  | .watch _ _ label _ | .watchAll _ label _ | .unsubscribe label =>
    if w.handle = label then none else some w
  | .combine labels label =>
    if w.handle ∈ labels then some { w with handle := label }
    else if w.handle = label then none else some w
  | _ => some w

/-- Who watches after an operation, in the order of registration. -/
def watches (op : Operation) (ws : List Watch) : List Watch :=
  ws.filterMap op.retain? ++ op.comer?.toList

/-- An operation on an existing store, whose callbacks only report. -/
def Plain (net : Network) : Operation → Prop
  | .set store _ _ | .assign store _ _ | .remove store _ | .clear store _ =>
    (net.stores[store]?).isSome
  | .watch store _ _ action | .watchAll store _ action =>
    (net.stores[store]?).isSome ∧ action = none
  | .combine .. | .unsubscribe _ => True
  | _ => False

end Operation

namespace Network

/-- Every store has a parent that was there before it, or none. -/
def Forest (net : Network) : Prop :=
  ∀ (store : StoreId) (st : Store), net.stores[store]? = some st →
    st.ancestors = [] ∨ ∃ parent < store, st.ancestors = net.chain parent

/-- The stores with which somebody who watches is registered. -/
def scope (net : Network) (w : Watch) : List StoreId :=
  match w.key with
  | some _ => net.chain w.store
  | none => [w.store]

/-- A listener of a store is there for somebody who watches, and its subscription alone lists it. -/
structure Serves (net : Network) (store : StoreId) (l : Listener) (w : Watch) : Prop where
  key : l.key = w.key
  callback : l.callback = .report w.label none
  handle : ∀ label, .listener store l.id ∈ net.subscription label ↔ w.handle = label

/-- Every store has one listener for each of those who watch and in whose scope it is, in the order
in which they came. -/
structure Ledger (ws : List Watch) (net : Network) : Prop where
  forest : net.Forest
  observables : net.observables = .empty
  bindings : net.bindings = .empty
  listeners : ∀ (store : StoreId) (st : Store), net.stores[store]? = some st →
    List.Forall₂ (net.Serves store) st.listeners (ws.filter fun w => store ∈ net.scope w)
  numbered : ∀ (store : StoreId) (st : Store), net.stores[store]? = some st →
    ∀ l ∈ st.listeners, l.id < st.nextListener
  issued : ∀ label, ∀ reg ∈ net.subscription label,
    ∃ store id, reg = .listener store id ∧ net.Issued store id

/-- The number that the next listener of a store gets. -/
def nextNumber (net : Network) (store : StoreId) : Nat :=
  ((net.stores[store]?).map Store.nextListener).getD 0

/-- The network with a callback registered with some stores. -/
def enroll (net : Network) (places : List StoreId) (key : Option String) (callback : Callback) :
    Network :=
  { net with stores := net.stores.mapIdx fun i st =>
      if i ∈ places then { st with
        listeners := st.listeners ++ [⟨st.nextListener, key, callback⟩]
        nextListener := st.nextListener + 1 } else st }

end Network

section Lists

variable {α β γ δ : Type} {R : α → β → Prop} {S : α → γ → Prop} {as : List α} {bs : List β}

theorem forall₂_filter {p : α → Bool} {f : β → Option γ} (agree : List.Forall₂ R as bs)
    (step : ∀ a ∈ as, ∀ b, R a b → if p a then ∃ c, f b = some c ∧ S a c else f b = none) :
    List.Forall₂ S (as.filter p) (bs.filterMap f) := by
  induction agree with
  | nil => exact .nil
  | @cons a b as bs related _ ih =>
      have others := ih fun a member => step a (.tail _ member)
      have first := step a (.head _) b related
      split at first
      · rename_i stays
        obtain ⟨c, image, related⟩ := first
        rw [List.filter_cons_of_pos stays, List.filterMap_cons_some image]
        exact .cons related others
      · rename_i goes
        rwa [List.filter_cons_of_neg goes, List.filterMap_cons_none first]

theorem map_filter_of_forall₂ {p : α → Bool} {q : β → Bool} {f : α → δ} {g : β → δ}
    (agree : List.Forall₂ R as bs) (step : ∀ a b, R a b → p a = q b ∧ f a = g b) :
    (as.filter p).map f = (bs.filter q).map g := by
  induction agree with
  | nil => rfl
  | @cons a b as bs related _ ih =>
      obtain ⟨same, image⟩ := step a b related
      by_cases stays : q b = true
      · rw [List.filter_cons_of_pos (same.trans stays), List.filter_cons_of_pos stays,
          List.map_cons, List.map_cons, image, ih]
      · rw [List.filter_cons_of_neg (same ▸ stays), List.filter_cons_of_neg stays, ih]

theorem flatMap_eq_of_forall₂ {f : α → List γ} {g : β → List γ} (agree : List.Forall₂ R as bs)
    (step : ∀ a b, R a b → f a = g b) : as.flatMap f = bs.flatMap g := by
  induction agree with
  | nil => rfl
  | @cons a b as bs related _ ih =>
      rw [List.flatMap_cons, List.flatMap_cons, step a b related, ih]

end Lists

namespace Network

variable {net net' : Network} {ws : List Watch} {w : Watch} {store s t : StoreId}

theorem Forest.chain_le (forest : net.Forest) (s : StoreId) :
    (net.chain s).Pairwise (· > ·) ∧ ∀ t ∈ net.chain s, t ≤ s := by
  induction s using Nat.strongRecOn with
  | ind s ih =>
      have alone : net.chain s = [s] →
          (net.chain s).Pairwise (· > ·) ∧ ∀ t ∈ net.chain s, t ≤ s := by
        intro same
        rw [same]
        exact ⟨List.pairwise_singleton _ _, List.forall_mem_singleton.mpr (Nat.le_refl s)⟩
      cases found : net.stores[s]? with
      | none => exact alone (by simp only [chain, found, Option.map_none, Option.getD_none])
      | some st =>
          have chain : net.chain s = s :: st.ancestors := by
            simp only [Network.chain, found, Option.map_some, Option.getD_some]
          obtain none | ⟨parent, before, same⟩ := forest s st found
          · exact alone (none ▸ chain)
          · obtain ⟨sorted, below⟩ := ih parent before
            have less (t : StoreId) (member : t ∈ net.chain parent) : t < s :=
              Nat.lt_of_le_of_lt (below t member) before
            rw [chain, same]
            exact ⟨List.pairwise_cons.mpr ⟨less, sorted⟩, List.forall_mem_cons.mpr
              ⟨Nat.le_refl s, fun t member => Nat.le_of_lt (less t member)⟩⟩

/-- The ancestors of a store that exists do so as well. -/
theorem Forest.exist (forest : net.Forest) (exist : (net.stores[s]?).isSome)
    (member : t ∈ net.chain s) : (net.stores[t]?).isSome := by
  obtain ⟨bound, -⟩ := List.getElem?_eq_some_iff.mp (Option.get_mem exist)
  have older : t ≤ s := (forest.chain_le s).2 t member
  rw [List.getElem?_eq_getElem (Nat.lt_of_le_of_lt older bound)]
  rfl

theorem mem_chain_of_scope {w : Watch} (member : s ∈ net.scope w) : s ∈ net.chain w.store := by
  unfold scope at member
  split at member
  · exact member
  · exact List.mem_singleton.mp member ▸ .head _

theorem Forest.scope_nodup (forest : net.Forest) (w : Watch) : (net.scope w).Nodup := by
  unfold scope
  split
  · exact (forest.chain_le w.store).1.imp Nat.ne_of_gt
  · exact List.nodup_cons.mpr ⟨List.not_mem_nil, List.nodup_nil⟩

/-- The stores are the same ones, with the same ancestors. -/
def SameScopes (net net' : Network) : Prop :=
  ∀ s : StoreId, (net'.stores[s]?).map Store.ancestors = (net.stores[s]?).map Store.ancestors

namespace SameScopes

theorem of_eq (stores : net'.stores = net.stores) : SameScopes net net' :=
  fun s => by rw [stores]

theorem trans {net'' : Network} (first : SameScopes net net') (second : SameScopes net' net'') :
    SameScopes net net'' :=
  fun s => (second s).trans (first s)

theorem chain (h : SameScopes net net') (s : StoreId) : net'.chain s = net.chain s := by
  unfold Network.chain
  rw [h s]

theorem scope (h : SameScopes net net') (w : Watch) : net'.scope w = net.scope w := by
  unfold Network.scope
  split
  · exact h.chain w.store
  · rfl

theorem exist (h : SameScopes net net') (s : StoreId) :
    (net'.stores[s]?).isSome = (net.stores[s]?).isSome := by
  have same := congrArg Option.isSome (h s)
  rwa [Option.isSome_map, Option.isSome_map] at same

theorem forest (h : SameScopes net net') (forest : net.Forest) : net'.Forest := by
  intro s st' later
  have same := h s
  rw [later, Option.map_some, eq_comm, Option.map_eq_some_iff] at same
  obtain ⟨st, found, ancestors⟩ := same
  rw [← ancestors]
  exact (forest s st found).imp_right fun ⟨parent, before, here⟩ =>
    ⟨parent, before, here.trans (h.chain parent).symm⟩

theorem plain (h : SameScopes net net') {op : Operation} (plain : op.Plain net) :
    op.Plain net' := by
  cases op with
  | set | assign | remove | clear => exact (h.exist _).trans plain
  | watch | watchAll => exact ⟨(h.exist _).trans plain.1, plain.2⟩
  | combine | unsubscribe => trivial
  | _ => exact plain

end SameScopes

/-- Stores that are made on their own or with a parent are a forest. -/
theorem Forest.addStore (forest : net.Forest) (owner : Value) (parent : Option StoreId)
    (exist : ∀ p ∈ parent, p < net.stores.length) : (net.addStore parent owner).2.Forest := by
  have older (s : StoreId) (here : s < net.stores.length) :
      (net.addStore parent owner).2.stores[s]? = net.stores[s]? :=
    List.getElem?_append_left here
  have chain (s : StoreId) (here : s < net.stores.length) :
      (net.addStore parent owner).2.chain s = net.chain s := by
    simp only [Network.chain, older s here]
  intro s st found
  by_cases here : s < net.stores.length
  · rw [older s here] at found
    obtain alone | ⟨p, before, same⟩ := forest s st found
    · exact .inl alone
    · exact .inr ⟨p, before, same.trans (chain p (Nat.lt_trans before here)).symm⟩
  · obtain ⟨bound, -⟩ := List.getElem?_eq_some_iff.mp found
    have length : (net.addStore parent owner).2.stores.length = net.stores.length + 1 := by
      simp [Network.addStore]
    rw [length] at bound
    have new : s = net.stores.length :=
      Nat.le_antisymm (Nat.lt_succ_iff.mp bound) (Nat.not_lt.mp here)
    subst new
    simp only [Network.addStore, List.getElem?_concat_length, Option.some.injEq] at found
    subst found
    cases parent with
    | none => exact .inl rfl
    | some p => exact .inr ⟨p, exist p rfl, (chain p (exist p rfl)).symm⟩

theorem enroll_nil (key : Option String) (callback : Callback) :
    net.enroll [] key callback = net := by
  have same : net.stores.mapIdx (fun i st => if i ∈ ([] : List StoreId) then { st with
      listeners := st.listeners ++ [⟨st.nextListener, key, callback⟩]
      nextListener := st.nextListener + 1 } else st) = net.stores := by
    refine List.ext_getElem? fun i => ?_
    rw [List.getElem?_mapIdx]
    cases net.stores[i]? <;> simp
  simp only [enroll, same]

theorem stores_enroll (places : List StoreId) (key : Option String) (callback : Callback)
    (s : StoreId) : (net.enroll places key callback).stores[s]? = (net.stores[s]?).map fun st =>
      if s ∈ places then { st with
        listeners := st.listeners ++ [⟨st.nextListener, key, callback⟩]
        nextListener := st.nextListener + 1 } else st :=
  List.getElem?_mapIdx

theorem enroll_enroll {places others : List StoreId} (apart : ∀ s ∈ places, s ∉ others)
    (key : Option String) (callback : Callback) :
    (net.enroll places key callback).enroll others key callback =
      net.enroll (places ++ others) key callback := by
  simp only [enroll, List.mapIdx_mapIdx, Function.comp_def, List.mem_append]
  congr 1
  refine List.ext_getElem? fun i => ?_
  simp only [List.getElem?_mapIdx]
  cases net.stores[i]? with
  | none => rfl
  | some st =>
      by_cases here : i ∈ places
      · simp [here, apart i here]
      · simp [here]

theorem listen_eq (store : StoreId) (key : Option String) (callback : Callback) :
    net.listen store key callback =
      (.listener store (net.nextNumber store), net.enroll [store] key callback) := by
  have same : net.stores.modify store (fun st => { st with
        listeners := st.listeners ++ [⟨st.nextListener, key, callback⟩]
        nextListener := st.nextListener + 1 }) =
      (net.enroll [store] key callback).stores := by
    refine List.ext_getElem? fun i => ?_
    rw [stores_enroll, List.getElem?_modify]
    by_cases here : store = i
    · simp [here]
    · cases net.stores[i]? <;> simp [here, Ne.symm here]
  simp only [listen, modifyStore, nextNumber, same]
  rfl

/-- A callback is registered with different stores. -/
theorem listenOn_eq (key : String) (callback : Callback) (places : List StoreId)
    (nodup : places.Nodup) : listenOn key callback places net =
      (places.map fun s => .listener s (net.nextNumber s),
        net.enroll places (some key) callback) := by
  induction places generalizing net with
  | nil => rw [enroll_nil]; rfl
  | cons s places ih =>
      obtain ⟨new, nodup⟩ := List.nodup_cons.mp nodup
      have numbers : ∀ s' ∈ places,
          (net.enroll [s] (some key) callback).nextNumber s' = net.nextNumber s' := by
        intro s' member
        have other : s' ≠ s := by
          rintro rfl
          exact new member
        unfold nextNumber
        rw [stores_enroll]
        cases net.stores[s']? <;> simp [other]
      simp only [listenOn, listen_eq, ih nodup, List.map_cons]
      rw [enroll_enroll (List.forall_mem_singleton.mpr new), List.singleton_append]
      congr 2
      exact List.map_congr_left fun s' member => by rw [numbers s' member]

theorem SameScopes.modifyStore {f : Store → Store}
    (ancestors : ∀ st, (f st).ancestors = st.ancestors) :
    SameScopes net (net.modifyStore store f) := by
  intro s
  rw [stores_modifyStore]
  split
  · cases net.stores[s]? <;> simp [ancestors]
  · rfl

theorem SameScopes.drop (sub : Subscription) : SameScopes net (net.drop sub) := by
  refine congrFun (drop_keeps (fun net (s : StoreId) => (net.stores[s]?).map Store.ancestors)
    (fun net reg => ?_) net sub)
  cases reg with
  | listener store id =>
      have kept (st : Store) : { st with
        listeners := st.listeners.filter fun l => l.id ≠ id }.ancestors = st.ancestors := rfl
      exact funext (SameScopes.modifyStore kept)
  | observer | bindingObserver => rfl

theorem SameScopes.listen (store : StoreId) (key : Option String) (callback : Callback) :
    SameScopes net (net.listen store key callback).2 :=
  .modifyStore fun _ => rfl

theorem SameScopes.listenOn (key : String) (callback : Callback) (places : List StoreId) :
    SameScopes net (listenOn key callback places net).2 := by
  induction places generalizing net with
  | nil => exact .of_eq rfl
  | cons s places ih => exact (SameScopes.listen s key callback).trans ih

theorem SameScopes.enroll (places : List StoreId) (key : Option String) (callback : Callback) :
    SameScopes net (net.enroll places key callback) := by
  intro s
  rw [stores_enroll]
  cases net.stores[s]? with
  | none => rfl
  | some st =>
      simp only [Option.map_some]
      split <;> rfl

theorem stores_deaf (old : Subscription) (s : StoreId) :
    (net.deaf old).stores[s]? = (net.stores[s]?).map fun st =>
      { st with listeners := st.listeners.filter fun l => .listener s l.id ∉ old } :=
  List.getElem?_mapIdx

theorem SameScopes.deaf (old : Subscription) : SameScopes net (net.deaf old) := by
  intro s
  rw [stores_deaf]
  cases net.stores[s]? <;> rfl

/-- What is registered anew is not affected by what is dropped. -/
theorem deaf_enroll {places : List StoreId} {old : Subscription}
    (new : ∀ s ∈ places, .listener s (net.nextNumber s) ∉ old) (key : Option String)
    (callback : Callback) :
    (net.enroll places key callback).deaf old = (net.deaf old).enroll places key callback := by
  simp only [enroll, Network.deaf, List.mapIdx_mapIdx, Function.comp_def]
  congr 1
  refine List.ext_getElem? fun i => ?_
  simp only [List.getElem?_mapIdx]
  cases found : net.stores[i]? with
  | none => rfl
  | some st =>
      by_cases here : i ∈ places
      · have fresh := new i here
        simp only [nextNumber, found, Option.map_some, Option.getD_some] at fresh
        simp [here, fresh]
      · simp [here]

theorem getD_find?_insert (subs : Table String Subscription) (label k : String)
    (sub : Subscription) : ((subs.insert label sub).find? k).getD [] =
      if k = label then sub else (subs.find? k).getD [] := by
  rw [Table.find?_insert]
  split <;> rfl

theorem getD_find?_erase (subs : Table String Subscription) (label k : String) :
    ((subs.erase label).find? k).getD [] =
      if k = label then [] else (subs.find? k).getD [] := by
  rw [Table.find?_erase]
  split <;> rfl

/-- Subscriptions are taken away from their labels. -/
theorem collect_eq (net : Network) (labels : List String) :
    ∃ subs, (net.collect labels).2 = { net with subscriptions := subs } ∧
      (∀ k, (subs.find? k).getD [] = if k ∈ labels then [] else net.subscription k) ∧
      ∀ reg, reg ∈ (net.collect labels).1 ↔ ∃ k ∈ labels, reg ∈ net.subscription k := by
  induction labels generalizing net with
  | nil => exact ⟨net.subscriptions, rfl, fun k => rfl, by simp [collect]⟩
  | cons label labels ih =>
      obtain ⟨subs, collected, left, joined⟩ :=
        ih { net with subscriptions := net.subscriptions.erase label }
      have erased (k : String) :
          subscription { net with subscriptions := net.subscriptions.erase label } k =
            if k = label then [] else net.subscription k :=
        getD_find?_erase net.subscriptions label k
      refine ⟨subs, collected, fun k => ?_, fun reg => ?_⟩
      · rw [left, erased]
        by_cases same : k = label
        · simp [same]
        · simp [same]
      · simp only [collect, List.mem_append, joined, erased, List.mem_cons, exists_eq_or_imp]
        constructor
        · rintro (here | ⟨k, member, listed⟩)
          · exact .inl here
          · split at listed
            · cases listed
            · exact .inr ⟨k, member, listed⟩
        · rintro (here | ⟨k, member, listed⟩)
          · exact .inl here
          · by_cases same : k = label
            · exact .inl (same ▸ listed)
            · exact .inr ⟨k, member, by rwa [if_neg same]⟩

/-- The registrations that whoever comes to watch gets. -/
def tickets (net : Network) (w : Watch) : Subscription :=
  (net.scope w).map fun s => .listener s (net.nextNumber s)

/-- Somebody has come to watch. -/
def welcome (net : Network) (w : Watch) : Network :=
  { net.enroll (net.scope w) w.key (.report w.label none) with
    subscriptions := net.subscriptions.insert w.handle (net.tickets w) }

theorem mem_tickets {st : Store} (found : net.stores[s]? = some st) {id : Nat} :
    .listener s id ∈ net.tickets w ↔ s ∈ net.scope w ∧ id = st.nextListener := by
  have number : net.nextNumber s = st.nextListener := by simp [nextNumber, found]
  simp only [tickets, List.mem_map, Registration.listener.injEq]
  constructor
  · rintro ⟨s', member, rfl, rfl⟩
    exact ⟨member, number⟩
  · rintro ⟨member, rfl⟩
    exact ⟨s, member, rfl, number⟩

theorem subscription_welcome (label : String) : (net.welcome w).subscription label =
    if label = w.handle then net.tickets w else net.subscription label :=
  getD_find?_insert net.subscriptions w.handle label (net.tickets w)

theorem stores_welcome {st' : Store} (later : (net.welcome w).stores[s]? = some st') :
    ∃ st, net.stores[s]? = some st ∧ (if s ∈ net.scope w then { st with
      listeners := st.listeners ++ [⟨st.nextListener, w.key, .report w.label none⟩]
      nextListener := st.nextListener + 1 } else st) = st' :=
  Option.map_eq_some_iff.mp ((stores_enroll _ _ _ s).symm.trans later)

/-- Whoever goes on watching watches the same. -/
theorem retain?_eq_some {op : Operation} {w' : Watch} (h : op.retain? w = some w') :
    ∃ handle, w' = { w with handle } := by
  cases op with
  | watch | watchAll | unsubscribe =>
      simp only [Operation.retain?] at h
      split at h
      · cases h
      · cases h
        exact ⟨w.handle, rfl⟩
  | combine labels label =>
      simp only [Operation.retain?] at h
      split at h
      · cases h
        exact ⟨label, rfl⟩
      · split at h
        · cases h
        · cases h
          exact ⟨w.handle, rfl⟩
  | _ =>
      cases h
      exact ⟨w.handle, rfl⟩

theorem filter_retain (op : Operation) (scopes : SameScopes net net') (s : StoreId)
    (ws : List Watch) : (ws.filterMap op.retain?).filter (fun w => s ∈ net'.scope w) =
      (ws.filter fun w => s ∈ net.scope w).filterMap op.retain? := by
  induction ws with
  | nil => rfl
  | cons w ws ih =>
      cases image : op.retain? w with
      | none =>
          rw [List.filterMap_cons_none image, ih]
          by_cases here : s ∈ net.scope w
          · rw [List.filter_cons_of_pos (by simpa using here), List.filterMap_cons_none image]
          · rw [List.filter_cons_of_neg (by simpa using here)]
      | some w' =>
          obtain ⟨handle, rfl⟩ := retain?_eq_some image
          have same : net'.scope { w with handle } = net.scope w := scopes.scope _
          rw [List.filterMap_cons_some image]
          by_cases here : s ∈ net.scope w
          · rw [List.filter_cons_of_pos (by simpa [same] using here),
              List.filter_cons_of_pos (by simpa using here), List.filterMap_cons_some image, ih]
          · rw [List.filter_cons_of_neg (by simpa [same] using here),
              List.filter_cons_of_neg (by simpa using here), ih]

namespace Ledger

/-- Stores keep their listeners, and labels what they stand for. -/
theorem keeps (h : Ledger ws net) (scopes : SameScopes net net')
    (observables : net'.observables = net.observables) (bindings : net'.bindings = net.bindings)
    (labels : ∀ label, net'.subscription label = net.subscription label)
    (stores : ∀ (s : StoreId) (st' : Store), net'.stores[s]? = some st' →
      ∃ st, net.stores[s]? = some st ∧ st'.listeners = st.listeners ∧
        st'.nextListener = st.nextListener) : Ledger ws net' := by
  refine ⟨scopes.forest h.forest, observables.trans h.observables, bindings.trans h.bindings,
    fun s st' later => ?_, fun s st' later => ?_, fun label reg member => ?_⟩
  · obtain ⟨st, found, listeners, -⟩ := stores s st' later
    simp only [listeners, scopes.scope]
    exact (h.listeners s st found).imp fun l w serves =>
      ⟨serves.key, serves.callback, fun label => by rw [labels]; exact serves.handle label⟩
  · obtain ⟨st, found, listeners, next⟩ := stores s st' later
    rw [listeners, next]
    exact h.numbered s st found
  · rw [labels] at member
    obtain ⟨s, id, rfl, issued⟩ := h.issued label reg member
    refine ⟨s, id, rfl, fun st' later => ?_⟩
    obtain ⟨st, found, -, next⟩ := stores s st' later
    rw [next]
    exact issued st found

theorem listens (h : Ledger ws net) (label : String) :
    Subscription.Listens (net.subscription label) := by
  intro k n member
  obtain ⟨s, id, seat, -⟩ := h.issued label _ member
  cases k <;> cases seat

/-- Labels change, and what is under none of them any more is dropped. -/
theorem relabel (h : Ledger ws net) (op : Operation) {subs : Table String Subscription}
    {old : Subscription}
    (kept : ∀ label, ∀ reg ∈ (subs.find? label).getD [], ∃ k, reg ∈ net.subscription k)
    (moved : ∀ s l w, net.Serves s l w → if .listener s l.id ∉ old then
      ∃ w', op.retain? w = some w' ∧
        ∀ label, .listener s l.id ∈ (subs.find? label).getD [] ↔ w'.handle = label
      else op.retain? w = none) :
    Ledger (ws.filterMap op.retain?) (deaf { net with subscriptions := subs } old) := by
  have scopes : SameScopes net (deaf { net with subscriptions := subs } old) := .deaf old
  have stores (s : StoreId) (st' : Store)
      (later : (deaf { net with subscriptions := subs } old).stores[s]? = some st') :
      ∃ st, net.stores[s]? = some st ∧
        { st with listeners := st.listeners.filter fun l => .listener s l.id ∉ old } = st' := by
    rw [stores_deaf] at later
    exact Option.map_eq_some_iff.mp later
  refine ⟨scopes.forest h.forest, h.observables, h.bindings, fun s st' later => ?_,
    fun s st' later l member => ?_, fun label reg member => ?_⟩
  · obtain ⟨st, found, rfl⟩ := stores s st' later
    rw [filter_retain op scopes]
    refine forall₂_filter (h.listeners s st found) fun l _ w serves => ?_
    have here := moved s l w serves
    by_cases dropped : .listener s l.id ∈ old
    · simpa [dropped] using here
    · simp only [dropped, not_false_eq_true, if_true] at here
      obtain ⟨w', image, handle⟩ := here
      obtain ⟨new, rfl⟩ := retain?_eq_some image
      simp only [dropped, not_false_eq_true, decide_true, if_true]
      exact ⟨_, image, serves.key, serves.callback, handle⟩
  · obtain ⟨st, found, rfl⟩ := stores s st' later
    exact h.numbered s st found l (List.mem_filter.mp member).1
  · obtain ⟨k, before⟩ := kept label reg member
    obtain ⟨s, id, rfl, issued⟩ := h.issued k reg before
    refine ⟨s, id, rfl, fun st' later => ?_⟩
    obtain ⟨st, found, rfl⟩ := stores s st' later
    exact issued st found

/-- What is under a label is dropped with the label. -/
theorem forget (h : Ledger ws net) (label : String) :
    Ledger (ws.filterMap (Operation.unsubscribe label).retain?)
      (deaf { net with subscriptions := net.subscriptions.erase label }
        (net.subscription label)) := by
  have erased (k : String) : ((net.subscriptions.erase label).find? k).getD [] =
      if k = label then [] else net.subscription k := getD_find?_erase net.subscriptions label k
  refine h.relabel (.unsubscribe label) (fun k reg member => ?_) fun s l w serves => ?_
  · rw [erased] at member
    split at member
    · cases member
    · exact ⟨k, member⟩
  · simp only [serves.handle label, Operation.retain?]
    by_cases own : w.handle = label
    · simp [own]
    · simp only [own, not_false_eq_true, if_true, if_false]
      refine ⟨w, rfl, fun k => ?_⟩
      rw [erased]
      split
      · rename_i same
        simp [same, own]
      · exact serves.handle k

theorem unsubscribe (h : Ledger ws net) (label : String) :
    Ledger ((Operation.unsubscribe label).watches ws) (net.unsubscribe label) := by
  simp only [Operation.watches, Operation.comer?, Option.toList_none, List.append_nil]
  rw [unsubscribe_eq, drop_of_listens (h.listens label)]
  exact h.forget label

/-- The number that comes next is not in use. -/
theorem next_free (h : Ledger ws net) {st : Store} (found : net.stores[s]? = some st)
    (label : String) : .listener s st.nextListener ∉ net.subscription label := by
  intro listed
  obtain ⟨s', id, same, issued⟩ := h.issued label _ listed
  cases same
  exact Nat.lt_irrefl _ (issued st found)

/-- Whoever watches already goes on doing so when somebody comes under a label that stood for
nothing. -/
theorem serves_welcome (free : net.subscription w.handle = [])
    {st : Store} (found : net.stores[s]? = some st) {l : Listener} (before : l.id < st.nextListener)
    {w' : Watch} (serves : net.Serves s l w') : (net.welcome w).Serves s l w' := by
  refine ⟨serves.key, serves.callback, fun label => ?_⟩
  rw [subscription_welcome]
  split
  · rename_i same
    have other : w'.handle ≠ w.handle := fun own => by
      have listed := (serves.handle w.handle).mpr own
      rw [free] at listed
      cases listed
    rw [mem_tickets found, same]
    exact iff_of_false (fun new => Nat.ne_of_lt before new.2) other
  · exact serves.handle label

/-- Whoever comes is served by the listener that is added for it. -/
theorem serves_comer (h : Ledger ws net) {st : Store} (found : net.stores[s]? = some st)
    (here : s ∈ net.scope w) :
    (net.welcome w).Serves s ⟨st.nextListener, w.key, .report w.label none⟩ w := by
  refine ⟨rfl, rfl, fun label => ?_⟩
  rw [subscription_welcome]
  split
  · rename_i same
    exact iff_of_true ((mem_tickets found).mpr ⟨here, rfl⟩) same.symm
  · rename_i other
    exact iff_of_false (h.next_free found label) (Ne.symm other)

/-- Somebody watches under a label that stands for nothing. -/
theorem welcome (h : Ledger ws net) (w : Watch) (free : net.subscription w.handle = []) :
    Ledger (ws ++ [w]) (net.welcome w) := by
  have scopes : SameScopes net (net.welcome w) := .enroll _ _ _
  refine ⟨scopes.forest h.forest, h.observables, h.bindings, fun s st' later => ?_,
    fun s st' later => ?_, fun label reg member => ?_⟩
  · obtain ⟨st, found, rfl⟩ := stores_welcome later
    have older : List.Forall₂ ((net.welcome w).Serves s) st.listeners
        (ws.filter fun w' => s ∈ net.scope w') :=
      ((List.forall₂_and_left _ _).mpr ⟨h.numbered s st found, h.listeners s st found⟩).imp
        fun _ _ served => serves_welcome free found served.1 served.2
    simp only [scopes.scope, List.filter_append]
    by_cases here : s ∈ net.scope w
    · have comes : [w].filter (fun w => s ∈ net.scope w) = [w] :=
        List.filter_cons_of_pos (by simpa using here)
      rw [if_pos here, comes]
      exact List.rel_append older (.cons (h.serves_comer found here) .nil)
    · have passes : [w].filter (fun w => s ∈ net.scope w) = [] :=
        List.filter_cons_of_neg (by simpa using here)
      rw [if_neg here, passes, List.append_nil]
      exact older
  · obtain ⟨st, found, rfl⟩ := stores_welcome later
    have before := h.numbered s st found
    split
    · refine List.forall_mem_append.mpr ⟨fun l member => ?_, List.forall_mem_singleton.mpr ?_⟩
      · exact Nat.lt_succ_of_lt (before l member)
      · exact Nat.lt_succ_self _
    · exact before
  · rw [subscription_welcome] at member
    split at member
    · obtain ⟨s, here, rfl⟩ := List.mem_map.mp member
      refine ⟨s, _, rfl, fun st' later => ?_⟩
      obtain ⟨st, found, rfl⟩ := stores_welcome later
      simp [here, nextNumber, found]
    · obtain ⟨s, id, rfl, issued⟩ := h.issued label reg member
      refine ⟨s, id, rfl, fun st' later => ?_⟩
      obtain ⟨st, found, rfl⟩ := stores_welcome later
      have before := issued st found
      split
      · exact Nat.lt_succ_of_lt before
      · exact before

/-- Somebody watches instead of whoever did so under the same label. -/
theorem adopt (h : Ledger ws net) (w : Watch) (exist : (net.stores[w.store]?).isSome) :
    Ledger (ws.filterMap (Operation.unsubscribe w.handle).retain? ++ [w])
      ((net.enroll (net.scope w) w.key (.report w.label none)).adopt w.handle (net.tickets w)) := by
  have forgotten := h.forget w.handle
  generalize gone : deaf { net with subscriptions := net.subscriptions.erase w.handle }
    (net.subscription w.handle) = left at forgotten
  have scopes : SameScopes net left := by
    subst gone
    exact .deaf _
  have free : left.subscription w.handle = [] := by
    subst gone
    exact (getD_find?_erase net.subscriptions w.handle w.handle).trans (if_pos rfl)
  have numbers (s : StoreId) : left.nextNumber s = net.nextNumber s := by
    subst gone
    unfold nextNumber
    rw [stores_deaf]
    cases net.stores[s]? <;> rfl
  have new : ∀ s ∈ net.scope w,
      .listener s (net.nextNumber s) ∉ net.subscription w.handle := by
    intro s member
    obtain ⟨st, found⟩ := Option.isSome_iff_exists.mp
      (h.forest.exist exist (mem_chain_of_scope member))
    simpa only [nextNumber, found, Option.map_some, Option.getD_some] using
      h.next_free found w.handle
  have welcomed := forgotten.welcome w free
  simp only [Network.welcome, tickets, scopes.scope, numbers] at welcomed
  have dropped := deaf_enroll new w.key (.report w.label none)
  have stores := congrArg Network.stores dropped
  have old : ((net.enroll (net.scope w) w.key (.report w.label none)).subscriptions.find?
    w.handle).getD [] = net.subscription w.handle := rfl
  unfold Network.adopt
  rw [old, drop_of_listens (h.listens w.handle)]
  refine welcomed.keeps (.of_eq ?_) ?_ ?_ (fun label => ?_) fun s st found => ⟨st, ?_, rfl, rfl⟩
  · subst gone
    exact stores
  · subst gone
    rfl
  · subst gone
    rfl
  · subst gone
    simp only [subscription, deaf, getD_find?_insert, getD_find?_erase, tickets]
    split <;> rfl
  · subst gone
    exact stores ▸ found

/-- What joining subscriptions under a label comes to. -/
theorem combine_eq (h : Ledger ws net) (labels : List String) (label : String) :
    ∃ (subs : Table String Subscription) (joined : Subscription),
      net.combine labels label = deaf { net with subscriptions := subs }
        (if label ∈ labels then [] else net.subscription label) ∧
      (∀ k, (subs.find? k).getD [] =
        if k = label then joined else if k ∈ labels then [] else net.subscription k) ∧
      ∀ reg, reg ∈ joined ↔ ∃ k ∈ labels, reg ∈ net.subscription k := by
  obtain ⟨subs, collected, left, joined⟩ := net.collect_eq labels
  refine ⟨subs.insert label (net.collect labels).1, _, ?_, fun k => ?_, joined⟩
  · have listens : Subscription.Listens ((subs.find? label).getD []) := by
      rw [left]
      split
      · exact fun _ _ => List.not_mem_nil
      · exact h.listens label
    unfold Network.combine Network.adopt
    dsimp only
    rw [collected, drop_of_listens listens, left]
  · rw [getD_find?_insert, left]

/-- Subscriptions are joined under a label. -/
theorem combine (h : Ledger ws net) (labels : List String) (label : String) :
    Ledger ((Operation.combine labels label).watches ws) (net.combine labels label) := by
  obtain ⟨subs, joined, combined, inserted, mem_joined⟩ := h.combine_eq labels label
  rw [combined]
  simp only [Operation.watches, Operation.comer?, Option.toList_none, List.append_nil]
  refine h.relabel (.combine labels label) (fun k reg member => ?_) fun s l w serves => ?_
  · rw [inserted] at member
    split at member
    · obtain ⟨k, -, listed⟩ := (mem_joined reg).mp member
      exact ⟨k, listed⟩
    · split at member
      · cases member
      · exact ⟨k, member⟩
  · have left (k : String) : .listener s l.id ∈
        (if k ∈ labels then [] else net.subscription k) ↔ k ∉ labels ∧ w.handle = k := by
      split
      · rename_i joins
        exact iff_of_false List.not_mem_nil fun apart => apart.1 joins
      · rename_i apart
        exact (serves.handle k).trans (and_iff_right apart).symm
    have dropped := left label
    have listed (k : String) : .listener s l.id ∈ (subs.find? k).getD [] ↔
        if k = label then w.handle ∈ labels else k ∉ labels ∧ w.handle = k := by
      rw [inserted]
      split
      · simp only [mem_joined, serves.handle, exists_eq_right']
      · exact left k
    simp only [dropped, listed, Operation.retain?]
    by_cases joins : w.handle ∈ labels
    · have stays : ¬ (label ∉ labels ∧ w.handle = label) := by
        rintro ⟨apart, rfl⟩
        exact apart joins
      rw [if_pos stays, if_pos joins]
      refine ⟨_, rfl, fun k => ?_⟩
      by_cases same : k = label
      · simp [same, joins]
      · rw [if_neg same]
        refine iff_of_false ?_ (Ne.symm same)
        rintro ⟨apart, rfl⟩
        exact apart joins
    · by_cases own : w.handle = label
      · have goes : ¬ ¬ (label ∉ labels ∧ w.handle = label) := not_not_intro ⟨own ▸ joins, own⟩
        rw [if_neg goes, if_neg joins, if_pos own]
      · rw [if_pos (own ·.2), if_neg joins, if_neg own]
        refine ⟨w, rfl, fun k => ?_⟩
        by_cases same : k = label
        · simp [same, joins, own]
        · rw [if_neg same]
          exact ⟨And.right, fun here => ⟨here ▸ joins, here⟩⟩

/-- The slots of a store change. -/
theorem write (h : Ledger ws net) (store : StoreId) (g : Table String Value → Table String Value) :
    Ledger ws (net.modifyStore store fun st => { st with slots := g st.slots }) := by
  refine h.keeps (.modifyStore fun _ => rfl) rfl rfl (fun _ => rfl) fun s st' later => ?_
  obtain ⟨st, found, ⟨-, rfl⟩ | ⟨-, rfl⟩⟩ := mem_modifyStore later
  · exact ⟨st, found, rfl, rfl⟩
  · exact ⟨st', found, rfl, rfl⟩

/-- The ledger after an operation. -/
theorem operate (h : Ledger ws net) {op : Operation} (plain : op.Plain net) :
    Ledger (op.watches ws) (net.operate op .null none).1 := by
  have silent (same : op.retain? = some) (nobody : op.comer? = none) : op.watches ws = ws := by
    simp [Operation.watches, same, nobody]
  cases op with
  | set store key v =>
      rw [silent rfl rfl]
      exact h.write store fun slots => slots.insert key v
  | assign store key v =>
      rw [silent rfl rfl]
      exact h.write (net.definer store key) fun slots => slots.insert key v
  | remove store key =>
      rw [silent rfl rfl]
      simp only [Network.operate, Followed.holding, Changed.followed, Network.remove]
      split
      · exact h.write store fun slots => slots.erase key
      · exact h
  | clear store order =>
      rw [silent rfl rfl]
      exact h.write store fun _ => .empty
  | watch store key label action =>
      obtain ⟨exist, rfl⟩ := plain
      have adopted := h.adopt ⟨label, label, store, some key⟩ exist
      have listens : listenOn key (.report label none) (net.chain store) net = _ :=
        listenOn_eq key _ _ (h.forest.scope_nodup ⟨label, label, store, some key⟩)
      simp only [Network.operate, keep, Network.watch, listens]
      exact adopted
  | watchAll store label action =>
      obtain ⟨exist, rfl⟩ := plain
      have adopted := h.adopt ⟨label, label, store, none⟩ exist
      simp only [Network.operate, keep, listen_eq]
      exact adopted
  | combine labels label => exact h.combine labels label
  | unsubscribe label => exact h.unsubscribe label
  | _ => exact plain.elim

/-- What is called when a key of a store is written, or when the store is cleared. -/
theorem callbacksFor_eq (h : Ledger ws net) (exist : (net.stores[store]?).isSome)
    (key : Option String) : net.callbacksFor store key =
      (ws.filter fun w => store ∈ net.scope w ∧ w.key = key).map (.report ·.label none) := by
  obtain ⟨st, found⟩ := Option.isSome_iff_exists.mp exist
  simp only [callbacksFor, found]
  rw [map_filter_of_forall₂ (h.listeners store st found)
    (q := fun w => w.key = key) (g := fun w => Callback.report w.label none)
    fun l w serves => ⟨by rw [serves.key], serves.callback⟩, List.filter_filter]
  simp only [Bool.decide_and, Bool.and_comm]

end Ledger

end Network

end SlotScript
