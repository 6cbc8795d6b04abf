import SlotScript.Proofs.Network.Watch

/-! # What is watched, and by whom

An observable and a binding are both kept up to date by callbacks registered with stores: for each
watched key with every store in the scope, and for an observable with its own store once more, for
that being cleared. What there has to be is worked out here from who is there, without looking at
any store, and what registering and dropping do to the listeners of all stores at once.
-/

namespace SlotScript

/-- Who is woken by a callback, if it is not somebody's own. -/
def Callback.wakes? : Callback → Option Publisher
  | .report .. => none
  | .recalculate id => some (.observable id)
  | .refresh id => some (.binding id)

/-- The callback by which a publisher is told of changes. -/
def Publisher.callback : Publisher → Callback
  | .observable id => .recalculate id
  | .binding id => .refresh id

@[simp] theorem Publisher.wakes?_callback (k : Publisher) : k.callback.wakes? = some k := by
  cases k <;> rfl

theorem Callback.eq_of_wakes? {callback : Callback} {k : Publisher}
    (wakes : callback.wakes? = some k) : callback = k.callback := by
  cases callback with
  | report => cases wakes
  | recalculate | refresh =>
      cases wakes
      rfl

/-- What a publisher watches, and what it keeps to do so. -/
structure Upkeep where
  store : StoreId
  /-- Watched in every scope of the store. -/
  keys : List String
  /-- Whether the store itself is watched for being cleared. -/
  whole : Bool
  disposed : Bool
  watching : Subscription

/-- The keys for which there has to be a listener with the store `s`, in order. What stands for the
store being cleared is no key. -/
def Upkeep.due (u : Upkeep) (chain : List StoreId) (s : StoreId) : List (Option String) :=
  if u.disposed then [] else
    (if s ∈ chain then u.keys.map some else []) ++ if u.whole ∧ s = u.store then [none] else []

def Observable.upkeep (o : Observable) : Upkeep :=
  ⟨o.store, o.code.readKeys, true, o.disposed, o.watching⟩

def Binding.upkeep (b : Binding) : Upkeep :=
  ⟨b.store, [b.key], false, b.disposed, b.watching⟩

namespace Network

def upkeep? (net : Network) : Publisher → Option Upkeep
  | .observable id => (net.observables.find? id).map Observable.upkeep
  | .binding id => (net.bindings.find? id).map Binding.upkeep

theorem upkeep?_observable {net : Network} {id : ObservableId} {o : Observable}
    (found : net.observables.find? id = some o) :
    net.upkeep? (.observable id) = some o.upkeep := by
  rw [upkeep?, found, Option.map_some]

theorem upkeep?_binding {net : Network} {id : BindingId} {b : Binding}
    (found : net.bindings.find? id = some b) : net.upkeep? (.binding id) = some b.upkeep := by
  rw [upkeep?, found, Option.map_some]

/-- The keys for which there has to be a listener with a store, so that a publisher is told of all
that concerns it there. -/
def due (net : Network) (k : Publisher) (s : StoreId) : List (Option String) :=
  match net.upkeep? k with
  | some u => u.due (net.chain u.store) s
  | none => []

end Network

theorem Code.readKeys_nodup (code : Code) : code.readKeys.Nodup := by
  unfold readKeys
  refine List.foldlRecOn code _ List.nodup_nil fun keys nodup i _ => ?_
  split
  · split
    · exact nodup
    · rename_i key _ _ new
      rw [List.contains_iff_mem] at new
      exact List.nodup_append.mpr ⟨nodup, List.nodup_cons.mpr ⟨List.not_mem_nil, List.nodup_nil⟩,
        fun other member _ same => by
          rintro rfl
          exact new (List.mem_singleton.mp same ▸ member)⟩
  · exact nodup

theorem Upkeep.due_nodup {u : Upkeep} (nodup : u.keys.Nodup) (chain : List StoreId) (s : StoreId) :
    (u.due chain s).Nodup := by
  unfold due
  split
  · exact List.nodup_nil
  · refine List.nodup_append.mpr ⟨?_, ?_, ?_⟩
    · split
      · exact List.Pairwise.map some (fun _ _ other same => other (Option.some.inj same)) nodup
      · exact List.nodup_nil
    · split
      · exact List.nodup_cons.mpr ⟨List.not_mem_nil, List.nodup_nil⟩
      · exact List.nodup_nil
    · grind

/-- Nobody has to be told of the same twice. -/
theorem Network.due_nodup (net : Network) (k : Publisher) (s : StoreId) : (net.due k s).Nodup := by
  unfold due
  split
  case h_2 => exact List.nodup_nil
  case h_1 u found =>
    refine Upkeep.due_nodup ?_ _ s
    cases k with
    | observable id =>
        obtain ⟨o, -, rfl⟩ := Option.map_eq_some_iff.mp found
        exact o.code.readKeys_nodup
    | binding id =>
        obtain ⟨b, -, rfl⟩ := Option.map_eq_some_iff.mp found
        exact List.nodup_cons.mpr ⟨List.not_mem_nil, List.nodup_nil⟩

/-- A store after a callback was registered for some keys, one after the other. -/
def Store.enlist (st : Store) (callback : Callback) (keys : List (Option String)) : Store :=
  { st with
    listeners := st.listeners ++ keys.mapIdx fun i key => ⟨st.nextListener + i, key, callback⟩
    nextListener := st.nextListener + keys.length }

theorem Store.enlist_nil (st : Store) (callback : Callback) : st.enlist callback [] = st := by
  simp [enlist]

theorem Store.enlist_enlist (st : Store) (callback : Callback) (keys more : List (Option String)) :
    (st.enlist callback keys).enlist callback more = st.enlist callback (keys ++ more) := by
  simp only [enlist, List.mapIdx_append, List.append_assoc, List.length_append, Nat.add_assoc]
  congr 3
  refine List.mapIdx_eq_mapIdx_iff.mpr fun i _ => ?_
  rw [Nat.add_comm i]

/-- A store without the listeners that are dropped. -/
def Store.spared (st : Store) (s : StoreId) (gone : Subscription) : Store :=
  { st with listeners := st.listeners.filter fun l => .listener s l.id ∉ gone }

namespace Network

variable {net net' net'' : Network} {callback : Callback}
  {due due' : StoreId → List (Option String)} {sub sub' : Subscription}

/-- Nothing has happened to those who watch, nor is anything else kept under labels. -/
structure SameHolders (net net' : Network) : Prop where
  upkeep : ∀ k, net'.upkeep? k = net.upkeep? k
  made : ∀ k, net'.Made k ↔ net.Made k
  copies : ∀ reg, net'.copies reg = net.copies reg

theorem SameHolders.of_eq (observables : net'.observables = net.observables)
    (bindings : net'.bindings = net.bindings)
    (nextObservable : net'.nextObservable = net.nextObservable)
    (nextBinding : net'.nextBinding = net.nextBinding)
    (subscriptions : net'.subscriptions = net.subscriptions) : SameHolders net net' := by
  refine ⟨fun k => ?_, made_of_eq nextObservable nextBinding, fun reg => ?_⟩
  · cases k with
    | observable id => rw [upkeep?, observables]; rfl
    | binding id => rw [upkeep?, bindings]; rfl
  · rw [Network.copies, subscriptions]
    rfl

theorem SameHolders.trans (first : SameHolders net net') (second : SameHolders net' net'') :
    SameHolders net net'' :=
  ⟨fun k => (second.upkeep k).trans (first.upkeep k), fun k => (second.made k).trans (first.made k),
    fun reg => (second.copies reg).trans (first.copies reg)⟩

theorem Forest.chain_nodup (forest : net.Forest) (store : StoreId) : (net.chain store).Nodup :=
  (forest.chain_le store).1.imp Nat.ne_of_gt

/-- A callback was registered with every store for the keys that are due there, and what keeps it
there lists just that. -/
structure Enrolls (callback : Callback) (due : StoreId → List (Option String))
    (made : Subscription) (net net' : Network) : Prop where
  holders : SameHolders net net'
  stores : ∀ s : StoreId,
    net'.stores[s]? = (net.stores[s]?).map fun st => st.enlist callback (due s)
  made : ∀ (s : StoreId) (st : Store), net.stores[s]? = some st → ∀ id,
    made.count (.listener s id) =
      if st.nextListener ≤ id ∧ id < st.nextListener + (due s).length then 1 else 0

namespace Enrolls

theorem refl (callback : Callback) (net : Network) : Enrolls callback (fun _ => []) [] net net := by
  refine ⟨.of_eq rfl rfl rfl rfl rfl, fun s => ?_, fun s st _ id => ?_⟩
  · simp only [Store.enlist_nil, Option.map_id']
  · rw [if_neg (by simp)]
    rfl

theorem trans (first : Enrolls callback due sub net net')
    (second : Enrolls callback due' sub' net' net'') :
    Enrolls callback (fun s => due s ++ due' s) (sub ++ sub') net net'' := by
  refine ⟨first.holders.trans second.holders, fun s => ?_, fun s st found id => ?_⟩
  · rw [second.stores, first.stores, Option.map_map]
    simp only [Function.comp_def, Store.enlist_enlist]
  · have later : net'.stores[s]? = some (st.enlist callback (due s)) := by
      rw [first.stores, found, Option.map_some]
    rw [List.count_append, first.made s st found, second.made s _ later]
    simp only [Store.enlist, List.length_append]
    grind

theorem congr (h : Enrolls callback due sub net net') (same : ∀ s, due s = due' s) :
    Enrolls callback due' sub net net' := by
  rwa [← funext same]

theorem enroll {places : List StoreId} (nodup : places.Nodup) (key : Option String)
    (callback : Callback) (net : Network) :
    Enrolls callback (fun s => if s ∈ places then [key] else [])
      (places.map fun s => .listener s (net.nextNumber s)) net
      (net.enroll places key callback) := by
  refine ⟨.of_eq rfl rfl rfl rfl rfl, fun s => ?_, fun s st found id => ?_⟩
  · rw [stores_enroll]
    congr 1
    funext st
    split
    · rfl
    · exact st.enlist_nil callback |>.symm
  · have tickets : (places.map fun s => Registration.listener s (net.nextNumber s)).Nodup :=
      List.Pairwise.map _ (fun s t other same => other (Registration.listener.inj same).1) nodup
    have number : net.nextNumber s = st.nextListener := by simp [nextNumber, found]
    have listed : Registration.listener s id ∈
        (places.map fun s => Registration.listener s (net.nextNumber s)) ↔
          s ∈ places ∧ id = st.nextListener := by
      simp only [List.mem_map, Registration.listener.injEq]
      constructor
      · rintro ⟨_, member, rfl, rfl⟩
        exact ⟨member, number⟩
      · rintro ⟨member, rfl⟩
        exact ⟨s, member, rfl, number⟩
    rw [tickets.count]
    simp only [listed]
    by_cases here : s ∈ places
    · simp only [here, true_and, if_true, List.length_singleton]
      congr 1
      exact propext ⟨by omega, by omega⟩
    · simp only [here, false_and, if_false, List.length_nil]
      exact (if_neg (by omega)).symm

theorem listen (net : Network) (store : StoreId) (key : Option String) (callback : Callback) :
    Enrolls callback (fun s => if s = store then [key] else []) [(net.listen store key callback).1]
      net (net.listen store key callback).2 := by
  have alone : [store].Nodup := List.nodup_cons.mpr ⟨List.not_mem_nil, List.nodup_nil⟩
  rw [listen_eq]
  refine (enroll alone key callback net).congr fun s => ?_
  simp only [List.mem_singleton]

/-- For one key with several stores. -/
theorem listenOn (key : String) (callback : Callback) {places : List StoreId}
    (nodup : places.Nodup) (net : Network) :
    Enrolls callback (fun s => if s ∈ places then [some key] else [])
      (listenOn key callback places net).1 net (listenOn key callback places net).2 := by
  rw [listenOn_eq key callback places nodup]
  exact enroll nodup (some key) callback net

theorem scopes (h : Enrolls callback due sub net net') : SameScopes net net' := by
  intro s
  rw [h.stores, Option.map_map]
  rfl

theorem slots (h : Enrolls callback due sub net net') (s : StoreId) (key : String) :
    net'.slot? s key = net.slot? s key := by
  unfold slot?
  rw [h.stores]
  cases net.stores[s]? <;> rfl

/-- For several keys in the whole scope of a store. -/
theorem watchKeys (forest : net.Forest) (store : StoreId) (callback : Callback)
    (keys : List String) :
    Enrolls callback (fun s => if s ∈ net.chain store then keys.map some else [])
      (watchKeys store callback keys net).1 net (watchKeys store callback keys net).2 := by
  induction keys generalizing net with
  | nil => exact (refl callback net).congr fun s => (ite_self _).symm
  | cons key keys ih =>
      have first := listenOn key callback (forest.chain_nodup store) net
      have others := ih (first.scopes.forest forest)
      rw [first.scopes.chain] at others
      refine (first.trans others).congr fun s => ?_
      split <;> rfl

/-- For all that an observable watches. -/
theorem watched (forest : net.Forest) (o : Observable) (active : o.disposed = false) :
    Enrolls (.recalculate net.nextObservable) (o.upkeep.due (net.chain o.store)) (net.watched o).1
      net (net.watched o).2 := by
  have keys := watchKeys forest o.store (.recalculate net.nextObservable) o.code.readKeys
  refine (keys.trans (listen _ o.store none (.recalculate net.nextObservable))).congr fun s => ?_
  simp [Upkeep.due, Observable.upkeep, active]

end Enrolls

theorem stores_drop (net : Network) (gone : Subscription) (s : StoreId) :
    (net.drop gone).stores[s]? = (net.stores[s]?).map fun st => st.spared s gone := by
  have whole : (net.drop gone).stores = (net.deaf gone).stores := by
    unfold drop
    induction gone generalizing net with
    | nil => exact congrArg Network.stores deaf_nil.symm
    | cons reg gone ih =>
        rw [List.foldl_cons, ih]
        cases reg with
        | listener store id =>
            rw [unregister_listener, deaf_deaf]
            rfl
        | observer | bindingObserver =>
            simp [deaf, unregister, modifyObservable, modifyBinding]
  rw [whole, stores_deaf]
  rfl

theorem slot?_drop (net : Network) (gone : Subscription) (s : StoreId) (key : String) :
    (net.drop gone).slot? s key = net.slot? s key := by
  unfold slot?
  rw [stores_drop]
  cases net.stores[s]? <;> rfl

theorem upkeep?_modifyObservable (net : Network) (id : ObservableId) {f : Observable → Observable}
    {g : Upkeep → Upkeep} (same : ∀ o, (f o).upkeep = g o.upkeep) (k : Publisher) :
    (net.modifyObservable id f).upkeep? k =
      if k = .observable id then (net.upkeep? k).map g else net.upkeep? k := by
  cases k with
  | observable k =>
      simp only [upkeep?, modifyObservable, Table.find?_adjust, Publisher.observable.injEq]
      split
      · cases net.observables.find? k <;> simp [same]
      · rfl
  | binding k => rfl

theorem upkeep?_modifyBinding (net : Network) (id : BindingId) {f : Binding → Binding}
    {g : Upkeep → Upkeep} (same : ∀ b, (f b).upkeep = g b.upkeep) (k : Publisher) :
    (net.modifyBinding id f).upkeep? k =
      if k = .binding id then (net.upkeep? k).map g else net.upkeep? k := by
  cases k with
  | observable k => rfl
  | binding k =>
      simp only [upkeep?, modifyBinding, Table.find?_adjust, Publisher.binding.injEq]
      split
      · cases net.bindings.find? k <;> simp [same]
      · rfl

/-- The rest of an observable does not concern what it watches. -/
theorem upkeep?_modifyObservable_same (net : Network) (id : ObservableId)
    {f : Observable → Observable} (same : ∀ o, (f o).upkeep = o.upkeep) (k : Publisher) :
    (net.modifyObservable id f).upkeep? k = net.upkeep? k := by
  rw [upkeep?_modifyObservable net id (g := fun u => u) same, Option.map_id', ite_self]

theorem upkeep?_modifyBinding_same (net : Network) (id : BindingId) {f : Binding → Binding}
    (same : ∀ b, (f b).upkeep = b.upkeep) (k : Publisher) :
    (net.modifyBinding id f).upkeep? k = net.upkeep? k := by
  rw [upkeep?_modifyBinding net id (g := fun u => u) same, Option.map_id', ite_self]

theorem upkeep?_drop (net : Network) (gone : Subscription) (k : Publisher) :
    (net.drop gone).upkeep? k = net.upkeep? k := by
  refine congrFun (drop_keeps (fun net k => net.upkeep? k) (fun net reg => funext fun k => ?_)
    net gone) k
  cases reg with
  | listener => rfl
  | observer id n =>
      refine upkeep?_modifyObservable_same net id ?_ k
      exact fun _ => rfl
  | bindingObserver id n =>
      refine upkeep?_modifyBinding_same net id ?_ k
      exact fun _ => rfl

end Network

end SlotScript
