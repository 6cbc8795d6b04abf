import SlotScript.Proofs.Network.Consequence
import SlotScript.Proofs.Network.Upkeep

/-! # What a task does to those who watch

Most of what is done in a network leaves the listeners of all stores as they are. Somebody may come
to watch or stop watching under a label, an observable or a binding may be made or come to its end,
and that is all. Whoever changes the value under a key tells everybody who watches it. Both are said
here once for each task, and what holds of the listeners at all times is derived from it.
-/

namespace SlotScript

/-- What is still to be made is not disposed. -/
def Completion.Clean : Completion → Prop
  | .creation _ draft => draft.disposed = false
  | _ => True

/-- What is still to be made is not disposed, and what is adopted was not registered with a
store. -/
def Task.Clean : Task → Prop
  | .adopt _ sub => ∀ s id, .listener s id ∉ sub
  | .run r | .proceed r _ => r.completion.Clean
  | .attach _ b => b.disposed = false
  | _ => True

/-- What registering and looking up are concerned with in a store. -/
def Store.table (st : Store) : List StoreId × List Listener × Nat :=
  (st.ancestors, st.listeners, st.nextListener)

/-- What is left of whoever watches once it is disposed. -/
def Upkeep.left (u : Upkeep) : Upkeep :=
  { u with disposed := true, watching := [] }

namespace Network

/-- The listeners are the same ones, and so are those who watch. -/
structure SameTables (net net' : Network) : Prop extends SameHolders net net' where
  tables : ∀ s : StoreId, (net'.stores[s]?).map Store.table = (net.stores[s]?).map Store.table

/-- A publisher is disposed of, or released if nothing is left of it, and watches nothing from then
on. -/
structure Ends (k : Publisher) (u : Upkeep) (left? : Option Upkeep) (net net' : Network) :
    Prop where
  found : net.upkeep? k = some u
  ended : ∀ left ∈ left?, left.disposed = true ∧ left.watching = []
  spared : ∀ s : StoreId, net'.stores[s]? = (net.stores[s]?).map fun st => st.spared s u.watching
  upkeep : ∀ j, net'.upkeep? j = if j = k then left? else net.upkeep? j
  made : ∀ j, net'.Made j ↔ net.Made j
  copies : ∀ reg, net'.copies reg = net.copies reg

/-- What can happen to the listeners of all stores, and to those who watch. -/
inductive Registers (net net' : Network) : Prop where
  | same : SameTables net net' → Registers net net'
  /-- Somebody comes to watch under a label, and others stop watching. -/
  | keeps {callback : Callback} {due : StoreId → List (Option String)} {sub : Subscription}
      {mid : Network} (gone : Subscription) : callback.wakes? = none →
      Enrolls callback due sub net mid →
      (∀ s : StoreId, net'.stores[s]? = (mid.stores[s]?).map fun st => st.spared s gone) →
      (∀ k, net'.upkeep? k = net.upkeep? k) → (∀ k, net'.Made k ↔ net.Made k) →
      (∀ s id, net'.copies (.listener s id) + gone.count (.listener s id) =
        net.copies (.listener s id) + sub.count (.listener s id)) → Registers net net'
  /-- An observable or a binding is made and watches what it has to. -/
  | makes {k : Publisher} {u : Upkeep} {mid : Network} : ¬ net.Made k → u.disposed = false →
      Enrolls k.callback (u.due (net.chain u.store)) u.watching net mid →
      net'.stores = mid.stores →
      (∀ j, net'.upkeep? j = if j = k then some u else net.upkeep? j) →
      (∀ j, net'.Made j ↔ j = k ∨ net.Made j) → (∀ reg, net'.copies reg = net.copies reg) →
      Registers net net'
  | ends {k : Publisher} {u : Upkeep} {left? : Option Upkeep} : Ends k u left? net net' →
      Registers net net'

/-- Everybody who watches a key is about to be told if its value has changed. -/
def Heralds (net : Network) (followed : Followed) : Prop :=
  ∀ s key, followed.1.slot? s key ≠ net.slot? s key →
    ∀ callback ∈ net.callbacksFor s (some key), .notify callback ∈ followed.2

/-- What a task does to those who watch, and what follows. -/
structure Deed (net : Network) (followed : Followed) : Prop where
  registers : Registers net followed.1
  heralds : net.Heralds followed
  clean : ∀ t ∈ followed.2, t.Clean

variable {net net' net'' : Network}

namespace SameTables

theorem trans (first : SameTables net net') (second : SameTables net' net'') :
    SameTables net net'' :=
  ⟨first.toSameHolders.trans second.toSameHolders,
    fun s => (second.tables s).trans (first.tables s)⟩

theorem of_eq (stores : net'.stores = net.stores) (observables : net'.observables = net.observables)
    (bindings : net'.bindings = net.bindings)
    (nextObservable : net'.nextObservable = net.nextObservable)
    (nextBinding : net'.nextBinding = net.nextBinding)
    (subscriptions : net'.subscriptions = net.subscriptions) : SameTables net net' :=
  ⟨.of_eq observables bindings nextObservable nextBinding subscriptions,
    fun s => by rw [stores]⟩

theorem refl (net : Network) : SameTables net net :=
  .of_eq rfl rfl rfl rfl rfl rfl

theorem modifyObservable (net : Network) (id : ObservableId) {f : Observable → Observable}
    (same : ∀ o, (f o).upkeep = o.upkeep) : SameTables net (net.modifyObservable id f) :=
  ⟨⟨upkeep?_modifyObservable_same net id same, fun _ => .rfl, fun _ => rfl⟩, fun _ => rfl⟩

theorem modifyBinding (net : Network) (id : BindingId) {f : Binding → Binding}
    (same : ∀ b, (f b).upkeep = b.upkeep) : SameTables net (net.modifyBinding id f) :=
  ⟨⟨upkeep?_modifyBinding_same net id same, fun _ => .rfl, fun _ => rfl⟩, fun _ => rfl⟩

/-- Only slots change. -/
theorem write (net : Network) (store : StoreId) (g : Table String Value → Table String Value) :
    SameTables net (net.modifyStore store fun st => { st with slots := g st.slots }) := by
  refine ⟨.of_eq rfl rfl rfl rfl rfl, fun s => ?_⟩
  rw [stores_modifyStore]
  split
  · cases net.stores[s]? <;> rfl
  · rfl

theorem setObject (net : Network) (collection : Value) (object : Object) :
    SameTables net (net.setObject collection object) := by
  unfold Network.setObject
  split <;> exact .of_eq rfl rfl rfl rfl rfl rfl

theorem set (net : Network) (store : StoreId) (key : String) (v : Value) :
    SameTables net (net.set store key v).1 :=
  .write net store fun slots => slots.insert key v

/-- Whatever a run asks for. -/
theorem answer {store : StoreId} {fallback : List StoreId} {r : Request} {x : r.Answer × Changed}
    (answered : net.answer store fallback r = some x) : SameTables net x.2.1 := by
  refine answer_cases answered (.refl net) (.set net) ?_
  intro key collection index v object scope _ _
  exact (setObject net collection object).trans (.set _ scope key collection)

end SameTables

theorem Heralds.of_slots {followed : Followed}
    (slots : ∀ s key, followed.1.slot? s key = net.slot? s key) : net.Heralds followed :=
  fun s key changed => (changed (slots s key)).elim

namespace Deed

variable {followed : Followed}

/-- Nothing happens to stores, nor to what is watched. -/
theorem of_stores {tasks : List Task} (stores : net'.stores = net.stores)
    (same : SameTables net net') (clean : ∀ t ∈ tasks, t.Clean) : Deed net (net', tasks) :=
  ⟨.same same, .of_slots fun s key => by unfold slot?; rw [stores], clean⟩

theorem onward {tasks : List Task} (clean : ∀ t ∈ tasks, t.Clean) : Deed net (net, tasks) :=
  .of_stores rfl (.refl net) clean

theorem nothing (net : Network) : Deed net (net, []) :=
  .onward (List.forall_mem_nil _)

theorem append (h : Deed net followed) {more : List Task} (clean : ∀ t ∈ more, t.Clean) :
    Deed net (followed.1, followed.2 ++ more) :=
  ⟨h.registers, fun s key changed callback called =>
    List.mem_append_left _ (h.heralds s key changed callback called),
    List.forall_mem_append.mpr ⟨h.clean, clean⟩⟩

theorem holding (h : Deed net followed) (held : List Holding) :
    Deed net (followed.holding held) :=
  h.append (List.forall_mem_singleton.mpr trivial)

end Deed

theorem SameTables.scopes (h : SameTables net net') : SameScopes net net' := by
  intro s
  have ancestors := congrArg (Option.map Prod.fst) (h.tables s)
  rwa [Option.map_map, Option.map_map] at ancestors

theorem SameScopes.spared {gone : Subscription}
    (spared : ∀ s : StoreId, net'.stores[s]? = (net.stores[s]?).map fun st => st.spared s gone) :
    SameScopes net net' := by
  intro s
  rw [spared, Option.map_map]
  rfl

/-- Something else happened before. -/
theorem Registers.after (stores : net'.stores = net.stores) (same : SameTables net net')
    (h : Registers net' net'') : Registers net net'' := by
  have enrolls {callback : Callback} {due : StoreId → List (Option String)} {sub : Subscription}
      {mid : Network} (enrolled : Enrolls callback due sub net' mid) :
      Enrolls callback due sub net mid :=
    ⟨same.toSameHolders.trans enrolled.holders, stores ▸ enrolled.stores, stores ▸ enrolled.made⟩
  cases h with
  | same h => exact .same (same.trans h)
  | keeps gone own enrolled spared upkeep made copies =>
      refine .keeps gone own (enrolls enrolled) spared
        (fun k => (upkeep k).trans (same.upkeep k)) (fun k => (made k).trans (same.made k))
        fun s id => ?_
      rw [copies, same.copies]
  | @makes k u mid fresh active enrolled enlisted upkeep made copies =>
      have chain : net'.chain u.store = net.chain u.store := by
        unfold Network.chain
        rw [stores]
      refine .makes (fun older => fresh ((same.made _).mpr older)) active
        (chain ▸ enrolls enrolled) enlisted (fun j => ?_) (fun j => ?_)
        fun reg => (copies reg).trans (same.copies reg)
      · rw [upkeep, same.upkeep]
      · rw [made, same.made]
  | ends h =>
      refine .ends ⟨(same.upkeep _).symm.trans h.found, h.ended, stores ▸ h.spared, fun j => ?_,
        fun j => (h.made j).trans (same.made j), fun reg => (h.copies reg).trans (same.copies reg)⟩
      rw [h.upkeep, same.upkeep]

theorem Deed.after {followed : Followed} (stores : net'.stores = net.stores)
    (same : SameTables net net') (h : Deed net' followed) : Deed net followed := by
  refine ⟨h.registers.after stores same, ?_, h.clean⟩
  have heralds := h.heralds
  unfold Heralds slot? callbacksFor at heralds ⊢
  rwa [stores] at heralds

theorem clean_notify (callbacks : List Callback) : ∀ t ∈ callbacks.map Task.notify, t.Clean :=
  List.forall_mem_map.mpr fun _ _ => trivial

theorem deed_write {store : StoreId} {g : Table String Value → Table String Value}
    {callbacks : List Callback} (alerts : net.Alerts store g callbacks) :
    Deed net (Changed.followed
      (net.modifyStore store fun s => { s with slots := g s.slots }, callbacks)) := by
  refine ⟨.same (.write net store g), ?_, clean_notify callbacks⟩
  intro s key changed callback called
  simp only [Changed.followed, slot?_modifyStore] at changed
  split at changed
  case isFalse => exact (changed rfl).elim
  case isTrue same =>
    subst same
    refine List.mem_map_of_mem ?_
    unfold slot? at changed
    cases found : net.stores[store]? with
    | none => simp [found] at changed
    | some st =>
        rw [found] at changed
        exact alerts st found key changed callback called

theorem deed_set (net : Network) (store : StoreId) (key : String) (v : Value) :
    Deed net (Changed.followed (net.set store key v)) :=
  deed_write (alerts_insert net store key v)

theorem deed_assign (net : Network) (store : StoreId) (key : String) (v : Value) :
    Deed net (Changed.followed (net.assign store key v)) :=
  deed_set net (net.definer store key) key v

theorem deed_remove (net : Network) (store : StoreId) (key : String) :
    Deed net (Changed.followed (net.remove store key)) :=
  remove_cases (fun _ => .nothing net) fun _ => deed_write (alerts_erase net store key)

theorem deed_clear (net : Network) (store : StoreId) (order : KeyOrder) :
    Deed net (Changed.followed (net.clear store order)) :=
  deed_write (alerts_clear net store order)

theorem deed_fetch (net : Network) (store : StoreId) (fallback : List StoreId) (key : String)
    (seed : Value) : Deed net (Changed.followed (net.fetch store fallback key seed).2) :=
  fetch_cases (fun _ _ => .nothing net) fun _ => deed_set net store key seed

theorem deed_answer {store : StoreId} {fallback : List StoreId} {r : Request}
    {x : r.Answer × Changed} (answered : net.answer store fallback r = some x) :
    Deed net (Changed.followed x.2) := by
  refine answer_cases answered (.nothing net) (deed_set net) ?_
  intro key collection index v object scope _ _
  have stores : (net.setObject collection object).stores = net.stores := by
    unfold setObject
    split <;> rfl
  exact (deed_set _ scope key collection).after stores (.setObject net collection object)

/-- What was registered comes under a label. -/
theorem Registers.adopt {callback : Callback} {due : StoreId → List (Option String)}
    {made sub : Subscription} {mid : Network} (own : callback.wakes? = none)
    (enrolled : Enrolls callback due made net mid)
    (listed : ∀ s id, sub.count (.listener s id) = made.count (.listener s id)) (label : String) :
    Registers net (mid.adopt label sub) := by
  have moves := Moves.adopt mid label sub
  refine .keeps _ own enrolled (fun s => stores_drop _ _ s) (fun k => ?_)
    (fun k => (moves.made k).trans (enrolled.holders.made k)) fun s id => ?_
  · exact (upkeep?_drop _ _ k).trans (enrolled.holders.upkeep k)
  · rw [moves.copies, enrolled.holders.copies, listed]

theorem deed_keep {label : String} {action : Option Operation}
    {due : StoreId → List (Option String)} {made : Subscription × Network}
    (enrolled : Enrolls (.report label action) due made.1 net made.2) (handle : String) :
    Deed net (keep handle made) :=
  ⟨.adopt rfl enrolled (fun _ _ => rfl) handle,
    .of_slots fun s key => (slot?_drop _ _ s key).trans (enrolled.slots s key),
    List.forall_mem_nil _⟩

theorem deed_watch (forest : net.Forest) (store : StoreId) (key label : String)
    (action : Option Operation) :
    Deed net (keep label (net.watch store key (.report label action))) :=
  deed_keep (.listenOn key _ (forest.chain_nodup store) net) label

theorem deed_combine (net : Network) (labels : List String) (label : String) :
    Deed net (net.combine labels label, []) := by
  have moves := Moves.adopt (net.collect labels).2 label (net.collect labels).1
  have stores := collect_keeps Network.stores (fun _ _ => rfl) labels net
  have holders : ∀ k, (net.collect labels).2.upkeep? k = net.upkeep? k := fun k =>
    collect_keeps (fun net => net.upkeep? k) (fun _ _ => by cases k <;> rfl) labels net
  have made : ∀ k, (net.collect labels).2.Made k ↔ net.Made k :=
    made_of_eq (collect_keeps Network.nextObservable (fun _ _ => rfl) labels net)
      (collect_keeps Network.nextBinding (fun _ _ => rfl) labels net)
  refine ⟨.keeps (((net.collect labels).2.subscriptions.find? label).getD []) rfl
    (.refl (.report label none) net) (fun s => ?_)
    (fun k => (upkeep?_drop _ _ k).trans (holders k)) (fun k => (moves.made k).trans (made k))
    fun s id => (moves.copies _).trans (copies_collect labels net _), .of_slots fun s key => ?_,
    List.forall_mem_nil _⟩
  · exact stores ▸ stores_drop _ _ s
  · refine (slot?_drop _ _ s key).trans ?_
    unfold slot?
    exact stores ▸ rfl

theorem deed_unsubscribe (net : Network) (label : String) :
    Deed net (net.unsubscribe label, []) := by
  have moves := Moves.unsubscribe net label
  unfold Network.unsubscribe at moves ⊢
  cases found : net.subscriptions.find? label with
  | none => exact .nothing net
  | some sub =>
      rw [found] at moves
      refine ⟨.keeps sub rfl (.refl (.report label none) net) (fun s => stores_drop _ _ s)
        (fun k => upkeep?_drop _ _ k) moves.made fun s id => moves.copies _,
        .of_slots fun s key => slot?_drop _ _ s key, List.forall_mem_nil _⟩

theorem deed_addObservable (forest : net.Forest) (name : String) {o : Observable}
    (active : o.disposed = false) : Deed net (net.addObservable name o, []) := by
  have enrolled := Enrolls.watched forest o active
  have makes := Makes.addObservable net name o
  refine ⟨.makes (k := .observable net.nextObservable)
    (u := { o.upkeep with watching := (net.watched o).1 }) makes.fresh active enrolled rfl
    (fun j => ?_) makes.made makes.copies, .of_slots enrolled.slots, List.forall_mem_nil _⟩
  have same := enrolled.holders.upkeep j
  cases j with
  | observable id =>
      have inserted : (net.addObservable name o).observables =
          (net.watched o).2.observables.insert net.nextObservable
            { o with watching := (net.watched o).1 } := rfl
      simp only [upkeep?] at same ⊢
      rw [inserted, Table.find?_insert, ← same]
      simp only [Publisher.observable.injEq]
      split <;> rfl
  | binding id => exact same

theorem deed_attach (forest : net.Forest) (name : String) {b : Binding}
    (active : b.disposed = false) : Deed net (net.attach name b, []) := by
  let watched := net.watch b.store b.key (.refresh net.nextBinding)
  have enrolled : Enrolls (.refresh net.nextBinding) (b.upkeep.due (net.chain b.store)) watched.1
      net watched.2 := by
    refine (Enrolls.listenOn b.key (.refresh net.nextBinding) (forest.chain_nodup b.store)
      net).congr fun s => ?_
    simp [Upkeep.due, Binding.upkeep, active]
  have makes := Makes.attach net name b
  refine ⟨.makes (k := .binding net.nextBinding) (u := { b.upkeep with watching := watched.1 })
    makes.fresh active enrolled rfl (fun j => ?_) makes.made makes.copies,
    .of_slots enrolled.slots, List.forall_mem_nil _⟩
  have same := enrolled.holders.upkeep j
  cases j with
  | observable id => exact same
  | binding id =>
      have inserted : (net.attach name b).bindings =
          watched.2.bindings.insert net.nextBinding { b with watching := watched.1 } := rfl
      simp only [upkeep?] at same ⊢
      rw [inserted, Table.find?_insert, ← same]
      simp only [Publisher.binding.injEq]
      split <;> rfl

theorem deed_publish (net : Network) (id : ObservableId) (v : Value) :
    Deed net (net.publish id v) := by
  refine publish_cases (fun _ => .nothing net) fun o _ _ _ => ?_
  refine .of_stores rfl (.modifyObservable net id fun _ => rfl) (List.forall_mem_append.mpr ?_)
  exact ⟨List.forall_mem_map.mpr fun _ _ => trivial, List.forall_mem_singleton.mpr trivial⟩

theorem deed_recalculate (net : Network) (id : ObservableId) :
    Deed net (net.recalculate id) :=
  recalculate_cases (fun _ => .nothing net) fun _ _ _ _ =>
    .of_stores rfl (.modifyObservable net id fun _ => rfl) (List.forall_mem_singleton.mpr trivial)

/-- The end of whoever watches is the end of what it watches by. -/
theorem Ends.drop {k : Publisher} {u : Upkeep} {left? : Option Upkeep}
    (found : net.upkeep? k = some u)
    (ended : ∀ left ∈ left?, left.disposed = true ∧ left.watching = [])
    (stores : net'.stores = net.stores)
    (upkeep : ∀ j, net'.upkeep? j = if j = k then left? else net.upkeep? j)
    (made : ∀ j, net'.Made j ↔ net.Made j) (copies : ∀ reg, net'.copies reg = net.copies reg) :
    Ends k u left? net (net'.drop u.watching) := by
  refine ⟨found, ended, fun s => ?_, fun j => (upkeep?_drop _ _ j).trans (upkeep j),
    fun j => (made_drop _ _ j).trans (made j), fun reg => (copies_drop _ _ reg).trans (copies reg)⟩
  rw [stores_drop, stores]

/-- Whoever is disposed stops watching. -/
theorem Ends.dispose {k : Publisher} {u : Upkeep} (found : net.upkeep? k = some u)
    (stores : net'.stores = net.stores)
    (upkeep : ∀ j, net'.upkeep? j =
      if j = k then (net.upkeep? j).map Upkeep.left else net.upkeep? j)
    (made : ∀ j, net'.Made j ↔ net.Made j) (copies : ∀ reg, net'.copies reg = net.copies reg) :
    Ends k u (some u.left) net (net'.drop u.watching) := by
  refine .drop found ?_ stores (fun j => (upkeep j).trans ?_) made copies
  · rintro _ ⟨⟩
    exact ⟨rfl, rfl⟩
  · by_cases same : j = k
    · rw [if_pos same, if_pos same, same, found, Option.map_some]
    · rw [if_neg same, if_neg same]

theorem clean_complete (observers : List Observer) :
    ∀ t ∈ observers.map Task.complete, t.Clean :=
  List.forall_mem_map.mpr fun _ _ => trivial

theorem deed_disposeObservable (net : Network) (id : ObservableId) :
    Deed net (net.disposeObservable id) := by
  refine disposeObservable_cases (fun _ => .nothing net) fun o found _ => ?_
  refine ⟨.ends (.dispose (upkeep?_observable found) rfl ?_ (fun _ => .rfl) fun _ => rfl),
    .of_slots fun s key => slot?_drop _ _ s key, clean_complete _⟩
  exact upkeep?_modifyObservable net id (g := Upkeep.left) fun _ => rfl

theorem deed_disposeBinding (net : Network) (id : BindingId) :
    Deed net (net.disposeBinding id) := by
  refine disposeBinding_cases (fun _ => .nothing net) fun b found _ => ?_
  refine ⟨.ends (.dispose (upkeep?_binding found) rfl ?_ (fun _ => .rfl) fun _ => rfl),
    .of_slots fun s key => slot?_drop _ _ s key, clean_complete _⟩
  exact upkeep?_modifyBinding net id (g := Upkeep.left) fun _ => rfl

/-- A subscription to values is adopted once the first is delivered. -/
theorem clean_subscription {first : Task} {label : String} {sub : Subscription}
    (clean : first.Clean) (unregistered : ∀ s id, .listener s id ∉ sub) :
    ∀ t ∈ [first, .adopt label sub], t.Clean :=
  List.forall_mem_cons.mpr ⟨clean, List.forall_mem_singleton.mpr unregistered⟩

theorem deed_subscribeObservable (net : Network) (id : ObservableId) (observer : Observer) :
    Deed net (net.subscribeObservable id observer) := by
  refine subscribeObservable_cases (fun _ => .nothing net) (fun _ _ _ => .onward ?_)
    fun _ _ _ => .of_stores rfl (.modifyObservable net id fun _ => rfl) ?_
  · exact clean_subscription trivial fun _ _ => List.not_mem_nil
  · exact clean_subscription trivial fun _ _ => by simp

theorem deed_subscribeBinding (net : Network) (id : BindingId) (observer : Observer) :
    Deed net (net.subscribeBinding id observer) := by
  refine subscribeBinding_cases (fun _ => .nothing net) (fun _ _ _ => .onward ?_)
    fun _ _ _ => .of_stores rfl (.modifyBinding net id fun _ => rfl) ?_
  · exact clean_subscription trivial fun _ _ => List.not_mem_nil
  · exact clean_subscription trivial fun _ _ => by simp

theorem deed_refresh (net : Network) (id : BindingId) : Deed net (net.refresh id) :=
  refresh_cases (fun _ => .nothing net) fun _ _ _ _ _ _ =>
    .of_stores rfl (.modifyBinding net id fun _ => rfl) (List.forall_mem_map.mpr fun _ _ => trivial)

theorem deed_pushBinding (net : Network) (id : BindingId) (given : Value) :
    Deed net (net.pushBinding id given) :=
  pushBinding_cases (fun _ => .nothing net) fun b v _ _ _ _ =>
    (deed_assign net b.store b.key v).holding _

theorem deed_conclude (forest : net.Forest) (result : Except Failure Outcome)
    {completion : Completion} (clean : completion.Clean) :
    Deed net (net.conclude result completion) := by
  cases completion with
  | answer => exact .of_stores rfl (.of_eq rfl rfl rfl rfl rfl rfl) (List.forall_mem_nil _)
  | action label =>
      cases result with
      | ok => exact .nothing net
      | error => exact .of_stores rfl (.of_eq rfl rfl rfl rfl rfl rfl) (List.forall_mem_nil _)
  | recalculation id =>
      have stopped : SameTables net
          (net.modifyObservable id fun o => { o with evaluating := false }) :=
        .modifyObservable net id fun _ => rfl
      cases result with
      | ok outcome =>
          refine Deed.after ?_ stopped (deed_publish _ id _)
          rfl
      | error => exact .of_stores rfl stopped (List.forall_mem_nil _)
  | creation name draft =>
      have returned : SameTables net { net with returned := some result } :=
        .of_eq rfl rfl rfl rfl rfl rfl
      cases result with
      | ok outcome =>
          refine Deed.after ?_ returned (deed_addObservable ?_ name clean)
          · rfl
          · exact forest
      | error => exact .of_stores rfl returned (List.forall_mem_nil _)

theorem deed_start (forest : net.Forest) (source : Source) (activation : Code → Activation)
    {completion : Code → Completion} (clean : ∀ code, (completion code).Clean) :
    Deed net (net.start source activation completion) :=
  start_cases (fun code _ => .onward (List.forall_mem_singleton.mpr (clean code)))
    fun _ _ => deed_conclude forest _ (clean _)

theorem deed_invoke (forest : net.Forest) {r : Run} (clean : r.completion.Clean) (id : ObjectId)
    (argument : Value) (rest : Script Frame) : Deed net (net.invoke r id argument rest) := by
  refine invoke_cases (fun _ _ => .of_stores rfl (.of_eq rfl rfl rfl rfl rfl rfl) ?_)
    (fun _ _ => deed_conclude forest _ clean) (fun _ _ => .onward ?_) fun _ => .onward ?_
  all_goals exact List.forall_mem_singleton.mpr clean

theorem deed_advance (forest : net.Forest) {r : Run} (clean : r.completion.Clean) :
    Deed net (net.advance r) :=
  advance_cases (fun _ _ => .onward (List.forall_mem_singleton.mpr clean))
    (fun _ _ _ _ => .onward (List.forall_mem_singleton.mpr clean))
    fun _ _ => deed_conclude forest _ clean

theorem deed_proceed (forest : net.Forest) {r : Run} (clean : r.completion.Clean)
    (script : Script Frame) : Deed net (net.proceed r script) := by
  cases script with
  | done f => exact .onward (List.forall_mem_singleton.mpr clean)
  | fail e => exact deed_conclude forest _ clean
  | invoke id argument next => exact deed_invoke forest clean id argument next
  | ask request next =>
      refine ask_cases (fun _ => .onward (List.forall_mem_singleton.mpr clean))
        (fun _ _ _ _ answered _ => (deed_answer answered).append ?_)
        fun _ _ _ answered _ => (deed_answer answered).append (List.forall_mem_singleton.mpr clean)
      exact List.forall_mem_cons.mpr ⟨trivial, List.forall_mem_singleton.mpr clean⟩

theorem deed_withObservable (name : String) {f : ObservableId → Followed}
    (h : ∀ id, Deed net (f id)) : Deed net (net.withObservable name f) :=
  withObservable_cases (fun _ => .nothing net) fun id _ => h id

theorem deed_withBinding (name : String) {f : BindingId → Followed}
    (h : ∀ id, Deed net (f id)) : Deed net (net.withBinding name f) :=
  withBinding_cases (fun _ => .nothing net) fun id _ => h id

theorem deed_operate (forest : net.Forest) (op : Operation) (delivered : Value)
    (label? : Option String) : Deed net (net.operate op delivered label?) := by
  cases op with
  | set store key v => exact deed_set net store key v
  | assign store key v => exact deed_assign net store key v
  | ensure store key seed => exact (deed_fetch net store [] key seed).holding _
  | remove store key => exact (deed_remove net store key).holding _
  | clear store order => exact deed_clear net store order
  | watch store key label action => exact deed_watch forest store key label action
  | watchAll store label action =>
      exact deed_keep (.listen net store none (.report label action)) label
  | watchKey name label action =>
      exact watchKey_cases (fun _ => .nothing net) fun store key _ =>
        deed_watch forest store key label action
  | combine labels label => exact deed_combine net labels label
  | unsubscribe label => exact deed_unsubscribe net label
  | execute source store host parameter =>
      refine deed_start forest _ _ fun _ => ?_
      cases label? <;> trivial
  | observe name source store host parameter => exact deed_start forest _ _ fun _ => rfl
  | setParameter name v | setConverter name v =>
      exact deed_withObservable name fun id =>
        .of_stores rfl (.modifyObservable net id fun _ => rfl)
          (List.forall_mem_singleton.mpr trivial)
  | subscribe name label plain action =>
      exact deed_withObservable name fun id => deed_subscribeObservable net id _
  | dispose name => exact deed_withObservable name (deed_disposeObservable net)
  | bind name store key =>
      exact (deed_fetch net store [] key .null).append (List.forall_mem_singleton.mpr rfl)
  | push name v => exact deed_withBinding name fun id => deed_pushBinding net id v
  | setTarget name converter | setSource name converter =>
      exact deed_withBinding name fun id => .of_stores rfl (.modifyBinding net id fun _ => rfl)
        (List.forall_mem_nil _)
  | subscribeBinding name label plain action =>
      exact deed_withBinding name fun id => deed_subscribeBinding net id _
  | disposeBinding name => exact deed_withBinding name (deed_disposeBinding net)
  | forget | nameKey | nameCommand =>
      exact .of_stores rfl (.of_eq rfl rfl rfl rfl rfl rfl) (List.forall_mem_nil _)
  | run name parameter =>
      refine run_cases (fun _ => .nothing net) fun command _ => ?_
      cases command with
      | report => exact .of_stores rfl (.of_eq rfl rfl rfl rfl rfl rfl) (List.forall_mem_nil _)
      | reject => exact .of_stores rfl (.of_eq rfl rfl rfl rfl rfl rfl) (List.forall_mem_nil _)
      | program => exact .onward (List.forall_mem_singleton.mpr trivial)

theorem deed_report (net : Network) (event : Event) (label : String) (delivered : Value)
    (action : Option Operation) : Deed net ((net.report event).act label delivered action) := by
  refine act_cases (fun _ => ?_) (fun _ _ _ => ?_) fun _ _ _ => ?_
  · exact .of_stores rfl (.of_eq rfl rfl rfl rfl rfl rfl) (List.forall_mem_nil _)
  · exact .of_stores rfl (.of_eq rfl rfl rfl rfl rfl rfl) (List.forall_mem_nil _)
  · exact .of_stores rfl (.of_eq rfl rfl rfl rfl rfl rfl)
      (List.forall_mem_cons.mpr ⟨trivial, List.forall_mem_singleton.mpr trivial⟩)

/-- What any task does to those who watch. -/
theorem deed_perform (forest : net.Forest) {task : Task} (clean : task.Clean) :
    Deed net (task.perform net) := by
  cases task with
  | operate op delivered label => exact deed_operate forest op delivered label
  | notify callback =>
      cases callback with
      | report label action => exact deed_report net _ label .null action
      | recalculate id => exact deed_recalculate net id
      | refresh id => exact deed_refresh net id
  | deliver observer v => exact deed_report net _ _ _ _
  | complete observer =>
      simp only [Task.perform]
      split <;> exact .of_stores rfl (.of_eq rfl rfl rfl rfl rfl rfl) (List.forall_mem_nil _)
  | run r => exact deed_advance forest clean
  | proceed r script => exact deed_proceed forest clean script
  | adopt label sub =>
      refine ⟨.adopt rfl (.refl (.report label none) net) (fun s id => ?_) label,
        .of_slots fun s key => slot?_drop _ _ s key, List.forall_mem_nil _⟩
      exact List.count_eq_zero.mpr (clean s id)
  | attach name b => exact deed_attach forest name clean
  | leave => exact .of_stores rfl (.of_eq rfl rfl rfl rfl rfl rfl) (List.forall_mem_nil _)
  | letGo => exact .nothing net

theorem releaseBinding_ends (net : Network) (id : BindingId) :
    net.releaseBinding id = net ∨ ∃ u, Ends (.binding id) u none net (net.releaseBinding id) := by
  refine releaseBinding_cases (fun _ => .inl rfl) fun b found => .inr ⟨b.upkeep, ?_⟩
  refine .drop (upkeep?_binding found) (fun _ member => ?_) rfl (fun j => ?_) (fun _ => .rfl)
    fun _ => rfl
  · exact (Option.not_mem_none _ member).elim
  · cases j with
    | observable k => rfl
    | binding k =>
        simp only [upkeep?, Table.find?_erase, Publisher.binding.injEq]
        split <;> rfl

theorem releaseObservable_ends (net : Network) (id : ObservableId) :
    net.releaseObservable id = net ∨
      ∃ u, Ends (.observable id) u none net (net.releaseObservable id) := by
  refine releaseObservable_cases (fun _ => .inl rfl) fun o found => .inr ⟨o.upkeep, ?_⟩
  refine .drop (upkeep?_observable found) (fun _ member => ?_) rfl (fun j => ?_) (fun _ => .rfl)
    fun _ => rfl
  · exact (Option.not_mem_none _ member).elim
  · cases j with
    | observable k =>
        simp only [upkeep?, Table.find?_erase, Publisher.observable.injEq]
        split <;> rfl
    | binding k => rfl

/-- What holds whoever is released holds after a release. -/
theorem release_preserves {P : Network → Prop}
    (step : ∀ {net net' : Network} {k : Publisher} {u : Upkeep}, P net → Ends k u none net net' →
      P net') (h : P net) (agenda : List Task) : P (net.release agenda) := by
  refine release_induction h (fun net id before => ?_) (fun net id before => ?_) agenda
  · obtain same | ⟨u, ends⟩ := releaseBinding_ends net id
    · rwa [same]
    · exact step before ends
  · obtain same | ⟨u, ends⟩ := releaseObservable_ends net id
    · rwa [same]
    · exact step before ends

end Network

end SlotScript
