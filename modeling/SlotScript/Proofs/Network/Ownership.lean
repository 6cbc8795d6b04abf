import SlotScript.Proofs.Network.Reading
import SlotScript.Proofs.Network.Session

/-! # What belongs to whom

Registrations are given out once. Whoever holds one may drop it, so an observable goes on being told
of changes because nobody else holds what is its own. `Sound` says so of a network, with or without
an observable that is looked at in particular, and `Keeps` of what happens to a network: nothing is
done to that observable, or to what its code can see, short of its end.
-/

namespace SlotScript

/-- An observable that has been made, with the registrations that are its own. -/
structure Watcher where
  id : ObservableId
  code : Code
  store : StoreId
  host : Option Host
  Owns : StoreId → Nat → Prop

/-- What runs can see of a store. -/
def Store.visible (st : Store) : List StoreId × Value × Table String Value :=
  (st.ancestors, st.owner, st.slots)

namespace Observable

/-- The same observable at another time, perhaps with another value. -/
structure Resembles (o o' : Observable) : Prop where
  code : o'.code = o.code
  store : o'.store = o.store
  host : o'.host = o.host

/-- The same observable at another time, with the same value. -/
structure Continues (o o' : Observable) : Prop extends o.Resembles o' where
  value : o'.value = o.value
  parameter : o'.parameter = o.parameter
  evaluating : o'.evaluating = o.evaluating

theorem Continues.refl (o : Observable) : o.Continues o := ⟨⟨rfl, rfl, rfl⟩, rfl, rfl, rfl⟩

theorem Continues.trans {o p q : Observable} (first : o.Continues p) (second : p.Continues q) :
    o.Continues q :=
  ⟨⟨second.code.trans first.code, second.store.trans first.store, second.host.trans first.host⟩,
    second.value.trans first.value, second.parameter.trans first.parameter,
    second.evaluating.trans first.evaluating⟩

end Observable

namespace Network

theorem live?_eq_some_iff {net : Network} {id : ObservableId} {o : Observable} :
    net.live? id = some o ↔ net.observables.find? id = some o ∧ o.disposed = false := by
  simp [live?, Option.filter_eq_some_iff]

/-- A number that has been given to a listener. A store that does not exist gives out nothing. -/
def Issued (net : Network) (store : StoreId) (id : Nat) : Prop :=
  ∀ st, net.stores[store]? = some st → id < st.nextListener

/-- A registration that someone other than the watcher may hold. -/
def Free (w? : Option Watcher) (net : Network) : Registration → Prop
  | .listener store id => net.Issued store id ∧ ∀ w ∈ w?, ¬ w.Owns store id
  | .observer .. | .bindingObserver .. => True

/-- A registration that can be dropped without a loss to a watcher that is alive. -/
def Droppable (w? : Option Watcher) (net : Network) : Registration → Prop
  | .listener store id => ∀ w ∈ w?, w.Owns store id → net.live? w.id = none
  | .observer .. | .bindingObserver .. => True

/-- Whoever writes a key that the code reads, in a store where it looks, has to tell. -/
def Tells (net : Network) (w : Watcher) : Prop :=
  ∀ store ∈ net.chain w.store, ∀ key ∈ w.code.readKeys, ∀ st, net.stores[store]? = some st →
    ∃ l ∈ st.listeners, l.key = some key ∧ l.callback = .recalculate w.id ∧ w.Owns store l.id

/-- What holds of an observable from its creation to its end. -/
structure Minds (net : Network) (w : Watcher) : Prop where
  made : w.id < net.nextObservable
  issued : ∀ store id, w.Owns store id → ∃ st, net.stores[store]? = some st ∧ id < st.nextListener
  record : ∀ o, net.live? w.id = some o → o.code = w.code ∧ o.store = w.store ∧ o.host = w.host
  tells : (net.live? w.id).isSome → net.Tells w

/-- Everybody holds registrations that were given out, and none that are the watcher's own. -/
structure Sound (w? : Option Watcher) (net : Network) : Prop where
  labels : ∀ label sub, net.subscriptions.find? label = some sub → ∀ reg ∈ sub, net.Free w? reg
  numbered : ∀ id o, net.observables.find? id = some o → id < net.nextObservable
  observables : ∀ id o, net.observables.find? id = some o → (∀ w ∈ w?, id ≠ w.id) →
    ∀ reg ∈ o.watching, net.Free w? reg
  bindings : ∀ id b, net.bindings.find? id = some b → ∀ reg ∈ b.watching, net.Free w? reg
  minds : ∀ w ∈ w?, net.Minds w

/-- Something happens to a network that changes nothing runs can see, and nothing of the watcher
unless it comes to its end. -/
structure Keeps (w? : Option Watcher) (net net' : Network) : Prop where
  sound : Sound w? net'
  next : net.nextObservable ≤ net'.nextObservable
  issued : ∀ store id, net.Issued store id → net'.Issued store id
  live : ∀ w ∈ w?, ∀ o', net'.live? w.id = some o' →
    ∃ o, net.live? w.id = some o ∧ o.Continues o'
  alike : ∀ store keys, Alike store keys net net'

variable {w? : Option Watcher} {w : Watcher} {net net' net'' : Network}

/-- What has come to its end does not come back. -/
theorem dead_of_live {id : ObservableId} {R : Observable → Observable → Prop}
    (live : ∀ o', net'.live? id = some o' → ∃ o, net.live? id = some o ∧ R o o')
    (ended : net.live? id = none) : net'.live? id = none := by
  refine Option.eq_none_iff_forall_ne_some.mpr fun o' alive => ?_
  obtain ⟨o, alive, -⟩ := live o' alive
  rw [ended] at alive
  cases alive

theorem Free.droppable {reg : Registration} (h : net.Free w? reg) : net.Droppable w? reg := by
  cases reg with
  | listener store id => exact fun w member owns => (h.2 w member owns).elim
  | observer | bindingObserver => trivial

namespace Keeps

theorem refl (sound : Sound w? net) : Keeps w? net net :=
  ⟨sound, Nat.le_refl _, fun _ _ => id, fun _ _ o alive => ⟨o, alive, .refl o⟩,
    fun _ _ => .refl net⟩

theorem trans (first : Keeps w? net net') (second : Keeps w? net' net'') : Keeps w? net net'' := by
  refine ⟨second.sound, Nat.le_trans first.next second.next,
    fun store id issued => second.issued store id (first.issued store id issued), ?_,
    fun store keys => (first.alike store keys).trans (second.alike store keys)⟩
  intro w member o'' alive
  obtain ⟨o', alive, continues'⟩ := second.live w member o'' alive
  obtain ⟨o, alive, continues⟩ := first.live w member o' alive
  exact ⟨o, alive, continues.trans continues'⟩

theorem dead (keeps : Keeps w? net net') (member : w ∈ w?) :
    net.live? w.id = none → net'.live? w.id = none :=
  dead_of_live (keeps.live w member)

theorem free (keeps : Keeps w? net net') {reg : Registration} (h : net.Free w? reg) :
    net'.Free w? reg := by
  cases reg with
  | listener store id => exact ⟨keeps.issued store id h.1, h.2⟩
  | observer | bindingObserver => trivial

theorem droppable (keeps : Keeps w? net net') {reg : Registration} (h : net.Droppable w? reg) :
    net'.Droppable w? reg := by
  cases reg with
  | listener store id =>
      exact fun w member owns => keeps.dead member (h w member owns)
  | observer | bindingObserver => trivial

end Keeps

theorem issued_of_stores (stores : net'.stores = net.stores) {store : StoreId} {id : Nat}
    (h : net.Issued store id) : net'.Issued store id := by
  intro st found
  exact h st (stores ▸ found)

theorem free_of_stores (stores : net'.stores = net.stores) {reg : Registration}
    (h : net.Free w? reg) : net'.Free w? reg := by
  cases reg with
  | listener store id => exact ⟨issued_of_stores stores h.1, h.2⟩
  | observer | bindingObserver => trivial

theorem tells_of_stores (stores : net'.stores = net.stores) (h : net.Tells w) : net'.Tells w := by
  intro store member key reads st found
  have chain : net'.chain w.store = net.chain w.store := by
    unfold Network.chain
    rw [stores]
  rw [chain] at member
  rw [stores] at found
  exact h store member key reads st found

theorem alike_of_stores {store : StoreId} {keys : List String} (stores : net'.stores = net.stores)
    (objects : net'.objects = net.objects) : Alike store keys net net' := by
  refine ⟨?_, objects, ?_⟩
  · intro key _
    simp only [lookup?, chain, slot?, stores]
  · simp only [owner, stores]

/-- Only holders differ, and each holds what is free. -/
theorem Sound.of_holders (sound : Sound w? net) (stores : net'.stores = net.stores)
    (next : net.nextObservable ≤ net'.nextObservable)
    (labels : ∀ label sub, net'.subscriptions.find? label = some sub →
      ∀ reg ∈ sub, net.Free w? reg)
    (numbered : ∀ id o, net'.observables.find? id = some o → id < net'.nextObservable)
    (observables : ∀ id o, net'.observables.find? id = some o → (∀ w ∈ w?, id ≠ w.id) →
      ∀ reg ∈ o.watching, net.Free w? reg)
    (bindings : ∀ id b, net'.bindings.find? id = some b → ∀ reg ∈ b.watching, net.Free w? reg)
    (live : ∀ w ∈ w?, ∀ o', net'.live? w.id = some o' →
      ∃ o, net.live? w.id = some o ∧ o.Resembles o') :
    Sound w? net' := by
  refine ⟨?_, numbered, ?_, ?_, ?_⟩
  · exact fun label sub found reg member =>
      free_of_stores stores (labels label sub found reg member)
  · exact fun id o found other reg member =>
      free_of_stores stores (observables id o found other reg member)
  · exact fun id b found reg member => free_of_stores stores (bindings id b found reg member)
  · intro w member
    obtain ⟨made, issued, record, tells⟩ := sound.minds w member
    refine ⟨Nat.lt_of_lt_of_le made next, ?_, ?_, ?_⟩
    · intro store id owns
      rw [stores]
      exact issued store id owns
    · intro o' alive
      obtain ⟨o, alive, same⟩ := live w member o' alive
      obtain ⟨code, store, host⟩ := record o alive
      exact ⟨same.code.trans code, same.store.trans store, same.host.trans host⟩
    · intro alive
      obtain ⟨o', alive⟩ := Option.isSome_iff_exists.mp alive
      obtain ⟨o, alive, -⟩ := live w member o' alive
      exact tells_of_stores stores (tells (by rw [alive]; rfl))

theorem Keeps.of_sound (sound : Sound w? net') (stores : net'.stores = net.stores)
    (objects : net'.objects = net.objects) (next : net.nextObservable ≤ net'.nextObservable)
    (live : ∀ w ∈ w?, ∀ o', net'.live? w.id = some o' →
      ∃ o, net.live? w.id = some o ∧ o.Continues o') : Keeps w? net net' :=
  ⟨sound, next, fun _ _ => issued_of_stores stores, live,
    fun _ _ => alike_of_stores stores objects⟩

/-- Other things are held under labels and by bindings, but all of them are free. -/
theorem Keeps.of_holders (sound : Sound w? net) (stores : net'.stores = net.stores)
    (objects : net'.objects = net.objects) (next : net'.nextObservable = net.nextObservable)
    (observables : net'.observables = net.observables)
    (labels : ∀ label sub, net'.subscriptions.find? label = some sub →
      ∀ reg ∈ sub, net.Free w? reg)
    (bindings : ∀ id b, net'.bindings.find? id = some b → ∀ reg ∈ b.watching, net.Free w? reg) :
    Keeps w? net net' := by
  have live (id : ObservableId) : net'.live? id = net.live? id := by
    unfold live?
    rw [observables]
  refine .of_sound (sound.of_holders stores (Nat.le_of_eq next.symm) labels ?_ ?_ bindings ?_)
    stores objects (Nat.le_of_eq next.symm) ?_
  · exact observables ▸ next ▸ sound.numbered
  · exact observables ▸ sound.observables
  · exact fun w _ o' alive => ⟨o', live w.id ▸ alive, ⟨rfl, rfl, rfl⟩⟩
  · exact fun w _ o' alive => ⟨o', live w.id ▸ alive, .refl o'⟩

/-- The part of a network that ownership is about is the same. -/
theorem Keeps.inert (sound : Sound w? net) (stores : net'.stores = net.stores)
    (objects : net'.objects = net.objects) (next : net'.nextObservable = net.nextObservable)
    (labels : net'.subscriptions = net.subscriptions)
    (observables : net'.observables = net.observables) (bindings : net'.bindings = net.bindings) :
    Keeps w? net net' :=
  .of_holders sound stores objects next observables (labels ▸ sound.labels)
    (bindings ▸ sound.bindings)

theorem find?_modifyObservable {id k : ObservableId} {f : Observable → Observable}
    {o' : Observable} (h : (net.modifyObservable id f).observables.find? k = some o') :
    ∃ o, net.observables.find? k = some o ∧ (k = id ∧ o' = f o ∨ k ≠ id ∧ o' = o) :=
  Table.find?_of_adjust h

theorem find?_modifyObservable_self (id : ObservableId) (f : Observable → Observable) :
    (net.modifyObservable id f).observables.find? id = (net.observables.find? id).map f := by
  simp [modifyObservable, Table.find?_adjust]

theorem live?_modifyObservable {id k : ObservableId} {f : Observable → Observable}
    {R : Observable → Observable → Prop} (refl : ∀ o, R o o)
    (live : k = id → ∀ o, net.observables.find? k = some o → (f o).disposed = false →
      o.disposed = false ∧ R o (f o)) {o' : Observable}
    (alive : (net.modifyObservable id f).live? k = some o') :
    ∃ o, net.live? k = some o ∧ R o o' := by
  obtain ⟨later, active⟩ := live?_eq_some_iff.mp alive
  obtain ⟨o, found, ⟨same, rfl⟩ | ⟨-, rfl⟩⟩ := find?_modifyObservable later
  · obtain ⟨active, related⟩ := live same o found active
    exact ⟨o, live?_eq_some_iff.mpr ⟨found, active⟩, related⟩
  · exact ⟨o', live?_eq_some_iff.mpr ⟨found, active⟩, refl o'⟩

/-- The observable itself, before it changed. -/
theorem live?_modifyObservable_self {id : ObservableId} {f : Observable → Observable}
    (disposed : ∀ o, (f o).disposed = o.disposed) {o' : Observable}
    (alive : (net.modifyObservable id f).live? id = some o') :
    ∃ o, net.live? id = some o ∧ o' = f o := by
  obtain ⟨later, active⟩ := live?_eq_some_iff.mp alive
  obtain ⟨o, found, ⟨-, rfl⟩ | ⟨other, -⟩⟩ := find?_modifyObservable later
  · rw [disposed] at active
    exact ⟨o, live?_eq_some_iff.mpr ⟨found, active⟩, rfl⟩
  · exact (other rfl).elim

theorem Sound.modifyObservable (sound : Sound w? net) {id : ObservableId}
    {f : Observable → Observable} (watching : ∀ o, ∀ reg ∈ (f o).watching, reg ∈ o.watching)
    (live : ∀ w ∈ w?, w.id = id → ∀ o, net.observables.find? w.id = some o →
      (f o).disposed = false → o.disposed = false ∧ o.Resembles (f o)) :
    Sound w? (net.modifyObservable id f) := by
  refine sound.of_holders rfl (Nat.le_refl _) sound.labels ?_ ?_ sound.bindings ?_
  · intro k o' found
    obtain ⟨o, found, -⟩ := find?_modifyObservable found
    exact sound.numbered k o found
  · intro k o' later other reg member
    obtain ⟨o, found, ⟨-, rfl⟩ | ⟨-, rfl⟩⟩ := find?_modifyObservable later
    · exact sound.observables k o found other reg (watching o reg member)
    · exact sound.observables k o' found other reg member
  · intro w member o' alive
    exact live?_modifyObservable (R := Observable.Resembles) (fun o => ⟨rfl, rfl, rfl⟩)
      (live w member) alive

/-- An observable changes, but not in what a watcher cares for. -/
theorem Keeps.modifyObservable (sound : Sound w? net) {id : ObservableId}
    {f : Observable → Observable} (watching : ∀ o, ∀ reg ∈ (f o).watching, reg ∈ o.watching)
    (live : ∀ w ∈ w?, w.id = id → ∀ o, net.observables.find? w.id = some o →
      (f o).disposed = false → o.disposed = false ∧ o.Continues (f o)) :
    Keeps w? net (net.modifyObservable id f) := by
  refine .of_sound (sound.modifyObservable watching ?_) rfl rfl (Nat.le_refl _) ?_
  · intro w member same o found active
    obtain ⟨active, continues⟩ := live w member same o found active
    exact ⟨active, continues.toResembles⟩
  · intro w member o' alive
    exact live?_modifyObservable (R := Observable.Continues) .refl (live w member) alive

theorem Keeps.eraseObservable (sound : Sound w? net) (id : ObservableId) :
    Keeps w? net { net with observables := net.observables.erase id } := by
  have live {k : ObservableId} {o : Observable}
      (alive : ({ net with observables := net.observables.erase id } : Network).live? k = some o) :
      net.live? k = some o := by
    obtain ⟨found, active⟩ := live?_eq_some_iff.mp alive
    exact live?_eq_some_iff.mpr ⟨Table.find?_of_erase found, active⟩
  refine .of_sound (sound.of_holders rfl (Nat.le_refl _) sound.labels ?_ ?_ sound.bindings ?_) rfl
    rfl (Nat.le_refl _) ?_
  · exact fun k o found => sound.numbered k o (Table.find?_of_erase found)
  · exact fun k o found => sound.observables k o (Table.find?_of_erase found)
  · exact fun w _ o alive => ⟨o, live alive, ⟨rfl, rfl, rfl⟩⟩
  · exact fun w _ o alive => ⟨o, live alive, .refl o⟩

theorem Keeps.modifyBinding (sound : Sound w? net) {id : BindingId} {f : Binding → Binding}
    (watching : ∀ b, ∀ reg ∈ (f b).watching, reg ∈ b.watching) :
    Keeps w? net (net.modifyBinding id f) := by
  refine .of_holders sound rfl rfl rfl rfl sound.labels ?_
  intro k b' later reg member
  obtain ⟨b, found, ⟨-, rfl⟩ | ⟨-, rfl⟩⟩ := Table.find?_of_adjust later
  · exact sound.bindings k b found reg (watching b reg member)
  · exact sound.bindings k b' found reg member

theorem Keeps.eraseBinding (sound : Sound w? net) (id : BindingId) :
    Keeps w? net { net with bindings := net.bindings.erase id } := by
  refine .of_holders sound rfl rfl rfl rfl sound.labels ?_
  exact fun k b found => sound.bindings k b (Table.find?_of_erase found)

theorem stores_modifyStore (net : Network) (store : StoreId) (f : Store → Store) (s : StoreId) :
    (net.modifyStore store f).stores[s]? =
      if store = s then (net.stores[s]?).map f else net.stores[s]? := by
  simp only [modifyStore, List.getElem?_modify]
  split <;> simp

/-- A store after the change is one before it, perhaps changed. -/
theorem mem_modifyStore {store s : StoreId} {f : Store → Store} {st' : Store}
    (h : (net.modifyStore store f).stores[s]? = some st') :
    ∃ st, net.stores[s]? = some st ∧ (store = s ∧ st' = f st ∨ store ≠ s ∧ st' = st) := by
  rw [stores_modifyStore] at h
  split at h
  case isTrue same =>
    obtain ⟨st, found, rfl⟩ := Option.map_eq_some_iff.mp h
    exact ⟨st, found, .inl ⟨same, rfl⟩⟩
  case isFalse other => exact ⟨st', h, .inr ⟨other, rfl⟩⟩

theorem issued_modifyStore {store : StoreId} {f : Store → Store}
    (grows : ∀ st, st.nextListener ≤ (f st).nextListener) {s : StoreId} {id : Nat}
    (h : net.Issued s id) : (net.modifyStore store f).Issued s id := by
  intro st' later
  obtain ⟨st, found, ⟨-, rfl⟩ | ⟨-, rfl⟩⟩ := mem_modifyStore later
  · exact Nat.lt_of_lt_of_le (h st found) (grows st)
  · exact h st' found

theorem free_modifyStore {store : StoreId} {f : Store → Store}
    (grows : ∀ st, st.nextListener ≤ (f st).nextListener) {reg : Registration}
    (h : net.Free w? reg) : (net.modifyStore store f).Free w? reg := by
  cases reg with
  | listener s id => exact ⟨issued_modifyStore grows h.1, h.2⟩
  | observer | bindingObserver => trivial

/-- The scopes of a store are what they were when stores keep their ancestors. -/
theorem chain_modifyStore {store : StoreId} {f : Store → Store}
    (ancestors : ∀ st, (f st).ancestors = st.ancestors) (s : StoreId) :
    (net.modifyStore store f).chain s = net.chain s := by
  unfold Network.chain
  rw [stores_modifyStore]
  split
  · simp only [Option.map_map, Function.comp_def, ancestors]
  · rfl

theorem tells_modifyStore {store : StoreId} {f : Store → Store}
    (ancestors : ∀ st, (f st).ancestors = st.ancestors)
    (kept : ∀ st, ∀ l ∈ st.listeners, w.Owns store l.id → l ∈ (f st).listeners)
    (h : net.Tells w) : (net.modifyStore store f).Tells w := by
  intro s member key reads st' later
  rw [chain_modifyStore ancestors] at member
  obtain ⟨st, found, ⟨rfl, rfl⟩ | ⟨-, rfl⟩⟩ := mem_modifyStore later
  · obtain ⟨l, listens, for_key, callback, own⟩ := h store member key reads st found
    exact ⟨l, kept st l listens own, for_key, callback, own⟩
  · exact h s member key reads st' found

theorem Sound.modifyStore (sound : Sound w? net) {store : StoreId} {f : Store → Store}
    (ancestors : ∀ st, (f st).ancestors = st.ancestors)
    (grows : ∀ st, st.nextListener ≤ (f st).nextListener)
    (kept : ∀ w ∈ w?, (net.live? w.id).isSome → ∀ st, ∀ l ∈ st.listeners, w.Owns store l.id →
      l ∈ (f st).listeners) : Sound w? (net.modifyStore store f) := by
  refine ⟨?_, sound.numbered, ?_, ?_, ?_⟩
  · exact fun label sub found reg member =>
      free_modifyStore grows (sound.labels label sub found reg member)
  · exact fun id o found other reg member =>
      free_modifyStore grows (sound.observables id o found other reg member)
  · exact fun id b found reg member =>
      free_modifyStore grows (sound.bindings id b found reg member)
  · intro w member
    obtain ⟨made, issued, record, tells⟩ := sound.minds w member
    refine ⟨made, ?_, record, fun alive => ?_⟩
    · intro s id owns
      obtain ⟨st, found, below⟩ := issued s id owns
      rw [stores_modifyStore, found]
      split
      · exact ⟨f st, rfl, Nat.lt_of_lt_of_le below (grows st)⟩
      · exact ⟨st, rfl, below⟩
    · exact tells_modifyStore ancestors (kept w member alive) (tells alive)

theorem alike_modifyStore {store : StoreId} {f : Store → Store}
    (visible : ∀ st, (f st).visible = st.visible) {s : StoreId} {keys : List String} :
    Alike s keys net (net.modifyStore store f) := by
  have ancestors (st : Store) : (f st).ancestors = st.ancestors := congrArg (·.1) (visible st)
  have owners (st : Store) : (f st).owner = st.owner := congrArg (·.2.1) (visible st)
  have slots (st : Store) : (f st).slots = st.slots := congrArg (·.2.2) (visible st)
  refine ⟨?_, rfl, ?_⟩
  · intro key _
    unfold lookup?
    rw [chain_modifyStore ancestors]
    congr 1
    funext scope
    unfold slot?
    rw [stores_modifyStore]
    split
    · cases net.stores[scope]? <;> simp [slots]
    · rfl
  · unfold owner
    rw [stores_modifyStore]
    split
    · cases net.stores[s]? <;> simp [owners]
    · rfl

theorem Keeps.modifyStore (sound : Sound w? net) {store : StoreId} {f : Store → Store}
    (visible : ∀ st, (f st).visible = st.visible)
    (grows : ∀ st, st.nextListener ≤ (f st).nextListener)
    (kept : ∀ w ∈ w?, (net.live? w.id).isSome → ∀ st, ∀ l ∈ st.listeners, w.Owns store l.id →
      l ∈ (f st).listeners) : Keeps w? net (net.modifyStore store f) := by
  have ancestors (st : Store) : (f st).ancestors = st.ancestors := congrArg (·.1) (visible st)
  refine ⟨sound.modifyStore ancestors grows kept, Nat.le_refl _, ?_, ?_, ?_⟩
  · exact fun _ _ => issued_modifyStore grows
  · exact fun w _ o alive => ⟨o, alive, .refl o⟩
  · exact fun _ _ => alike_modifyStore visible

end Network

end SlotScript
