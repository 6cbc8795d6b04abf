import SlotScript.Proofs.Network.Cases
import SlotScript.Proofs.Network.Ownership

/-! # Registering and taking back

What is registered anew is nobody's yet, and what is dropped was held by whoever drops it. So no
subscription, and nothing that comes to its end, takes from a watcher what it is told by.
-/

namespace SlotScript

namespace Network

variable {w? : Option Watcher} {w : Watcher} {net net' net'' : Network}

/-- A subscription has been made, and nobody holds it yet. -/
structure Subscribes (w? : Option Watcher) (net : Network) (made : Subscription × Network) :
    Prop where
  keeps : Keeps w? net made.2
  free : ∀ reg ∈ made.1, made.2.Free w? reg

theorem Subscribes.listen (sound : Sound w? net) (store : StoreId) (key : Option String)
    (callback : Callback) :
    Subscribes w? net ([(net.listen store key callback).1], (net.listen store key callback).2) := by
  refine ⟨.modifyStore sound (fun _ => rfl) (fun st => Nat.le_succ _) ?_, ?_⟩
  · exact fun w _ _ st l member _ => List.mem_append_left _ member
  · intro reg member
    obtain rfl := List.mem_singleton.mp member
    refine ⟨?_, ?_⟩
    · intro st' later
      obtain ⟨st, found, ⟨-, rfl⟩ | ⟨other, -⟩⟩ := mem_modifyStore later
      · simp [found]
      · exact (other rfl).elim
    · intro w member owns
      obtain ⟨st, found, below⟩ := (sound.minds w member).issued store _ owns
      simp [found] at below

theorem Subscribes.listenOn (key : String) (callback : Callback) (stores : List StoreId)
    (sound : Sound w? net) : Subscribes w? net (listenOn key callback stores net) := by
  induction stores generalizing net with
  | nil => exact ⟨.refl sound, List.forall_mem_nil _⟩
  | cons store stores ih =>
      have first := Subscribes.listen sound store (some key) callback
      have others := ih first.keeps.sound
      refine ⟨first.keeps.trans others.keeps, List.forall_mem_cons.mpr ⟨?_, others.free⟩⟩
      exact others.keeps.free (first.free _ (.head _))

theorem Subscribes.watch (sound : Sound w? net) (store : StoreId) (key : String)
    (callback : Callback) : Subscribes w? net (net.watch store key callback) :=
  .listenOn key callback _ sound

theorem Subscribes.watchKeys (store : StoreId) (callback : Callback) (keys : List String)
    (sound : Sound w? net) : Subscribes w? net (watchKeys store callback keys net) := by
  induction keys generalizing net with
  | nil => exact ⟨.refl sound, List.forall_mem_nil _⟩
  | cons key keys ih =>
      have first := Subscribes.watch sound store key callback
      have others := ih first.keeps.sound
      refine ⟨first.keeps.trans others.keeps, ?_⟩
      intro reg member
      obtain member | member := List.mem_append.mp member
      · exact others.keeps.free (first.free reg member)
      · exact others.free reg member

theorem Keeps.unregister (sound : Sound w? net) {reg : Registration}
    (droppable : net.Droppable w? reg) : Keeps w? net (net.unregister reg) := by
  cases reg with
  | listener store id =>
      refine .modifyStore sound (fun _ => rfl) (fun _ => Nat.le_refl _) ?_
      intro w member alive st l listens owns
      refine List.mem_filter.mpr ⟨listens, ?_⟩
      have other : l.id ≠ id := by
        rintro rfl
        rw [droppable w member owns] at alive
        cases alive
      simpa using other
  | observer observable id =>
      exact .modifyObservable sound (fun _ _ member => member)
        fun w _ _ o _ active => ⟨active, ⟨rfl, rfl, rfl⟩, rfl, rfl, rfl⟩
  | bindingObserver binding id => exact .modifyBinding sound fun _ _ member => member

theorem Keeps.drop (sound : Sound w? net) (sub : Subscription)
    (droppable : ∀ reg ∈ sub, net.Droppable w? reg) : Keeps w? net (net.drop sub) := by
  unfold Network.drop
  induction sub generalizing net with
  | nil => exact .refl sound
  | cons reg sub ih =>
      have first := Keeps.unregister sound (droppable reg (.head _))
      refine first.trans (ih first.sound ?_)
      exact fun reg member => first.droppable (droppable reg (.tail _ member))

/-- What is held under a label, if anything, is free. -/
theorem Sound.labelled (sound : Sound w? net) (label : String) :
    ∀ reg ∈ (net.subscriptions.find? label).getD [], net.Free w? reg := by
  cases found : net.subscriptions.find? label with
  | none => exact List.forall_mem_nil _
  | some sub => exact sound.labels label sub found

theorem Keeps.relabel (sound : Sound w? net) (label : String) {sub : Subscription}
    (free : ∀ reg ∈ sub, net.Free w? reg) :
    Keeps w? net { net with subscriptions := net.subscriptions.insert label sub } := by
  refine .of_holders sound rfl rfl rfl rfl ?_ sound.bindings
  intro k sub' later
  obtain ⟨-, rfl⟩ | ⟨-, found⟩ := Table.find?_of_insert later
  · exact free
  · exact sound.labels k sub' found

theorem Keeps.unlabel (sound : Sound w? net) (label : String) :
    Keeps w? net { net with subscriptions := net.subscriptions.erase label } := by
  refine .of_holders sound rfl rfl rfl rfl ?_ sound.bindings
  exact fun k sub found => sound.labels k sub (Table.find?_of_erase found)

theorem Keeps.adopt (sound : Sound w? net) (label : String) {sub : Subscription}
    (free : ∀ reg ∈ sub, net.Free w? reg) : Keeps w? net (net.adopt label sub) := by
  have relabelled := Keeps.relabel sound label free
  refine relabelled.trans (.drop relabelled.sound _ ?_)
  intro reg member
  exact (relabelled.free (sound.labelled label reg member)).droppable

theorem Keeps.unsubscribe (sound : Sound w? net) (label : String) :
    Keeps w? net (net.unsubscribe label) := by
  refine unsubscribe_cases (fun _ => .refl sound) fun sub found => ?_
  have unlabelled := Keeps.unlabel sound label
  refine unlabelled.trans (.drop unlabelled.sound _ ?_)
  intro reg member
  exact (unlabelled.free (sound.labels label sub found reg member)).droppable

theorem Subscribes.collect (labels : List String) (sound : Sound w? net) :
    Subscribes w? net (net.collect labels) := by
  induction labels generalizing net with
  | nil => exact ⟨.refl sound, List.forall_mem_nil _⟩
  | cons label labels ih =>
      have first := Keeps.unlabel sound label
      have others := ih first.sound
      refine ⟨first.trans others.keeps, ?_⟩
      intro reg member
      obtain member | member := List.mem_append.mp member
      · exact others.keeps.free (first.free (sound.labelled label reg member))
      · exact others.free reg member

/-- A subscription that has been made is put under a label. -/
theorem Subscribes.adopt {made : Subscription × Network} (h : Subscribes w? net made)
    (label : String) : Keeps w? net (made.2.adopt label made.1) :=
  h.keeps.trans (.adopt h.keeps.sound label h.free)

/-- What an observable watches by can be dropped, if a watcher it belongs to is no longer alive. -/
theorem Sound.droppable (sound : Sound w? net) {id : ObservableId} {o : Observable}
    (found : net.observables.find? id = some o) (ended : net'.live? id = none) :
    ∀ reg ∈ o.watching, net'.Droppable w? reg := by
  intro reg member
  cases reg with
  | listener store k =>
      intro w is_w owns
      by_cases own : id = w.id
      · exact own ▸ ended
      · have foreign : ∀ w' ∈ w?, id ≠ w'.id := by
          intro w' is_w'
          cases is_w.symm.trans is_w'
          exact own
        have free := sound.observables id o found foreign _ member
        exact (free.2 w is_w owns).elim
  | observer | bindingObserver => trivial

theorem Keeps.releaseObservable (sound : Sound w? net) (id : ObservableId) :
    Keeps w? net (net.releaseObservable id) := by
  refine releaseObservable_cases (fun _ => .refl sound) fun o found => ?_
  have erased := Keeps.eraseObservable sound id
  refine erased.trans (.drop erased.sound _ (sound.droppable found ?_))
  simp [live?, Table.find?_erase]

theorem Keeps.releaseBinding (sound : Sound w? net) (id : BindingId) :
    Keeps w? net (net.releaseBinding id) := by
  refine releaseBinding_cases (fun _ => .refl sound) fun b found => ?_
  have erased := Keeps.eraseBinding sound id
  refine erased.trans (.drop erased.sound _ ?_)
  exact fun reg member => (erased.free (sound.bindings id b found reg member)).droppable

theorem Keeps.release (sound : Sound w? net) (agenda : List Task) :
    Keeps w? net (net.release agenda) := by
  refine release_induction (.refl sound) (fun _ id keeps => ?_) (fun _ id keeps => ?_) agenda
  · exact keeps.trans (.releaseBinding keeps.sound id)
  · exact keeps.trans (.releaseObservable keeps.sound id)

/-- What no step touches, many steps do not touch. -/
theorem foldl_keeps {α β : Type} (f : Network → β) {step : Network → α → Network}
    (keeps : ∀ net a, f (step net a) = f net) (as : List α) (net : Network) :
    f (as.foldl step net) = f net := by
  induction as generalizing net with
  | nil => rfl
  | cons a as ih => exact (ih (step net a)).trans (keeps net a)

/-- What giving up a registration does not touch, dropping a subscription does not touch. -/
theorem drop_keeps {α : Type} (f : Network → α)
    (keeps : ∀ net reg, f (unregister net reg) = f net) (net : Network) (sub : Subscription) :
    f (net.drop sub) = f net :=
  foldl_keeps f keeps sub net

/-- Nor is it touched by a release, unless that takes it away with an observable or a binding. -/
theorem release_keeps {α : Type} (f : Network → α)
    (keeps : ∀ net reg, f (unregister net reg) = f net)
    (observables : ∀ (net : Network) left, f { net with observables := left } = f net)
    (bindings : ∀ (net : Network) left, f { net with bindings := left } = f net)
    (net : Network) (agenda : List Task) : f (net.release agenda) = f net := by
  refine release_induction (P := fun net' => f net' = f net) rfl (fun _ id same => ?_)
    (fun _ id same => ?_) agenda
  · exact releaseBinding_cases (fun _ => same) fun _ _ =>
      (drop_keeps f keeps _ _).trans ((bindings _ _).trans same)
  · exact releaseObservable_cases (fun _ => same) fun _ _ =>
      (drop_keeps f keeps _ _).trans ((observables _ _).trans same)

/-- Listeners are added, with numbers that have not been given out before. -/
structure Grows (net net' : Network) : Prop where
  next : net'.nextObservable = net.nextObservable
  observables : net'.observables = net.observables
  bindings : net'.bindings = net.bindings
  labels : net'.subscriptions = net.subscriptions
  alike : ∀ s keys, Alike s keys net net'
  chain : ∀ s, net'.chain s = net.chain s
  stores : ∀ (s : StoreId) (st' : Store), net'.stores[s]? = some st' →
    ∃ st, net.stores[s]? = some st ∧ st.nextListener ≤ st'.nextListener ∧
      ∀ l ∈ st.listeners, l ∈ st'.listeners

/-- In the first network, the number of a listener in the second has not been given out. -/
def New (net net' : Network) (store : StoreId) (id : Nat) : Prop :=
  ∃ st st', net.stores[store]? = some st ∧ net'.stores[store]? = some st' ∧
    st.nextListener ≤ id ∧ id < st'.nextListener

/-- In the meantime a callback was registered with a store, if it exists. -/
def Adds (callback : Callback) (key : Option String) (store : StoreId) (net net' : Network) :
    Prop :=
  ∀ st', net'.stores[store]? = some st' →
    ∃ l ∈ st'.listeners, l.key = key ∧ l.callback = callback ∧ New net net' store l.id

theorem Grows.refl (net : Network) : Grows net net :=
  ⟨rfl, rfl, rfl, rfl, fun _ _ => .refl net, fun _ => rfl,
    fun _ st found => ⟨st, found, Nat.le_refl _, fun _ => id⟩⟩

theorem Grows.trans (first : Grows net net') (second : Grows net' net'') : Grows net net'' := by
  refine ⟨second.next.trans first.next, second.observables.trans first.observables,
    second.bindings.trans first.bindings, second.labels.trans first.labels,
    fun s keys => (first.alike s keys).trans (second.alike s keys),
    fun s => (second.chain s).trans (first.chain s), ?_⟩
  intro s st'' found
  obtain ⟨st', found, le', kept'⟩ := second.stores s st'' found
  obtain ⟨st, found, le, kept⟩ := first.stores s st' found
  exact ⟨st, found, Nat.le_trans le le', fun l member => kept' l (kept l member)⟩

theorem Adds.after {callback : Callback} {key : Option String} {store : StoreId}
    (first : Grows net net') (second : Adds callback key store net' net'') :
    Adds callback key store net net'' := by
  intro st'' here
  obtain ⟨l, member, for_key, called, st', last, found, found', le, lt⟩ := second st'' here
  obtain ⟨st, before, le', -⟩ := first.stores store st' found
  cases found'.symm.trans here
  exact ⟨l, member, for_key, called, st, st'', before, here, Nat.le_trans le' le, lt⟩

theorem Adds.before {callback : Callback} {key : Option String} {store : StoreId}
    (first : Adds callback key store net net') (second : Grows net' net'') :
    Adds callback key store net net'' := by
  intro st'' here
  obtain ⟨st', found, le, kept⟩ := second.stores store st'' here
  obtain ⟨l, member, for_key, called, st, mid, before, found', from_here, lt⟩ := first st' found
  cases found'.symm.trans found
  exact ⟨l, kept l member, for_key, called, st, st'', before, here, from_here,
    Nat.lt_of_lt_of_le lt le⟩

theorem Grows.listen (net : Network) (store : StoreId) (key : Option String)
    (callback : Callback) : Grows net (net.listen store key callback).2 ∧
      Adds callback key store net (net.listen store key callback).2 := by
  refine ⟨⟨rfl, rfl, rfl, rfl, fun _ _ => alike_modifyStore ?_, chain_modifyStore ?_, ?_⟩, ?_⟩
  · exact fun _ => rfl
  · exact fun _ => rfl
  · intro s st' later
    obtain ⟨st, found, ⟨-, rfl⟩ | ⟨-, rfl⟩⟩ := mem_modifyStore later
    · exact ⟨st, found, Nat.le_succ _, fun l member => List.mem_append_left _ member⟩
    · exact ⟨st', found, Nat.le_refl _, fun _ => id⟩
  · intro st' later
    obtain ⟨st, found, ⟨-, rfl⟩ | ⟨other, -⟩⟩ := mem_modifyStore later
    · exact ⟨_, List.mem_append_right _ (.head _), rfl, rfl, st, _, found, later, Nat.le_refl _,
        Nat.lt_succ_self _⟩
    · exact (other rfl).elim

theorem Grows.listenOn (key : String) (callback : Callback) (stores : List StoreId)
    (net : Network) : Grows net (listenOn key callback stores net).2 ∧
      ∀ s ∈ stores, Adds callback key s net (listenOn key callback stores net).2 := by
  induction stores generalizing net with
  | nil => exact ⟨.refl net, List.forall_mem_nil _⟩
  | cons store stores ih =>
      obtain ⟨grown, added⟩ := Grows.listen net store key callback
      obtain ⟨others, adds⟩ := ih (net.listen store key callback).2
      refine ⟨grown.trans others, List.forall_mem_cons.mpr ⟨added.before others, ?_⟩⟩
      exact fun s member => (adds s member).after grown

theorem Grows.watchKeys (store : StoreId) (callback : Callback) (keys : List String)
    (net : Network) : Grows net (watchKeys store callback keys net).2 ∧
      ∀ s ∈ net.chain store, ∀ key ∈ keys,
        Adds callback key s net (watchKeys store callback keys net).2 := by
  induction keys generalizing net with
  | nil => exact ⟨.refl net, fun _ _ => List.forall_mem_nil _⟩
  | cons key keys ih =>
      obtain ⟨grown, added⟩ := Grows.listenOn key callback (net.chain store) net
      obtain ⟨others, adds⟩ := ih (net.watch store key callback).2
      refine ⟨grown.trans others, fun s member => List.forall_mem_cons.mpr ⟨?_, ?_⟩⟩
      · exact (added s member).before others
      · intro other reads
        have member' : s ∈ (net.watch store key callback).2.chain store :=
          (grown.chain store).symm ▸ member
        exact (adds s member' other reads).after grown

/-- What an observable that is made watches by, and the network with that registered. -/
def watched (net : Network) (o : Observable) : Subscription × Network :=
  let (keys, watching) := watchKeys o.store (.recalculate net.nextObservable) o.code.readKeys net
  let (cleared, watching) := watching.listen o.store none (.recalculate net.nextObservable)
  (keys ++ [cleared], watching)

theorem Subscribes.watched (sound : Sound w? net) (o : Observable) :
    Subscribes w? net (net.watched o) := by
  have keys := Subscribes.watchKeys o.store (.recalculate net.nextObservable) o.code.readKeys sound
  have cleared := Subscribes.listen keys.keeps.sound o.store none (.recalculate net.nextObservable)
  refine ⟨keys.keeps.trans cleared.keeps, ?_⟩
  intro reg member
  obtain member | member := List.mem_append.mp member
  · exact cleared.keeps.free (keys.free reg member)
  · exact cleared.free reg member

theorem Grows.watched (net : Network) (o : Observable) : Grows net (net.watched o).2 ∧
    ∀ s ∈ net.chain o.store, ∀ key ∈ o.code.readKeys,
      Adds (.recalculate net.nextObservable) key s net (net.watched o).2 := by
  let callback := Callback.recalculate net.nextObservable
  obtain ⟨keys, adds⟩ := Grows.watchKeys o.store callback o.code.readKeys net
  obtain ⟨cleared, -⟩ := Grows.listen
    (SlotScript.Network.watchKeys o.store callback o.code.readKeys net).2 o.store none callback
  exact ⟨keys.trans cleared, fun s member key reads => (adds s member key reads).before cleared⟩

theorem find?_addObservable {name : String} {o o' : Observable} {k : ObservableId}
    (h : (net.addObservable name o).observables.find? k = some o') :
    k = net.nextObservable ∧ o' = { o with watching := (net.watched o).1 } ∨
      k ≠ net.nextObservable ∧ net.observables.find? k = some o' := by
  have inserted : ((net.watched o).2.observables.insert net.nextObservable
      { o with watching := (net.watched o).1 }).find? k = some o' := h
  rw [(Grows.watched net o).1.observables] at inserted
  exact Table.find?_of_insert inserted

theorem lt_next_addObservable (sound : Sound w? net) {name : String} {o o' : Observable}
    {k : ObservableId} (h : (net.addObservable name o).observables.find? k = some o') :
    k < (net.addObservable name o).nextObservable := by
  show k < net.nextObservable + 1
  obtain ⟨rfl, -⟩ | ⟨-, found⟩ := find?_addObservable h
  · exact Nat.lt_succ_self _
  · exact Nat.lt_succ_of_lt (sound.numbered k o' found)

theorem Keeps.addObservable (sound : Sound w? net) (name : String) (o : Observable) :
    Keeps w? net (net.addObservable name o) := by
  have watched := Subscribes.watched sound o
  obtain ⟨grown, -⟩ := Grows.watched net o
  have next : (net.watched o).2.nextObservable ≤ (net.addObservable name o).nextObservable :=
    Nat.le_trans (Nat.le_of_eq grown.next) (Nat.le_succ _)
  have live (w : Watcher) (member : w ∈ w?) (o' : Observable)
      (alive : (net.addObservable name o).live? w.id = some o') :
      (net.watched o).2.live? w.id = some o' := by
    obtain ⟨added, active⟩ := live?_eq_some_iff.mp alive
    refine live?_eq_some_iff.mpr ⟨?_, active⟩
    have older := (sound.minds w member).made
    obtain ⟨same, -⟩ | ⟨-, found⟩ := find?_addObservable added
    · rw [same] at older
      exact (Nat.lt_irrefl _ older).elim
    · rwa [grown.observables]
  refine watched.keeps.trans (.of_sound (watched.keeps.sound.of_holders rfl next
    watched.keeps.sound.labels ?_ ?_ watched.keeps.sound.bindings ?_) rfl rfl next ?_)
  · exact fun k o' added => lt_next_addObservable sound added
  · intro k o' added other reg member
    obtain ⟨-, rfl⟩ | ⟨-, found⟩ := find?_addObservable added
    · exact watched.free reg member
    · exact watched.keeps.sound.observables k o' (grown.observables.symm ▸ found) other reg member
  · exact fun w member o' alive => ⟨o', live w member o' alive, ⟨rfl, rfl, rfl⟩⟩
  · exact fun w member o' alive => ⟨o', live w member o' alive, .refl o'⟩

/-- The watcher that an observable is once it is made. -/
def watcherOf (net : Network) (o : Observable) : Watcher :=
  ⟨net.nextObservable, o.code, o.store, o.host, New net (net.watched o).2⟩

theorem not_new_of_issued {store : StoreId} {id : Nat} (h : net.Issued store id) :
    ¬ New net net' store id := by
  rintro ⟨st, -, found, -, le, -⟩
  exact Nat.not_lt.mpr le (h st found)

/-- What was free before an observable is made is not its own. -/
theorem Free.watcherOf (o : Observable) {name : String} {reg : Registration}
    (h : net.Free none reg) : (net.addObservable name o).Free (some (net.watcherOf o)) reg := by
  cases reg with
  | listener store id =>
      refine ⟨?_, ?_⟩
      · intro st' later
        obtain ⟨st, found, le, -⟩ := (Grows.watched net o).1.stores store st' later
        exact Nat.lt_of_lt_of_le (h.1 st found) le
      · rintro w ⟨⟩
        exact not_new_of_issued h.1
  | observer | bindingObserver => trivial

/-- An observable that is made is told of changes from then on. -/
theorem Sound.addObservable (sound : Sound none net) (name : String) (o : Observable) :
    Sound (some (net.watcherOf o)) (net.addObservable name o) := by
  obtain ⟨grown, adds⟩ := Grows.watched net o
  refine ⟨?_, fun k o' => lt_next_addObservable sound, ?_, ?_, ?_⟩
  · intro label sub found reg member
    have before : net.subscriptions.find? label = some sub := grown.labels ▸ found
    exact (sound.labels label sub before reg member).watcherOf o
  · intro k o' added other reg member
    obtain ⟨same, -⟩ | ⟨-, found⟩ := find?_addObservable added
    · exact (other _ rfl same).elim
    · exact (sound.observables k o' found nofun reg member).watcherOf o
  · intro k b found reg member
    have before : net.bindings.find? k = some b := grown.bindings ▸ found
    exact (sound.bindings k b before reg member).watcherOf o
  · rintro w ⟨⟩
    refine ⟨Nat.lt_succ_self _, ?_, ?_, ?_⟩
    · rintro store id ⟨-, st', -, found, -, lt⟩
      exact ⟨st', found, lt⟩
    · intro o' alive
      obtain ⟨added, -⟩ := live?_eq_some_iff.mp alive
      obtain ⟨-, rfl⟩ | ⟨other, -⟩ := find?_addObservable added
      · exact ⟨rfl, rfl, rfl⟩
      · exact (other rfl).elim
    · intro _ store member key reads
      exact adds store ((grown.chain o.store) ▸ member) key reads

theorem Keeps.attach (sound : Sound w? net) (name : String) (b : Binding) :
    Keeps w? net (net.attach name b) := by
  have watched := Subscribes.watch sound b.store b.key (.refresh net.nextBinding)
  refine watched.keeps.trans (.of_holders watched.keeps.sound rfl rfl rfl rfl
    watched.keeps.sound.labels ?_)
  intro k b' later reg member
  obtain ⟨-, rfl⟩ | ⟨-, found⟩ := Table.find?_of_insert later
  · exact watched.free reg member
  · exact watched.keeps.sound.bindings k b' found reg member

end Network

end SlotScript
