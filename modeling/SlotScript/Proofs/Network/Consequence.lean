import SlotScript.Proofs.Network.Registration

/-! # What follows from a task

Each task either leaves alone what a watcher's value depends on, or brings up the task that tells
the watcher. What the watcher itself does when it is told is looked at elsewhere.
-/

namespace SlotScript

theorem findSome?_congr {α β : Type} {f g : α → Option β} {l : List α} (h : ∀ a ∈ l, f a = g a) :
    l.findSome? f = l.findSome? g := by
  induction l with
  | nil => rfl
  | cons a l ih =>
      simp only [List.findSome?_cons, h a (.head _), ih fun b member => h b (.tail _ member)]

/-- The observable is another one than the watcher, if that is alive. -/
def Network.Other (w? : Option Watcher) (net : Network) (id : ObservableId) : Prop :=
  ∀ w ∈ w?, id = w.id → net.live? w.id = none

/-- The run of another observable than the watcher, if of any. -/
def Network.Foreign (w? : Option Watcher) (net : Network) (completion : Completion) : Prop :=
  ∀ id, completion = .recalculation id → id < net.nextObservable ∧ net.Other w? id

/-- A task other than the watcher's own runs. What is adopted was not registered with a store. -/
def Task.Settled (w? : Option Watcher) (net : Network) : Task → Prop
  | .adopt _ sub => ∀ reg ∈ sub, ∀ store id, reg ≠ .listener store id
  | .run r | .proceed r _ => net.Foreign w? r.completion
  | _ => True

theorem Network.Foreign.mono {w? : Option Watcher} {net net' : Network} {completion : Completion}
    (h : net.Foreign w? completion) (next : net.nextObservable ≤ net'.nextObservable)
    (dead : ∀ w ∈ w?, net.live? w.id = none → net'.live? w.id = none) :
    net'.Foreign w? completion := by
  intro id completes
  obtain ⟨older, other⟩ := h id completes
  exact ⟨Nat.lt_of_lt_of_le older next, fun w member same => dead w member (other w member same)⟩

theorem Task.Settled.mono {w? : Option Watcher} {net net' : Network} {task : Task}
    (h : task.Settled w? net) (next : net.nextObservable ≤ net'.nextObservable)
    (dead : ∀ w ∈ w?, net.live? w.id = none → net'.live? w.id = none) :
    task.Settled w? net' := by
  cases task with
  | adopt => exact h
  | run | proceed => exact Network.Foreign.mono h next dead
  | _ => trivial

namespace Network

variable {w? : Option Watcher} {w : Watcher} {net net' : Network}

/-- After a task, the watcher is about to be told, or it has nothing to be told of. -/
def Informs (net : Network) (followed : Followed) (w : Watcher) : Prop :=
  ∀ o', followed.1.live? w.id = some o' → ∃ o, net.live? w.id = some o ∧
    o'.evaluating = o.evaluating ∧ (.notify (.recalculate w.id) ∈ followed.2 ∨
      o.Continues o' ∧ Alike w.store w.code.readKeys net followed.1)

structure Follows (w? : Option Watcher) (net : Network) (followed : Followed) : Prop where
  sound : Sound w? followed.1
  next : net.nextObservable ≤ followed.1.nextObservable
  settled : ∀ t ∈ followed.2, t.Settled w? followed.1
  informs : ∀ w ∈ w?, net.Informs followed w

theorem Keeps.follows (keeps : Keeps w? net net') {tasks : List Task}
    (settled : ∀ t ∈ tasks, t.Settled w? net') : Follows w? net (net', tasks) := by
  refine ⟨keeps.sound, keeps.next, settled, ?_⟩
  intro w member o' alive
  obtain ⟨o, alive, continues⟩ := keeps.live w member o' alive
  exact ⟨o, alive, continues.evaluating, .inr ⟨continues, keeps.alike _ _⟩⟩

theorem Follows.dead {followed : Followed} (h : Follows w? net followed) (member : w ∈ w?)
    (ended : net.live? w.id = none) : followed.1.live? w.id = none :=
  dead_of_live (h.informs w member) ended

/-- What is brought up stands in front of what was to be done anyway. -/
theorem Follows.settled_append {followed : Followed} (h : Follows w? net followed)
    {rest : List Task} (settled : ∀ t ∈ rest, t.Settled w? net) :
    ∀ t ∈ followed.2 ++ rest, t.Settled w? followed.1 :=
  List.forall_mem_append.mpr
    ⟨h.settled, fun t member => (settled t member).mono h.next fun _ => h.dead⟩

/-- Nothing is brought up. -/
theorem Keeps.ends (keeps : Keeps w? net net') : Follows w? net (net', []) :=
  keeps.follows (List.forall_mem_nil _)

/-- Nothing happens at all. -/
theorem Follows.nothing (sound : Sound w? net) : Follows w? net (net, []) :=
  (Keeps.refl sound).ends

theorem Follows.append {followed : Followed} (h : Follows w? net followed) {more : List Task}
    (settled : ∀ t ∈ more, t.Settled w? followed.1) :
    Follows w? net (followed.1, followed.2 ++ more) := by
  refine ⟨h.sound, h.next, ?_, ?_⟩
  · intro t member
    exact (List.mem_append.mp member).elim (h.settled t) (settled t)
  · intro w member o' alive
    obtain ⟨o, alive, same, told⟩ := h.informs w member o' alive
    exact ⟨o, alive, same, told.imp_left fun pending => List.mem_append_left _ pending⟩

theorem Follows.holding {followed : Followed} (h : Follows w? net followed) (held : List Holding) :
    Follows w? net (followed.holding held) :=
  h.append (List.forall_mem_singleton.mpr trivial)

theorem Keeps.then (keeps : Keeps w? net net') {followed : Followed}
    (h : Follows w? net' followed) : Follows w? net followed := by
  refine ⟨h.sound, Nat.le_trans keeps.next h.next, h.settled, ?_⟩
  intro w member o'' alive
  obtain ⟨o', alive, same, told⟩ := h.informs w member o'' alive
  obtain ⟨o, alive, continues⟩ := keeps.live w member o' alive
  refine ⟨o, alive, same.trans continues.evaluating, told.imp_right ?_⟩
  rintro ⟨continues', alike'⟩
  exact ⟨continues.trans continues', (keeps.alike _ _).trans alike'⟩

theorem slot?_modifyStore (g : Table String Value → Table String Value) (store scope : StoreId)
    (key : String) :
    (net.modifyStore store fun s => { s with slots := g s.slots }).slot? scope key =
      if store = scope then (net.stores[scope]?).bind fun s => (g s.slots).find? key
      else net.slot? scope key := by
  unfold slot?
  rw [stores_modifyStore]
  split
  · cases net.stores[scope]? <;> rfl
  · rfl

/-- The slots that change cannot be seen. -/
theorem alike_write {g : Table String Value → Table String Value} {store s : StoreId}
    {keys : List String} (unseen : ∀ key ∈ keys, store ∈ net.chain s → ∀ st,
      net.stores[store]? = some st → (g st.slots).find? key = st.slots.find? key) :
    Alike s keys net (net.modifyStore store fun st => { st with slots := g st.slots }) := by
  have chain : (net.modifyStore store fun st => { st with slots := g st.slots }).chain s =
      net.chain s := by
    refine chain_modifyStore ?_ s
    exact fun _ => rfl
  refine ⟨?_, rfl, ?_⟩
  · intro key reads
    unfold lookup?
    rw [chain]
    refine findSome?_congr fun scope looks => ?_
    rw [slot?_modifyStore]
    split
    case isFalse => rfl
    case isTrue same =>
      subst same
      unfold slot?
      cases found : net.stores[store]? with
      | none => rfl
      | some st => exact unseen key reads looks st found
  · unfold owner
    rw [stores_modifyStore]
    split
    · cases net.stores[s]? <;> rfl
    · rfl

/-- When the slots of a store change, those who watch a key with another value are among these. -/
def Alerts (net : Network) (store : StoreId) (g : Table String Value → Table String Value)
    (callbacks : List Callback) : Prop :=
  ∀ st, net.stores[store]? = some st → ∀ key, (g st.slots).find? key ≠ st.slots.find? key →
    ∀ callback ∈ net.callbacksFor store (some key), callback ∈ callbacks

theorem alerts_insert (net : Network) (store : StoreId) (key : String) (v : Value) :
    net.Alerts store (fun slots => slots.insert key v) (net.callbacksFor store (some key)) := by
  intro st _ other changed callback called
  rw [Table.find?_insert] at changed
  split at changed
  case isTrue same => exact same ▸ called
  case isFalse => exact (changed rfl).elim

theorem alerts_erase (net : Network) (store : StoreId) (key : String) :
    net.Alerts store (fun slots => slots.erase key) (net.callbacksFor store (some key)) := by
  intro st _ other changed callback called
  rw [Table.find?_erase] at changed
  split at changed
  case isTrue same => exact same ▸ called
  case isFalse => exact (changed rfl).elim

theorem alerts_clear (net : Network) (store : StoreId) (order : KeyOrder) :
    net.Alerts store (fun _ => .empty) (net.clear store order).2 := by
  intro st found key changed callback called
  refine List.mem_append_right _ (List.mem_flatMap.mpr ⟨key, ?_, called⟩)
  rw [(order.perm _).mem_iff, found]
  exact Table.mem_keys fun absent => changed (absent ▸ Table.find?_empty key)

theorem follows_write (sound : Sound w? net) {store : StoreId}
    {g : Table String Value → Table String Value} {callbacks : List Callback}
    (alerts : net.Alerts store g callbacks) :
    Follows w? net (Changed.followed
      (net.modifyStore store fun s => { s with slots := g s.slots }, callbacks)) := by
  refine ⟨sound.modifyStore (fun _ => rfl) (fun _ => Nat.le_refl _)
    fun _ _ _ _ l member _ => member, Nat.le_refl _, ?_, ?_⟩
  · exact List.forall_mem_map.mpr fun _ _ => trivial
  · intro w member o alive
    have alive : net.live? w.id = some o := alive
    refine ⟨o, alive, rfl, ?_⟩
    have told := (sound.minds w member).tells (Option.isSome_iff_exists.mpr ⟨o, alive⟩)
    by_cases seen : ∃ key ∈ w.code.readKeys, store ∈ net.chain w.store ∧
        ∃ st, net.stores[store]? = some st ∧ (g st.slots).find? key ≠ st.slots.find? key
    · left
      obtain ⟨key, reads, looks, st, found, changed⟩ := seen
      obtain ⟨l, listens, for_key, called, -⟩ := told store looks key reads st found
      refine List.mem_map_of_mem (alerts st found key changed _ ?_)
      simp only [callbacksFor, found]
      exact List.mem_map.mpr ⟨l, List.mem_filter.mpr ⟨listens, by simp [for_key]⟩, called⟩
    · refine .inr ⟨.refl o, alike_write ?_⟩
      intro key reads looks st found
      exact Classical.byContradiction fun changed => seen ⟨key, reads, looks, st, found, changed⟩

theorem follows_set (sound : Sound w? net) (store : StoreId) (key : String) (v : Value) :
    Follows w? net (Changed.followed (net.set store key v)) :=
  follows_write sound (alerts_insert net store key v)

theorem follows_assign (sound : Sound w? net) (store : StoreId) (key : String) (v : Value) :
    Follows w? net (Changed.followed (net.assign store key v)) :=
  follows_set sound (net.definer store key) key v

theorem follows_remove (sound : Sound w? net) (store : StoreId) (key : String) :
    Follows w? net (Changed.followed (net.remove store key)) :=
  remove_cases (fun _ => .nothing sound) fun _ => follows_write sound (alerts_erase net store key)

theorem follows_clear (sound : Sound w? net) (store : StoreId) (order : KeyOrder) :
    Follows w? net (Changed.followed (net.clear store order)) :=
  follows_write sound (alerts_clear net store order)

theorem follows_fetch (sound : Sound w? net) (store : StoreId) (fallback : List StoreId)
    (key : String) (seed : Value) :
    Follows w? net (Changed.followed (net.fetch store fallback key seed).2) :=
  fetch_cases (fun _ _ => .nothing sound) fun _ => follows_set sound store key seed

theorem sound_setObject (sound : Sound w? net) (collection : Value) (object : Object) :
    Sound w? (net.setObject collection object) := by
  unfold setObject
  split
  · refine sound.of_holders rfl (Nat.le_refl _) sound.labels sound.numbered sound.observables
      sound.bindings ?_
    exact fun w _ o alive => ⟨o, alive, ⟨rfl, rfl, rfl⟩⟩
  · exact sound

/-- What a run brings about by a request. A watcher is not told of elements that change. -/
theorem follows_answer (sound : Sound w? net) {store : StoreId} {fallback : List StoreId}
    {r : Request}
    (unchanged : ∀ w ∈ w?, ∀ key collection index v, r ≠ .replace key collection index v)
    {x : r.Answer × Changed} (answered : net.answer store fallback r = some x) :
    Follows w? net (Changed.followed x.2) := by
  refine answer_cases answered (.nothing sound) (follows_set sound) ?_
  intro key collection index v object scope replaces _
  cases w? with
  | some w => exact (unchanged w rfl key collection index v replaces).elim
  | none =>
      have written := follows_set (sound_setObject sound collection object) scope key collection
      refine ⟨written.sound, ?_, written.settled, fun w member => by cases member⟩
      refine Nat.le_trans ?_ written.next
      unfold setObject
      split <;> exact Nat.le_refl _

/-- Another observable than the watcher changes. -/
theorem Keeps.modifyOther (sound : Sound w? net) {id : ObservableId}
    {f : Observable → Observable} (other : net.Other w? id)
    (watching : ∀ o, (f o).watching = o.watching) (disposed : ∀ o, (f o).disposed = o.disposed) :
    Keeps w? net (net.modifyObservable id f) := by
  refine .modifyObservable sound (fun o reg member => watching o ▸ member) ?_
  intro w member same o found active
  rw [disposed] at active
  have dead := other w member same.symm
  rw [live?_eq_some_iff.mpr ⟨found, active⟩] at dead
  cases dead

theorem settled_deliveries (observers : List Observer) (v : Value) (held : List Holding) :
    ∀ t ∈ observers.map (Task.deliver · v) ++ [.letGo held], t.Settled w? net :=
  List.forall_mem_append.mpr
    ⟨List.forall_mem_map.mpr fun _ _ => trivial, List.forall_mem_singleton.mpr trivial⟩

theorem follows_publish (sound : Sound w? net) {id : ObservableId} (other : net.Other w? id)
    (v : Value) : Follows w? net (net.publish id v) := by
  refine publish_cases (fun _ => .nothing sound) fun o _ _ _ => ?_
  refine Keeps.follows ?_ (settled_deliveries _ _ _)
  exact .modifyOther sound other (fun _ => rfl) fun _ => rfl

theorem follows_recalculate (sound : Sound w? net) {id : ObservableId}
    (other : net.Other w? id) : Follows w? net (net.recalculate id) := by
  refine recalculate_cases (fun _ => .nothing sound) fun o found _ _ => ?_
  have started := Keeps.modifyOther sound (f := fun o => { o with evaluating := true }) other
    (fun _ => rfl) fun _ => rfl
  refine started.follows (List.forall_mem_singleton.mpr ?_)
  rintro k ⟨⟩
  refine ⟨sound.numbered id o found, fun w member same => ?_⟩
  exact started.dead member (other w member same)

theorem settled_complete (observers : List Observer) :
    ∀ t ∈ observers.map Task.complete, t.Settled w? net :=
  List.forall_mem_map.mpr fun _ _ => trivial

theorem follows_disposeObservable (sound : Sound w? net) (id : ObservableId) :
    Follows w? net (net.disposeObservable id) := by
  refine disposeObservable_cases (fun _ => .nothing sound) fun o found _ => ?_
  have disposed : Keeps w? net (net.modifyObservable id fun o =>
      { o with disposed := true, observers := o.observers.cleared, watching := [] }) :=
    .modifyObservable sound (fun _ _ member => nomatch member)
      fun _ _ _ _ _ active => nomatch active
  have dropped := Keeps.drop disposed.sound o.watching (sound.droppable found ?_)
  · exact (disposed.trans dropped).follows (settled_complete _)
  · simp [live?, modifyObservable, Table.find?_adjust, found]

theorem follows_disposeBinding (sound : Sound w? net) (id : BindingId) :
    Follows w? net (net.disposeBinding id) := by
  refine disposeBinding_cases (fun _ => .nothing sound) fun b found _ => ?_
  have disposed : Keeps w? net (net.modifyBinding id fun b =>
      { b with disposed := true, observers := b.observers.cleared, watching := [] }) :=
    .modifyBinding sound fun _ _ member => nomatch member
  have dropped := Keeps.drop disposed.sound b.watching fun reg member =>
    (disposed.free (sound.bindings id b found reg member)).droppable
  exact (disposed.trans dropped).follows (settled_complete _)

/-- A subscription to values is adopted once the first is delivered. -/
theorem settled_subscription {observer : Observer} {first : Task} {sub : Subscription}
    (plain : first.Settled w? net)
    (unregistered : ∀ reg ∈ sub, ∀ store id, reg ≠ .listener store id) :
    ∀ t ∈ [first, .adopt observer.label sub], t.Settled w? net :=
  List.forall_mem_cons.mpr ⟨plain, List.forall_mem_singleton.mpr unregistered⟩

theorem follows_subscribeObservable (sound : Sound w? net) (id : ObservableId)
    (observer : Observer) : Follows w? net (net.subscribeObservable id observer) := by
  refine subscribeObservable_cases (fun _ => .nothing sound) (fun _ _ _ => ?_) fun o _ _ => ?_
  · exact (Keeps.refl sound).follows (settled_subscription trivial (List.forall_mem_nil _))
  · refine Keeps.follows ?_ (settled_subscription trivial ?_)
    · exact .modifyObservable sound (fun _ _ member => member)
        fun _ _ _ o _ active => ⟨active, ⟨rfl, rfl, rfl⟩, rfl, rfl, rfl⟩
    · exact List.forall_mem_singleton.mpr fun _ _ => nofun

theorem follows_subscribeBinding (sound : Sound w? net) (id : BindingId) (observer : Observer) :
    Follows w? net (net.subscribeBinding id observer) := by
  refine subscribeBinding_cases (fun _ => .nothing sound) (fun _ _ _ => ?_) fun b _ _ => ?_
  · exact (Keeps.refl sound).follows (settled_subscription trivial (List.forall_mem_nil _))
  · refine Keeps.follows ?_ (settled_subscription trivial ?_)
    · exact .modifyBinding sound fun _ _ member => member
    · exact List.forall_mem_singleton.mpr fun _ _ => nofun

theorem follows_refresh (sound : Sound w? net) (id : BindingId) :
    Follows w? net (net.refresh id) := by
  refine refresh_cases (fun _ => .nothing sound) fun b v _ _ _ _ => ?_
  refine Keeps.follows ?_ (List.forall_mem_map.mpr fun _ _ => trivial)
  exact .modifyBinding sound fun _ _ member => member

theorem follows_pushBinding (sound : Sound w? net) (id : BindingId) (given : Value) :
    Follows w? net (net.pushBinding id given) :=
  pushBinding_cases (fun _ => .nothing sound) fun b v _ _ _ _ =>
    (follows_assign sound b.store b.key v).holding _

theorem follows_conclude (sound : Sound w? net) (result : Except Failure Outcome)
    {completion : Completion} (foreign : net.Foreign w? completion) :
    Follows w? net (net.conclude result completion) := by
  cases completion with
  | answer =>
      refine Keeps.ends ?_
      exact .inert sound rfl rfl rfl rfl rfl rfl
  | action label =>
      cases result with
      | ok => exact .nothing sound
      | error =>
          refine Keeps.ends ?_
          exact .inert sound rfl rfl rfl rfl rfl rfl
  | recalculation id =>
      have other := (foreign id rfl).2
      have stopped := Keeps.modifyOther sound (f := fun o => { o with evaluating := false }) other
        (fun _ => rfl) fun _ => rfl
      have still : Other w? (net.modifyObservable id fun o => { o with evaluating := false }) id :=
        fun w member same => stopped.dead member (other w member same)
      cases result with
      | ok outcome => exact stopped.then (follows_publish stopped.sound still _)
      | error => exact stopped.ends
  | creation name draft =>
      have returned : Keeps w? net { net with returned := some result } :=
        .inert sound rfl rfl rfl rfl rfl rfl
      cases result with
      | ok outcome => exact (returned.trans (.addObservable returned.sound name _)).ends
      | error => exact returned.ends

theorem follows_start (sound : Sound w? net) (source : Source) (activation : Code → Activation)
    {completion : Code → Completion} (foreign : ∀ code, net.Foreign w? (completion code)) :
    Follows w? net (net.start source activation completion) :=
  start_cases
    (fun code _ => (Keeps.refl sound).follows (List.forall_mem_singleton.mpr (foreign code)))
    fun _ _ => follows_conclude sound _ (foreign _)

theorem follows_invoke (sound : Sound w? net) {r : Run} (foreign : net.Foreign w? r.completion)
    (id : ObjectId) (argument : Value) (rest : Script Frame) :
    Follows w? net (net.invoke r id argument rest) := by
  refine invoke_cases (fun label _ => ?_) (fun _ _ => follows_conclude sound _ foreign)
    (fun p _ => ?_) fun _ => ?_
  · refine Keeps.follows ?_ (List.forall_mem_singleton.mpr foreign)
    exact .inert sound rfl rfl rfl rfl rfl rfl
  · exact (Keeps.refl sound).follows (List.forall_mem_singleton.mpr foreign)
  · exact (Keeps.refl sound).follows (List.forall_mem_singleton.mpr foreign)

theorem follows_advance (sound : Sound w? net) {r : Run} (foreign : net.Foreign w? r.completion) :
    Follows w? net (net.advance r) := by
  refine advance_cases (fun i _ => ?_) (fun caller callers _ _ => ?_) fun _ _ => ?_
  · exact (Keeps.refl sound).follows (List.forall_mem_singleton.mpr foreign)
  · exact (Keeps.refl sound).follows (List.forall_mem_singleton.mpr foreign)
  · exact follows_conclude sound _ foreign

theorem follows_proceed (sound : Sound w? net) {r : Run} (foreign : net.Foreign w? r.completion)
    {script : Script Frame} (unchanged : ∀ w ∈ w?, ¬ (Task.proceed r script).Replaces) :
    Follows w? net (net.proceed r script) := by
  cases script with
  | done f => exact (Keeps.refl sound).follows (List.forall_mem_singleton.mpr foreign)
  | fail e => exact follows_conclude sound _ foreign
  | invoke id argument next => exact follows_invoke sound foreign id argument next
  | ask request next =>
      have follows {x : request.Answer × Changed}
          (answered : net.answer r.activation.store r.activation.fallback request = some x) :
          Follows w? net (Changed.followed x.2) := by
        refine follows_answer sound ?_ answered
        rintro w member key collection index v rfl
        exact unchanged w member trivial
      refine ask_cases (fun _ => ?_) (fun _ _ _ _ answered _ => ?_) fun _ _ _ answered _ => ?_
      · exact (Keeps.refl sound).follows (List.forall_mem_singleton.mpr foreign)
      · refine (follows answered).append ?_
        have later := foreign.mono (follows answered).next fun w => (follows answered).dead
        exact List.forall_mem_cons.mpr ⟨trivial, List.forall_mem_singleton.mpr later⟩
      · refine (follows answered).append (List.forall_mem_singleton.mpr ?_)
        exact foreign.mono (follows answered).next fun w => (follows answered).dead

theorem follows_withObservable (sound : Sound w? net) (name : String)
    {f : ObservableId → Followed} (h : ∀ id, Follows w? net (f id)) :
    Follows w? net (net.withObservable name f) :=
  withObservable_cases (fun _ => .nothing sound) fun id _ => h id

theorem follows_withBinding (sound : Sound w? net) (name : String) {f : BindingId → Followed}
    (h : ∀ id, Follows w? net (f id)) : Follows w? net (net.withBinding name f) :=
  withBinding_cases (fun _ => .nothing sound) fun id _ => h id

/-- A subscription that is made is kept under a label. -/
theorem Subscribes.follows {made : Subscription × Network} (h : Subscribes w? net made)
    (label : String) : Follows w? net (keep label made) :=
  (h.adopt label).ends

/-- An observable with a new parameter is told. -/
theorem follows_setParameter (sound : Sound w? net) (id : ObservableId) (v : Value) :
    Follows w? net (net.modifyObservable id fun o => { o with parameter := v },
      [.notify (.recalculate id)]) := by
  refine ⟨sound.modifyObservable (fun _ _ member => member) ?_, Nat.le_refl _,
    List.forall_mem_singleton.mpr trivial, ?_⟩
  · exact fun _ _ _ o _ active => ⟨active, ⟨rfl, rfl, rfl⟩⟩
  · intro w member o' alive
    by_cases own : id = w.id
    · subst own
      obtain ⟨o, before, rfl⟩ := live?_modifyObservable_self
        (f := fun o => { o with parameter := v }) (fun _ => rfl) alive
      exact ⟨o, before, rfl, .inl (.head _)⟩
    · obtain ⟨o, alive, continues⟩ := live?_modifyObservable (R := Observable.Continues) .refl
        (fun same => (own same.symm).elim) alive
      exact ⟨o, alive, continues.evaluating, .inr ⟨continues, alike_of_stores rfl rfl⟩⟩

theorem follows_operate (sound : Sound w? net) (op : Operation) (delivered : Value)
    (label : Option String) : Follows w? net (net.operate op delivered label) := by
  have result (completion : Completion) (h : ∀ id, completion ≠ .recalculation id) :
      net.Foreign w? completion := fun id same => (h id same).elim
  cases op with
  | set store key v => exact follows_set sound store key v
  | assign store key v => exact follows_assign sound store key v
  | ensure store key seed => exact (follows_fetch sound store [] key seed).holding _
  | remove store key => exact (follows_remove sound store key).holding _
  | clear store order => exact follows_clear sound store order
  | watch store key label action => exact (Subscribes.watch sound _ _ _).follows label
  | watchAll store label action => exact (Subscribes.listen sound _ _ _).follows label
  | watchKey name label action =>
      exact watchKey_cases (fun _ => .nothing sound) fun store key _ =>
        (Subscribes.watch sound store key _).follows label
  | combine labels label => exact (Subscribes.collect labels sound).follows label
  | unsubscribe label => exact (Keeps.unsubscribe sound label).ends
  | execute source store host parameter =>
      refine follows_start sound _ _ fun _ => result _ ?_
      cases label <;> exact fun _ same => by cases same
  | observe name source store host parameter =>
      exact follows_start sound _ _ fun _ => result _ fun _ same => by cases same
  | setParameter name v =>
      exact follows_withObservable sound name fun id => follows_setParameter sound id v
  | setConverter name converter =>
      refine follows_withObservable sound name fun id => Keeps.follows ?_ ?_
      · exact .modifyObservable sound (fun _ _ member => member)
          fun _ _ _ o _ active => ⟨active, ⟨rfl, rfl, rfl⟩, rfl, rfl, rfl⟩
      · exact List.forall_mem_singleton.mpr trivial
  | subscribe name label plain action =>
      exact follows_withObservable sound name fun id => follows_subscribeObservable sound id _
  | dispose name => exact follows_withObservable sound name (follows_disposeObservable sound)
  | forget name =>
      refine Keeps.ends ?_
      exact .inert sound rfl rfl rfl rfl rfl rfl
  | bind name store key =>
      have fetched := follows_fetch sound store [] key .null
      exact fetched.append (List.forall_mem_singleton.mpr trivial)
  | push name v => exact follows_withBinding sound name fun id => follows_pushBinding sound id v
  | setTarget name converter | setSource name converter =>
      refine follows_withBinding sound name fun id => Keeps.ends ?_
      exact .modifyBinding sound fun _ _ member => member
  | subscribeBinding name label plain action =>
      exact follows_withBinding sound name fun id => follows_subscribeBinding sound id _
  | disposeBinding name => exact follows_withBinding sound name (follows_disposeBinding sound)
  | nameKey | nameCommand =>
      refine Keeps.ends ?_
      exact .inert sound rfl rfl rfl rfl rfl rfl
  | run name parameter =>
      have answer : net.Foreign w? .answer := result _ fun _ same => by cases same
      refine run_cases (fun _ => .nothing sound) fun command _ => ?_
      cases command with
      | report label =>
          have reported : Keeps w? net (net.report (.called label (net.portrait parameter))) :=
            .inert sound rfl rfl rfl rfl rfl rfl
          exact reported.then (follows_conclude reported.sound (.ok .void) answer)
      | reject text => exact follows_conclude sound _ answer
      | program p => exact (Keeps.refl sound).follows (List.forall_mem_singleton.mpr answer)

theorem follows_act (sound : Sound w? net) (label : String) (delivered : Value)
    (action : Option Operation) : Follows w? net (net.act label delivered action) := by
  refine act_cases (fun _ => .nothing sound) (fun _ _ _ => Keeps.ends ?_)
    fun _ _ _ => Keeps.follows ?_ ?_
  · exact .inert sound rfl rfl rfl rfl rfl rfl
  · exact .inert sound rfl rfl rfl rfl rfl rfl
  · exact List.forall_mem_cons.mpr ⟨trivial, List.forall_mem_singleton.mpr trivial⟩

theorem follows_report (sound : Sound w? net) (event : Event) (label : String)
    (delivered : Value) (action : Option Operation) :
    Follows w? net ((net.report event).act label delivered action) := by
  have reported : Keeps w? net (net.report event) := .inert sound rfl rfl rfl rfl rfl rfl
  exact reported.then (follows_act reported.sound label delivered action)

/-- Every task but what concerns the watcher itself. -/
theorem follows_perform (sound : Sound w? net) {task : Task} (settled : task.Settled w? net)
    (other : ∀ w ∈ w?, task = .notify (.recalculate w.id) → net.live? w.id = none)
    (unchanged : ∀ w ∈ w?, ¬ task.Replaces) :
    Follows w? net (task.perform net) := by
  cases task with
  | operate op delivered label => exact follows_operate sound op delivered label
  | notify callback =>
      cases callback with
      | report label action => exact follows_report sound _ label .null action
      | recalculate id =>
          exact follows_recalculate sound fun w member same => other w member (same ▸ rfl)
      | refresh id => exact follows_refresh sound id
  | deliver observer v => exact follows_report sound _ _ _ _
  | complete observer =>
      refine Keeps.ends ?_
      cases observer.plain with
      | true => exact .refl sound
      | false => exact .inert sound rfl rfl rfl rfl rfl rfl
  | run r => exact follows_advance sound settled
  | proceed r script => exact follows_proceed sound settled unchanged
  | adopt label sub =>
      refine (Keeps.adopt sound label fun reg member => ?_).ends
      cases reg with
      | listener store id => exact (settled _ member store id rfl).elim
      | observer | bindingObserver => trivial
  | attach name b => exact (Keeps.attach sound name b).ends
  | leave =>
      refine Keeps.ends ?_
      exact .inert sound rfl rfl rfl rfl rfl rfl
  | letGo held => exact .nothing sound

end Network

end SlotScript
