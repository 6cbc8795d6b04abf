import SlotScript.Proofs.Network.Progress
import SlotScript.Proofs.Network.Registration

/-! # Propagation comes to an end

Observables may write what others read, in a circle if need be. But an observable that is being
computed is not computed again, so each computation that is started within another one leaves fewer
observables to be started. Where only observables act, and callbacks and observers just record, this
is all that could go on forever.
-/

namespace SlotScript

/-- Sets off no action. -/
def Callback.Records : Callback → Prop
  | .report _ action => action = none
  | _ => True

/-- Callbacks and observers only record, and what runs is compiled code. -/
structure Network.Tame (net : Network) : Prop where
  listeners : ∀ st ∈ net.stores, ∀ l ∈ st.listeners, l.callback.Records
  observers : ∀ id o, net.observables.find? id = some o → ∀ x ∈ o.observers.current, x.action = none
  bindingObservers : ∀ id b, net.bindings.find? id = some b →
    ∀ x ∈ b.observers.current, x.action = none
  codes : ∀ id o, net.observables.find? id = some o → o.code.Compiled
  commands : ∀ id p, net.command? id = some (.program p) → p.code.Compiled

/-- What is asked for from outside brings in no action and runs nothing but compiled code. -/
def Operation.Tame : Operation → Prop
  | .watch _ _ _ action | .watchAll _ _ action | .watchKey _ _ action | .subscribe _ _ _ action
  | .subscribeBinding _ _ _ action => action = none
  | .execute source .. | .observe _ source .. => ∀ code, source.compile = .ok code → code.Compiled
  | _ => True

/-- Text is compiled before it is run. -/
theorem Source.compiled_of_text {mode : AssignMode} {body : String} {code : Code}
    (compiled : (Source.text mode body).compile = .ok code) : code.Compiled := by
  simp only [Source.compile, Code.compile] at compiled
  cases tokens : Lexer.tokenize body with
  | error e => simp [tokens, bind, Except.bind] at compiled
  | ok tokens' =>
      simp only [tokens, bind, Except.bind] at compiled
      exact ⟨mode, tokens', compiled⟩

namespace Network

variable {net net' net'' : Network}

/-- Whoever watches in the second network does so in the first, and what can run there is there. -/
structure Subsides (net net' : Network) : Prop where
  listeners : ∀ st' ∈ net'.stores, ∀ l ∈ st'.listeners, ∃ st ∈ net.stores, l ∈ st.listeners
  observables : ∀ id o', net'.observables.find? id = some o' → ∃ o,
    net.observables.find? id = some o ∧ o'.code = o.code ∧ o'.evaluating = o.evaluating ∧
      ∀ x ∈ o'.observers.current, x ∈ o.observers.current
  bindings : ∀ id b', net'.bindings.find? id = some b' → ∃ b, net.bindings.find? id = some b ∧
    ∀ x ∈ b'.observers.current, x ∈ b.observers.current
  commands : ∀ id p, net'.command? id = some (.program p) → net.command? id = some (.program p)

namespace Subsides

theorem refl (net : Network) : Subsides net net :=
  ⟨fun st member _ listens => ⟨st, member, listens⟩,
    fun _ o found => ⟨o, found, rfl, rfl, fun _ => id⟩, fun _ b found => ⟨b, found, fun _ => id⟩,
    fun _ _ => id⟩

theorem trans (first : Subsides net net') (second : Subsides net' net'') : Subsides net net'' := by
  refine ⟨?_, ?_, ?_, fun id p found => first.commands id p (second.commands id p found)⟩
  · intro st'' member l listens
    obtain ⟨st', member', listens'⟩ := second.listeners st'' member l listens
    exact first.listeners st' member' l listens'
  · intro id o'' found
    obtain ⟨o', found', code', running', observers'⟩ := second.observables id o'' found
    obtain ⟨o, found, code, running, observers⟩ := first.observables id o' found'
    exact ⟨o, found, code'.trans code, running'.trans running,
      fun x member => observers x (observers' x member)⟩
  · intro id b'' found
    obtain ⟨b', found', observers'⟩ := second.bindings id b'' found
    obtain ⟨b, found, observers⟩ := first.bindings id b' found'
    exact ⟨b, found, fun x member => observers x (observers' x member)⟩

theorem tame (subsides : Subsides net net') (tame : net.Tame) : net'.Tame := by
  refine ⟨?_, ?_, ?_, ?_, fun id p found => tame.commands id p (subsides.commands id p found)⟩
  · intro st' member l listens
    obtain ⟨st, member, listens⟩ := subsides.listeners st' member l listens
    exact tame.listeners st member l listens
  · intro id o' found x member
    obtain ⟨o, found, -, -, observers⟩ := subsides.observables id o' found
    exact tame.observers id o found x (observers x member)
  · intro id b' found x member
    obtain ⟨b, found, observers⟩ := subsides.bindings id b' found
    exact tame.bindingObservers id b found x (observers x member)
  · intro id o' found
    obtain ⟨o, found, code, -⟩ := subsides.observables id o' found
    rw [code]
    exact tame.codes id o found

/-- Names, labels, reports and the like are no concern here. -/
theorem inert (stores : net'.stores = net.stores) (observables : net'.observables = net.observables)
    (bindings : net'.bindings = net.bindings) (objects : net'.objects = net.objects) :
    Subsides net net' := by
  refine ⟨?_, ?_, ?_, ?_⟩
  · exact stores ▸ (refl net).listeners
  · exact observables ▸ (refl net).observables
  · exact bindings ▸ (refl net).bindings
  · intro id p found
    unfold command? at found ⊢
    rwa [objects] at found

theorem modifyStore (net : Network) (store : StoreId) {f : Store → Store}
    (fewer : ∀ st, ∀ l ∈ (f st).listeners, l ∈ st.listeners) :
    Subsides net (net.modifyStore store f) := by
  refine ⟨?_, (refl net).observables, (refl net).bindings, (refl net).commands⟩
  intro st' member l listens
  obtain ⟨s, found⟩ := List.mem_iff_getElem?.mp member
  obtain ⟨st, before, ⟨-, rfl⟩ | ⟨-, rfl⟩⟩ := mem_modifyStore found
  · exact ⟨st, List.mem_of_getElem? before, fewer st l listens⟩
  · exact ⟨st', List.mem_of_getElem? before, listens⟩

theorem modifyObservable (net : Network) (id : ObservableId) {f : Observable → Observable}
    (code : ∀ o, (f o).code = o.code) (running : ∀ o, (f o).evaluating = o.evaluating)
    (fewer : ∀ o, ∀ x ∈ (f o).observers.current, x ∈ o.observers.current) :
    Subsides net (net.modifyObservable id f) := by
  refine ⟨(refl net).listeners, ?_, (refl net).bindings, (refl net).commands⟩
  intro k o' later
  obtain ⟨o, found, ⟨-, rfl⟩ | ⟨-, rfl⟩⟩ := find?_modifyObservable later
  · exact ⟨o, found, code o, running o, fewer o⟩
  · exact ⟨o', found, rfl, rfl, fun _ member => member⟩

theorem modifyBinding (net : Network) (id : BindingId) {f : Binding → Binding}
    (fewer : ∀ b, ∀ x ∈ (f b).observers.current, x ∈ b.observers.current) :
    Subsides net (net.modifyBinding id f) := by
  refine ⟨(refl net).listeners, (refl net).observables, ?_, (refl net).commands⟩
  intro k b' later
  obtain ⟨b, found, ⟨-, rfl⟩ | ⟨-, rfl⟩⟩ := Table.find?_of_adjust later
  · exact ⟨b, found, fewer b⟩
  · exact ⟨b', found, fun _ member => member⟩

theorem fewer_of_remove {observers : Observers} {id : Nat} :
    ∀ x ∈ (observers.remove id).current, x ∈ observers.current := by
  intro x member
  obtain ⟨entry, kept, rfl⟩ := List.mem_map.mp member
  exact List.mem_map_of_mem (List.mem_filter.mp kept).1

theorem unregister (net : Network) (reg : Registration) : Subsides net (net.unregister reg) := by
  cases reg with
  | listener store id =>
      exact .modifyStore net store fun _ _ member => (List.mem_filter.mp member).1
  | observer observable id =>
      exact .modifyObservable net observable (fun _ => rfl) (fun _ => rfl) fun _ => fewer_of_remove
  | bindingObserver binding id => exact .modifyBinding net binding fun _ => fewer_of_remove

theorem drop (net : Network) (sub : Subscription) : Subsides net (net.drop sub) :=
  List.foldlRecOn sub _ (.refl net) fun _ before reg _ => before.trans (.unregister _ reg)

theorem adopt (net : Network) (label : String) (sub : Subscription) :
    Subsides net (net.adopt label sub) := by
  have labelled : Subsides net
      { net with subscriptions := net.subscriptions.insert label sub } := .inert rfl rfl rfl rfl
  exact labelled.trans (drop _ _)

theorem unsubscribe (net : Network) (label : String) : Subsides net (net.unsubscribe label) := by
  refine unsubscribe_cases (fun _ => .refl net) fun sub _ => ?_
  have unlabelled : Subsides net { net with subscriptions := net.subscriptions.erase label } :=
    .inert rfl rfl rfl rfl
  exact unlabelled.trans (drop _ sub)

theorem collect (labels : List String) (net : Network) :
    Subsides net (net.collect labels).2 := by
  induction labels generalizing net with
  | nil => exact .refl net
  | cons label labels ih =>
      have unlabelled : Subsides net { net with subscriptions := net.subscriptions.erase label } :=
        .inert rfl rfl rfl rfl
      exact unlabelled.trans (ih _)

theorem releaseBinding (net : Network) (id : BindingId) : Subsides net (net.releaseBinding id) := by
  refine releaseBinding_cases (fun _ => .refl net) fun b _ => ?_
  have erased : Subsides net { net with bindings := net.bindings.erase id } := by
    refine ⟨(refl net).listeners, (refl net).observables, ?_, (refl net).commands⟩
    exact fun k b found => (refl net).bindings k b (Table.find?_of_erase found)
  exact erased.trans (drop _ b.watching)

theorem releaseObservable (net : Network) (id : ObservableId) :
    Subsides net (net.releaseObservable id) := by
  refine releaseObservable_cases (fun _ => .refl net) fun o _ => ?_
  have erased : Subsides net { net with observables := net.observables.erase id } := by
    refine ⟨(refl net).listeners, ?_, (refl net).bindings, (refl net).commands⟩
    exact fun k o found => (refl net).observables k o (Table.find?_of_erase found)
  exact erased.trans (drop _ o.watching)

theorem releaseBindings (net : Network) : Subsides net net.releaseBindings :=
  releaseBindings_induction (.refl net) fun _ id before => before.trans (.releaseBinding _ id)

theorem release (net : Network) (agenda : List Task) : Subsides net (net.release agenda) :=
  release_induction (.refl net) (fun _ id before => before.trans (.releaseBinding _ id))
    (fun _ id before => before.trans (.releaseObservable _ id)) agenda

theorem set (net : Network) (store : StoreId) (key : String) (v : Value) :
    Subsides net (net.set store key v).1 :=
  .modifyStore net store fun _ _ => id

theorem fetch (net : Network) (store : StoreId) (fallback : List StoreId) (key : String)
    (seed : Value) : Subsides net (net.fetch store fallback key seed).2.1 :=
  fetch_cases (fun _ _ => .refl net) fun _ => set net store key seed

/-- Changing an element makes no command. -/
theorem setObject {key : String} {collection index v : Value} {object : Object}
    (changed : net.changeElement key collection index v = some (.ok object)) :
    Subsides net (net.setObject collection object) := by
  cases collection with
  | object ref =>
      refine ⟨(refl net).listeners, (refl net).observables, (refl net).bindings, ?_⟩
      intro id p found
      have other (command : Command) : object ≠ .command command := by
        rintro rfl
        unfold changeElement at changed
        split at changed
        · split at changed <;> cases changed
        · split at changed
          · cases changed
          · split at changed <;> cases changed
        · cases changed
      simp only [command?, Network.setObject] at found ⊢
      by_cases same : ref.id = id
      · subst same
        by_cases inside : ref.id < net.objects.length
        · rw [List.getElem?_set_self inside] at found
          cases object with
          | command command => exact (other command rfl).elim
          | _ => cases found
        · rw [List.getElem?_eq_none (by simpa using inside)] at found
          cases found
      · rwa [List.getElem?_set_ne same] at found
  | _ => exact .refl net

theorem answer {store : StoreId} {fallback : List StoreId} {r : Request} {x : r.Answer × Changed}
    (answered : net.answer store fallback r = some x) : Subsides net x.2.1 := by
  refine answer_cases answered (.refl net) (set net) ?_
  intro key collection index v object scope _ changed
  exact (setObject changed).trans (set _ scope key collection)

end Subsides

/-- Callbacks and observers only record, and an observable that is not being computed is one of
these. -/
structure Idle (ids : List ObservableId) (net : Network) : Prop where
  tame : net.Tame
  idle : ∀ id o, net.observables.find? id = some o → o.evaluating = false → id ∈ ids

variable {ids : List ObservableId}

theorem Subsides.idle (subsides : Subsides net net') (h : net.Idle ids) : net'.Idle ids := by
  refine ⟨subsides.tame h.tame, ?_⟩
  intro id o' found stopped
  obtain ⟨o, before, -, running, -⟩ := subsides.observables id o' found
  exact h.idle id o before (running ▸ stopped)

/-- Whether the observable is being computed changes. -/
theorem Idle.mark (h : net.Idle ids) (more : List ObservableId) (id : ObservableId)
    (running : Bool) (rest : ∀ k, k ∈ ids → k ≠ id → k ∈ more) (own : running = false → id ∈ more) :
    (net.modifyObservable id fun o => { o with evaluating := running }).Idle more := by
  refine ⟨⟨h.tame.listeners, ?_, h.tame.bindingObservers, ?_, h.tame.commands⟩, ?_⟩
  · intro k o' later
    obtain ⟨o, found, ⟨-, rfl⟩ | ⟨-, rfl⟩⟩ := find?_modifyObservable later
    · exact h.tame.observers k o found
    · exact h.tame.observers k o' found
  · intro k o' later
    obtain ⟨o, found, ⟨-, rfl⟩ | ⟨-, rfl⟩⟩ := find?_modifyObservable later
    · exact h.tame.codes k o found
    · exact h.tame.codes k o' found
  · intro k o' later stopped
    obtain ⟨o, found, ⟨rfl, rfl⟩ | ⟨other, rfl⟩⟩ := find?_modifyObservable later
    · exact own stopped
    · exact rest k (h.idle k o' found stopped) other

theorem settles_subsiding {task : Task} (h : net.Idle ids)
    (subsides : Subsides net (task.perform net).1) (done : (task.perform net).2 = []) :
    Settles (Idle ids) net [task] := by
  refine .task fun agenda => ?_
  rw [done]
  exact .nil (((subsides.trans (.release _ agenda))).idle h)

/-- An observer that does not act only reports what it receives. -/
theorem perform_deliver {observer : Observer} (records : observer.action = none) (net : Network)
    (v : Value) : (Task.deliver observer v).perform net =
      (net.report (.next observer.label (net.portrait v)), []) := by
  simp only [Task.perform, act, records]

theorem settles_deliver {observer : Observer} (records : observer.action = none) (v : Value)
    (h : net.Idle ids) : Settles (Idle ids) net [.deliver observer v] := by
  have performed := perform_deliver records net v
  refine settles_subsiding h ?_ (by rw [performed])
  rw [performed]
  exact .inert rfl rfl rfl rfl

theorem settles_deliveries {observers : List Observer} (records : ∀ x ∈ observers, x.action = none)
    (v : Value) (h : net.Idle ids) :
    Settles (Idle ids) net (observers.map (Task.deliver · v)) := by
  refine .all h (List.forall_mem_map.mpr fun x member net h => ?_)
  exact settles_deliver (records x member) v h

theorem settles_complete (observers : List Observer) (h : net.Idle ids) :
    Settles (Idle ids) net (observers.map Task.complete) := by
  refine .all h (List.forall_mem_map.mpr fun x _ net h => settles_subsiding h ?_ rfl)
  simp only [Task.perform]
  split
  · exact .refl net
  · exact .inert rfl rfl rfl rfl

theorem settles_letGo (held : List Holding) (h : net.Idle ids) :
    Settles (Idle ids) net [.letGo held] :=
  settles_subsiding h (.refl net) rfl

theorem settles_adopt (label : String) (sub : Subscription) (h : net.Idle ids) :
    Settles (Idle ids) net [.adopt label sub] :=
  settles_subsiding h (.adopt net label sub) rfl

section

variable (listeners : ∀ st ∈ net.stores, ∀ l ∈ st.listeners, l.callback.Records)

include listeners

/-- What is told of a change records, or is an observable or a binding. -/
theorem records_callbacksFor (store : StoreId) (key : Option String) :
    ∀ callback ∈ net.callbacksFor store key, callback.Records := by
  intro callback called
  unfold Network.callbacksFor at called
  split at called
  · rename_i st found
    obtain ⟨l, listens, rfl⟩ := List.mem_map.mp called
    exact listeners st (List.mem_of_getElem? found) l (List.mem_filter.mp listens).1
  · cases called

theorem records_fetch (store : StoreId) (fallback : List StoreId) (key : String) (seed : Value) :
    ∀ callback ∈ (net.fetch store fallback key seed).2.2, callback.Records :=
  fetch_cases (fun _ _ => List.forall_mem_nil _)
    fun _ => records_callbacksFor listeners store (some key)

theorem records_clear (store : StoreId) (order : KeyOrder) :
    ∀ callback ∈ (net.clear store order).2, callback.Records := by
  refine List.forall_mem_append.mpr
    ⟨records_callbacksFor listeners store none, fun callback called => ?_⟩
  obtain ⟨key, -, called⟩ := List.mem_flatMap.mp called
  exact records_callbacksFor listeners store (some key) callback called

theorem records_answer {store : StoreId} {fallback : List StoreId} {r : Request}
    {x : r.Answer × Changed} (answered : net.answer store fallback r = some x) :
    ∀ callback ∈ x.2.2, callback.Records := by
  refine answer_cases answered (List.forall_mem_nil _)
    (fun scope key _ => records_callbacksFor listeners scope (some key)) ?_
  intro key collection index v object scope _ _
  have same : (net.setObject collection object).stores = net.stores := by
    cases collection <;> rfl
  exact records_callbacksFor (same ▸ listeners) scope (some key)

end

/-- Whoever is told settles. -/
def Hears (ids : List ObservableId) : Prop :=
  ∀ callback : Callback, callback.Records → ∀ net, net.Idle ids →
    Settles (Idle ids) net [.notify callback]

theorem Hears.all (hears : Hears ids) {callbacks : List Callback}
    (record : ∀ callback ∈ callbacks, callback.Records) (h : net.Idle ids) :
    Settles (Idle ids) net (callbacks.map .notify) :=
  .all h (List.forall_mem_map.mpr fun callback member => hears callback (record callback member))

theorem Hears.carries (hears : Hears ids) : Carries (Idle ids) where
  release agenda h := (Subsides.release _ agenda).idle h
  answer h answered := by
    refine ⟨(Subsides.answer answered).idle h, fun callback called => ?_⟩
    exact hears callback (records_answer h.tame.listeners answered callback called)

theorem settles_publish (h : net.Idle ids) (id : ObservableId) (v : Value) (agenda : List Task) :
    Settles (Idle ids) ((net.publish id v).1.release agenda) (net.publish id v).2 := by
  refine publish_cases (fun _ => .nil ((Subsides.release _ agenda).idle h)) fun o found _ _ => ?_
  have stored : Subsides net (net.modifyObservable id fun o => { o with value := v }) :=
    .modifyObservable net id (fun _ => rfl) (fun _ => rfl) fun _ _ member => member
  have delivered := settles_deliveries (h.tame.observers id o found)
    (net.observableValue { o with value := v })
    ((stored.trans (.release _ agenda)).idle h)
  exact delivered.append fun _ => settles_letGo [.observable id]

/-- When it has been computed, an observable can be started again. -/
theorem endsWell_recalculation {id : ObservableId} {others : List ObservableId} (own : id ∈ ids)
    (fewer : ∀ k ∈ others, k ∈ ids) : EndsWell (Idle others) (Idle ids) (.recalculation id) := by
  intro net result h agenda
  have stopped := h.mark ids id false (fun k member _ => fewer k member) fun _ => own
  cases result with
  | error => exact .nil ((Subsides.release _ agenda).idle stopped)
  | ok outcome => exact settles_publish stopped id outcome.toValue agenda

/-- An observable that is told is computed if it can be started, and then there is one fewer. -/
theorem hears_of_fewer (fewer : ∀ others : List ObservableId, others.length < ids.length →
    Hears others) : Hears ids := by
  intro callback records net h
  cases callback with
  | report label action =>
      cases records
      refine settles_subsiding h ?_ rfl
      exact .inert rfl rfl rfl rfl
  | refresh id =>
      refine .task fun agenda => ?_
      show Settles (Idle ids) ((net.refresh id).1.release _) (net.refresh id).2
      refine refresh_cases (fun _ => .nil ((Subsides.release _ _).idle h)) fun b v found _ _ _ => ?_
      refine settles_deliveries (h.tame.bindingObservers id b found) _ ?_
      have stored : Subsides net (net.modifyBinding id fun b => { b with value := v }) :=
        .modifyBinding net id fun _ _ member => member
      exact (stored.trans (.release _ _)).idle h
  | recalculate id =>
      refine .task fun agenda => ?_
      show Settles (Idle ids) ((net.recalculate id).1.release _) (net.recalculate id).2
      refine recalculate_cases (fun _ => .nil ((Subsides.release _ _).idle h))
        fun o found _ stopped => ?_
      have own := h.idle id o found stopped
      let others := ids.filter (· ≠ id)
      have shorter : others.length < ids.length :=
        List.length_filter_lt_length_iff_exists.mpr ⟨id, own, by simp⟩
      let run : Run := ⟨net.activate o.code o.store o.host o.parameter, [], .recalculation id⟩
      have started := h.mark others id true
        (fun k member other => List.mem_filter.mpr ⟨member, by simpa using other⟩)
        fun same => by cases same
      have ends : EndsWell (Idle others) (Idle ids) run.completion :=
        endsWell_recalculation own fun k member => (List.mem_filter.mp member).1
      have compiled : run.activation.code.Compiled := h.tame.codes id o found
      exact run.settles (fewer others shorter).carries ends rfl compiled rfl
        ((Subsides.release _ _).idle started)

theorem hears (ids : List ObservableId) : Hears ids :=
  hears_of_fewer fun others _ => hears others
termination_by ids.length

theorem Tame.release (tame : net.Tame) (agenda : List Task) : (net.release agenda).Tame :=
  (Subsides.release net agenda).tame tame

/-- Without limit on who can be started, a network is only tame. -/
theorem Tame.idle (tame : net.Tame) : net.Idle net.observables.keys :=
  ⟨tame, fun _ _ found _ => Table.mem_keys (by rw [found]; nofun)⟩

theorem Tame.listen (tame : net.Tame) (store : StoreId) (key : Option String) {callback : Callback}
    (records : callback.Records) : (net.listen store key callback).2.Tame := by
  refine ⟨?_, tame.observers, tame.bindingObservers, tame.codes, tame.commands⟩
  intro st' member l listens
  obtain ⟨s, found⟩ := List.mem_iff_getElem?.mp member
  obtain ⟨st, before, ⟨-, rfl⟩ | ⟨-, rfl⟩⟩ := mem_modifyStore found
  · obtain older | new := List.mem_append.mp listens
    · exact tame.listeners st (List.mem_of_getElem? before) l older
    · obtain rfl := List.mem_singleton.mp new
      exact records
  · exact tame.listeners st' (List.mem_of_getElem? before) l listens

theorem Tame.listenOn (tame : net.Tame) (key : String) {callback : Callback}
    (records : callback.Records) (stores : List StoreId) :
    (listenOn key callback stores net).2.Tame := by
  induction stores generalizing net with
  | nil => exact tame
  | cons store stores ih => exact ih (tame.listen store (some key) records)

theorem Tame.watch (tame : net.Tame) (store : StoreId) (key : String) {callback : Callback}
    (records : callback.Records) : (net.watch store key callback).2.Tame :=
  tame.listenOn key records (net.chain store)

theorem Tame.watchKeys (tame : net.Tame) (store : StoreId) {callback : Callback}
    (records : callback.Records) (keys : List String) :
    (watchKeys store callback keys net).2.Tame := by
  induction keys generalizing net with
  | nil => exact tame
  | cons key keys ih => exact ih (tame.watch store key records)

theorem Tame.modifyObservable (tame : net.Tame) (id : ObservableId) {f : Observable → Observable}
    (code : ∀ o, (f o).code = o.code)
    (records : ∀ o, (∀ x ∈ o.observers.current, x.action = none) →
      ∀ x ∈ (f o).observers.current, x.action = none) : (net.modifyObservable id f).Tame := by
  refine ⟨tame.listeners, ?_, tame.bindingObservers, ?_, tame.commands⟩
  · intro k o' later
    obtain ⟨o, found, ⟨-, rfl⟩ | ⟨-, rfl⟩⟩ := find?_modifyObservable later
    · exact records o (tame.observers k o found)
    · exact tame.observers k o' found
  · intro k o' later
    obtain ⟨o, found, ⟨-, rfl⟩ | ⟨-, rfl⟩⟩ := find?_modifyObservable later
    · exact code o ▸ tame.codes k o found
    · exact tame.codes k o' found

theorem Tame.modifyBinding (tame : net.Tame) (id : BindingId) {f : Binding → Binding}
    (records : ∀ b, (∀ x ∈ b.observers.current, x.action = none) →
      ∀ x ∈ (f b).observers.current, x.action = none) : (net.modifyBinding id f).Tame := by
  refine ⟨tame.listeners, tame.observers, ?_, tame.codes, tame.commands⟩
  intro k b' later
  obtain ⟨b, found, ⟨-, rfl⟩ | ⟨-, rfl⟩⟩ := Table.find?_of_adjust later
  · exact records b (tame.bindingObservers k b found)
  · exact tame.bindingObservers k b' found

theorem records_add {observers : Observers} {observer : Observer}
    (records : ∀ x ∈ observers.current, x.action = none) (new : observer.action = none) :
    ∀ x ∈ (observers.add observer).current, x.action = none := by
  intro x member
  obtain ⟨entry, added, rfl⟩ := List.mem_map.mp member
  obtain older | last := List.mem_append.mp added
  · exact records _ (List.mem_map_of_mem older)
  · obtain rfl := List.mem_singleton.mp last
    exact new

theorem Tame.addObservable (tame : net.Tame) (name : String) {o : Observable}
    (compiled : o.code.Compiled) (records : ∀ x ∈ o.observers.current, x.action = none) :
    (net.addObservable name o).Tame := by
  have records_change : Callback.Records (.recalculate net.nextObservable) := trivial
  have watched : (net.watched o).2.Tame :=
    (tame.watchKeys o.store records_change o.code.readKeys).listen o.store none records_change
  refine ⟨watched.listeners, ?_, watched.bindingObservers, ?_, watched.commands⟩
  · intro k o' added
    obtain ⟨-, rfl⟩ | ⟨-, found⟩ := find?_addObservable added
    · exact records
    · exact tame.observers k o' found
  · intro k o' added
    obtain ⟨-, rfl⟩ | ⟨-, found⟩ := find?_addObservable added
    · exact compiled
    · exact tame.codes k o' found

theorem Tame.attach (tame : net.Tame) (name : String) {b : Binding}
    (records : ∀ x ∈ b.observers.current, x.action = none) : (net.attach name b).Tame := by
  have watched : (net.watch b.store b.key (.refresh net.nextBinding)).2.Tame :=
    tame.watch b.store b.key trivial
  refine ⟨watched.listeners, watched.observers, ?_, watched.codes, watched.commands⟩
  intro k b' added
  obtain ⟨-, rfl⟩ | ⟨-, found⟩ := Table.find?_of_insert added
  · exact records
  · exact watched.bindingObservers k b' found

theorem Tame.inert (tame : net.Tame) (stores : net'.stores = net.stores)
    (observables : net'.observables = net.observables) (bindings : net'.bindings = net.bindings)
    (objects : net'.objects = net.objects) : net'.Tame :=
  (Subsides.inert stores observables bindings objects).tame tame

theorem Tame.modifySlots (tame : net.Tame) (store : StoreId)
    (f : Table String Value → Table String Value) :
    (net.modifyStore store fun st => { st with slots := f st.slots }).Tame := by
  have subsides : Subsides net (net.modifyStore store fun st => { st with slots := f st.slots }) :=
    .modifyStore net store fun _ _ => id
  exact subsides.tame tame

theorem Settles.mono {tasks : List Task} {I J : Network → Prop} (h : Settles J net tasks)
    (weaker : ∀ net', J net' → I net') : Settles I net tasks := by
  intro rest
  obtain ⟨net', holds, leads⟩ | waits := h rest
  · exact .inl ⟨net', weaker net' holds, leads⟩
  · exact .inr waits

/-- What follows from a task settles, and all is as tame as before. -/
def Rests (followed : Followed) : Prop :=
  ∀ agenda, Settles Tame (followed.1.release agenda) followed.2

theorem Rests.quiet {followed : Followed} (tame : followed.1.Tame) (done : followed.2 = []) :
    Rests followed := by
  intro agenda
  rw [done]
  exact .nil (tame.release agenda)

theorem Rests.holding {followed : Followed} (rests : Rests followed) (held : List Holding) :
    Rests (followed.holding held) :=
  fun agenda => (rests agenda).append fun _ tame => .task fun agenda => .nil (tame.release agenda)

/-- Telling of a change settles. -/
theorem rests_changed {changed : Changed} (tame : changed.1.Tame)
    (records : ∀ callback ∈ changed.2, callback.Records) : Rests changed.followed :=
  fun agenda => ((hears _).all records (tame.release agenda).idle).mono fun _ h => h.tame

theorem rests_withObservable (tame : net.Tame) (name : String) {f : ObservableId → Followed}
    (rests : ∀ id, Rests (f id)) : Rests (net.withObservable name f) :=
  withObservable_cases (fun _ => .quiet tame rfl) fun id _ => rests id

theorem rests_withBinding (tame : net.Tame) (name : String) {f : BindingId → Followed}
    (rests : ∀ id, Rests (f id)) : Rests (net.withBinding name f) :=
  withBinding_cases (fun _ => .quiet tame rfl) fun id _ => rests id

theorem Tame.conclude_error (tame : net.Tame) (failure : Failure) (completion : Completion) :
    Rests (net.conclude (.error failure) completion) := by
  cases completion with
  | answer | creation => exact .quiet (tame.inert rfl rfl rfl rfl) rfl
  | action => exact .quiet (tame.inert rfl rfl rfl rfl) rfl
  | recalculation id =>
      exact .quiet (tame.modifyObservable id (fun _ => rfl) fun _ records => records) rfl

theorem endsWell_answer : EndsWell (Idle ids) Tame .answer := by
  intro net result h
  exact Rests.quiet (h.tame.inert rfl rfl rfl rfl) rfl

theorem endsWell_action (label : String) : EndsWell (Idle ids) Tame (.action label) := by
  intro net result h
  cases result with
  | ok => exact Rests.quiet h.tame rfl
  | error failure => exact h.tame.conclude_error failure (.action label)

theorem endsWell_creation (name : String) {draft : Observable} (compiled : draft.code.Compiled)
    (alone : draft.observers.current = []) : EndsWell (Idle ids) Tame (.creation name draft) := by
  intro net result h
  cases result with
  | ok outcome =>
      have returned : { net with returned := some (.ok outcome) }.Tame :=
        h.tame.inert rfl rfl rfl rfl
      refine Rests.quiet (returned.addObservable name compiled ?_) rfl
      exact alone ▸ List.forall_mem_nil _
  | error failure => exact h.tame.conclude_error failure (.creation name draft)

theorem rests_run (tame : net.Tame) {r : Run}
    (ends : ∀ ids, EndsWell (Idle ids) Tame r.completion) (alone : r.callers = [])
    (compiled : r.activation.code.Compiled) (fresh : r.activation.frame = .start) :
    Rests (net, [.run r]) :=
  fun agenda =>
    r.settles (hears _).carries (ends _) alone compiled fresh (tame.release agenda).idle

theorem rests_start (tame : net.Tame) {source : Source} {activation : Code → Activation}
    {completion : Code → Completion}
    (compiled : ∀ code, source.compile = .ok code → code.Compiled)
    (fresh : ∀ code, (activation code).code = code ∧ (activation code).frame = .start)
    (ends : ∀ code, code.Compiled → ∀ ids, EndsWell (Idle ids) Tame (completion code)) :
    Rests (net.start source activation completion) := by
  refine start_cases (fun code made => ?_) fun _ _ => tame.conclude_error _ _
  obtain ⟨own, begins⟩ := fresh code
  have compiled := compiled code made
  exact rests_run tame (ends code compiled) rfl (own.symm ▸ compiled) begins

theorem rests_runCommand (tame : net.Tame) {id : ObjectId} {command : Command}
    (found : net.command? id = some command) (argument : Value) :
    Rests (net.runCommand command argument) := by
  cases command with
  | report label => exact .quiet (tame.inert rfl rfl rfl rfl) rfl
  | reject text => exact tame.conclude_error _ .answer
  | program p =>
      exact rests_run tame (fun _ => endsWell_answer) rfl (tame.commands id p found) rfl

theorem rests_recalculate (tame : net.Tame) (id : ObservableId) :
    Rests (net, [.notify (.recalculate id)]) :=
  fun agenda => (hears _ (.recalculate id) trivial _ (tame.release agenda).idle).mono
    fun _ h => h.tame

/-- Whoever has come is told, and what keeps it in place is kept. -/
theorem rests_subscribed (tame : net.Tame) {first : Task} {label : String} {sub : Subscription}
    (settles : ∀ ids net, net.Idle ids → Settles (Idle ids) net [first]) :
    Rests (net, [first, .adopt label sub]) := by
  intro agenda
  have both := (settles _ _ (tame.release agenda).idle).append fun _ => settles_adopt label sub
  exact both.mono fun _ h => h.tame

theorem rests_subscribeObservable (tame : net.Tame) (id : ObservableId) {observer : Observer}
    (records : observer.action = none) : Rests (net.subscribeObservable id observer) := by
  refine subscribeObservable_cases (fun _ => .quiet tame rfl) (fun _ _ _ => ?_) fun _ _ _ => ?_
  · exact rests_subscribed tame fun _ _ => settles_complete [observer]
  · refine rests_subscribed ?_ fun _ _ => settles_deliver records _
    exact tame.modifyObservable id (fun _ => rfl) fun _ others => records_add others records

theorem rests_subscribeBinding (tame : net.Tame) (id : BindingId) {observer : Observer}
    (records : observer.action = none) : Rests (net.subscribeBinding id observer) := by
  refine subscribeBinding_cases (fun _ => .quiet tame rfl) (fun _ _ _ => ?_) fun _ _ _ => ?_
  · exact rests_subscribed tame fun _ _ => settles_complete [observer]
  · refine rests_subscribed ?_ fun _ _ => settles_deliver records _
    exact tame.modifyBinding id fun _ others => records_add others records

theorem rests_completed (tame : net.Tame) (observers : List Observer) :
    Rests (net, observers.map .complete) :=
  fun agenda => (settles_complete observers (tame.release agenda).idle).mono fun _ h => h.tame

theorem rests_disposeObservable (tame : net.Tame) (id : ObservableId) :
    Rests (net.disposeObservable id) := by
  refine disposeObservable_cases (fun _ => .quiet tame rfl) fun o _ _ => ?_
  refine rests_completed ((Subsides.drop _ _).tame ?_) _
  exact tame.modifyObservable id (fun _ => rfl) fun _ _ => List.forall_mem_nil _

theorem rests_disposeBinding (tame : net.Tame) (id : BindingId) :
    Rests (net.disposeBinding id) := by
  refine disposeBinding_cases (fun _ => .quiet tame rfl) fun b _ _ => ?_
  refine rests_completed ((Subsides.drop _ _).tame ?_) _
  exact tame.modifyBinding id fun _ _ => List.forall_mem_nil _

theorem rests_set (tame : net.Tame) (store : StoreId) (key : String) (v : Value) :
    Rests (net.set store key v).followed :=
  rests_changed ((Subsides.set net store key v).tame tame)
    (records_callbacksFor tame.listeners store (some key))

theorem rests_pushBinding (tame : net.Tame) (id : BindingId) (given : Value) :
    Rests (net.pushBinding id given) :=
  pushBinding_cases (fun _ => .quiet tame rfl) fun b v _ _ _ _ =>
    (rests_set tame _ b.key v).holding _

/-- A new binding starts to watch when all have been told of the key, if that is new as well. -/
theorem rests_bind (tame : net.Tame) {callbacks : List Callback}
    (records : ∀ callback ∈ callbacks, callback.Records) (name : String) {b : Binding}
    (alone : b.observers.current = []) :
    Rests (net, callbacks.map .notify ++ [.attach name b]) := by
  intro agenda
  refine ((hears _).all records (tame.release agenda).idle).append fun net h => ?_
  exact .task fun agenda =>
    .nil ((h.tame.attach name (alone ▸ List.forall_mem_nil _)).release agenda)

theorem rests_operate (tame : net.Tame) {op : Operation} (mild : op.Tame) (delivered : Value)
    (label : Option String) : Rests (net.operate op delivered label) := by
  cases op with
  | set store key v => exact rests_set tame store key v
  | assign store key v => exact rests_set tame _ key v
  | ensure store key seed =>
      refine (rests_changed ?_ (records_fetch tame.listeners store [] key seed)).holding _
      exact (Subsides.fetch net store [] key seed).tame tame
  | remove store key =>
      have removed : Rests (net.remove store key).followed :=
        remove_cases (fun _ => .quiet tame rfl) fun _ =>
          rests_changed (tame.modifySlots store (·.erase key))
            (records_callbacksFor tame.listeners store (some key))
      exact removed.holding _
  | clear store order =>
      exact rests_changed (tame.modifySlots store fun _ => .empty)
        (records_clear tame.listeners store order)
  | watch store key label action =>
      exact .quiet ((Subsides.adopt _ _ _).tame (tame.watch store key mild)) rfl
  | watchAll store label action =>
      exact .quiet ((Subsides.adopt _ _ _).tame (tame.listen store none mild)) rfl
  | watchKey name label action =>
      exact watchKey_cases (fun _ => .quiet tame rfl) fun store key _ =>
        .quiet ((Subsides.adopt _ _ _).tame (tame.watch store key mild)) rfl
  | combine labels label =>
      have joined := (Subsides.collect labels net).trans (.adopt _ label (net.collect labels).1)
      exact .quiet (joined.tame tame) rfl
  | unsubscribe label => exact .quiet ((Subsides.unsubscribe net label).tame tame) rfl
  | execute source store host parameter =>
      refine rests_start tame mild (fun _ => ⟨rfl, rfl⟩) fun _ _ ids => ?_
      cases label with
      | none => exact endsWell_answer
      | some label => exact endsWell_action label
  | observe name source store host parameter =>
      refine rests_start tame mild (fun _ => ⟨rfl, rfl⟩) fun _ compiled ids => ?_
      exact endsWell_creation name compiled rfl
  | setParameter name v =>
      refine rests_withObservable tame name fun id => rests_recalculate ?_ id
      exact tame.modifyObservable id (fun _ => rfl) fun _ records => records
  | setConverter name converter =>
      refine rests_withObservable tame name fun id => rests_recalculate ?_ id
      exact tame.modifyObservable id (fun _ => rfl) fun _ records => records
  | subscribe name label plain action =>
      exact rests_withObservable tame name fun id => rests_subscribeObservable tame id mild
  | dispose name => exact rests_withObservable tame name (rests_disposeObservable tame)
  | bind name store key =>
      refine rests_bind ?_ (records_fetch tame.listeners store [] key .null) name rfl
      exact (Subsides.fetch net store [] key .null).tame tame
  | push name v =>
      exact rests_withBinding tame name fun id => rests_pushBinding tame id v
  | setTarget name converter | setSource name converter =>
      refine rests_withBinding tame name fun id => .quiet ?_ rfl
      exact tame.modifyBinding id fun _ records => records
  | subscribeBinding name label plain action =>
      exact rests_withBinding tame name fun id => rests_subscribeBinding tame id mild
  | disposeBinding name => exact rests_withBinding tame name (rests_disposeBinding tame)
  | forget | nameKey | nameCommand =>
      exact .quiet (tame.inert rfl rfl rfl rfl) rfl
  | run name parameter =>
      refine run_cases (fun _ => .quiet tame rfl) fun command found => ?_
      obtain ⟨id, -, found⟩ := Option.bind_eq_some_iff.mp found
      exact rests_runCommand tame found parameter

/-- Where callbacks and observers only record, whatever is asked for returns, whatever observables
write and whoever reads it, unless a run comes to wait for itself. What it leaves is as tame as it
was before. -/
theorem Tame.returns_unless_waits (tame : net.Tame) {op : Operation} (mild : op.Tame) :
    ((∃ steps net', (net.ask op).drive steps = some net') ↔
      ∀ p, (net.ask op).Leads p → ¬ p.Waits) ∧
    ∀ steps net', (net.ask op).drive steps = some net' → net'.Tame := by
  have started : { net with events := [], returned := none }.Tame := tame.inert rfl rfl rfl rfl
  have settles : Settles Tame { net with events := [], returned := none }
      [.operate op .null none] := .task (rests_operate started mild .null none)
  have answered {steps : Nat} {net' : Network} (driven : (net.ask op).drive steps = some net')
      (p : Propagation) (leads : (net.ask op).Leads p) : ¬ p.Waits := by
    intro waits
    cases driven.symm.trans (leads.drive_none waits.drive steps)
  refine ⟨⟨fun ⟨_, _, driven⟩ => answered driven, fun never => ?_⟩, fun steps net' driven => ?_⟩
  · obtain ⟨steps, net', driven, -⟩ := settles.returns never
    exact ⟨steps, net', driven⟩
  · obtain ⟨steps', last, driven', tame'⟩ := settles.returns (answered driven)
    exact Propagation.drive_unique driven' driven ▸ tame'

/-- A store without slots. -/
def blank : Network where
  stores := [{ ancestors := [], owner := .null }]

theorem tame_blank : blank.Tame := by
  refine ⟨List.forall_mem_singleton.mpr (List.forall_mem_nil _), ?_, ?_, ?_, ?_⟩
  all_goals
    intro id _ found
    simp [command?, blank, Table.find?_empty] at found

/-- Keeps `$a` one above `$b`. -/
def raiseA : Operation := .observe "x" (.text .nearest "$a = $b + 1") 0 none .null

/-- Keeps `$b` one above `$a`. -/
def raiseB : Operation := .observe "y" (.text .nearest "$b = $a + 1") 0 none .null

/-- Two observables write what the other one reads, and then one of the two keys is written. -/
theorem Tame.returns_circle : blank.Tame ∧ raiseA.Tame ∧ raiseB.Tame ∧
    ∃ net net' last, (blank.ask raiseA).drive 40 = some net ∧ net.Tame ∧
      (net.ask raiseB).drive 60 = some net' ∧ net'.Tame ∧
      (net'.ask (.set 0 "$b" (.int32 5))).drive 90 = some last ∧ last.Tame ∧
      (∀ p, (net'.ask (.set 0 "$b" (.int32 5))).Leads p → ¬ p.Waits) := by
  have mild_a : raiseA.Tame := fun _ => Source.compiled_of_text
  have mild_b : raiseB.Tame := fun _ => Source.compiled_of_text
  have writes : Operation.Tame (.set 0 "$b" (.int32 5)) := trivial
  have runs : (((blank.ask raiseA).drive 40).bind fun net => ((net.ask raiseB).drive 60).bind
      fun net' => (net'.ask (.set 0 "$b" (.int32 5))).drive 90).isSome = true := by
    decide +kernel
  obtain ⟨last, driven⟩ := Option.isSome_iff_exists.mp runs
  obtain ⟨net, first, driven⟩ := Option.bind_eq_some_iff.mp driven
  obtain ⟨net', second, third⟩ := Option.bind_eq_some_iff.mp driven
  have tame := (Tame.returns_unless_waits tame_blank mild_a).2 _ _ first
  have tame' := (Tame.returns_unless_waits tame mild_b).2 _ _ second
  obtain ⟨returns, tamed⟩ := Tame.returns_unless_waits tame' writes
  exact ⟨tame_blank, mild_a, mild_b, net, net', last, first, tame, second, tame', third,
    tamed _ _ third, returns.mp ⟨_, _, third⟩⟩

/-- Puts an element into a map under the text of this map. -/
def indexOwn : Operation := .execute (.text .nearest "$m[$m] = 1") 0 none none

/-- Nobody watches anything, and still this never returns. -/
theorem never_returns_indexOwn : holdingMap.Tame ∧ indexOwn.Tame ∧
    ∀ steps, (holdingMap.ask indexOwn).drive steps = none := by
  refine ⟨?_, fun _ => Source.compiled_of_text, ?_⟩
  · refine ⟨List.forall_mem_singleton.mpr (List.forall_mem_nil _), ?_, ?_, ?_, ?_⟩
    iterate 3
      intro id _ found
      simp [holdingMap, Table.find?_empty] at found
    intro id p found
    cases id <;> simp [command?, holdingMap] at found
  · have waits : ((holdingMap.ask indexOwn).skip 8).Waits := by decide +kernel
    exact (Propagation.Leads.of_skip 8 _).drive_none waits.drive

end Network

end SlotScript
