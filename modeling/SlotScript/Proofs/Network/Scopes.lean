import SlotScript.Proofs.Network.Watch

/-! # Scopes stay where they are

Slots and listeners come and go, but no task makes a store, and none puts a store behind another
one.
-/

namespace SlotScript

namespace Network.SameScopes

variable {net net' : Network}

theorem set (net : Network) (store : StoreId) (key : String) (v : Value) :
    SameScopes net (net.set store key v).1 :=
  .modifyStore fun _ => rfl

theorem remove (net : Network) (store : StoreId) (key : String) :
    SameScopes net (net.remove store key).1 :=
  remove_cases (fun _ => .of_eq rfl) fun _ => .modifyStore fun _ => rfl

theorem fetch (net : Network) (store : StoreId) (fallback : List StoreId) (key : String)
    (seed : Value) : SameScopes net (net.fetch store fallback key seed).2.1 :=
  fetch_cases (fun _ _ => .of_eq rfl) fun _ => .set net store key seed

theorem setObject (net : Network) (collection : Value) (object : Object) :
    SameScopes net (net.setObject collection object) := by
  cases collection <;> exact .of_eq rfl

theorem answer {store : StoreId} {fallback : List StoreId} {r : Request} {x : r.Answer × Changed}
    (answered : net.answer store fallback r = some x) : SameScopes net x.2.1 := by
  refine answer_cases answered (.of_eq rfl) (.set net) ?_
  intro key collection index v object scope _ _
  exact (setObject net collection object).trans (.set _ scope key collection)

theorem watch (net : Network) (store : StoreId) (key : String) (callback : Callback) :
    SameScopes net (net.watch store key callback).2 :=
  .listenOn key callback _

theorem watchKeys (store : StoreId) (callback : Callback) (keys : List String) (net : Network) :
    SameScopes net (watchKeys store callback keys net).2 := by
  induction keys generalizing net with
  | nil => exact .of_eq rfl
  | cons key keys ih => exact (SameScopes.watch net store key callback).trans (ih _)

theorem adopt (net : Network) (label : String) (sub : Subscription) :
    SameScopes net (net.adopt label sub) :=
  .drop _

theorem combine (net : Network) (labels : List String) (label : String) :
    SameScopes net (net.combine labels label) := by
  obtain ⟨subs, collected, -⟩ := net.collect_eq labels
  have taken : SameScopes net (net.collect labels).2 := .of_eq (collected ▸ rfl)
  exact taken.trans (.adopt _ label _)

theorem unsubscribe (net : Network) (label : String) : SameScopes net (net.unsubscribe label) :=
  unsubscribe_cases (fun _ => .of_eq rfl) fun sub _ => .drop sub

theorem addObservable (net : Network) (name : String) (o : Observable) :
    SameScopes net (net.addObservable name o) :=
  (SameScopes.watchKeys o.store (.recalculate net.nextObservable) o.code.readKeys net).trans
    (.listen o.store none _)

theorem attach (net : Network) (name : String) (b : Binding) :
    SameScopes net (net.attach name b) :=
  .watch net b.store b.key _

theorem publish (net : Network) (id : ObservableId) (v : Value) :
    SameScopes net (net.publish id v).1 :=
  publish_cases (fun _ => .of_eq rfl) fun _ _ _ _ => .of_eq rfl

theorem recalculate (net : Network) (id : ObservableId) :
    SameScopes net (net.recalculate id).1 :=
  recalculate_cases (fun _ => .of_eq rfl) fun _ _ _ _ => .of_eq rfl

theorem refresh (net : Network) (id : BindingId) : SameScopes net (net.refresh id).1 :=
  refresh_cases (fun _ => .of_eq rfl) fun _ _ _ _ _ _ => .of_eq rfl

theorem pushBinding (net : Network) (id : BindingId) (v : Value) :
    SameScopes net (net.pushBinding id v).1 :=
  pushBinding_cases (fun _ => .of_eq rfl) fun b v _ _ _ _ => .set net _ b.key v

theorem subscribeObservable (net : Network) (id : ObservableId) (observer : Observer) :
    SameScopes net (net.subscribeObservable id observer).1 :=
  subscribeObservable_cases (fun _ => .of_eq rfl) (fun _ _ _ => .of_eq rfl) fun _ _ _ => .of_eq rfl

theorem subscribeBinding (net : Network) (id : BindingId) (observer : Observer) :
    SameScopes net (net.subscribeBinding id observer).1 :=
  subscribeBinding_cases (fun _ => .of_eq rfl) (fun _ _ _ => .of_eq rfl) fun _ _ _ => .of_eq rfl

theorem disposeObservable (net : Network) (id : ObservableId) :
    SameScopes net (net.disposeObservable id).1 :=
  disposeObservable_cases (fun _ => .of_eq rfl) fun _ _ _ => .drop _

theorem disposeBinding (net : Network) (id : BindingId) :
    SameScopes net (net.disposeBinding id).1 :=
  disposeBinding_cases (fun _ => .of_eq rfl) fun _ _ _ => .drop _

theorem withObservable {name : String} {f : ObservableId → Followed}
    (same : ∀ id, SameScopes net (f id).1) : SameScopes net (net.withObservable name f).1 :=
  withObservable_cases (fun _ => .of_eq rfl) fun id _ => same id

theorem withBinding {name : String} {f : BindingId → Followed}
    (same : ∀ id, SameScopes net (f id).1) : SameScopes net (net.withBinding name f).1 :=
  withBinding_cases (fun _ => .of_eq rfl) fun id _ => same id

theorem conclude (net : Network) (result : Except Failure Outcome) (completion : Completion) :
    SameScopes net (net.conclude result completion).1 := by
  cases completion with
  | answer => exact .of_eq rfl
  | action label => cases result <;> exact .of_eq rfl
  | recalculation id =>
      cases result with
      | ok outcome => exact .publish _ id _
      | error => exact .of_eq rfl
  | creation name draft =>
      cases result with
      | ok outcome => exact .addObservable _ name _
      | error => exact .of_eq rfl

theorem start (net : Network) (source : Source) (activation : Code → Activation)
    (completion : Code → Completion) :
    SameScopes net (net.start source activation completion).1 :=
  start_cases (fun _ _ => .of_eq rfl) fun _ _ => .conclude net _ _

theorem operate (net : Network) (op : Operation) (delivered : Value) (label? : Option String) :
    SameScopes net (net.operate op delivered label?).1 := by
  cases op with
  | set store key v => exact .set net store key v
  | assign store key v => exact .set net _ key v
  | ensure store key seed => exact .fetch net store [] key seed
  | remove store key => exact .remove net store key
  | clear store order => exact .modifyStore fun _ => rfl
  | watch store key label action =>
      exact (SameScopes.watch net store key _).trans (.adopt _ label _)
  | watchAll store label action => exact (SameScopes.listen store none _).trans (.adopt _ label _)
  | watchKey name label action =>
      exact watchKey_cases (fun _ => .of_eq rfl) fun store key _ =>
        (SameScopes.watch net store key _).trans (.adopt _ label _)
  | combine labels label => exact .combine net labels label
  | unsubscribe label => exact .unsubscribe net label
  | execute | observe => exact .start net _ _ _
  | setParameter | setConverter => exact .withObservable fun _ => .of_eq rfl
  | subscribe => exact .withObservable fun id => .subscribeObservable net id _
  | dispose => exact .withObservable (.disposeObservable net)
  | bind name store key => exact .fetch net store [] key .null
  | push => exact .withBinding fun id => .pushBinding net id _
  | setTarget | setSource => exact .withBinding fun _ => .of_eq rfl
  | subscribeBinding => exact .withBinding fun id => .subscribeBinding net id _
  | disposeBinding => exact .withBinding (.disposeBinding net)
  | run name parameter =>
      refine run_cases (fun _ => .of_eq rfl) fun command _ => ?_
      cases command <;> exact .of_eq rfl
  | forget | nameKey | nameCommand => exact .of_eq rfl

theorem advance (net : Network) (r : Run) : SameScopes net (net.advance r).1 :=
  advance_cases (fun _ _ => .of_eq rfl) (fun _ _ _ _ => .of_eq rfl) fun _ _ => .conclude net _ _

theorem invoke (net : Network) (r : Run) (id : ObjectId) (argument : Value) (rest : Script Frame) :
    SameScopes net (net.invoke r id argument rest).1 :=
  invoke_cases (fun _ _ => .of_eq rfl) (fun _ _ => .conclude net _ _) (fun _ _ => .of_eq rfl)
    fun _ => .of_eq rfl

theorem act (net : Network) (label : String) (delivered : Value) (action : Option Operation) :
    SameScopes net (net.act label delivered action).1 :=
  act_cases (fun _ => .of_eq rfl) (fun _ _ _ => .of_eq rfl) fun _ _ _ => .of_eq rfl

theorem perform (net : Network) (task : Task) : SameScopes net (task.perform net).1 := by
  cases task with
  | operate op delivered label => exact .operate net op delivered label
  | notify callback =>
      cases callback with
      | report label action => exact .act (net.report _) label .null action
      | recalculate id => exact .recalculate net id
      | refresh id => exact .refresh net id
  | deliver observer v => exact .act (net.report _) observer.label v observer.action
  | complete observer =>
      simp only [Task.perform]
      split <;> exact .of_eq rfl
  | run r => exact .advance net r
  | proceed r script =>
      cases script with
      | done f => exact .of_eq rfl
      | fail e => exact .conclude net _ _
      | ask request next =>
          show SameScopes net (net.proceed r (.ask request next)).1
          exact ask_cases (fun _ => .of_eq rfl) (fun _ _ _ _ answered _ => .answer answered)
            fun _ _ _ answered _ => .answer answered
      | invoke id argument next => exact .invoke net r id argument next
  | adopt label sub => exact .adopt net label sub
  | attach name b => exact .attach net name b
  | leave | letGo => exact .of_eq rfl

theorem release (net : Network) (agenda : List Task) : SameScopes net (net.release agenda) := by
  refine congrFun (release_keeps (fun net (s : StoreId) => (net.stores[s]?).map Store.ancestors)
    (fun net reg => ?_) (fun _ _ => rfl) (fun _ _ => rfl) net agenda)
  exact funext (SameScopes.drop [reg])

end Network.SameScopes

theorem Propagation.sameScopes_step (p : Propagation) : Network.SameScopes p.net p.step.net := by
  unfold step
  split
  · exact .of_eq rfl
  · exact (Network.SameScopes.perform p.net _).trans (.release _ _)

end SlotScript
