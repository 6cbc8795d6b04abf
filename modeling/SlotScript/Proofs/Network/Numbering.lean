import SlotScript.Proofs.Network.Publication

/-! # The numbers of observables

A number is given out when an observable is made, and an observable is made when the run that finds
its first value comes to its end. Nothing else touches the counter.
-/

namespace SlotScript

namespace Network

theorem nextObservable_drop (net : Network) (sub : Subscription) :
    (net.drop sub).nextObservable = net.nextObservable :=
  drop_keeps nextObservable (fun _ reg => by cases reg <;> rfl) net sub

theorem nextObservable_release (net : Network) (agenda : List Task) :
    (net.release agenda).nextObservable = net.nextObservable :=
  release_keeps nextObservable (fun _ reg => by cases reg <;> rfl) (fun _ _ => rfl)
    (fun _ _ => rfl) net agenda

theorem nextObservable_adopt (net : Network) (label : String) (sub : Subscription) :
    (net.adopt label sub).nextObservable = net.nextObservable :=
  nextObservable_drop _ _

theorem nextObservable_watch (net : Network) (store : StoreId) (key : String)
    (callback : Callback) : (net.watch store key callback).2.nextObservable = net.nextObservable :=
  (Grows.listenOn key callback (net.chain store) net).1.next

theorem nextObservable_fetch (net : Network) (store : StoreId) (fallback : List StoreId)
    (key : String) (seed : Value) :
    (net.fetch store fallback key seed).2.1.nextObservable = net.nextObservable :=
  fetch_cases (fun _ _ => rfl) fun _ => rfl

theorem nextObservable_answer {net : Network} {store : StoreId} {fallback : List StoreId}
    {request : Request} {x : request.Answer × Changed}
    (answered : net.answer store fallback request = some x) :
    x.2.1.nextObservable = net.nextObservable :=
  answer_keeps nextObservable (fun _ _ _ => rfl) answered

theorem nextObservable_conclude_error (net : Network) (failure : Failure)
    (completion : Completion) :
    (net.conclude (.error failure) completion).1.nextObservable = net.nextObservable := by
  cases completion <;> rfl

theorem nextObservable_publish (net : Network) (id : ObservableId) (v : Value) :
    (net.publish id v).1.nextObservable = net.nextObservable :=
  publish_cases (fun _ => rfl) fun _ _ _ _ => rfl

theorem nextObservable_act (net : Network) (label : String) (delivered : Value)
    (action : Option Operation) :
    (net.act label delivered action).1.nextObservable = net.nextObservable :=
  act_cases (fun _ => rfl) (fun _ _ _ => rfl) fun _ _ _ => rfl

theorem nextObservable_withObservable (net : Network) (name : String) {f : ObservableId → Followed}
    (same : ∀ id, (f id).1.nextObservable = net.nextObservable) :
    (net.withObservable name f).1.nextObservable = net.nextObservable :=
  withObservable_cases (fun _ => rfl) fun id _ => same id

theorem nextObservable_withBinding (net : Network) (name : String) {f : BindingId → Followed}
    (same : ∀ id, (f id).1.nextObservable = net.nextObservable) :
    (net.withBinding name f).1.nextObservable = net.nextObservable :=
  withBinding_cases (fun _ => rfl) fun id _ => same id

theorem nextObservable_start (net : Network) (source : Source) (activation : Code → Activation)
    (completion : Code → Completion) :
    (net.start source activation completion).1.nextObservable = net.nextObservable :=
  start_cases (fun _ _ => rfl) fun _ _ => nextObservable_conclude_error _ _ _

theorem nextObservable_operate (net : Network) (op : Operation) (delivered : Value)
    (label : Option String) :
    (net.operate op delivered label).1.nextObservable = net.nextObservable := by
  cases op with
  | set | assign | clear | forget | nameKey | nameCommand => rfl
  | ensure store key seed => exact nextObservable_fetch net store [] key seed
  | bind name store key => exact nextObservable_fetch net store [] key .null
  | remove store key =>
      show (net.remove store key).1.nextObservable = _
      exact remove_cases (fun _ => rfl) fun _ => rfl
  | watch store key => exact (nextObservable_adopt _ _ _).trans (nextObservable_watch _ _ _ _)
  | watchAll => exact nextObservable_adopt _ _ _
  | watchKey =>
      exact watchKey_cases (fun _ => rfl) fun _ _ _ =>
        (nextObservable_adopt _ _ _).trans (nextObservable_watch _ _ _ _)
  | combine labels label =>
      exact (nextObservable_adopt _ _ _).trans (collect_keeps _ (fun _ _ => rfl) labels net)
  | unsubscribe label =>
      show (net.unsubscribe label).nextObservable = _
      exact unsubscribe_cases (fun _ => rfl) fun _ _ => nextObservable_drop _ _
  | execute | observe => exact nextObservable_start _ _ _ _
  | setParameter | setConverter =>
      exact nextObservable_withObservable net _ fun _ => rfl
  | subscribe =>
      exact nextObservable_withObservable net _ fun id =>
        subscribeObservable_cases (fun _ => rfl) (fun _ _ _ => rfl) fun _ _ _ => rfl
  | dispose =>
      exact nextObservable_withObservable net _ fun id =>
        disposeObservable_cases (fun _ => rfl) fun _ _ _ => nextObservable_drop _ _
  | push =>
      exact nextObservable_withBinding net _ fun id =>
        pushBinding_cases (fun _ => rfl) fun _ _ _ _ _ _ => rfl
  | setTarget | setSource => exact nextObservable_withBinding net _ fun _ => rfl
  | subscribeBinding =>
      exact nextObservable_withBinding net _ fun id =>
        subscribeBinding_cases (fun _ => rfl) (fun _ _ _ => rfl) fun _ _ _ => rfl
  | disposeBinding =>
      exact nextObservable_withBinding net _ fun id =>
        disposeBinding_cases (fun _ => rfl) fun _ _ _ => nextObservable_drop _ _
  | run =>
      refine run_cases (fun _ => rfl) fun command _ => ?_
      cases command <;> rfl

theorem nextObservable_proceed (net : Network) (r : Run) (script : Script Frame) :
    (net.proceed r script).1.nextObservable = net.nextObservable := by
  cases script with
  | done => rfl
  | fail => exact nextObservable_conclude_error _ _ _
  | ask request next =>
      show (net.proceed r (.ask request next)).1.nextObservable = _
      exact ask_cases (fun _ => rfl) (fun _ _ _ _ answered _ => nextObservable_answer answered)
        fun _ _ _ answered _ => nextObservable_answer answered
  | invoke id argument next =>
      show (net.invoke r id argument next).1.nextObservable = _
      exact invoke_cases (fun _ _ => rfl) (fun _ _ => nextObservable_conclude_error _ _ _)
        (fun _ _ => rfl) fun _ => rfl

theorem nextObservable_notify (net : Network) (callback : Callback) :
    (net.notify callback).1.nextObservable = net.nextObservable := by
  cases callback with
  | report label action => exact nextObservable_act _ _ _ _
  | recalculate id =>
      show (net.recalculate id).1.nextObservable = _
      exact recalculate_cases (fun _ => rfl) fun _ _ _ _ => rfl
  | refresh id =>
      show (net.refresh id).1.nextObservable = _
      exact refresh_cases (fun _ => rfl) fun _ _ _ _ _ _ => rfl

/-- An observable is made by a run that has come to its end, and nothing else gives out a number. -/
theorem nextObservable_perform (net : Network) (task : Task) :
    (task.perform net).1.nextObservable = net.nextObservable ∨
      ∃ r name draft result v, task = .run r ∧ r.completion = .creation name draft ∧
        (task.perform net).1 = ({ net with returned := some result } : Network).addObservable name
          { draft with value := v } := by
  cases task with
  | operate op delivered label => exact .inl (nextObservable_operate net op delivered label)
  | notify callback => exact .inl (nextObservable_notify net callback)
  | deliver observer v => exact .inl (nextObservable_act _ _ _ _)
  | complete observer =>
      refine .inl ?_
      simp only [Task.perform]
      split <;> rfl
  | run r =>
      simp only [Task.perform]
      refine advance_cases (fun _ _ => .inl rfl) (fun _ _ _ _ => .inl rfl) fun _ _ => ?_
      cases completes : r.completion with
      | answer | action => exact .inl rfl
      | recalculation id => exact .inl (nextObservable_publish _ _ _)
      | creation name draft => exact .inr ⟨r, name, draft, _, _, rfl, completes, rfl⟩
  | proceed r script => exact .inl (nextObservable_proceed net r script)
  | adopt label sub => exact .inl (nextObservable_adopt net label sub)
  | attach name b => exact .inl (nextObservable_watch _ _ _ _)
  | leave | letGo => exact .inl rfl

end Network

end SlotScript
