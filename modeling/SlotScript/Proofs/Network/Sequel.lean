import SlotScript.Proofs.Network.Deed
import SlotScript.Proofs.Network.Trace
import SlotScript.Proofs.Network.Wakening

/-! # What is left to be run

A task goes on with the run it belongs to, or it starts one: an operation starts the run that was
asked for, and an observable that is told starts its own. As long as callbacks do not act, nothing
but the end of the run that was asked for touches the result of an operation, or makes anything.
-/

namespace SlotScript

/-- Keeps the result for whoever asked for the run. -/
def Completion.returns : Completion → Bool
  | .answer | .creation .. => true
  | _ => false

namespace Task

/-- What is done with the result of the run that a task belongs to. -/
def completion? : Task → Option Completion
  | .run r | .proceed r _ => some r.completion
  | _ => none

/-- Belongs to a run whose result is kept. -/
def returns (t : Task) : Bool := t.completion?.any Completion.returns

/-- Is done within an operation, though not as an operation of its own. -/
def Inner : Task → Prop
  | .operate .. | .adopt .. | .attach .. | .leave => False
  | _ => True

theorem evaluates_iff {id : ObservableId} {t : Task} :
    t.Evaluates id ↔ t.completion? = some (.recalculation id) := by
  cases t with
  | run | proceed => exact (Option.some_inj).symm
  | _ => exact iff_of_false (fun h => h) nofun

end Task

namespace Network

/-- A task leaves nothing to be run, or it leaves one run: its own, that of an observable that it
wakes, or what an operation asks for. -/
inductive Runs (net : Network) (task : Task) : List Completion → Prop where
  | nothing : Runs net task []
  | onward {c : Completion} : task.completion? = some c → Runs net task [c]
  | wakes {id : ObservableId} : net.Starts id task → Runs net task [.recalculation id]
  | asked {op : Operation} {delivered : Value} {label? : Option String} {c : Completion} :
      task = .operate op delivered label? → (∀ id, c ≠ .recalculation id) → Runs net task [c]

/-- What a task within an operation does to the listeners and to the result. -/
inductive Within (net : Network) (task : Task) (followed : Followed) : Prop where
  /-- Something is done for a run, which goes on. -/
  | goes : SameTables net followed.1 → followed.1.returned = net.returned →
      (∀ t ∈ followed.2, t.Inner) →
      followed.2.countP Task.returns = (if task.returns then 1 else 0) → Within net task followed
  /-- A callback is about to act. -/
  | acts : followed.2.head?.any Task.acts = true → Within net task followed
  /-- A run comes to its end, and its result is kept. -/
  | ends {result : Except Failure Outcome} : task.returns = true →
      followed.1.returned = some result → followed.2 = [] →
      (∀ e, result = .error e → SameTables net followed.1) → Within net task followed

variable {net net' : Network} {task : Task} {tasks : List Task} {r : Run}

theorem completions_eq_nil (none : ∀ t ∈ tasks, t.completion? = none) :
    tasks.filterMap Task.completion? = [] :=
  List.filterMap_eq_nil_iff.mpr none

theorem Runs.of_none (none : ∀ t ∈ tasks, t.completion? = none) :
    net.Runs task (tasks.filterMap Task.completion?) :=
  completions_eq_nil none ▸ .nothing

/-- Callbacks are notified, and then the run goes on. -/
theorem Runs.of_append {above : List Task} (none : ∀ t ∈ above, t.completion? = none)
    (onward : net.Runs task (tasks.filterMap Task.completion?)) :
    net.Runs task ((above ++ tasks).filterMap Task.completion?) := by
  rwa [List.filterMap_append, completions_eq_nil none, List.nil_append]

theorem completion?_notify (callbacks : List Callback) :
    ∀ t ∈ callbacks.map Task.notify, t.completion? = none :=
  List.forall_mem_map.mpr fun _ _ => rfl

theorem completion?_publish (net : Network) (id : ObservableId) (v : Value) :
    ∀ t ∈ (net.publish id v).2, t.completion? = none :=
  publish_cases (fun _ => List.forall_mem_nil _) fun _ _ _ _ => List.forall_mem_append.mpr
    ⟨List.forall_mem_map.mpr fun _ _ => rfl, List.forall_mem_singleton.mpr rfl⟩

theorem completion?_conclude (net : Network) (result : Except Failure Outcome)
    (completion : Completion) : ∀ t ∈ (net.conclude result completion).2, t.completion? = none := by
  cases completion with
  | recalculation id =>
      cases result with
      | ok => exact completion?_publish _ id _
      | error => exact List.forall_mem_nil _
  | answer => exact List.forall_mem_nil _
  | action | creation => cases result <;> exact List.forall_mem_nil _

theorem completion?_act (net : Network) (label : String) (delivered : Value)
    (action : Option Operation) :
    ∀ t ∈ (net.act label delivered action).2, t.completion? = none :=
  act_cases (fun _ => List.forall_mem_nil _) (fun _ _ _ => List.forall_mem_nil _)
    fun _ _ _ => List.forall_mem_cons.mpr ⟨rfl, List.forall_mem_singleton.mpr rfl⟩

theorem runs_advance (net : Network) (r : Run) :
    net.Runs (.run r) ((net.advance r).2.filterMap Task.completion?) :=
  advance_cases (fun _ _ => .onward rfl) (fun _ _ _ _ => .onward rfl)
    fun _ _ => .of_none (completion?_conclude _ _ _)

theorem runs_proceed (net : Network) (r : Run) (script : Script Frame) :
    net.Runs (.proceed r script) ((net.proceed r script).2.filterMap Task.completion?) := by
  cases script with
  | done f => exact .onward rfl
  | fail e => exact .of_none (completion?_conclude _ _ _)
  | ask request next =>
      show net.Runs _ ((net.proceed r (.ask request next)).2.filterMap Task.completion?)
      exact ask_cases (fun _ => .onward rfl)
        (fun _ _ _ _ _ _ => .of_append (completion?_notify _) (.onward rfl))
        fun _ _ _ _ _ => .of_append (completion?_notify _) (.onward rfl)
  | invoke id argument next =>
      show net.Runs _ ((net.invoke r id argument next).2.filterMap Task.completion?)
      exact invoke_cases (fun _ _ => .onward rfl)
        (fun _ _ => .of_none (completion?_conclude _ _ _)) (fun _ _ => .onward rfl)
        fun _ => .onward rfl

theorem runs_notify (net : Network) (callback : Callback) :
    net.Runs (.notify callback) ((net.notify callback).2.filterMap Task.completion?) := by
  cases callback with
  | report label action => exact .of_none (completion?_act _ _ _ _)
  | refresh id =>
      show net.Runs _ ((net.refresh id).2.filterMap Task.completion?)
      exact refresh_cases (fun _ => .nothing) fun _ _ _ _ _ _ =>
        .of_none (List.forall_mem_map.mpr fun _ _ => rfl)
  | recalculate id =>
      show net.Runs _ ((net.recalculate id).2.filterMap Task.completion?)
      refine recalculate_cases (fun _ => .nothing) fun o found active stopped => .wakes ⟨rfl, ?_⟩
      simp [live?_eq_some_iff.mpr ⟨found, active⟩, stopped]

theorem Runs.start {op : Operation} {delivered : Value} {label? : Option String}
    {source : Source} {activation : Code → Activation} {completion : Code → Completion}
    (asked : ∀ code id, completion code ≠ .recalculation id) :
    net.Runs (.operate op delivered label?)
      ((net.start source activation completion).2.filterMap Task.completion?) :=
  start_cases (fun code _ => .asked rfl (asked code))
    fun _ _ => .of_none (completion?_conclude _ _ _)

/-- What operations on observables and bindings bring up is no run. -/
theorem Runs.withObservable {name : String} {f : ObservableId → Followed}
    (none : ∀ id, ∀ t ∈ (f id).2, t.completion? = none) :
    net.Runs task ((net.withObservable name f).2.filterMap Task.completion?) :=
  withObservable_cases (fun _ => .nothing) fun id _ => .of_none (none id)

theorem Runs.withBinding {name : String} {f : BindingId → Followed}
    (none : ∀ id, ∀ t ∈ (f id).2, t.completion? = none) :
    net.Runs task ((net.withBinding name f).2.filterMap Task.completion?) :=
  withBinding_cases (fun _ => .nothing) fun id _ => .of_none (none id)

theorem completion?_subscribeObservable (net : Network) (id : ObservableId) (observer : Observer) :
    ∀ t ∈ (net.subscribeObservable id observer).2, t.completion? = none := by
  refine subscribeObservable_cases (fun _ => List.forall_mem_nil _) (fun _ _ _ => ?_)
    fun _ _ _ => ?_
  all_goals exact List.forall_mem_cons.mpr ⟨rfl, List.forall_mem_singleton.mpr rfl⟩

theorem completion?_subscribeBinding (net : Network) (id : BindingId) (observer : Observer) :
    ∀ t ∈ (net.subscribeBinding id observer).2, t.completion? = none := by
  refine subscribeBinding_cases (fun _ => List.forall_mem_nil _) (fun _ _ _ => ?_) fun _ _ _ => ?_
  all_goals exact List.forall_mem_cons.mpr ⟨rfl, List.forall_mem_singleton.mpr rfl⟩

theorem completion?_disposeObservable (net : Network) (id : ObservableId) :
    ∀ t ∈ (net.disposeObservable id).2, t.completion? = none :=
  disposeObservable_cases (fun _ => List.forall_mem_nil _) fun _ _ _ =>
    List.forall_mem_map.mpr fun _ _ => rfl

theorem completion?_disposeBinding (net : Network) (id : BindingId) :
    ∀ t ∈ (net.disposeBinding id).2, t.completion? = none :=
  disposeBinding_cases (fun _ => List.forall_mem_nil _) fun _ _ _ =>
    List.forall_mem_map.mpr fun _ _ => rfl

theorem completion?_pushBinding (net : Network) (id : BindingId) (v : Value) :
    ∀ t ∈ (net.pushBinding id v).2, t.completion? = none :=
  pushBinding_cases (fun _ => List.forall_mem_nil _) fun _ _ _ _ _ _ =>
    List.forall_mem_append.mpr ⟨completion?_notify _, List.forall_mem_singleton.mpr rfl⟩

theorem runs_operate (net : Network) (op : Operation) (delivered : Value)
    (label? : Option String) : net.Runs (.operate op delivered label?)
      ((net.operate op delivered label?).2.filterMap Task.completion?) := by
  cases op with
  | set | assign | clear => exact .of_none (completion?_notify _)
  | ensure | remove | bind => exact .of_append (completion?_notify _) .nothing
  | watch | watchAll | combine | unsubscribe | forget | nameKey | nameCommand => exact .nothing
  | watchKey => exact watchKey_cases (fun _ => .nothing) fun _ _ _ => .nothing
  | execute =>
      refine .start fun _ _ => ?_
      cases label? <;> rintro ⟨⟩
  | observe => exact .start fun _ _ => by rintro ⟨⟩
  | setParameter | setConverter => exact .withObservable fun _ => List.forall_mem_singleton.mpr rfl
  | setTarget | setSource => exact .withBinding fun _ => List.forall_mem_nil _
  | subscribe => exact .withObservable fun id => completion?_subscribeObservable net id _
  | subscribeBinding => exact .withBinding fun id => completion?_subscribeBinding net id _
  | dispose => exact .withObservable (completion?_disposeObservable net)
  | disposeBinding => exact .withBinding (completion?_disposeBinding net)
  | push => exact .withBinding fun id => completion?_pushBinding net id _
  | run =>
      refine run_cases (fun _ => .nothing) fun command _ => ?_
      cases command with
      | report | reject => exact .nothing
      | program => exact .asked rfl fun _ => by rintro ⟨⟩

/-- These are all the runs there are. -/
theorem runs_perform (net : Network) (task : Task) :
    net.Runs task ((task.perform net).2.filterMap Task.completion?) := by
  cases task with
  | operate op delivered label? => exact runs_operate net op delivered label?
  | notify callback => exact runs_notify net callback
  | deliver observer v => exact .of_none (completion?_act _ _ _ _)
  | run r => exact runs_advance net r
  | proceed r script => exact runs_proceed net r script
  | complete | adopt | attach | leave | letGo => exact .nothing

/-- The code of an observable is run for as long as it runs already, or it is woken. -/
theorem evaluates_perform {id : ObservableId} {t : Task} (member : t ∈ (task.perform net).2)
    (evaluates : t.Evaluates id) : task.Evaluates id ∨ net.Starts id task := by
  have listed : .recalculation id ∈ (task.perform net).2.filterMap Task.completion? :=
    List.mem_filterMap.mpr ⟨t, member, Task.evaluates_iff.mp evaluates⟩
  have runs := runs_perform net task
  generalize (task.perform net).2.filterMap Task.completion? = completions at listed runs
  cases runs with
  | nothing => cases listed
  | onward own => exact .inl (Task.evaluates_iff.mpr (List.mem_singleton.mp listed ▸ own))
  | wakes starts =>
      cases List.mem_singleton.mp listed
      exact .inr starts
  | asked _ other => exact (other id (List.mem_singleton.mp listed).symm).elim

namespace Within

/-- Nothing of a result is touched. -/
theorem quiet (own : task.returns = false) (same : SameTables net net')
    (returned : net'.returned = net.returned)
    (quiet : ∀ t ∈ tasks, t.Inner ∧ t.returns = false) : Within net task (net', tasks) := by
  refine .goes same returned (fun t member => (quiet t member).1) ?_
  rw [own, if_neg Bool.false_ne_true]
  exact List.countP_eq_zero.mpr fun t member => by simp [(quiet t member).2]

/-- The run goes on, after callbacks are notified or something is let go of. -/
theorem onward (above : List Task) {t : Task} (same : SameTables net net')
    (returned : net'.returned = net.returned)
    (quiet : ∀ t ∈ above, t.Inner ∧ t.returns = false) (inner : t.Inner)
    (own : t.completion? = task.completion?) : Within net task (net', above ++ [t]) := by
  refine .goes same returned (List.forall_mem_append.mpr
    ⟨fun t member => (quiet t member).1, List.forall_mem_singleton.mpr inner⟩) ?_
  rw [List.countP_append, List.countP_eq_zero.mpr fun t member => by simp [(quiet t member).2],
    List.countP_singleton, Nat.zero_add, Task.returns, own]
  rfl

end Within

theorem within_report (own : task.returns = false) (net : Network) (event : Event)
    (label : String) (delivered : Value) (action : Option Operation) :
    Within net task ((net.report event).act label delivered action) := by
  refine act_cases (fun _ => ?_) (fun _ _ _ => ?_) fun _ _ _ => .acts rfl
  all_goals exact .quiet own (.of_eq rfl rfl rfl rfl rfl rfl) rfl (List.forall_mem_nil _)

theorem quiet_notify (callbacks : List Callback) :
    ∀ t ∈ callbacks.map Task.notify, t.Inner ∧ t.returns = false :=
  List.forall_mem_map.mpr fun _ _ => ⟨trivial, rfl⟩

theorem within_publish (own : task.returns = false) (same : SameTables net net')
    (returned : net'.returned = net.returned) (id : ObservableId) (v : Value) :
    Within net task (net'.publish id v) := by
  refine publish_cases (fun _ => .quiet own same returned (List.forall_mem_nil _)) fun _ _ _ _ => ?_
  refine .quiet own (same.trans (.modifyObservable net' id fun _ => rfl)) returned ?_
  exact List.forall_mem_append.mpr ⟨List.forall_mem_map.mpr fun _ _ => ⟨trivial, rfl⟩,
    List.forall_mem_singleton.mpr ⟨trivial, rfl⟩⟩

/-- What no registration touches is not touched when an observable is made. -/
theorem watchKeys_keeps {α : Type} (f : Network → α)
    (keeps : ∀ (net : Network) stores, f { net with stores } = f net) (store : StoreId)
    (callback : Callback) (keys : List String) (net : Network) :
    f (watchKeys store callback keys net).2 = f net := by
  have listenOn_keeps (key : String) (places : List StoreId) (net : Network) :
      f (listenOn key callback places net).2 = f net := by
    induction places generalizing net with
    | nil => rfl
    | cons s places ih => exact (ih _).trans (keeps net _)
  induction keys generalizing net with
  | nil => rfl
  | cons key keys ih => exact (ih _).trans (listenOn_keeps key (net.chain store) net)

theorem returned_addObservable (net : Network) (name : String) (o : Observable) :
    (net.addObservable name o).returned = net.returned :=
  watchKeys_keeps Network.returned (fun _ _ => rfl) o.store (.recalculate net.nextObservable)
    o.code.readKeys net

theorem within_conclude {completion : Completion} (own : task.completion? = some completion)
    (result : Except Failure Outcome) : Within net task (net.conclude result completion) := by
  have returns : task.returns = completion.returns := by rw [Task.returns, own, Option.any_some]
  cases completion with
  | answer => exact .ends returns rfl rfl fun _ _ => .of_eq rfl rfl rfl rfl rfl rfl
  | action label =>
      cases result with
      | ok => exact .quiet returns (.of_eq rfl rfl rfl rfl rfl rfl) rfl (List.forall_mem_nil _)
      | error => exact .quiet returns (.of_eq rfl rfl rfl rfl rfl rfl) rfl (List.forall_mem_nil _)
  | recalculation id =>
      have stopped : SameTables net
          (net.modifyObservable id fun o => { o with evaluating := false }) :=
        .modifyObservable net id fun _ => rfl
      cases result with
      | ok => exact within_publish returns stopped rfl id _
      | error => exact .quiet returns stopped rfl (List.forall_mem_nil _)
  | creation name draft =>
      cases result with
      | ok outcome =>
          have returned := returned_addObservable { net with returned := some (.ok outcome) } name
            { draft with value := outcome.toValue }
          exact .ends returns returned rfl fun e failed => by cases failed
      | error => exact .ends returns rfl rfl fun _ _ => .of_eq rfl rfl rfl rfl rfl rfl

theorem within_advance (net : Network) (r : Run) : Within net (.run r) (net.advance r) := by
  refine advance_cases (fun _ _ => ?_) (fun _ _ _ _ => ?_) fun _ _ => within_conclude rfl _
  all_goals exact .onward [] (.refl net) rfl (List.forall_mem_nil _) trivial rfl

theorem within_invoke (net : Network) (r : Run) (id : ObjectId) (argument : Value)
    (next : Script Frame) :
    Within net (.proceed r (.invoke id argument next)) (net.invoke r id argument next) := by
  refine invoke_cases (fun _ _ => ?_) (fun _ _ => within_conclude rfl _) (fun _ _ => ?_) fun _ => ?_
  · exact .onward [] (.of_eq rfl rfl rfl rfl rfl rfl) rfl (List.forall_mem_nil _) trivial rfl
  · exact .onward [] (.refl net) rfl (List.forall_mem_nil _) trivial rfl
  · exact .onward [] (.refl net) rfl (List.forall_mem_nil _) trivial rfl

theorem returned_answer {store : StoreId} {fallback : List StoreId} {r : Request}
    {x : r.Answer × Changed} (answered : net.answer store fallback r = some x) :
    x.2.1.returned = net.returned :=
  answer_keeps Network.returned (fun _ _ _ => rfl) answered

theorem within_proceed (net : Network) (r : Run) (script : Script Frame) :
    Within net (.proceed r script) (net.proceed r script) := by
  cases script with
  | done f =>
      exact .onward [] (.of_eq rfl rfl rfl rfl rfl rfl) rfl (List.forall_mem_nil _)
        trivial rfl
  | fail e => exact within_conclude rfl _
  | invoke id argument next => exact within_invoke net r id argument next
  | ask request next =>
      refine ask_cases (fun _ => ?_) (fun _ _ _ _ answered _ => ?_) fun _ _ _ answered _ => ?_
      · exact .onward [] (.refl net) rfl (List.forall_mem_nil _) trivial rfl
      · rw [List.append_cons]
        refine .onward _ (.answer answered) (returned_answer answered)
          (List.forall_mem_append.mpr ⟨quiet_notify _, ?_⟩) trivial rfl
        exact List.forall_mem_singleton.mpr ⟨trivial, rfl⟩
      · exact .onward _ (.answer answered) (returned_answer answered) (quiet_notify _) trivial rfl

theorem within_notify (net : Network) (callback : Callback) :
    Within net (.notify callback) (net.notify callback) := by
  cases callback with
  | report label action =>
      exact within_report rfl net (.changed label) label .null action
  | recalculate id =>
      show Within net _ (net.recalculate id)
      refine recalculate_cases (fun _ => ?_) fun _ _ _ _ => ?_
      · exact .quiet rfl (.refl net) rfl (List.forall_mem_nil _)
      · exact .quiet rfl (.modifyObservable net id fun _ => rfl) rfl
          (List.forall_mem_singleton.mpr ⟨trivial, rfl⟩)
  | refresh id =>
      show Within net _ (net.refresh id)
      refine refresh_cases (fun _ => ?_) fun _ _ _ _ _ _ => ?_
      · exact .quiet rfl (.refl net) rfl (List.forall_mem_nil _)
      · exact .quiet rfl (.modifyBinding net id fun _ => rfl) rfl
          (List.forall_mem_map.mpr fun _ _ => ⟨trivial, rfl⟩)

/-- This is all that can happen within an operation. -/
theorem within_perform (net : Network) {task : Task} (inner : task.Inner) :
    Within net task (task.perform net) := by
  cases task with
  | notify callback => exact within_notify net callback
  | deliver observer v => exact within_report rfl net _ observer.label v observer.action
  | complete observer =>
      simp only [Task.perform]
      split <;> exact .quiet rfl (.of_eq rfl rfl rfl rfl rfl rfl) rfl (List.forall_mem_nil _)
  | run r => exact within_advance net r
  | proceed r script => exact within_proceed net r script
  | letGo => exact .quiet rfl (.of_eq rfl rfl rfl rfl rfl rfl) rfl (List.forall_mem_nil _)
  | operate | adopt | attach | leave => exact inner.elim

end Network

end SlotScript
