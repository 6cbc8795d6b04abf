import SlotScript.Proofs.Network.Recording
import SlotScript.Proofs.Network.Termination

/-! # Sessions in which everyone only records

Nobody acts on what it is told, and no code is observed. It stays that way if what is asked for from
outside brings in nobody who would act and observes nothing, whatever the programs do that it runs.
Then a release has nothing to do, except just after a name has passed from one binding to another.
-/

namespace SlotScript

/-- Brings in nobody who acts on what it is told, and observes no code. -/
def Operation.modest : Operation → Bool
  | .watch _ _ _ action | .watchAll _ _ action | .watchKey _ _ action | .subscribe _ _ _ action
  | .subscribeBinding _ _ _ action => action.isNone
  | .observe .. => false
  | _ => true

/-- What is asked for from outside now, if anything is, is modest. -/
def Propagation.Modest (p : Propagation) : Prop :=
  p.asked?.all Operation.modest = true

instance (p : Propagation) : Decidable p.Modest :=
  inferInstanceAs (Decidable (p.asked?.all Operation.modest = true))

/-- Makes nothing of the result of a run. -/
def Completion.Subdued : Completion → Prop
  | .creation .. => False
  | _ => True

/-- Nobody who is told now or will be told later acts. -/
def Task.Subdued : Task → Prop
  | .operate op _ label => op.modest = true ∧ label = none
  | .notify callback => callback.Records
  | .deliver observer _ => observer.action = none
  | .run r | .proceed r _ => r.completion.Subdued
  | .attach _ b => b.observers.current = []
  | _ => True

namespace Network

/-- The network without what it could run. -/
def uncommanded (net : Network) : Network := { net with objects := [] }

/-- Callbacks and observers only record, and no code is observed. -/
structure Subdued (net : Network) : Prop where
  tame : net.uncommanded.Tame
  unobserved : ∀ id, net.observables.find? id = none

end Network

/-- Whatever follows, nobody acts on what it is told. -/
def Followed.Subdued (followed : Followed) : Prop :=
  followed.1.Subdued ∧ ∀ task ∈ followed.2, task.Subdued

/-- Nobody acts on what it is told, neither now nor later, and every binding has a name. -/
structure Propagation.Subdued (p : Propagation) : Prop where
  net : p.net.Subdued
  agenda : ∀ task ∈ p.agenda, task.Subdued
  named : p.net.Named

open Network

variable {net net' : Network} {task : Task} {store : StoreId} {key : String}

namespace Network

theorem Subsides.subdued (subsides : Subsides net net') (h : net.Subdued) : net'.Subdued := by
  have uncommanded : Subsides net.uncommanded net'.uncommanded :=
    ⟨subsides.listeners, subsides.observables, subsides.bindings, fun id p found => by
      simp [command?, Network.uncommanded] at found⟩
  refine ⟨uncommanded.tame h.tame, fun id => Option.eq_none_iff_forall_ne_some.mpr ?_⟩
  intro o found
  obtain ⟨o, before, -⟩ := subsides.observables id o found
  cases (h.unobserved id).symm.trans before

namespace Subdued

theorem listeners (h : net.Subdued) : ∀ st ∈ net.stores, ∀ l ∈ st.listeners, l.callback.Records :=
  h.tame.listeners

theorem inert (h : net.Subdued) (stores : net'.stores = net.stores)
    (observables : net'.observables = net.observables) (bindings : net'.bindings = net.bindings)
    (objects : net'.objects = net.objects) : net'.Subdued :=
  (Subsides.inert stores observables bindings objects).subdued h

theorem listen (h : net.Subdued) (store : StoreId) (key : Option String) {callback : Callback}
    (records : callback.Records) : (net.listen store key callback).2.Subdued :=
  ⟨h.tame.listen store key records, h.unobserved⟩

theorem watch (h : net.Subdued) (store : StoreId) (key : String) {callback : Callback}
    (records : callback.Records) : (net.watch store key callback).2.Subdued := by
  have on (stores : List StoreId) : ∀ net : Network, net.Subdued →
      (listenOn key callback stores net).2.Subdued := by
    induction stores with
    | nil => exact fun _ h => h
    | cons store stores ih => exact fun _ h => ih _ (h.listen store (some key) records)
  exact on (net.chain store) net h

theorem modifyBinding (h : net.Subdued) (id : BindingId) {f : Binding → Binding}
    (records : ∀ b, (∀ x ∈ b.observers.current, x.action = none) →
      ∀ x ∈ (f b).observers.current, x.action = none) : (net.modifyBinding id f).Subdued :=
  ⟨h.tame.modifyBinding id records, h.unobserved⟩

theorem attach (h : net.Subdued) (name : String) {b : Binding}
    (alone : b.observers.current = []) : (net.attach name b).Subdued := by
  have watched : (net.watch b.store b.key (.refresh net.nextBinding)).2.Subdued :=
    h.watch b.store b.key trivial
  obtain ⟨listeners, observers, bindings, codes, commands⟩ := watched.tame
  refine ⟨⟨listeners, observers, fun id b' added => ?_, codes, commands⟩, watched.unobserved⟩
  obtain ⟨-, rfl⟩ | ⟨-, found⟩ := Table.find?_of_insert added
  · exact alone ▸ List.forall_mem_nil _
  · exact bindings id b' found

/-- Where no code is observed, all that is released are bindings without names. -/
theorem release_eq (h : net.Subdued) (agenda : List Task) :
    net.release agenda = net.releaseBindings := by
  have released := (Subsides.releaseBindings net).subdued h
  have none : net.releaseBindings.observables.keys = [] :=
    List.eq_nil_iff_forall_not_mem.mpr fun id member =>
      Table.find?_ne_none member (released.unobserved id)
  have unnamed : net.releaseBindings.unnamed = [] := by
    simp only [unnamed, none, List.filter_nil]
  simp only [release, releaseObservables, unnamed]

theorem release_of_named (h : net.Subdued) (named : net.Named) (agenda : List Task) :
    net.release agenda = net :=
  (h.release_eq agenda).trans (releaseBindings_of_named named)

end Subdued

end Network

namespace Followed.Subdued

theorem quiet (h : net.Subdued) : Followed.Subdued (net, []) :=
  ⟨h, List.forall_mem_nil _⟩

theorem changed {changed : Changed} (h : changed.1.Subdued)
    (records : ∀ callback ∈ changed.2, callback.Records) : changed.followed.Subdued :=
  ⟨h, List.forall_mem_map.mpr records⟩

theorem holding {followed : Followed} (h : followed.Subdued) (held : List Holding) :
    (followed.holding held).Subdued :=
  ⟨h.1, List.forall_mem_append.mpr ⟨h.2, List.forall_mem_singleton.mpr trivial⟩⟩

theorem completed (h : net.Subdued) (observers : List Observer) :
    Followed.Subdued (net, observers.map .complete) :=
  ⟨h, List.forall_mem_map.mpr fun _ _ => trivial⟩

theorem withBinding (h : net.Subdued) (name : String) {f : BindingId → Followed}
    (subdued : ∀ id, (f id).Subdued) : (net.withBinding name f).Subdued :=
  withBinding_cases (fun _ => quiet h) fun id _ => subdued id

/-- Where no code is observed, asking for an observable finds none. -/
theorem withObservable (h : net.Subdued) (name : String) {f : ObservableId → Followed}
    (subdued : ∀ id, net.observables.find? id = none → (f id).Subdued) :
    (net.withObservable name f).Subdued :=
  withObservable_cases (fun _ => quiet h) fun id _ => subdued id (h.unobserved id)

theorem act (h : net.Subdued) (label : String) (delivered : Value) {action : Option Operation}
    (records : action = none) : (net.act label delivered action).Subdued :=
  records ▸ quiet h

end Followed.Subdued

namespace Network.Subdued

theorem conclude (h : net.Subdued) (result : Except Failure Outcome) {completion : Completion}
    (subdued : completion.Subdued) : (net.conclude result completion).Subdued := by
  cases completion with
  | answer => exact .quiet (h.inert rfl rfl rfl rfl)
  | action label =>
      cases result with
      | ok => exact .quiet h
      | error => exact .quiet (h.inert rfl rfl rfl rfl)
  | recalculation id =>
      have stopped : Network.Subdued
          (net.modifyObservable id fun o => { o with evaluating := false }) := by
        refine ⟨h.tame.modifyObservable id (fun _ => rfl) fun _ records => records, fun k => ?_⟩
        exact (Table.find?_adjust net.observables id k _).trans (by simp [h.unobserved])
      cases result with
      | error => exact .quiet stopped
      | ok outcome =>
          simp only [Network.conclude, publish, stopped.unobserved]
          exact .quiet stopped
  | creation => exact subdued.elim

theorem start (h : net.Subdued) (source : Source) (activation : Code → Activation)
    {completion : Code → Completion} (subdued : ∀ code, (completion code).Subdued) :
    (net.start source activation completion).Subdued :=
  start_cases (fun code _ => ⟨h, List.forall_mem_singleton.mpr (subdued code)⟩)
    fun _ _ => h.conclude _ (subdued _)

theorem advance (h : net.Subdued) {r : Run} (subdued : r.completion.Subdued) :
    (net.advance r).Subdued :=
  advance_cases (fun _ _ => ⟨h, List.forall_mem_singleton.mpr subdued⟩)
    (fun _ _ _ _ => ⟨h, List.forall_mem_singleton.mpr subdued⟩) fun _ _ => h.conclude _ subdued

theorem invoke (h : net.Subdued) {r : Run} (subdued : r.completion.Subdued) (id : ObjectId)
    (argument : Value) (rest : Script Frame) : (net.invoke r id argument rest).Subdued := by
  refine invoke_cases (fun _ _ => ⟨h.inert rfl rfl rfl rfl, ?_⟩) (fun _ _ => h.conclude _ subdued)
    (fun _ _ => ⟨h, ?_⟩) fun _ => ⟨h, ?_⟩
  all_goals exact List.forall_mem_singleton.mpr subdued

theorem proceed (h : net.Subdued) {r : Run} (subdued : r.completion.Subdued)
    (script : Script Frame) : (net.proceed r script).Subdued := by
  cases script with
  | done => exact ⟨h, List.forall_mem_singleton.mpr subdued⟩
  | fail => exact h.conclude _ subdued
  | invoke id argument rest => exact h.invoke subdued id argument rest
  | ask request next =>
      have told {x : request.Answer × Changed}
          (answered : net.answer r.activation.store r.activation.fallback request = some x) :
          x.2.1.Subdued ∧ ∀ task ∈ x.2.2.map Task.notify, task.Subdued :=
        ⟨(Subsides.answer answered).subdued h,
          List.forall_mem_map.mpr (records_answer h.listeners answered)⟩
      refine ask_cases (fun _ => ⟨h, List.forall_mem_singleton.mpr subdued⟩)
        (fun _ _ _ _ answered _ => ?_) fun _ _ _ answered _ => ?_
      · refine ⟨(told answered).1, List.forall_mem_append.mpr ⟨(told answered).2, ?_⟩⟩
        exact List.forall_mem_cons.mpr ⟨trivial, List.forall_mem_singleton.mpr subdued⟩
      · exact ⟨(told answered).1, List.forall_mem_append.mpr
          ⟨(told answered).2, List.forall_mem_singleton.mpr subdued⟩⟩

theorem runCommand (h : net.Subdued) (command : Command) (argument : Value) :
    (net.runCommand command argument).Subdued := by
  cases command with
  | report => exact .quiet (h.inert rfl rfl rfl rfl)
  | reject =>
      have kept : Completion.answer.Subdued := trivial
      exact h.conclude _ kept
  | program => exact ⟨h, List.forall_mem_singleton.mpr trivial⟩

theorem refresh (h : net.Subdued) (id : BindingId) : (net.refresh id).Subdued := by
  refine refresh_cases (fun _ => .quiet h) fun b v found _ _ _ => ?_
  refine ⟨h.modifyBinding id fun _ records => records, List.forall_mem_map.mpr ?_⟩
  exact h.tame.bindingObservers id b found

theorem pushBinding (h : net.Subdued) (id : BindingId) (given : Value) :
    (net.pushBinding id given).Subdued := by
  refine pushBinding_cases (fun _ => .quiet h) fun b v _ _ _ _ => ?_
  refine (Followed.Subdued.changed ((Subsides.set net _ b.key v).subdued h) ?_).holding _
  exact records_callbacksFor h.listeners _ _

theorem disposeBinding (h : net.Subdued) (id : BindingId) : (net.disposeBinding id).Subdued := by
  refine disposeBinding_cases (fun _ => .quiet h) fun b _ _ => ?_
  refine .completed ((Subsides.drop _ _).subdued ?_) _
  exact h.modifyBinding id fun _ _ => List.forall_mem_nil _

theorem subscribeBinding (h : net.Subdued) (id : BindingId) {observer : Observer}
    (records : observer.action = none) : (net.subscribeBinding id observer).Subdued := by
  refine subscribeBinding_cases (fun _ => .quiet h) (fun _ _ _ => ⟨h, ?_⟩) fun _ _ _ => ⟨?_, ?_⟩
  · exact List.forall_mem_cons.mpr ⟨trivial, List.forall_mem_singleton.mpr trivial⟩
  · exact h.modifyBinding id fun _ others => records_add others records
  · exact List.forall_mem_cons.mpr ⟨records, List.forall_mem_singleton.mpr trivial⟩

theorem operate (h : net.Subdued) {op : Operation} (modest : op.modest = true)
    (delivered : Value) : (net.operate op delivered none).Subdued := by
  have wrote (store : StoreId) (key : String) (v : Value) :
      (net.set store key v).followed.Subdued :=
    .changed ((Subsides.set net store key v).subdued h)
      (records_callbacksFor h.listeners store (some key))
  cases op with
  | set store key v => exact wrote store key v
  | assign store key v => exact wrote _ key v
  | ensure store key seed =>
      refine (Followed.Subdued.changed ?_ ?_).holding _
      · exact (Subsides.fetch net store [] key seed).subdued h
      · exact records_fetch h.listeners store [] key seed
  | remove store key =>
      have removed : (net.remove store key).followed.Subdued := by
        refine remove_cases (fun _ => .quiet h) fun _ => .changed (Subsides.subdued ?_ h) ?_
        · exact .modifyStore net store fun _ _ => id
        · exact records_callbacksFor h.listeners store (some key)
      exact removed.holding _
  | clear store order =>
      refine .changed (Subsides.subdued ?_ h) (records_clear h.listeners store order)
      exact .modifyStore net store fun _ _ => id
  | watch store key label action =>
      have records : action = none := by simpa [Operation.modest] using modest
      exact .quiet ((Subsides.adopt _ _ _).subdued (h.watch store key records))
  | watchAll store label action =>
      have records : action = none := by simpa [Operation.modest] using modest
      exact .quiet ((Subsides.adopt _ _ _).subdued (h.listen store none records))
  | watchKey name label action =>
      have records : action = none := by simpa [Operation.modest] using modest
      exact watchKey_cases (fun _ => .quiet h) fun store key _ =>
        .quiet ((Subsides.adopt _ _ _).subdued (h.watch store key records))
  | combine labels label =>
      have joined := (Subsides.collect labels net).trans (.adopt _ label (net.collect labels).1)
      exact .quiet (joined.subdued h)
  | unsubscribe label => exact .quiet ((Subsides.unsubscribe net label).subdued h)
  | execute source store host parameter => exact h.start source _ fun _ => trivial
  | observe => cases modest
  | setParameter | setConverter =>
      refine .withObservable h _ fun id none => ?_
      simp only [modifyObservable, Table.adjust, none]
      exact ⟨h, List.forall_mem_singleton.mpr trivial⟩
  | subscribe | dispose =>
      refine .withObservable h _ fun id none => ?_
      simp only [subscribeObservable, disposeObservable, none]
      exact .quiet h
  | bind name store key =>
      refine ⟨(Subsides.fetch net store [] key .null).subdued h, ?_⟩
      refine List.forall_mem_append.mpr ⟨List.forall_mem_map.mpr ?_, ?_⟩
      · exact records_fetch h.listeners store [] key .null
      · exact List.forall_mem_singleton.mpr rfl
  | push name v => exact .withBinding h name fun id => h.pushBinding id v
  | setTarget name converter | setSource name converter =>
      exact .withBinding h name fun id => .quiet (h.modifyBinding id fun _ records => records)
  | subscribeBinding name label plain action =>
      have records : action = none := by simpa [Operation.modest] using modest
      exact .withBinding h name fun id => h.subscribeBinding id records
  | disposeBinding name => exact .withBinding h name h.disposeBinding
  | forget | nameKey | nameCommand => exact .quiet (h.inert rfl rfl rfl rfl)
  | run name parameter =>
      exact run_cases (fun _ => .quiet h) fun command _ => h.runCommand command parameter

end Network.Subdued

theorem Task.Subdued.perform (subdued : task.Subdued) (h : net.Subdued) :
    (task.perform net).Subdued := by
  cases task with
  | operate op delivered label =>
      obtain ⟨modest, rfl⟩ := subdued
      exact h.operate modest delivered
  | notify callback =>
      cases callback with
      | report label action =>
          have reported : (net.report (.changed label)).Subdued := h.inert rfl rfl rfl rfl
          exact .act reported label .null subdued
      | recalculate id =>
          simp only [Task.perform, Network.notify, Network.recalculate, h.unobserved]
          exact .quiet h
      | refresh id => exact h.refresh id
  | deliver observer v =>
      have reported : (net.report (.next observer.label (net.portrait v))).Subdued :=
        h.inert rfl rfl rfl rfl
      exact .act reported observer.label v subdued
  | complete observer =>
      refine .quiet ?_
      split
      · exact h
      · exact h.inert rfl rfl rfl rfl
  | run r => exact h.advance subdued
  | proceed r script => exact h.proceed subdued script
  | adopt label subscription => exact .quiet ((Subsides.adopt net label subscription).subdued h)
  | attach name b => exact .quiet (h.attach name subdued)
  | leave => exact .quiet (h.inert rfl rfl rfl rfl)
  | letGo => exact .quiet h

namespace Propagation.Subdued

variable {p q : Propagation} {rest : List Task}

theorem of_untouched {start : Network} (untouched : start.Untouched)
    (unheard : ∀ st ∈ start.stores, st.listeners = []) : Propagation.Subdued ⟨start, []⟩ := by
  have unobserved (id : ObservableId) : start.observables.find? id = none := by
    rw [untouched.observables, Table.find?_empty]
  have unbound (id : BindingId) : start.bindings.find? id = none := by
    rw [untouched.bindings, Table.find?_empty]
  refine ⟨⟨⟨fun st member l listens => ?_, fun id o found => ?_, fun id b found => ?_,
    fun id o found => ?_, fun id p found => ?_⟩, unobserved⟩, List.forall_mem_nil _,
    fun id member => ?_⟩
  · rw [unheard st member] at listens
    cases listens
  · cases (unobserved id).symm.trans found
  · cases (unbound id).symm.trans found
  · cases (unobserved id).symm.trans found
  · simp [command?, uncommanded] at found
  · exact (Table.find?_ne_none member (unbound id)).elim

theorem step (h : p.Subdued) : p.step.Subdued := by
  cases agenda : p.agenda with
  | nil =>
      have still : p.step = p := by simp only [Propagation.step, agenda]
      rwa [still]
  | cons task rest =>
      obtain ⟨subdued, others⟩ := List.forall_mem_cons.mp (agenda ▸ h.agenda)
      obtain ⟨net, tasks⟩ := subdued.perform h.net
      rw [step_eq agenda]
      -- A task may take a name from a binding, but then the binding is released with it.
      refine ⟨(Subsides.release _ _).subdued net, List.forall_mem_append.mpr ⟨tasks, others⟩, ?_⟩
      dsimp only
      rw [net.release_eq]
      exact named_releaseBindings

theorem next (h : p.Subdued) (next : p.Next q) (modest : q.Modest) : q.Subdued := by
  cases next with
  | task => exact h.step
  | ask net op =>
      exact ⟨h.net.inert rfl rfl rfl rfl, List.forall_mem_singleton.mpr ⟨modest, rfl⟩, h.named⟩

theorem leads (h : p.Subdued) (leads : p.Leads q) : q.Subdued := by
  induction leads with
  | here => exact h
  | step _ ih => exact ih h.step

/-- Nothing is released as long as all bindings have names. -/
theorem step_eq (h : Propagation.Subdued ⟨net, task :: rest⟩)
    (named : (task.perform net).1.Named) : Propagation.step ⟨net, task :: rest⟩ =
      ⟨(task.perform net).1, (task.perform net).2 ++ rest⟩ := by
  obtain ⟨subdued, -⟩ := List.forall_mem_cons.mp h.agenda
  simp only [Propagation.step]
  rw [(subdued.perform h.net).1.release_of_named named]

end Propagation.Subdued

/-- In a session in which nothing but modest operations is asked for, everyone only records. -/
theorem Session.subdued {start : Network} {p : Propagation} (untouched : start.Untouched)
    (unheard : ∀ st ∈ start.stores, st.listeners = [])
    (session : Session Propagation.Modest ⟨start, []⟩ p) : p.Subdued :=
  (session.preserves (Q := Propagation.Subdued) (.of_untouched untouched unheard)
    fun _ h next modest => h.next next modest).1

end SlotScript
