import SlotScript.Proofs.Network.Publication

/-! # What a task is to those who observe

Most of what is done in a network is nothing to those who observe. A publisher may store a new value
and deliver it, an observer may be seated or come too late, a publisher may be disposed, and seats
may be given up with their subscriptions. These are all the effects there are.
-/

namespace SlotScript

/-- What an observer receives. -/
inductive Signal where
  | next (v : Value)
  | completed

/-- A value that is stored anew, and the same as observers see it. -/
structure News where
  stored : Value
  shown : Value

/-- Without observers, and with values shown as they are. -/
structure Publication.Blank (b : Publication) : Prop where
  empty : b.observers.list = []
  plain : b.converter = none

/-- What is made at the end of a run is made without observers and without a converter, and not as
running itself. -/
def Completion.Blank : Completion → Prop
  | .creation _ draft => draft.publication.Blank ∧ draft.evaluating = false
  | _ => True

namespace Task

/-- What a task brings to the observer of a label. -/
def signal? (label : String) : Task → Option Signal
  | .deliver observer v => if observer.label = label then some (.next v) else none
  | .complete observer => if observer.label = label then some .completed else none
  | _ => none

/-- What is still to be made is made without observers and without a converter. -/
def Blank : Task → Prop
  | .run r | .proceed r _ => r.completion.Blank
  | .attach _ b => b.publication.Blank
  | _ => True

/-- Brings nothing to observers and keeps no seats. -/
def Silent : Task → Prop
  | .deliver .. | .complete _ | .adopt .. => False
  | task => task.Blank

/-- Brings something to an observer. -/
def Tells : Task → Prop
  | .deliver .. | .complete _ => True
  | _ => False

/-- A subscription that is not under a label yet. -/
def keeping : Task → Subscription
  | .adopt _ sub => sub
  | _ => []

theorem Silent.keeping {t : Task} (silent : t.Silent) : t.keeping = [] := by
  cases t with
  | adopt => exact silent.elim
  | _ => rfl

theorem Silent.blank {t : Task} (silent : t.Silent) : t.Blank := by
  cases t with
  | deliver | complete | adopt => trivial
  | _ => exact silent

/-- The value that a task finds for a publisher: what its code came to, or what its key has. -/
def finding? (net : Network) : Task → Option (Publisher × Value)
  | .run r =>
    match r.callers, r.completion, (Task.run r).ending? with
    | [], .recalculation id, some (.ok f) => some (.observable id, f.outcome.toValue)
    | _, _, _ => none
  | .notify (.refresh id) => (net.bindings.find? id).map fun b =>
    (.binding id, (net.lookup? b.store b.key).getD .null)
  | _ => none

/-- The publisher that a task disposes of, by its name. -/
def disposing? (net : Network) : Task → Option Publisher
  | .operate (.dispose name) _ _ => (net.observableNames.find? name).map .observable
  | .operate (.disposeBinding name) _ _ => (net.bindingNames.find? name).map .binding
  | _ => none

/-- The publisher to which a task subscribes an observer, by its name. -/
def subscribing? (net : Network) : Task → Option (Publisher × Observer)
  | .operate (.subscribe name label plain action) _ _ =>
    (net.observableNames.find? name).map fun id => (.observable id, ⟨label, plain, action⟩)
  | .operate (.subscribeBinding name label plain action) _ _ =>
    (net.bindingNames.find? name).map fun id => (.binding id, ⟨label, plain, action⟩)
  | _ => none

/-- Changes the converter through which observers see a value. -/
def converts : Task → Bool
  | .operate (.setConverter ..) _ _ | .operate (.setTarget ..) _ _ => true
  | _ => false

end Task

namespace Network

/-- What a task has found for a publisher, if that is news: the publisher is not disposed, and what
it has stored is not identical. -/
def news? (net : Network) (task : Task) (s : Publisher) : Option News :=
  match task.finding? net, net.publication? s with
  | some (k, v), some b =>
    if k = s ∧ b.disposed = false ∧ b.value.identical v = false then
      some ⟨v, Publication.shown { b with value := v } net.sizes⟩
    else none
  | _, _ => none

/-- A task disposes of a publisher that is not yet disposed. -/
def disposes (net : Network) (task : Task) (s : Publisher) : Bool :=
  task.disposing? net = some s && (net.publication? s).any (!·.disposed)

/-- The observer that a task subscribes, with its publisher and the number of its seat, unless it
comes too late. -/
def arriving? (net : Network) (task : Task) : Option (Publisher × Nat × Observer) :=
  (task.subscribing? net).bind fun (s, observer) =>
    ((net.publication? s).filter fun b => !b.disposed).map fun b => (s, b.observers.next, observer)

/-- No news, no end of publishing, and nobody who is seated. -/
structure Uneventful (net : Network) (task : Task) : Prop where
  news : ∀ s, net.news? task s = none
  stays : ∀ s, net.disposes task s = false
  nobody : net.arriving? task = none

/-- What a task does, as far as it is anything to those who observe, and what follows. -/
inductive Effect (net : Network) (task : Task) (followed : Followed) : Prop where
  /-- Registrations come under a label or are given up, if anything happens. -/
  | moves {taken gone : Subscription} : net.Uneventful task →
      Moves taken gone net followed.1 →
      (∀ s n, taken.count (Publisher.seat s n) = task.keeping.count (s.seat n)) →
      (∀ t ∈ followed.2, t.Silent) → Effect net task followed
  | converts {s : Publisher} {converter : Option Converter} : net.Uneventful task →
      task.converts = true → Updates s (fun b => { b with converter }) net followed.1 →
      (∀ t ∈ followed.2, t.Silent) → Effect net task followed
  | makes {s : Publisher} {b : Publication} : net.Uneventful task → task.Silent →
      Makes s b net followed.1 → b.Blank → b.watching.Listens →
      (∀ t ∈ followed.2, t.Silent) → Effect net task followed
  /-- A value is stored and delivered. -/
  | stores {s : Publisher} {b : Publication} {v : Value} {others : List Task} :
      task.finding? net = some (s, v) → net.publication? s = some b → b.disposed = false →
      b.value.identical v = false → Updates s (fun b => { b with value := v }) net followed.1 →
      followed.2 = b.observers.current.map
        (.deliver · (Publication.shown { b with value := v } net.sizes)) ++ others →
      (∀ t ∈ others, t.Silent) → Effect net task followed
  /-- An observer is subscribed, and the current value is delivered to it. -/
  | seats {s : Publisher} {b : Publication} {observer : Observer} :
      task.subscribing? net = some (s, observer) → net.publication? s = some b →
      b.disposed = false →
      Updates s (fun b => { b with observers := b.observers.add observer }) net followed.1 →
      followed.2 = [.deliver observer (b.shown net.sizes),
        .adopt observer.label [s.seat b.observers.next]] → Effect net task followed
  /-- An observer comes too late and is completed. -/
  | late {s : Publisher} {b : Publication} {observer : Observer} : net.Uneventful task →
      task.subscribing? net = some (s, observer) → net.publication? s = some b →
      b.disposed = true → Moves [] [] net followed.1 →
      followed.2 = [.complete observer, .adopt observer.label []] → Effect net task followed
  /-- A publisher is disposed of, and its observers are completed. -/
  | closes {s : Publisher} {b : Publication} : task.disposing? net = some s →
      net.publication? s = some b → b.disposed = false →
      Updates s (fun b => { b with
        disposed := true, observers := b.observers.cleared, watching := [] }) net followed.1 →
      followed.2 = b.observers.current.map .complete → Effect net task followed

variable {net net' net'' : Network} {task : Task}

theorem disposing?_of_finding {found : Publisher × Value} (h : task.finding? net = some found) :
    task.disposing? net = none ∧ task.subscribing? net = none := by
  cases task with
  | operate => cases h
  | _ => exact ⟨rfl, rfl⟩

theorem finding?_of_disposing {s : Publisher} (h : task.disposing? net = some s) :
    task.finding? net = none ∧ task.subscribing? net = none := by
  cases task with
  | operate op =>
      cases op with
      | subscribe | subscribeBinding => cases h
      | _ => exact ⟨rfl, rfl⟩
  | _ => cases h

theorem finding?_of_subscribing {comer : Publisher × Observer}
    (h : task.subscribing? net = some comer) :
    task.finding? net = none ∧ task.disposing? net = none := by
  cases task with
  | operate op =>
      cases op with
      | dispose | disposeBinding => cases h
      | _ => exact ⟨rfl, rfl⟩
  | _ => cases h

theorem news?_of_none (finding : task.finding? net = none) (s : Publisher) :
    net.news? task s = none := by
  simp only [news?, finding]

theorem disposes_of_none (disposing : task.disposing? net = none) (s : Publisher) :
    net.disposes task s = false := by
  simp [disposes, disposing]

theorem arriving?_of_none (subscribing : task.subscribing? net = none) :
    net.arriving? task = none := by
  simp [arriving?, subscribing]

theorem uneventful_of_none (finding : task.finding? net = none)
    (disposing : task.disposing? net = none) (subscribing : task.subscribing? net = none) :
    net.Uneventful task :=
  ⟨news?_of_none finding, disposes_of_none disposing, arriving?_of_none subscribing⟩

/-- What is found is known, or nobody needs to know it. -/
theorem uneventful_of_known {s : Publisher} {v : Value} (finding : task.finding? net = some (s, v))
    (known : ∀ b, net.publication? s = some b → b.disposed = true ∨ b.value.identical v = true) :
    net.Uneventful task := by
  obtain ⟨disposing, subscribing⟩ := disposing?_of_finding finding
  refine ⟨fun k => ?_, disposes_of_none disposing, arriving?_of_none subscribing⟩
  simp only [news?, finding]
  split
  · rename_i b here there
    obtain ⟨rfl, rfl⟩ := Prod.mk.inj (Option.some.inj here)
    rw [if_neg]
    rintro ⟨rfl, active, new⟩
    obtain gone | same := known b there
    · exact nomatch active.symm.trans gone
    · exact nomatch new.symm.trans same
  · rfl

theorem uneventful_of_disposed {s : Publisher} (disposing : task.disposing? net = some s)
    (gone : ∀ b, net.publication? s = some b → b.disposed = true) : net.Uneventful task := by
  obtain ⟨finding, subscribing⟩ := finding?_of_disposing disposing
  refine ⟨news?_of_none finding, fun k => ?_, arriving?_of_none subscribing⟩
  by_cases same : s = k
  · subst same
    cases found : net.publication? s with
    | none => simp [disposes, found]
    | some b => simp [disposes, found, gone b found]
  · simp [disposes, disposing, same]

/-- Whoever comes too late is not seated, nor is anyone where there is nothing to be observed. -/
theorem uneventful_of_late {s : Publisher} {observer : Observer}
    (subscribing : task.subscribing? net = some (s, observer))
    (gone : ∀ b, net.publication? s = some b → b.disposed = true) : net.Uneventful task := by
  obtain ⟨finding, disposing⟩ := finding?_of_subscribing subscribing
  refine ⟨news?_of_none finding, disposes_of_none disposing, ?_⟩
  cases found : net.publication? s with
  | none => simp [arriving?, subscribing, found]
  | some b => simp [arriving?, subscribing, found, gone b found]

/-- Nothing is done to those who observe. -/
theorem Effect.nothing {followed : Followed} (uneventful : net.Uneventful task)
    (own : task.keeping = []) (inert : Moves [] [] net followed.1)
    (silent : ∀ t ∈ followed.2, t.Silent) : Effect net task followed :=
  .moves uneventful inert (fun _ _ => own ▸ rfl) silent

theorem Moves.of_eq (same : net' = net) : Moves [] [] net net' := by
  subst same
  exact .inert rfl rfl rfl rfl rfl

/-- The rest of an observable is not seen by those who observe. -/
theorem Moves.modifyObservable (net : Network) (id : ObservableId) {f : Observable → Observable}
    (same : ∀ o, (f o).publication = o.publication) :
    Moves [] [] net (net.modifyObservable id f) := by
  refine ⟨fun s => ?_, fun _ => .rfl, fun _ => rfl⟩
  rw [publication?_modifyObservable net id (g := fun b => b) same]
  simp only [Publication.without_nil, Option.map_id', ite_self]

theorem Moves.modifyBinding (net : Network) (id : BindingId) {f : Binding → Binding}
    (same : ∀ b, (f b).publication = b.publication) :
    Moves [] [] net (net.modifyBinding id f) := by
  refine ⟨fun s => ?_, fun _ => .rfl, fun _ => rfl⟩
  rw [publication?_modifyBinding net id (g := fun b => b) same]
  simp only [Publication.without_nil, Option.map_id', ite_self]

theorem Moves.fetch (net : Network) (store : StoreId) (fallback : List StoreId) (key : String)
    (seed : Value) : Moves [] [] net (net.fetch store fallback key seed).2.1 :=
  fetch_cases (fun _ _ => .inert rfl rfl rfl rfl rfl) fun _ => .inert rfl rfl rfl rfl rfl

theorem Moves.answer {store : StoreId} {fallback : List StoreId} {r : Request}
    {x : r.Answer × Changed} (answered : net.answer store fallback r = some x) :
    Moves [] [] net x.2.1 := by
  refine answer_cases answered (.of_eq rfl) (fun _ _ _ => .inert rfl rfl rfl rfl rfl) ?_
  intro key collection index v object scope _ _
  cases collection <;> exact .inert rfl rfl rfl rfl rfl

theorem silent_notify (callbacks : List Callback) :
    ∀ t ∈ callbacks.map Task.notify, t.Silent :=
  List.forall_mem_map.mpr fun _ _ => trivial

theorem silent_singleton {t : Task} (silent : t.Silent) : ∀ t' ∈ [t], t'.Silent :=
  List.forall_mem_singleton.mpr silent

/-- Doing the action of a callback is a task of its own. -/
theorem act_nothing (net : Network) (label : String) (delivered : Value)
    (action : Option Operation) : Moves [] [] net (net.act label delivered action).1 ∧
      ∀ t ∈ (net.act label delivered action).2, t.Silent := by
  refine act_cases (fun _ => ?_) (fun _ _ _ => ?_) fun _ _ _ => ?_
  · exact ⟨.inert rfl rfl rfl rfl rfl, List.forall_mem_nil _⟩
  · exact ⟨.inert rfl rfl rfl rfl rfl, List.forall_mem_nil _⟩
  · exact ⟨.inert rfl rfl rfl rfl rfl,
      List.forall_mem_cons.mpr ⟨trivial, silent_singleton trivial⟩⟩

theorem uneventful_of_tells (tells : task.Tells) : net.Uneventful task := by
  cases task with
  | deliver | complete => exact uneventful_of_none rfl rfl rfl
  | _ => exact tells.elim

/-- Telling an observer is nothing to the others. -/
theorem tell_nothing (tells : task.Tells) : Moves [] [] net (task.perform net).1 ∧
    ∀ t ∈ (task.perform net).2, t.Silent := by
  cases task with
  | deliver observer v =>
      obtain ⟨inert, silent⟩ := act_nothing (net.report (.next observer.label (net.portrait v)))
        observer.label v observer.action
      have reported : Moves [] [] net (net.report (.next observer.label (net.portrait v))) :=
        .inert rfl rfl rfl rfl rfl
      exact ⟨reported.after inert, silent⟩
  | complete observer =>
      refine ⟨?_, List.forall_mem_nil _⟩
      simp only [Task.perform]
      split <;> exact .inert rfl rfl rfl rfl rfl
  | _ => exact tells.elim

/-- Nothing is made by a failure. -/
theorem conclude_error_nothing (net : Network) (failure : Failure) (completion : Completion) :
    Moves [] [] net (net.conclude (.error failure) completion).1 ∧
      (net.conclude (.error failure) completion).2 = [] := by
  cases completion with
  | recalculation id => exact ⟨.modifyObservable net id fun _ => rfl, rfl⟩
  | _ => exact ⟨.inert rfl rfl rfl rfl rfl, rfl⟩

theorem Updates.after {s : Publisher} {f : Publication → Publication}
    (first : Moves [] [] net net') (second : Updates s f net' net'') : Updates s f net net'' := by
  refine ⟨fun k => ?_, fun k => (second.made k).trans (first.made k), fun reg => ?_⟩
  · rw [second.publication, first.same]
  · rw [second.copies]
    exact first.copies reg

theorem Makes.after {s : Publisher} {b : Publication} (first : Moves [] [] net net')
    (second : Makes s b net' net'') : Makes s b net net'' := by
  refine ⟨fun made => second.fresh ((first.made s).mpr made), fun k => ?_, fun k => ?_,
    fun reg => ?_⟩
  · rw [second.publication, first.same]
  · rw [second.made, first.made]
  · rw [second.copies]
    exact first.copies reg

theorem effect_recalculated {id : ObservableId} {outcome : Outcome}
    (finding : task.finding? net = some (.observable id, outcome.toValue)) :
    Effect net task (net.conclude (.ok outcome) (.recalculation id)) := by
  have stopped : Moves [] [] net
      (net.modifyObservable id fun o => { o with evaluating := false }) :=
    .modifyObservable net id fun _ => rfl
  have own : task.keeping = [] := by
    cases task with
    | adopt => cases finding
    | _ => rfl
  show Effect net task
    ((net.modifyObservable id fun o => { o with evaluating := false }).publish id outcome.toValue)
  refine publish_cases (fun known => ?_) fun o found active different => ?_
  · refine .nothing (uneventful_of_known finding fun b there => ?_) own stopped
      (List.forall_mem_nil _)
    exact forall_observable (P := fun b => b.disposed = true ∨ b.value.identical _ = true) known b
      ((stopped.same _).trans there)
  · have here := (stopped.same _).symm.trans (publication?_observable found)
    exact .stores finding here active different
      (.after stopped (.modifyObservable _ id fun _ => rfl)) rfl (silent_singleton trivial)

theorem effect_refresh (net : Network) (id : BindingId) :
    Effect net (.notify (.refresh id)) (net.refresh id) := by
  have finds {b : Binding} (found : net.bindings.find? id = some b) :
      (Task.notify (.refresh id)).finding? net =
        some (.binding id, (net.lookup? b.store b.key).getD .null) := by
    simp only [Task.finding?, found, Option.map_some]
  refine refresh_cases (fun known => ?_) fun b v found same active different => ?_
  · refine .nothing ?_ rfl (.of_eq rfl) (List.forall_mem_nil _)
    cases found : net.bindings.find? id with
    | none =>
        refine uneventful_of_none ?_ rfl rfl
        simp only [Task.finding?, found, Option.map_none]
    | some b =>
        refine uneventful_of_known (finds found) fun _ there => ?_
        obtain rfl := Option.some.inj ((publication?_binding found).symm.trans there)
        exact known b found
  · exact .stores (same ▸ finds found) (publication?_binding found) active different
      (.modifyBinding net id fun _ => rfl) (List.append_nil _).symm (List.forall_mem_nil _)

/-- What a run finds when it has come to its end and nothing else waits for it. -/
theorem finding?_run {outcome : Outcome} {r : Run} (net : Network) (alone : r.callers = [])
    (ended : r.activation.code[r.activation.frame.next]? = none)
    (result : r.activation.frame.outcome = outcome) :
    (Task.run r).finding? net = match r.completion with
      | .recalculation id => some (.observable id, outcome.toValue)
      | _ => none := by
  simp only [Task.finding?, Task.ending?, alone, ended, ← result]
  cases r.completion <;> rfl

theorem effect_conclude {outcome : Outcome} {r : Run} (blank : r.completion.Blank)
    (alone : r.callers = []) (ended : r.activation.code[r.activation.frame.next]? = none)
    (result : r.activation.frame.outcome = outcome) :
    Effect net (.run r) (net.conclude (.ok outcome) r.completion) := by
  have finding := finding?_run net alone ended result
  cases completion : r.completion with
  | recalculation id =>
      rw [completion] at finding
      exact effect_recalculated finding
  | creation name draft =>
      rw [completion] at finding
      have drafted : draft.publication.Blank := by
        rw [completion] at blank
        exact blank.1
      have returned : Moves [] [] net { net with returned := some (.ok outcome) } :=
        .inert rfl rfl rfl rfl rfl
      have made := Makes.addObservable { net with returned := some (.ok outcome) } name
        { draft with value := outcome.toValue }
      exact .makes (uneventful_of_none finding rfl rfl) blank (.after returned made)
        ⟨drafted.empty, drafted.plain⟩ (listens_watched _ _)
        (List.forall_mem_nil _)
  | _ =>
      rw [completion] at finding
      exact .nothing (uneventful_of_none finding rfl rfl) rfl (.inert rfl rfl rfl rfl rfl)
        (List.forall_mem_nil _)

theorem effect_run {r : Run} (blank : r.completion.Blank) :
    Effect net (.run r) (net.advance r) := by
  have unfinished (going : ∀ f, (Task.run r).ending? = some (.ok f) → r.callers ≠ []) :
      net.Uneventful (.run r) := by
    refine uneventful_of_none ?_ rfl rfl
    simp only [Task.finding?]
    split
    · rename_i alone _ ended
      exact (going _ ended alone).elim
    · rfl
  refine advance_cases (fun i next => ?_) (fun caller others _ waiting => ?_) fun ended alone => ?_
  · refine .nothing (unfinished fun f ended => ?_) rfl (.of_eq rfl) (silent_singleton blank)
    simp [Task.ending?, next] at ended
  · refine .nothing (unfinished fun _ _ => ?_) rfl (.of_eq rfl) (silent_singleton blank)
    exact waiting ▸ List.cons_ne_nil caller others
  · exact effect_conclude blank alone ended rfl

theorem effect_proceed {r : Run} (script : Script Frame) (blank : r.completion.Blank) :
    Effect net (.proceed r script) (net.proceed r script) := by
  have uneventful : net.Uneventful (.proceed r script) := uneventful_of_none rfl rfl rfl
  refine (fun ⟨inert, silent⟩ => .nothing uneventful rfl inert silent :
    Moves [] [] net (net.proceed r script).1 ∧ (∀ t ∈ (net.proceed r script).2, t.Silent) → _) ?_
  have failing (failure : Failure) :
      Moves [] [] net (net.conclude (.error failure) r.completion).1 ∧
        ∀ t ∈ (net.conclude (.error failure) r.completion).2, t.Silent := by
    obtain ⟨inert, done⟩ := conclude_error_nothing net failure r.completion
    exact ⟨inert, done ▸ List.forall_mem_nil _⟩
  cases script with
  | done f => exact ⟨.inert rfl rfl rfl rfl rfl, silent_singleton blank⟩
  | fail e => exact failing (.runtime e)
  | ask request next =>
      show Moves [] [] net (net.proceed r (.ask request next)).1 ∧
        ∀ t ∈ (net.proceed r (.ask request next)).2, t.Silent
      refine ask_cases (fun _ => ⟨.of_eq rfl, silent_singleton blank⟩)
        (fun _ _ _ _ answered _ => ⟨.answer answered, ?_⟩)
        fun _ _ _ answered _ => ⟨.answer answered, ?_⟩
      · exact List.forall_mem_append.mpr
          ⟨silent_notify _, List.forall_mem_cons.mpr ⟨trivial, silent_singleton blank⟩⟩
      · exact List.forall_mem_append.mpr ⟨silent_notify _, silent_singleton blank⟩
  | invoke id argument next =>
      show Moves [] [] net (net.invoke r id argument next).1 ∧
        ∀ t ∈ (net.invoke r id argument next).2, t.Silent
      refine invoke_cases (fun _ _ => ⟨?_, silent_singleton blank⟩) (fun _ _ => failing _)
        (fun _ _ => ⟨?_, silent_singleton blank⟩) fun _ => ⟨?_, silent_singleton blank⟩
      all_goals exact .inert rfl rfl rfl rfl rfl

theorem effect_notify (callback : Callback) :
    Effect net (.notify callback) (net.notify callback) := by
  cases callback with
  | report label action =>
      obtain ⟨inert, silent⟩ := act_nothing (net.report (.changed label)) label .null action
      have reported : Moves [] [] net (net.report (.changed label)) := .inert rfl rfl rfl rfl rfl
      exact .nothing (uneventful_of_none rfl rfl rfl) rfl (reported.after inert) silent
  | refresh id => exact effect_refresh net id
  | recalculate id =>
      have uneventful : net.Uneventful (.notify (.recalculate id)) := uneventful_of_none rfl rfl rfl
      show Effect net (.notify (.recalculate id)) (net.recalculate id)
      refine recalculate_cases (fun _ => ?_) fun _ _ _ _ => ?_
      · exact .nothing uneventful rfl (.of_eq rfl) (List.forall_mem_nil _)
      · exact .nothing uneventful rfl (.modifyObservable net id fun _ => rfl)
          (silent_singleton trivial)

variable {op : Operation} {delivered : Value} {label? : Option String}

theorem effect_silent {followed : Followed}
    (uneventful : net.Uneventful (.operate op delivered label?))
    (inert : Moves [] [] net followed.1) (silent : ∀ t ∈ followed.2, t.Silent) :
    Effect net (.operate op delivered label?) followed :=
  .nothing uneventful rfl inert silent

/-- Whoever watches stores has no seat. -/
theorem effect_keep (uneventful : net.Uneventful (.operate op delivered label?))
    {made : Subscription × Network} (inert : Moves [] [] net made.2) (listens : made.1.Listens)
    (label : String) : Effect net (.operate op delivered label?) (keep label made) :=
  .moves uneventful (inert.after (.adopt made.2 label made.1))
    (fun s n => listens.count s n) (List.forall_mem_nil _)

theorem effect_start (uneventful : net.Uneventful (.operate op delivered label?))
    {source : Source} {activation : Code → Activation} {completion : Code → Completion}
    (blank : ∀ code, (completion code).Blank) :
    Effect net (.operate op delivered label?) (net.start source activation completion) := by
  refine start_cases (fun code _ => ?_) fun e _ => ?_
  · exact effect_silent uneventful (.of_eq rfl) (silent_singleton (blank code))
  · obtain ⟨inert, done⟩ := conclude_error_nothing net (.compile e) (completion [])
    exact effect_silent uneventful inert (done ▸ List.forall_mem_nil _)

theorem effect_idle (uneventful : net.Uneventful (.operate op delivered label?)) :
    Effect net (.operate op delivered label?) (net, []) :=
  effect_silent uneventful (.of_eq rfl) (List.forall_mem_nil _)

theorem effect_withObservable {name : String} {f : ObservableId → Followed}
    (unknown : net.observableNames.find? name = none →
      net.Uneventful (.operate op delivered label?))
    (known : ∀ id, net.observableNames.find? name = some id →
      Effect net (.operate op delivered label?) (f id)) :
    Effect net (.operate op delivered label?) (net.withObservable name f) :=
  withObservable_cases (fun missing => effect_idle (unknown missing)) known

theorem effect_withBinding {name : String} {f : BindingId → Followed}
    (unknown : net.bindingNames.find? name = none →
      net.Uneventful (.operate op delivered label?))
    (known : ∀ id, net.bindingNames.find? name = some id →
      Effect net (.operate op delivered label?) (f id)) :
    Effect net (.operate op delivered label?) (net.withBinding name f) :=
  withBinding_cases (fun missing => effect_idle (unknown missing)) known

theorem effect_subscribeObservable {id : ObservableId} {observer : Observer}
    (subscribing : Task.subscribing? net (.operate op delivered label?) =
      some (.observable id, observer)) :
    Effect net (.operate op delivered label?) (net.subscribeObservable id observer) := by
  refine subscribeObservable_cases (fun missing => ?_) (fun o found ended => ?_)
    fun o found active => ?_
  · refine effect_idle (uneventful_of_late subscribing (forall_observable fun _ found => ?_))
    exact nomatch missing.symm.trans found
  · refine .late (uneventful_of_late subscribing fun _ there => ?_) subscribing
      (publication?_observable found) ended (.of_eq rfl) rfl
    obtain rfl := Option.some.inj ((publication?_observable found).symm.trans there)
    exact ended
  · exact .seats subscribing (publication?_observable found) active
      (.modifyObservable net id fun _ => rfl) rfl

theorem effect_subscribeBinding {id : BindingId} {observer : Observer}
    (subscribing : Task.subscribing? net (.operate op delivered label?) =
      some (.binding id, observer)) :
    Effect net (.operate op delivered label?) (net.subscribeBinding id observer) := by
  refine subscribeBinding_cases (fun missing => ?_) (fun b found ended => ?_)
    fun b found active => ?_
  · refine effect_idle (uneventful_of_late subscribing (forall_binding fun _ found => ?_))
    exact nomatch missing.symm.trans found
  · refine .late (uneventful_of_late subscribing fun _ there => ?_) subscribing
      (publication?_binding found) ended (.of_eq rfl) rfl
    obtain rfl := Option.some.inj ((publication?_binding found).symm.trans there)
    exact ended
  · exact .seats subscribing (publication?_binding found) active
      (.modifyBinding net id fun _ => rfl) rfl

theorem effect_disposeObservable (upstream : net.Upstream) {id : ObservableId}
    (disposing : Task.disposing? net (.operate op delivered label?) = some (.observable id)) :
    Effect net (.operate op delivered label?) (net.disposeObservable id) := by
  refine disposeObservable_cases (fun gone => ?_) fun o found active => ?_
  · exact effect_idle (uneventful_of_disposed disposing (forall_observable gone))
  · have here := publication?_observable found
    exact .closes disposing here active
      ((Updates.modifyObservable net id fun _ => rfl).drop (upstream _ _ here)) rfl

theorem effect_disposeBinding (upstream : net.Upstream) {id : BindingId}
    (disposing : Task.disposing? net (.operate op delivered label?) = some (.binding id)) :
    Effect net (.operate op delivered label?) (net.disposeBinding id) := by
  refine disposeBinding_cases (fun gone => ?_) fun b found active => ?_
  · exact effect_idle (uneventful_of_disposed disposing (forall_binding gone))
  · have here := publication?_binding found
    exact .closes disposing here active
      ((Updates.modifyBinding net id fun _ => rfl).drop (upstream _ _ here)) rfl

theorem effect_runCommand (uneventful : net.Uneventful (.operate op delivered label?))
    (command : Command) (argument : Value) :
    Effect net (.operate op delivered label?) (net.runCommand command argument) := by
  cases command with
  | report label =>
      exact effect_silent uneventful (.inert rfl rfl rfl rfl rfl) (List.forall_mem_nil _)
  | reject text =>
      exact effect_silent uneventful (.inert rfl rfl rfl rfl rfl) (List.forall_mem_nil _)
  | program p =>
      exact effect_silent uneventful (.inert rfl rfl rfl rfl rfl) (silent_singleton trivial)

theorem effect_pushBinding (uneventful : net.Uneventful (.operate op delivered label?))
    (id : BindingId) (given : Value) :
    Effect net (.operate op delivered label?) (net.pushBinding id given) :=
  pushBinding_cases (fun _ => effect_idle uneventful) fun _ _ _ _ _ _ =>
    effect_silent uneventful (.inert rfl rfl rfl rfl rfl)
      (List.forall_mem_append.mpr ⟨silent_notify _, silent_singleton trivial⟩)

theorem effect_operate (upstream : net.Upstream) (op : Operation) (delivered : Value)
    (label? : Option String) :
    Effect net (.operate op delivered label?) (net.operate op delivered label?) := by
  cases op with
  | set | assign =>
      exact effect_silent (uneventful_of_none rfl rfl rfl) (.inert rfl rfl rfl rfl rfl)
        (silent_notify _)
  | ensure store key seed =>
      exact effect_silent (uneventful_of_none rfl rfl rfl) (.fetch net store [] key seed)
        (List.forall_mem_append.mpr ⟨silent_notify _, silent_singleton trivial⟩)
  | remove store key =>
      refine effect_silent (uneventful_of_none rfl rfl rfl) ?_
        (List.forall_mem_append.mpr ⟨silent_notify _, silent_singleton trivial⟩)
      show Moves [] [] net (net.remove store key).1
      exact remove_cases (fun _ => .of_eq rfl) fun _ => .inert rfl rfl rfl rfl rfl
  | clear =>
      exact effect_silent (uneventful_of_none rfl rfl rfl) (.inert rfl rfl rfl rfl rfl)
        (silent_notify _)
  | watch store key label action =>
      exact effect_keep (uneventful_of_none rfl rfl rfl) (.listenOn key _ (net.chain store) net)
        (listens_listenOn key _ _ net) label
  | watchAll store label action =>
      exact effect_keep (uneventful_of_none rfl rfl rfl) (.listen net store none _)
        (listens_listener store _) label
  | watchKey name label action =>
      have uneventful : net.Uneventful (.operate (.watchKey name label action) delivered label?) :=
        uneventful_of_none rfl rfl rfl
      exact watchKey_cases (fun _ => effect_idle uneventful) fun store key _ =>
        effect_keep uneventful (.listenOn key _ (net.chain store) net)
          (listens_listenOn key _ _ net) label
  | combine labels label =>
      obtain ⟨gone, moves⟩ := Moves.combine net labels label
      exact .moves (uneventful_of_none rfl rfl rfl) moves (fun _ _ => rfl) (List.forall_mem_nil _)
  | unsubscribe label =>
      exact .moves (uneventful_of_none rfl rfl rfl) (.unsubscribe net label) (fun _ _ => rfl)
        (List.forall_mem_nil _)
  | execute source store host parameter =>
      refine effect_start (uneventful_of_none rfl rfl rfl) fun code => ?_
      cases label? <;> trivial
  | observe name source store host parameter =>
      exact effect_start (uneventful_of_none rfl rfl rfl) fun code => ⟨⟨rfl, rfl⟩, rfl⟩
  | setParameter name v =>
      exact effect_withObservable (fun _ => uneventful_of_none rfl rfl rfl) fun id _ =>
        effect_silent (uneventful_of_none rfl rfl rfl) (.modifyObservable net id fun _ => rfl)
          (silent_singleton trivial)
  | setConverter name converter =>
      exact effect_withObservable (fun _ => uneventful_of_none rfl rfl rfl) fun id _ =>
        .converts (uneventful_of_none rfl rfl rfl) rfl (.modifyObservable net id fun _ => rfl)
          (silent_singleton trivial)
  | subscribe name label plain action =>
      refine effect_withObservable (fun missing => uneventful_of_none rfl rfl ?_) fun id found => ?_
      · simp only [Task.subscribing?, missing, Option.map_none]
      · exact effect_subscribeObservable (by simp only [Task.subscribing?, found, Option.map_some])
  | dispose name =>
      refine effect_withObservable (fun missing => uneventful_of_none rfl ?_ rfl) fun id found => ?_
      · simp only [Task.disposing?, missing, Option.map_none]
      · exact effect_disposeObservable upstream
          (by simp only [Task.disposing?, found, Option.map_some])
  | bind name store key =>
      exact effect_silent (uneventful_of_none rfl rfl rfl) (.fetch net store [] key .null)
        (List.forall_mem_append.mpr ⟨silent_notify _, silent_singleton ⟨rfl, rfl⟩⟩)
  | push name v =>
      exact effect_withBinding (fun _ => uneventful_of_none rfl rfl rfl) fun id _ =>
        effect_pushBinding (uneventful_of_none rfl rfl rfl) id v
  | setTarget name converter =>
      exact effect_withBinding (fun _ => uneventful_of_none rfl rfl rfl) fun id _ =>
        .converts (uneventful_of_none rfl rfl rfl) rfl (.modifyBinding net id fun _ => rfl)
          (List.forall_mem_nil _)
  | setSource name converter =>
      exact effect_withBinding (fun _ => uneventful_of_none rfl rfl rfl) fun id _ =>
        effect_silent (uneventful_of_none rfl rfl rfl) (.modifyBinding net id fun _ => rfl)
          (List.forall_mem_nil _)
  | subscribeBinding name label plain action =>
      refine effect_withBinding (fun missing => uneventful_of_none rfl rfl ?_) fun id found => ?_
      · simp only [Task.subscribing?, missing, Option.map_none]
      · exact effect_subscribeBinding (by simp only [Task.subscribing?, found, Option.map_some])
  | disposeBinding name =>
      refine effect_withBinding (fun missing => uneventful_of_none rfl ?_ rfl) fun id found => ?_
      · simp only [Task.disposing?, missing, Option.map_none]
      · exact effect_disposeBinding upstream
          (by simp only [Task.disposing?, found, Option.map_some])
  | forget | nameKey | nameCommand =>
      exact effect_silent (uneventful_of_none rfl rfl rfl) (.inert rfl rfl rfl rfl rfl)
        (List.forall_mem_nil _)
  | run name parameter =>
      have uneventful : net.Uneventful (.operate (.run name parameter) delivered label?) :=
        uneventful_of_none rfl rfl rfl
      exact run_cases (fun _ => effect_idle uneventful) fun command _ =>
        effect_runCommand uneventful command parameter

/-- These are all the effects there are. -/
theorem effect_perform (upstream : net.Upstream) {task : Task} (blank : task.Blank) :
    Effect net task (task.perform net) := by
  cases task with
  | operate op delivered label? => exact effect_operate upstream op delivered label?
  | notify callback => exact effect_notify callback
  | deliver observer v =>
      have tells : (Task.deliver observer v).Tells := trivial
      obtain ⟨inert, silent⟩ := tell_nothing tells
      exact .nothing (uneventful_of_tells tells) rfl inert silent
  | complete observer =>
      have tells : (Task.complete observer).Tells := trivial
      obtain ⟨inert, silent⟩ := tell_nothing tells
      exact .nothing (uneventful_of_tells tells) rfl inert silent
  | run r => exact effect_run blank
  | proceed r script => exact effect_proceed script blank
  | adopt label sub =>
      exact .moves (uneventful_of_none rfl rfl rfl) (.adopt net label sub) (fun _ _ => rfl)
        (List.forall_mem_nil _)
  | attach name b =>
      exact .makes (uneventful_of_none rfl rfl rfl) blank (.attach net name b)
        ⟨blank.empty, blank.plain⟩ (listens_listenOn _ _ _ net) (List.forall_mem_nil _)
  | leave | letGo =>
      exact .nothing (uneventful_of_none rfl rfl rfl) rfl (.inert rfl rfl rfl rfl rfl)
        (List.forall_mem_nil _)

end Network

end SlotScript
