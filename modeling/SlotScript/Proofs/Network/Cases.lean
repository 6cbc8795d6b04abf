import SlotScript.Network.Release
import SlotScript.Proofs.Machine.Run

/-! # The cases of what follows

A task is done by functions that look something up, compare it, and go one of a few ways. Each of
them is taken apart here once, with what is known on each way: whatever holds of all ways holds of
what follows.
-/

namespace SlotScript

/-- What is left to do of a run when its request has been answered. An instruction that is complete
lets go of what it had at hand. -/
def Run.resume (r : Run) (request : Request) : Script Frame → List Task
  | .done frame =>
    [.letGo (Holding.ofValues (Network.atHand request)), .run (r.standingAt frame)]
  | script => [.proceed r script]

namespace Network

variable {net : Network}

@[elab_as_elim]
theorem remove_cases {motive : Changed → Prop} {store : StoreId} {key : String}
    (absent : net.slot? store key = none → motive (net, []))
    (erases : (net.slot? store key).isSome →
      motive (net.modifyStore store fun s => { s with slots := s.slots.erase key },
        net.callbacksFor store (some key))) :
    motive (net.remove store key) := by
  unfold remove
  split
  case isTrue there => exact erases there
  case isFalse gone => exact absent (by simpa using gone)

@[elab_as_elim]
theorem fetch_cases {motive : Value × Changed → Prop} {store : StoreId} {fallback : List StoreId}
    {key : String} {seed : Value}
    (finds : ∀ v, ((store :: fallback).findSome? fun scope => net.lookup? scope key) = some v →
      motive (v, net, []))
    (seeds : ((store :: fallback).findSome? fun scope => net.lookup? scope key) = none →
      motive (seed, net.set store key seed)) :
    motive (net.fetch store fallback key seed) := by
  unfold fetch
  split
  case h_1 v found => exact finds v found
  case h_2 missing => exact seeds missing

/-- A change of an element that comes to an end: the element is there, or the change is refused. -/
theorem replace_eq_some {store : StoreId} {fallback : List StoreId} {key : String}
    {collection index v : Value} {x : Except RuntimeError Unit × Changed}
    (answered : net.replace store fallback key collection index v = some x) :
    (∃ object, net.changeElement key collection index v = some (.ok object) ∧
      x = (.ok (), (net.setObject collection object).assign
        ((net.setObject collection object).holder store fallback key) key collection)) ∨
    ∃ e, net.changeElement key collection index v = some (.error e) ∧ x = (.error e, net, []) := by
  unfold replace at answered
  split at answered
  case h_1 object changed => exact .inl ⟨object, changed, (Option.some.inj answered).symm⟩
  case h_2 e failed => exact .inr ⟨e, failed, (Option.some.inj answered).symm⟩
  case h_3 => cases answered

/-- An answered request has changed nothing, or one slot, or an element of a collection and the slot
of that. -/
@[elab_as_elim]
theorem answer_cases {motive : Changed → Prop} {store : StoreId} {fallback : List StoreId}
    {r : Request} {x : r.Answer × Changed} (answered : net.answer store fallback r = some x)
    (nothing : motive (net, [])) (writes : ∀ scope key v, motive (net.set scope key v))
    (changes : ∀ key collection index v object scope, r = .replace key collection index v →
      net.changeElement key collection index v = some (.ok object) →
      motive ((net.setObject collection object).set scope key collection)) : motive x.2 := by
  cases r with
  | fetch key seed =>
      cases answered
      exact fetch_cases (fun _ _ => nothing) fun _ => writes store key seed
  | assign key v =>
      cases answered
      exact writes _ key v
  | define key v =>
      cases answered
      exact writes store key v
  | concatText | element =>
      cases answered
      exact nothing
  | replace key collection index v =>
      obtain ⟨object, changed, rfl⟩ | ⟨e, -, rfl⟩ := replace_eq_some answered
      · exact changes key collection index v object _ rfl changed
      · exact nothing

/-- A request touches slots and objects and nothing else. -/
theorem answer_keeps {α : Type} (f : Network → α)
    (keeps : ∀ (net : Network) stores objects, f { net with stores, objects } = f net)
    {store : StoreId} {fallback : List StoreId} {r : Request} {x : r.Answer × Changed}
    (answered : net.answer store fallback r = some x) : f x.2.1 = f net := by
  refine answer_cases answered rfl (fun _ _ _ => keeps net _ net.objects) ?_
  intro key collection index v object scope _ _
  cases collection <;> exact keeps net _ _

@[elab_as_elim]
theorem unsubscribe_cases {motive : Network → Prop} {label : String}
    (unknown : net.subscriptions.find? label = none → motive net)
    (drops : ∀ sub, net.subscriptions.find? label = some sub →
      motive ({ net with subscriptions := net.subscriptions.erase label }.drop sub)) :
    motive (net.unsubscribe label) := by
  unfold unsubscribe
  split
  case h_1 sub found => exact drops sub found
  case h_2 missing => exact unknown missing

@[elab_as_elim]
theorem releaseObservable_cases {motive : Network → Prop} {id : ObservableId}
    (missing : net.observables.find? id = none → motive net)
    (erases : ∀ o, net.observables.find? id = some o →
      motive ({ net with observables := net.observables.erase id }.drop o.watching)) :
    motive (net.releaseObservable id) := by
  unfold releaseObservable
  split
  case h_1 o found => exact erases o found
  case h_2 none => exact missing none

@[elab_as_elim]
theorem releaseBinding_cases {motive : Network → Prop} {id : BindingId}
    (missing : net.bindings.find? id = none → motive net)
    (erases : ∀ b, net.bindings.find? id = some b →
      motive ({ net with bindings := net.bindings.erase id }.drop b.watching)) :
    motive (net.releaseBinding id) := by
  unfold releaseBinding
  split
  case h_1 b found => exact erases b found
  case h_2 none => exact missing none

theorem releaseBindings_induction {P : Network → Prop} (h : P net)
    (binding : ∀ net id, P net → P (net.releaseBinding id)) : P net.releaseBindings :=
  List.foldlRecOn _ _ h fun net before id _ => binding net id before

/-- What holds whoever is released holds after a release. -/
theorem release_induction {P : Network → Prop} (h : P net)
    (binding : ∀ net id, P net → P (net.releaseBinding id))
    (observable : ∀ net id, P net → P (net.releaseObservable id)) (agenda : List Task) :
    P (net.release agenda) := by
  have bindings : P net.releaseBindings := releaseBindings_induction h binding
  show P (net.releaseBindings.releaseObservables agenda)
  unfold releaseObservables
  split
  · exact bindings
  · exact List.foldlRecOn _ _ bindings fun net before id _ => observable net id before

variable {motive : Followed → Prop}

@[elab_as_elim]
theorem withObservable_cases {name : String} {f : ObservableId → Followed}
    (unknown : net.observableNames.find? name = none → motive (net, []))
    (known : ∀ id, net.observableNames.find? name = some id → motive (f id)) :
    motive (net.withObservable name f) := by
  unfold withObservable
  split
  case h_1 id found => exact known id found
  case h_2 missing => exact unknown missing

@[elab_as_elim]
theorem publish_cases {id : ObservableId} {v : Value}
    (known : (∀ o, net.observables.find? id = some o →
      o.disposed = true ∨ o.value.identical v = true) → motive (net, []))
    (news : ∀ o, net.observables.find? id = some o → o.disposed = false →
      o.value.identical v = false → motive (net.modifyObservable id fun o => { o with value := v },
        o.observers.current.map (.deliver · (net.observableValue { o with value := v })) ++
          [.letGo [.observable id]])) :
    motive (net.publish id v) := by
  unfold publish
  split
  case h_1 o found =>
    split
    case isTrue same => exact known (by simpa [found] using same)
    case isFalse new =>
      obtain ⟨active, different⟩ : o.disposed = false ∧ o.value.identical v = false := by
        simpa using new
      exact news o found active different
  case h_2 missing => exact known (by simp [missing])

@[elab_as_elim]
theorem recalculate_cases {id : ObservableId}
    (idle : (∀ o, net.observables.find? id = some o → o.disposed = true ∨ o.evaluating = true) →
      motive (net, []))
    (starts : ∀ o, net.observables.find? id = some o → o.disposed = false → o.evaluating = false →
      motive (net.modifyObservable id fun o => { o with evaluating := true },
        [.run ⟨net.activate o.code o.store o.host o.parameter, [], .recalculation id⟩])) :
    motive (net.recalculate id) := by
  unfold recalculate
  split
  case h_1 o found =>
    split
    case isTrue busy => exact idle (by simpa [found] using busy)
    case isFalse free =>
      obtain ⟨active, stopped⟩ : o.disposed = false ∧ o.evaluating = false := by simpa using free
      exact starts o found active stopped
  case h_2 missing => exact idle (by simp [missing])

@[elab_as_elim]
theorem disposeObservable_cases {id : ObservableId}
    (gone : (∀ o, net.observables.find? id = some o → o.disposed = true) → motive (net, []))
    (ends : ∀ o, net.observables.find? id = some o → o.disposed = false →
      motive ((net.modifyObservable id fun o =>
        { o with disposed := true, observers := o.observers.cleared, watching := [] }).drop
          o.watching, o.observers.current.map .complete)) :
    motive (net.disposeObservable id) := by
  unfold disposeObservable
  split
  case h_1 o found =>
    split
    case isTrue disposed => exact gone (by simpa [found] using disposed)
    case isFalse active => exact ends o found (Bool.not_eq_true _ ▸ active)
  case h_2 missing => exact gone (by simp [missing])

@[elab_as_elim]
theorem subscribeObservable_cases {id : ObservableId} {observer : Observer}
    (missing : net.observables.find? id = none → motive (net, []))
    (late : ∀ o, net.observables.find? id = some o → o.disposed = true →
      motive (net, [.complete observer, .adopt observer.label []]))
    (seats : ∀ o, net.observables.find? id = some o → o.disposed = false →
      motive (net.modifyObservable id fun o => { o with observers := o.observers.add observer },
        [.deliver observer (net.observableValue o),
          .adopt observer.label [.observer id o.observers.next]])) :
    motive (net.subscribeObservable id observer) := by
  unfold subscribeObservable
  split
  case h_1 o found =>
    split
    case isTrue disposed => exact late o found disposed
    case isFalse active => exact seats o found (Bool.not_eq_true _ ▸ active)
  case h_2 none => exact missing none

@[elab_as_elim]
theorem withBinding_cases {name : String} {f : BindingId → Followed}
    (unknown : net.bindingNames.find? name = none → motive (net, []))
    (known : ∀ id, net.bindingNames.find? name = some id → motive (f id)) :
    motive (net.withBinding name f) := by
  unfold withBinding
  split
  case h_1 id found => exact known id found
  case h_2 missing => exact unknown missing

@[elab_as_elim]
theorem refresh_cases {id : BindingId}
    (known : (∀ b, net.bindings.find? id = some b → b.disposed = true ∨
      b.value.identical ((net.lookup? b.store b.key).getD .null) = true) → motive (net, []))
    (news : ∀ b v, net.bindings.find? id = some b → v = (net.lookup? b.store b.key).getD .null →
      b.disposed = false → b.value.identical v = false →
      motive (net.modifyBinding id fun b => { b with value := v },
        b.observers.current.map (.deliver · (net.bindingValue { b with value := v })))) :
    motive (net.refresh id) := by
  unfold refresh
  split
  case h_1 b found =>
    dsimp only
    split
    case isTrue same => exact known (by simpa [found] using same)
    case isFalse new =>
      obtain ⟨active, different⟩ : b.disposed = false ∧
          b.value.identical ((net.lookup? b.store b.key).getD .null) = false := by
        simpa using new
      exact news b _ found rfl active different
  case h_2 missing => exact known (by simp [missing])

@[elab_as_elim]
theorem pushBinding_cases {id : BindingId} {given : Value}
    (known : (∀ b, net.bindings.find? id = some b → b.disposed = true ∨
      (Converter.convert b.source net.sizes given).identical b.value = true) → motive (net, []))
    (writes : ∀ b v, net.bindings.find? id = some b →
      v = Converter.convert b.source net.sizes given → b.disposed = false →
      v.identical b.value = false →
      motive ((net.assign b.store b.key v).followed.holding (Holding.ofValue given))) :
    motive (net.pushBinding id given) := by
  unfold pushBinding
  split
  case h_1 b found =>
    dsimp only
    split
    case isTrue same => exact known (by simpa [found] using same)
    case isFalse new =>
      obtain ⟨active, different⟩ : b.disposed = false ∧
          (Converter.convert b.source net.sizes given).identical b.value = false := by
        simpa using new
      exact writes b _ found rfl active different
  case h_2 missing => exact known (by simp [missing])

@[elab_as_elim]
theorem disposeBinding_cases {id : BindingId}
    (gone : (∀ b, net.bindings.find? id = some b → b.disposed = true) → motive (net, []))
    (ends : ∀ b, net.bindings.find? id = some b → b.disposed = false →
      motive ((net.modifyBinding id fun b =>
        { b with disposed := true, observers := b.observers.cleared, watching := [] }).drop
          b.watching, b.observers.current.map .complete)) :
    motive (net.disposeBinding id) := by
  unfold disposeBinding
  split
  case h_1 b found =>
    split
    case isTrue disposed => exact gone (by simpa [found] using disposed)
    case isFalse active => exact ends b found (Bool.not_eq_true _ ▸ active)
  case h_2 missing => exact gone (by simp [missing])

@[elab_as_elim]
theorem subscribeBinding_cases {id : BindingId} {observer : Observer}
    (missing : net.bindings.find? id = none → motive (net, []))
    (late : ∀ b, net.bindings.find? id = some b → b.disposed = true →
      motive (net, [.complete observer, .adopt observer.label []]))
    (seats : ∀ b, net.bindings.find? id = some b → b.disposed = false →
      motive (net.modifyBinding id fun b => { b with observers := b.observers.add observer },
        [.deliver observer (net.bindingValue b),
          .adopt observer.label [.bindingObserver id b.observers.next]])) :
    motive (net.subscribeBinding id observer) := by
  unfold subscribeBinding
  split
  case h_1 b found =>
    split
    case isTrue disposed => exact late b found disposed
    case isFalse active => exact seats b found (Bool.not_eq_true _ ▸ active)
  case h_2 none => exact missing none

@[elab_as_elim]
theorem start_cases {source : Source} {activation : Code → Activation}
    {completion : Code → Completion}
    (runs : ∀ code, source.compile = .ok code →
      motive (net, [.run ⟨activation code, [], completion code⟩]))
    (refused : ∀ e, source.compile = .error e →
      motive (net.conclude (.error (.compile e)) (completion []))) :
    motive (net.start source activation completion) := by
  unfold start
  split
  case h_1 code compiled => exact runs code compiled
  case h_2 e failed => exact refused e failed

@[elab_as_elim]
theorem invoke_cases {r : Run} {id : ObjectId} {argument : Value} {rest : Script Frame}
    (reports : ∀ label, net.command? id = some (.report label) →
      motive (net.report (.called label (net.portrait argument)), [.proceed r rest]))
    (rejects : ∀ text, net.command? id = some (.reject text) →
      motive (net.conclude (.error (.runtime (.command text))) r.completion))
    (calls : ∀ p, net.command? id = some (.program p) →
      motive (net, [.run { r with
        activation := net.activate p.code p.store p.host argument
        callers := ⟨r.activation, id, rest⟩ :: r.callers }]))
    (skips : net.command? id = none → motive (net, [.proceed r rest])) :
    motive (net.invoke r id argument rest) := by
  unfold invoke
  split
  case h_1 label found => exact reports label found
  case h_2 text found => exact rejects text found
  case h_3 p found => exact calls p found
  case h_4 none => exact skips none

theorem proceed_answered {net' : Network} {r : Run} {request : Request}
    {next : request.Answer → Script Frame} {answer : request.Answer} {callbacks : List Callback}
    (answered : net.answer r.activation.store r.activation.fallback request =
      some (answer, net', callbacks)) :
    net.proceed r (.ask request next) =
      (net', callbacks.map .notify ++ r.resume request (next answer)) := by
  simp only [proceed, answered]
  rfl

@[elab_as_elim]
theorem ask_cases {r : Run} {request : Request} {next : request.Answer → Script Frame}
    (waits : net.answer r.activation.store r.activation.fallback request = none →
      motive (net, [.proceed r (.ask request next)]))
    (completes : ∀ answer net' callbacks frame,
      net.answer r.activation.store r.activation.fallback request =
        some (answer, net', callbacks) → next answer = .done frame →
      motive (net', callbacks.map .notify ++
        [.letGo (Holding.ofValues (atHand request)), .run (r.standingAt frame)]))
    (continues : ∀ answer net' callbacks,
      net.answer r.activation.store r.activation.fallback request =
        some (answer, net', callbacks) → (∀ frame, next answer ≠ .done frame) →
      motive (net', callbacks.map .notify ++ [.proceed r (next answer)])) :
    motive (net.proceed r (.ask request next)) := by
  simp only [proceed]
  split
  case h_1 answer net' callbacks answered =>
    split
    case h_1 frame left => exact completes answer net' callbacks frame answered left
    case h_2 others => exact continues answer net' callbacks answered others
  case h_2 never => exact waits never

@[elab_as_elim]
theorem advance_cases {r : Run}
    (performs : ∀ i, r.activation.code[r.activation.frame.next]? = some i →
      motive (net, [.proceed r (i.perform r.activation.context r.activation.code.length
        { r.activation.frame with next := r.activation.frame.next + 1 })]))
    (returns : ∀ caller callers, r.activation.code[r.activation.frame.next]? = none →
      r.callers = caller :: callers →
      motive (net, [.proceed { r with activation := caller.activation, callers } caller.rest]))
    (concludes : r.activation.code[r.activation.frame.next]? = none → r.callers = [] →
      motive (net.conclude (.ok r.activation.frame.outcome) r.completion)) :
    motive (net.advance r) := by
  unfold advance
  dsimp only
  split
  case h_1 i next => exact performs i next
  case h_2 ended =>
    split
    case h_1 caller callers waiting => exact returns caller callers ended waiting
    case h_2 alone => exact concludes ended alone

/-- A run takes up the instruction at which it stands. -/
theorem perform_run_next {r : Run} {i : Instruction}
    (next : r.activation.code[r.activation.frame.next]? = some i) (net : Network) :
    (Task.run r).perform net =
      (net, [.proceed r (i.perform r.activation.context r.activation.code.length
        { r.activation.frame with next := r.activation.frame.next + 1 })]) := by
  simp only [Task.perform, advance, next]

/-- At the end of its code a run that nobody waits for is over. -/
theorem perform_run_last {r : Run} (ended : r.activation.code[r.activation.frame.next]? = none)
    (alone : r.callers = []) (net : Network) :
    (Task.run r).perform net = net.conclude (.ok r.activation.frame.outcome) r.completion := by
  simp only [Task.perform, advance, ended, alone]
  rfl

@[elab_as_elim]
theorem act_cases {label : String} {delivered : Value} {action : Option Operation}
    (records : action = none → motive (net, []))
    (skipped : ∀ op, action = some op → net.actingLimit ≤ net.acting →
      motive (net.report (.skipped label), []))
    (acts : ∀ op, action = some op → net.acting < net.actingLimit →
      motive ({ net with acting := net.acting + 1 },
        [.operate op delivered (some label), .leave])) :
    motive (net.act label delivered action) := by
  unfold act
  split
  case h_1 => exact records rfl
  case h_2 op =>
    split
    case isTrue full => exact skipped op rfl full
    case isFalse room => exact acts op rfl (Nat.lt_of_not_le room)

@[elab_as_elim]
theorem watchKey_cases {name label : String} {action : Option Operation} {delivered : Value}
    {label? : Option String} (unknown : net.keyNames.find? name = none → motive (net, []))
    (known : ∀ store key, net.keyNames.find? name = some (store, key) →
      motive (keep label (net.watch store key (.report label action)))) :
    motive (net.operate (.watchKey name label action) delivered label?) := by
  simp only [operate]
  split
  case h_1 store key found => exact known store key found
  case h_2 missing => exact unknown missing

@[elab_as_elim]
theorem run_cases {name : String} {parameter delivered : Value} {label? : Option String}
    (unknown : (net.commandNames.find? name).bind net.command? = none → motive (net, []))
    (known : ∀ command, (net.commandNames.find? name).bind net.command? = some command →
      motive (net.runCommand command parameter)) :
    motive (net.operate (.run name parameter) delivered label?) := by
  simp only [operate]
  split
  case h_1 command found => exact known command found
  case h_2 missing => exact unknown missing

end Network

end SlotScript
