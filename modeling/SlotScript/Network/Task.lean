import SlotScript.Network.Holding
import SlotScript.Network.Subscription

/-!
# Tasks

Everything that happens in a network happens in small steps. A task is one thing that is still to be
done; doing it changes the network and may bring up further tasks, which come before all others.
So a write tells its watchers before the run that wrote goes on, and a watcher that writes has its
own watchers told before the next one hears of the first write.

No task calls another one. What waits for a run to end is kept with the run, as its completion.
-/

namespace SlotScript

/-- A program on its way: its code, the store it runs on, and where it stands. -/
structure Activation where
  code : Code
  store : StoreId
  fallback : List StoreId
  context : Context
  frame : Frame

/-- What is done with the result of a run. -/
inductive Completion where
  /-- Keep it for whoever asked for the run. -/
  | answer
  /-- Report a failure of the action of a callback under its label. -/
  | action (label : String)
  | recalculation (observable : ObservableId)
  /-- Make an observable of the draft and name it, if there is a result. -/
  | creation (name : String) (draft : Observable)

/-- An activation that waits for the end of a command. -/
structure Caller where
  activation : Activation
  command : ObjectId
  /-- The rest of the instruction that ran the command. -/
  rest : Script Frame

/-- An activation with the ones that wait for it, innermost first. -/
structure Run where
  activation : Activation
  callers : List Caller
  completion : Completion

/-- The run with its innermost activation standing somewhere else. -/
def Run.standingAt (r : Run) (frame : Frame) : Run :=
  { r with activation := { r.activation with frame } }

inductive Task where
  /-- Do something to the network, as the action of a callback if there is a label. -/
  | operate (op : Operation) (delivered : Value) (label : Option String)
  | notify (callback : Callback)
  | deliver (observer : Observer) (v : Value)
  | complete (observer : Observer)
  | run (r : Run)
  /-- Go on with an instruction. -/
  | proceed (r : Run) (script : Script Frame)
  /-- Keep a subscription under a label. -/
  | adopt (label : String) (subscription : Subscription)
  /-- Start watching the key of a new binding and name it. -/
  | attach (name : String) (binding : Binding)
  /-- An action of a callback has come to its end. -/
  | leave
  /-- Nothing is left to be done, but up to this point something was held. -/
  | letGo (held : List Holding)

/-- A network after a task, and what is to be done next. -/
abbrev Followed := Network × List Task

def Changed.followed (changed : Changed) : Followed :=
  (changed.1, changed.2.map .notify)

/-- Holds something until all that follows is done. -/
def Followed.holding (followed : Followed) (held : List Holding) : Followed :=
  (followed.1, followed.2 ++ [.letGo held])

namespace Network

/-- The identity a program on a store runs for. -/
def selfValue (net : Network) (store : StoreId) (host : Option Host) : Value :=
  (host.bind fun h => h.current <|> h.root).getD (net.owner store)

/-- The start of a run. -/
def activate (net : Network) (code : Code) (store : StoreId) (host : Option Host)
    (parameter : Value) : Activation where
  code
  store
  fallback := (host.map Host.fallback).getD []
  context := ⟨parameter, net.selfValue store host⟩
  frame := .start

/-- The latest value of an observable as its observers see it. -/
def observableValue (net : Network) (o : Observable) : Value :=
  Converter.convert o.converter net.sizes o.value

/-- The value of a binding as its observers see it. -/
def bindingValue (net : Network) (b : Binding) : Value :=
  Converter.convert b.target net.sizes b.value

/-- Adds an observable that watches the keys its code may read and the clearing of its store, and
names it. -/
def addObservable (net : Network) (name : String) (o : Observable) : Network :=
  let id := net.nextObservable
  let callback := Callback.recalculate id
  let (keys, net) := watchKeys o.store callback o.code.readKeys net
  let (cleared, net) := net.listen o.store none callback
  { net with
    observables := net.observables.insert id { o with watching := keys ++ [cleared] }
    nextObservable := id + 1
    observableNames := net.observableNames.insert name id }.pin o.code.literals

/-- Keeps a newly computed value and delivers it, unless it is identical to the latest one. A
disposed observable keeps what it has. Until the last delivery the observable is held. -/
def publish (net : Network) (id : ObservableId) (v : Value) : Followed :=
  match net.observables.find? id with
  | some o =>
    if o.disposed || o.value.identical v then (net, [])
    else
      let shown := net.observableValue { o with value := v }
      (net.modifyObservable id fun o => { o with value := v },
        o.observers.current.map (.deliver · shown) ++ [.letGo [.observable id]])
  | none => (net, [])

/-- Starts running the code of an observable again, unless it is running. -/
def recalculate (net : Network) (id : ObservableId) : Followed :=
  match net.observables.find? id with
  | some o =>
    if o.disposed || o.evaluating then (net, [])
    else
      (net.modifyObservable id fun o => { o with evaluating := true },
        [.run ⟨net.activate o.code o.store o.host o.parameter, [], .recalculation id⟩])
  | none => (net, [])

/-- Stops watching and completes the observers subscribed right now. -/
def disposeObservable (net : Network) (id : ObservableId) : Followed :=
  match net.observables.find? id with
  | some o =>
    if o.disposed then (net, [])
    else
      let net := net.modifyObservable id fun o =>
        { o with disposed := true, observers := o.observers.cleared, watching := [] }
      (net.drop o.watching, o.observers.current.map .complete)
  | none => (net, [])

/-- Adds an observer and delivers the current value to it. One that comes too late is completed at
once. -/
def subscribeObservable (net : Network) (id : ObservableId) (observer : Observer) : Followed :=
  match net.observables.find? id with
  | some o =>
    if o.disposed then (net, [.complete observer, .adopt observer.label []])
    else
      (net.modifyObservable id fun o => { o with observers := o.observers.add observer },
        [.deliver observer (net.observableValue o),
          .adopt observer.label [.observer id o.observers.next]])
  | none => (net, [])

/-- Reads the key of a binding again and delivers its value if it changed. -/
def refresh (net : Network) (id : BindingId) : Followed :=
  match net.bindings.find? id with
  | some b =>
    let v := (net.lookup? b.store b.key).getD .null
    if b.disposed || b.value.identical v then (net, [])
    else
      let shown := net.bindingValue { b with value := v }
      (net.modifyBinding id fun b => { b with value := v },
        b.observers.current.map (.deliver · shown))
  | none => (net, [])

/-- Writes a value from the bound side to where the key is defined, unless it is identical to the
latest one seen of it. The value as it was given is held until everyone is told. -/
def pushBinding (net : Network) (id : BindingId) (given : Value) : Followed :=
  match net.bindings.find? id with
  | some b =>
    let v := Converter.convert b.source net.sizes given
    if b.disposed || v.identical b.value then (net, [])
    else (net.assign b.store b.key v).followed.holding (Holding.ofValue given)
  | none => (net, [])

def disposeBinding (net : Network) (id : BindingId) : Followed :=
  match net.bindings.find? id with
  | some b =>
    if b.disposed then (net, [])
    else
      let net := net.modifyBinding id fun b =>
        { b with disposed := true, observers := b.observers.cleared, watching := [] }
      (net.drop b.watching, b.observers.current.map .complete)
  | none => (net, [])

def subscribeBinding (net : Network) (id : BindingId) (observer : Observer) : Followed :=
  match net.bindings.find? id with
  | some b =>
    if b.disposed then (net, [.complete observer, .adopt observer.label []])
    else
      (net.modifyBinding id fun b => { b with observers := b.observers.add observer },
        [.deliver observer (net.bindingValue b),
          .adopt observer.label [.bindingObserver id b.observers.next]])
  | none => (net, [])

def attach (net : Network) (name : String) (b : Binding) : Network :=
  let id := net.nextBinding
  let (watching, net) := net.watch b.store b.key (.refresh id)
  { net with
    bindings := net.bindings.insert id { b with watching }
    nextBinding := id + 1
    bindingNames := net.bindingNames.insert name id }

def conclude (net : Network) (result : Except Failure Outcome) : Completion → Followed
  | .answer => ({ net with returned := some result }, [])
  | .action label =>
    match result with
    | .ok _ => (net, [])
    | .error failure => (net.report (.failed label failure), [])
  | .recalculation id =>
    let net := net.modifyObservable id fun o => { o with evaluating := false }
    match result with
    | .ok outcome => net.publish id outcome.toValue
    | .error _ => (net, [])
  | .creation name draft =>
    let net := { net with returned := some result }
    match result with
    | .ok outcome => (net.addObservable name { draft with value := outcome.toValue }, [])
    | .error _ => (net, [])

/-- Compiles a source and starts running it. -/
def start (net : Network) (source : Source) (activation : Code → Activation)
    (completion : Code → Completion) : Followed :=
  match source.compile with
  | .ok code => (net, [.run ⟨activation code, [], completion code⟩])
  | .error e => net.conclude (.error (.compile e)) (completion [])

def command? (net : Network) (id : ObjectId) : Option Command :=
  match net.objects[id]? with
  | some (.command command) => some command
  | _ => none

/-- Whether what enables a command holds now. -/
def isEnabled (net : Network) : Enablement → Bool
  | .always => true
  | .fixed enabled => enabled
  | .observed id =>
    match net.observables.find? id with
    | some o =>
      match (net.observableValue o).toBool with
      | .ok enabled => enabled
      | .error _ => false
    | none => false

/-- Whether a command can be executed now. -/
def canExecute (net : Network) : Command → Bool
  | .program p => net.isEnabled p.enablement
  | _ => true

/-- Runs a command for a run that waits for it. What is no command has nothing to run. -/
def invoke (net : Network) (r : Run) (id : ObjectId) (argument : Value) (rest : Script Frame) :
    Followed :=
  match net.command? id with
  | some (.report label) => (net.report (.called label (net.portrait argument)), [.proceed r rest])
  | some (.reject text) => net.conclude (.error (.runtime (.command text))) r.completion
  | some (.program p) =>
    (net, [.run { r with
      activation := net.activate p.code p.store p.host argument
      callers := ⟨r.activation, id, rest⟩ :: r.callers }])
  | none => (net, [.proceed r rest])

/-- Runs a command for whoever asked from outside. -/
def runCommand (net : Network) (command : Command) (argument : Value) : Followed :=
  match command with
  | .report label =>
    (net.report (.called label (net.portrait argument))).conclude (.ok .void) .answer
  | .reject text => net.conclude (.error (.runtime (.command text))) .answer
  | .program p => (net, [.run ⟨net.activate p.code p.store p.host argument, [], .answer⟩])

/-- Does the action of a callback, unless too many are under way. -/
def act (net : Network) (label : String) (delivered : Value) : Option Operation → Followed
  | none => (net, [])
  | some op =>
    if net.actingLimit ≤ net.acting then (net.report (.skipped label), [])
    else ({ net with acting := net.acting + 1 }, [.operate op delivered (some label), .leave])

/-- Does something with the observable of some name, if there is one. -/
def withObservable (net : Network) (name : String) (f : ObservableId → Followed) : Followed :=
  match net.observableNames.find? name with
  | some id => f id
  | none => (net, [])

def withBinding (net : Network) (name : String) (f : BindingId → Followed) : Followed :=
  match net.bindingNames.find? name with
  | some id => f id
  | none => (net, [])

/-- Keeps a subscription made for a label. -/
def keep (label : String) (made : Subscription × Network) : Followed :=
  (made.2.adopt label made.1, [])

def operate (net : Network) (op : Operation) (delivered : Value) (label : Option String) :
    Followed :=
  match op with
  | .set store key v => (net.set store key v).followed
  | .assign store key v => (net.assign store key v).followed
  | .ensure store key seed => (net.fetch store [] key seed).2.followed.holding (Holding.ofValue seed)
  | .remove store key =>
    let removed := (net.slot? store key).toList
    (net.remove store key).followed.holding (Holding.ofValues removed)
  | .clear store order => (net.clear store order).followed
  | .watch store key label action => keep label (net.watch store key (.report label action))
  | .watchAll store label action =>
    let (registration, net) := net.listen store none (.report label action)
    keep label ([registration], net)
  | .watchKey name label action =>
    match net.keyNames.find? name with
    | some (store, key) => keep label (net.watch store key (.report label action))
    | none => (net, [])
  | .combine labels label => (net.combine labels label, [])
  | .unsubscribe label => (net.unsubscribe label, [])
  | .execute source store host parameter =>
    net.start source (fun code => net.activate code store host (parameter.getD delivered))
      fun _ => (label.map .action).getD .answer
  | .observe name source store host parameter =>
    net.start source (fun code => net.activate code store host parameter) fun code =>
      .creation name { store, host, code, parameter }
  | .setParameter name v => net.withObservable name fun id =>
    (net.modifyObservable id fun o => { o with parameter := v }, [.notify (.recalculate id)])
  | .setConverter name converter => net.withObservable name fun id =>
    (net.modifyObservable id fun o => { o with converter }, [.notify (.recalculate id)])
  | .subscribe name label plain action => net.withObservable name fun id =>
    net.subscribeObservable id ⟨label, plain, action⟩
  | .dispose name => net.withObservable name net.disposeObservable
  | .forget name => ({ net with observableNames := net.observableNames.erase name }, [])
  | .bind name store key =>
    let (value, net, callbacks) := net.fetch store [] key .null
    (net, callbacks.map .notify ++ [.attach name { store, key, value }])
  | .push name v => net.withBinding name fun id => net.pushBinding id v
  | .setTarget name converter => net.withBinding name fun id =>
    (net.modifyBinding id fun b => { b with target := converter }, [])
  | .setSource name converter => net.withBinding name fun id =>
    (net.modifyBinding id fun b => { b with source := converter }, [])
  | .subscribeBinding name label plain action => net.withBinding name fun id =>
    net.subscribeBinding id ⟨label, plain, action⟩
  | .disposeBinding name => net.withBinding name net.disposeBinding
  | .nameKey name store key =>
    ({ net with keyNames := net.keyNames.insert name (store, key) }, [])
  | .nameCommand name command =>
    ({ net with commandNames := net.commandNames.insert name command }, [])
  | .run name parameter =>
    match (net.commandNames.find? name).bind net.command? with
    | some command => net.runCommand command parameter
    | none => (net, [])

/-- Performs the next instruction of a run, or ends the innermost activation. -/
def advance (net : Network) (r : Run) : Followed :=
  let a := r.activation
  match a.code[a.frame.next]? with
  | some i =>
    let frame := { a.frame with next := a.frame.next + 1 }
    (net, [.proceed r (i.perform a.context a.code.length frame)])
  | none =>
    match r.callers with
    | caller :: callers =>
      (net, [.proceed { r with activation := caller.activation, callers } caller.rest])
    | [] =>
      let outcome : Outcome :=
        match a.frame.stack with
        | v :: _ => .value v
        | [] => .void
      net.conclude (.ok outcome) r.completion

/-- What an instruction holds, beside the stack, until everyone is told of what it asked for. -/
def atHand : Request → List Value
  | .replace _ _ index v => [index, v]
  | _ => []

/-- Goes on with an instruction up to its next request. If that completes the instruction, the run
already stands behind it when the callbacks of the request are called, so a value that was taken
from the stack and written to a slot is held by the slot alone. A run whose request is never
answered waits for good, and all else with it. -/
def proceed (net : Network) (r : Run) : Script Frame → Followed
  | .done frame => (net, [.run (r.standingAt frame)])
  | .fail e => net.conclude (.error (.runtime e)) r.completion
  | .ask request next =>
    match net.answer r.activation.store r.activation.fallback request with
    | some (answer, net, callbacks) =>
      let rest : List Task :=
        match next answer with
        | .done frame => [.letGo (Holding.ofValues (atHand request)), .run (r.standingAt frame)]
        | script => [.proceed r script]
      (net, callbacks.map .notify ++ rest)
    | none => (net, [.proceed r (.ask request next)])
  | .invoke id argument next => net.invoke r id argument next

def notify (net : Network) : Callback → Followed
  | .report label action => (net.report (.changed label)).act label .null action
  | .recalculate id => net.recalculate id
  | .refresh id => net.refresh id

end Network

/-- Does a task. -/
def Task.perform (net : Network) : Task → Followed
  | .operate op delivered label => net.operate op delivered label
  | .notify callback => net.notify callback
  | .deliver observer v =>
    (net.report (.next observer.label (net.portrait v))).act observer.label v observer.action
  | .complete observer =>
    (if observer.plain then net else net.report (.completed observer.label), [])
  | .run r => net.advance r
  | .proceed r script => net.proceed r script
  | .adopt label subscription => (net.adopt label subscription, [])
  | .attach name b => (net.attach name b, [])
  | .leave => ({ net with acting := net.acting - 1 }, [])
  | .letGo _ => (net, [])

end SlotScript
