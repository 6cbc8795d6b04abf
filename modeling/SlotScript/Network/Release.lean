import SlotScript.Network.Task

/-!
# Release

An observable lives as long as something holds on to it: a name, or a command that asks it whether
it can be executed, wherever that command is kept: in a slot, in a collection, or on the stack of a
run that is under way. A binding lives as long as it has a name. What is no longer held is released
with all that it registered, without completing anyone.

It is enough to be held by something that is itself held, and a circle of things that hold each
other is never released, even if nothing else knows of it.
-/

namespace SlotScript

namespace Holding

def ofActivation (a : Activation) : List Holding :=
  ofValues (a.context.parameter :: a.context.self :: a.frame.stack) ++ ofCode a.code

def ofCompletion : Completion → List Holding
  | .recalculation id => [.observable id]
  | .creation _ draft => ofObservable draft
  | _ => []

def ofRun (r : Run) : List Holding :=
  ofActivation r.activation ++ ofCompletion r.completion
    ++ r.callers.flatMap fun caller => .object caller.command :: ofActivation caller.activation

def ofTask : Task → List Holding
  | .operate _ v _ | .deliver _ v => ofValue v
  | .run r | .proceed r _ => ofRun r
  | .attach _ b => ofValue b.value
  | .letGo held => held
  | _ => []

/-- What is held from outside: by names, slots, owners, bindings, for good, and by what is still to
be done. -/
def roots (net : Network) (agenda : List Task) : List Holding :=
  net.observableNames.values.map .observable ++ net.commandNames.values.map .object
    ++ net.stores.flatMap (fun s => ofValues (s.owner :: s.slots.values))
    ++ net.bindings.values.flatMap (fun b => ofValue b.value) ++ ofValues net.pinned
    ++ agenda.flatMap ofTask

/-- Everything that can be held. -/
def everything (net : Network) : List Holding :=
  (List.range net.objects.length).map .object ++ net.observables.keys.map .observable

/-- Those of some things that are held by a root or by one of them. -/
def stillHeld (net : Network) (roots things : List Holding) : List Holding :=
  let held := roots ++ things.flatMap (heldBy net)
  things.filter (held.contains ·)

/-- What is left of some things once all are gone that nothing holds, and then those that only they
held, and so on. -/
def settled (net : Network) (roots things : List Holding) : List Holding :=
  let left := stillHeld net roots things
  if left.length < things.length then settled net roots left else things
termination_by things.length

def all (net : Network) (agenda : List Task) : List Holding :=
  settled net (roots net agenda) (everything net)

end Holding

namespace Network

/-- Releases an observable with what it registered. -/
def releaseObservable (net : Network) (id : ObservableId) : Network :=
  match net.observables.find? id with
  | some o => { net with observables := net.observables.erase id }.drop o.watching
  | none => net

def releaseBinding (net : Network) (id : BindingId) : Network :=
  match net.bindings.find? id with
  | some b => { net with bindings := net.bindings.erase id }.drop b.watching
  | none => net

/-- The observables that have no name, so that only a command can hold them. -/
def unnamed (net : Network) : List ObservableId :=
  net.observables.keys.filter (!net.observableNames.values.contains ·)

/-- Releases the bindings that are no longer held. -/
def releaseBindings (net : Network) : Network :=
  (net.bindings.keys.filter (!net.bindingNames.values.contains ·)).foldl releaseBinding net

/-- Releases the observables that are no longer held. -/
def releaseObservables (net : Network) (agenda : List Task) : Network :=
  match net.unnamed with
  | [] => net
  | unnamed =>
    let held := Holding.all net agenda
    (unnamed.filter fun id => !held.contains (.observable id)).foldl releaseObservable net

/-- Releases whatever is no longer held, neither by the network nor by what is still to be done. -/
def release (net : Network) (agenda : List Task) : Network :=
  net.releaseBindings.releaseObservables agenda

end Network

end SlotScript
