import SlotScript.Network.Scope

/-!
# Subscriptions

Watching a key registers a callback with the store and with each of its ancestors, since any of them
may answer a lookup. A subscription lists what it registered, and dropping it removes just that.
-/

namespace SlotScript

namespace Observers

def add (observers : Observers) (observer : Observer) : Observers :=
  ⟨observers.list ++ [(observers.next, observer)], observers.next + 1⟩

def remove (observers : Observers) (id : Nat) : Observers :=
  { observers with list := observers.list.filter (·.1 ≠ id) }

/-- The observers subscribed right now. -/
def current (observers : Observers) : List Observer := observers.list.map (·.2)

def cleared (observers : Observers) : Observers := { observers with list := [] }

end Observers

namespace Network

def modifyObservable (net : Network) (id : ObservableId) (f : Observable → Observable) :
    Network :=
  { net with observables := net.observables.adjust id f }

def modifyBinding (net : Network) (id : BindingId) (f : Binding → Binding) : Network :=
  { net with bindings := net.bindings.adjust id f }

/-- Registers a callback with one store. -/
def listen (net : Network) (store : StoreId) (key : Option String) (callback : Callback) :
    Registration × Network :=
  let id := ((net.stores[store]?).map Store.nextListener).getD 0
  (.listener store id, net.modifyStore store fun s =>
    { s with
      listeners := s.listeners ++ [⟨s.nextListener, key, callback⟩]
      nextListener := s.nextListener + 1 })

/-- Registers a callback for a key with each of these stores. -/
def listenOn (key : String) (callback : Callback) :
    List StoreId → Network → Subscription × Network
  | [], net => ([], net)
  | store :: rest, net =>
    let (registration, net) := net.listen store (some key) callback
    let (more, net) := listenOn key callback rest net
    (registration :: more, net)

/-- Registers a callback for a key with a store and its ancestors. -/
def watch (net : Network) (store : StoreId) (key : String) (callback : Callback) :
    Subscription × Network :=
  listenOn key callback (net.chain store) net

/-- Watches several keys, one after the other. -/
def watchKeys (store : StoreId) (callback : Callback) :
    List String → Network → Subscription × Network
  | [], net => ([], net)
  | key :: rest, net =>
    let (subscription, net) := net.watch store key callback
    let (more, net) := watchKeys store callback rest net
    (subscription ++ more, net)

def unregister (net : Network) : Registration → Network
  | .listener store id =>
    net.modifyStore store fun s => { s with listeners := s.listeners.filter (·.id ≠ id) }
  | .observer observable id =>
    net.modifyObservable observable fun o => { o with observers := o.observers.remove id }
  | .bindingObserver binding id =>
    net.modifyBinding binding fun b => { b with observers := b.observers.remove id }

/-- Removes everything a subscription keeps. -/
def drop (net : Network) (subscription : Subscription) : Network :=
  subscription.foldl unregister net

/-- Puts a subscription under a label; the one that was there is dropped. -/
def adopt (net : Network) (label : String) (subscription : Subscription) : Network :=
  let old := (net.subscriptions.find? label).getD []
  { net with subscriptions := net.subscriptions.insert label subscription }.drop old

/-- Drops the subscription under a label. -/
def unsubscribe (net : Network) (label : String) : Network :=
  match net.subscriptions.find? label with
  | some subscription =>
    { net with subscriptions := net.subscriptions.erase label }.drop subscription
  | none => net

/-- Takes subscriptions away from their labels, without dropping them. -/
def collect (net : Network) : List String → Subscription × Network
  | [] => ([], net)
  | label :: rest =>
    let taken := (net.subscriptions.find? label).getD []
    let (more, net) :=
      { net with subscriptions := net.subscriptions.erase label }.collect rest
    (taken ++ more, net)

/-- Joins subscriptions under a new label. -/
def combine (net : Network) (labels : List String) (label : String) : Network :=
  let (joined, net) := net.collect labels
  net.adopt label joined

end Network

end SlotScript
