import SlotScript.Code.Source
import SlotScript.Machine.Step
import SlotScript.Table
import SlotScript.Network.Converter

/-!
# Stores and what is attached to them

A network is a set of stores, the objects shared among them, and everything that watches them:
observables, which keep the value of an expression up to date, key bindings, which join one slot to
something outside, and plain subscriptions. Whoever works with a network names these things, and
names stand for whatever was made last under them.

All of this is data. A callback says what is to be done when a slot changes; nothing here does it.
-/

namespace SlotScript

/-- Stores are numbered in the order in which they are made, a parent before its children. -/
abbrev StoreId := Nat

/-- Objects, observables and bindings are numbered as they are made. -/
abbrev ObjectId := Nat
abbrev ObservableId := Nat
abbrev BindingId := Nat

/-- What the embedding application knows about the place an expression is attached to. -/
structure Host where
  current : Option Value := none
  root : Option Value := none
  /-- Stores that are searched after the whole chain of scopes. -/
  fallback : List StoreId := []

/-- The order in which the keys of a store are gone through. Nothing says which one it is. -/
structure KeyOrder where
  arrange : List String → List String
  perm (keys : List String) : (arrange keys).Perm keys

/-- Keys are gone through as they are kept. -/
def KeyOrder.kept : KeyOrder := ⟨id, .refl⟩

/-- What can be done to a network from outside, and by callbacks. Observables, bindings, keys and
subscriptions are referred to by name. -/
inductive Operation where
  /-- Write to a store itself. -/
  | set (store : StoreId) (key : String) (value : Value)
  /-- Write to the nearest scope that defines the key. -/
  | assign (store : StoreId) (key : String) (value : Value)
  /-- Create a key that is defined nowhere. -/
  | ensure (store : StoreId) (key : String) (seed : Value)
  | remove (store : StoreId) (key : String)
  | clear (store : StoreId) (order : KeyOrder := .kept)
  | watch (store : StoreId) (key label : String) (action : Option Operation)
  /-- Watch for a store being cleared. -/
  | watchAll (store : StoreId) (label : String) (action : Option Operation)
  | watchKey (name label : String) (action : Option Operation)
  /-- Join subscriptions into one; the joined ones are no longer known by their own labels. -/
  | combine (labels : List String) (label : String)
  | unsubscribe (label : String)
  /-- Run a program; without a parameter it gets the value its callback was given. -/
  | execute (source : Source) (store : StoreId) (host : Option Host) (parameter : Option Value)
  | observe (name : String) (source : Source) (store : StoreId) (host : Option Host)
      (parameter : Value)
  | setParameter (name : String) (value : Value)
  | setConverter (name : String) (converter : Option Converter)
  /-- Observe an observable. A plain observer is not told about completion. -/
  | subscribe (name label : String) (plain : Bool) (action : Option Operation)
  | dispose (name : String)
  /-- Give up the name of an observable. -/
  | forget (name : String)
  | bind (name : String) (store : StoreId) (key : String)
  /-- Write a value from the bound side. -/
  | push (name : String) (value : Value)
  | setTarget (name : String) (converter : Option Converter)
  | setSource (name : String) (converter : Option Converter)
  | subscribeBinding (name label : String) (plain : Bool) (action : Option Operation)
  | disposeBinding (name : String)
  /-- Name a key of a store. -/
  | nameKey (name : String) (store : StoreId) (key : String)
  | nameCommand (name : String) (command : ObjectId)
  /-- Run the command of some name. -/
  | run (name : String) (parameter : Value)

/-- Called when a slot changes. -/
inductive Callback where
  /-- Report the change under a label, then act. -/
  | report (label : String) (action : Option Operation)
  | recalculate (observable : ObservableId)
  | refresh (binding : BindingId)

/-- Called with the values of an observable or a binding. -/
structure Observer where
  label : String
  plain : Bool
  action : Option Operation

/-- Something that a subscription keeps in place. -/
inductive Registration where
  | listener (store : StoreId) (id : Nat)
  | observer (observable : ObservableId) (id : Nat)
  | bindingObserver (binding : BindingId) (id : Nat)
deriving DecidableEq

/-- A subscription keeps any number of registrations. -/
abbrev Subscription := List Registration

/-- A callback registered with a store, for one key or for the store being cleared. -/
structure Listener where
  id : Nat
  key : Option String
  callback : Callback

structure Store where
  /-- The scopes behind this one, nearest first. -/
  ancestors : List StoreId
  owner : Value
  slots : Table String Value := .empty
  /-- In the order of registration. -/
  listeners : List Listener := []
  nextListener : Nat := 0

/-- What decides whether a command can be executed. -/
inductive Enablement where
  | always
  | fixed (enabled : Bool)
  /-- The latest value of an observable, as a truth value if it has one. -/
  | observed (observable : ObservableId)

structure CommandProgram where
  store : StoreId
  host : Option Host
  code : Code
  enablement : Enablement

inductive Command where
  /-- Reports the parameter under a label. -/
  | report (label : String)
  /-- Fails with a text. -/
  | reject (text : String)
  | program (program : CommandProgram)

inductive Object where
  | list (items : List Value)
  | map (entries : Table String Value)
  | host (name : String)
  | command (command : Command)

def Object.size : Object → Nat
  | list items => items.length
  | map entries => entries.size
  | _ => 0

/-- Observers in the order of their subscription. -/
structure Observers where
  list : List (Nat × Observer) := []
  next : Nat := 0

/-- Code together with the latest value it produced. -/
structure Observable where
  store : StoreId
  host : Option Host
  code : Code
  parameter : Value
  value : Value := .null
  converter : Option Converter := none
  observers : Observers := {}
  /-- Set while the code runs, so that its own writes do not run it again. -/
  evaluating : Bool := false
  disposed : Bool := false
  /-- What keeps it told of changes. -/
  watching : Subscription := []

/-- One key with the latest value seen of it, for something outside that shows and changes it. -/
structure Binding where
  store : StoreId
  key : String
  value : Value
  target : Option Converter := none
  source : Option Converter := none
  observers : Observers := {}
  disposed : Bool := false
  /-- What keeps it told of changes. -/
  watching : Subscription := []

/-- A value with its collections written out, as it is at one moment. -/
inductive Portrait where
  | scalar (value : Value)
  | list (items : List Portrait)
  | map (entries : List (String × Portrait))
  | host (name : String)
  | command
  /-- Something nested too deeply to be shown. -/
  | deep (kind : Kind)

instance : Inhabited Portrait := ⟨.command⟩

/-- What callbacks report. -/
inductive Event where
  | changed (label : String)
  | next (label : String) (value : Portrait)
  | completed (label : String)
  | failed (label : String) (failure : Failure)
  | skipped (label : String)
  | called (label : String) (parameter : Portrait)

/-- What a run left behind. -/
inductive Outcome where
  | value (v : Value)
  | void
deriving DecidableEq

/-- The value of an outcome, null if there is none. -/
def Outcome.toValue : Outcome → Value
  | value v => v
  | void => .null

structure Network where
  stores : List Store := []
  objects : List Object := []
  observables : Table ObservableId Observable := .empty
  nextObservable : ObservableId := 0
  bindings : Table BindingId Binding := .empty
  nextBinding : BindingId := 0
  /-- What the names of observables, bindings, keys and commands stand for. -/
  observableNames : Table String ObservableId := .empty
  bindingNames : Table String BindingId := .empty
  keyNames : Table String (StoreId × String) := .empty
  commandNames : Table String ObjectId := .empty
  /-- What is held for good: by the embedding application, and by code whose keys were once worked
  out for an observable. -/
  pinned : List Value := []
  /-- Subscriptions by label. -/
  subscriptions : Table String Subscription := .empty
  /-- The number of actions of callbacks that are under way. -/
  acting : Nat := 0
  /-- The deepest nesting of actions of callbacks. -/
  actingLimit : Nat := 4
  /-- In the order in which they were reported. -/
  events : List Event := []
  /-- How the last run asked for from outside ended. -/
  returned : Option (Except Failure Outcome) := none

namespace Network

/-- The current lengths of the collections. -/
def sizes (net : Network) : Sizes := fun id =>
  match net.objects[id]? with
  | some object => object.size
  | none => 0

/-- A value as it is now, with this many levels of nesting shown. -/
def portray (net : Network) : Nat → Value → Portrait
  | 0, v => .deep v.kind
  | levels + 1, .object ref =>
    match net.objects[ref.id]? with
    | some (.list items) => .list (items.map (net.portray levels))
    | some (.map entries) =>
      .map (entries.entries.map fun entry => (entry.1, net.portray levels entry.2))
    | some (.host name) => .host name
    | some (.command _) | none => .command
  | _ + 1, v => .scalar v

/-- Levels of nesting that reports show. -/
def portraitLevels : Nat := 6

def portrait (net : Network) (v : Value) : Portrait := net.portray portraitLevels v

def report (net : Network) (event : Event) : Network := { net with events := net.events ++ [event] }

/-- Adds an object and returns the value that names it. -/
def addObject (net : Network) (kind : ObjectKind) (object : Object) : Value × Network :=
  (.object ⟨kind, net.objects.length⟩, { net with objects := net.objects ++ [object] })

/-- Holds values for good. -/
def pin (net : Network) (vs : List Value) : Network := { net with pinned := net.pinned ++ vs }

/-- Adds a store with its parent, if that exists, and with its owner. -/
def addStore (net : Network) (parent : Option StoreId) (owner : Value) : StoreId × Network :=
  let ancestors :=
    match parent with
    | some id => id :: ((net.stores[id]?).map Store.ancestors).getD []
    | none => []
  (net.stores.length, { net with stores := net.stores ++ [{ ancestors, owner }] })

end Network

end SlotScript
