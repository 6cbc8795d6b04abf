import SlotScript.Network.Basic

/-!
# Scopes

A store with its ancestors is a chain of scopes, searched from the store outwards. Reading finds the
nearest scope that defines a key, and a scoped write goes to that same scope. Every write yields the
callbacks that are to be called for it, in the order in which they were registered with the store
that was written.
-/

namespace SlotScript

/-- A network after a change, and the callbacks the change calls for. -/
abbrev Changed := Network × List Callback

namespace Network

/-- A store and its ancestors, nearest first. -/
def chain (net : Network) (store : StoreId) : List StoreId :=
  store :: ((net.stores[store]?).map Store.ancestors).getD []

/-- The value of a key in a store itself. -/
def slot? (net : Network) (store : StoreId) (key : String) : Option Value :=
  (net.stores[store]?).bind fun s => s.slots.find? key

/-- The value of a key in the nearest scope that defines it. -/
def lookup? (net : Network) (store : StoreId) (key : String) : Option Value :=
  (net.chain store).findSome? fun scope => net.slot? scope key

/-- The nearest scope that defines a key, or the store itself if none does. -/
def definer (net : Network) (store : StoreId) (key : String) : StoreId :=
  ((net.chain store).find? fun scope => (net.slot? scope key).isSome).getD store

def owner (net : Network) (store : StoreId) : Value :=
  ((net.stores[store]?).map Store.owner).getD .null

def modifyStore (net : Network) (store : StoreId) (f : Store → Store) : Network :=
  { net with stores := net.stores.modify store f }

/-- The callbacks registered with a store for a key, or for the store being cleared. -/
def callbacksFor (net : Network) (store : StoreId) (key : Option String) : List Callback :=
  match net.stores[store]? with
  | some s => (s.listeners.filter (·.key = key)).map (·.callback)
  | none => []

/-- Writes a key of a store itself. -/
def set (net : Network) (store : StoreId) (key : String) (v : Value) : Changed :=
  (net.modifyStore store fun s => { s with slots := s.slots.insert key v },
    net.callbacksFor store (some key))

/-- Writes to the nearest scope that defines the key. -/
def assign (net : Network) (store : StoreId) (key : String) (v : Value) : Changed :=
  net.set (net.definer store key) key v

/-- Removes a key of a store itself; nobody is told if there was none. -/
def remove (net : Network) (store : StoreId) (key : String) : Changed :=
  if (net.slot? store key).isSome then
    (net.modifyStore store fun s => { s with slots := s.slots.erase key },
      net.callbacksFor store (some key))
  else (net, [])

/-- Removes all keys of a store. Those who watch for this are told first, then those who watch one
of the keys, in any order of the keys. -/
def clear (net : Network) (store : StoreId) (order : KeyOrder) : Changed :=
  let keys := order.arrange (((net.stores[store]?).map fun s => s.slots.keys).getD [])
  (net.modifyStore store fun s => { s with slots := .empty },
    net.callbacksFor store none ++ keys.flatMap fun key => net.callbacksFor store (some key))

/-- The value of a key in the chain of a store, or else in that of the first fallback store that has
it, or else the seed, which is then stored locally. -/
def fetch (net : Network) (store : StoreId) (fallback : List StoreId) (key : String)
    (seed : Value) : Value × Changed :=
  match (store :: fallback).findSome? fun scope => net.lookup? scope key with
  | some v => (v, net, [])
  | none => (seed, net.set store key seed)

/-- The store from which a key is visible: the given one, or the first fallback store that has it if
the given one does not. -/
def holder (net : Network) (store : StoreId) (fallback : List StoreId) (key : String) : StoreId :=
  ((store :: fallback).find? fun scope => (net.lookup? scope key).isSome).getD store

/-- The place in a list that a value denotes: an integer of any kind in range. -/
def listIndex? (index : Value) (length : Nat) : Option Nat :=
  let place? : Option Int :=
    match index with
    | .int32 n => some n.toInt
    | .int64 n => some n.toInt
    | .uint32 n => some n.toNat
    | .uint64 n => some n.toNat
    | _ => none
  match place? with
  | some place => if 0 ≤ place ∧ place < length then some place.toNat else none
  | none => none

def invalidIndex (net : Network) (key : String) (index : Value) : RuntimeError :=
  .invalidIndex key (index.text net.sizes)

/-- The object a value names. -/
def object? (net : Network) : Value → Option Object
  | .object ref => net.objects[ref.id]?
  | _ => none

/-- The element of a collection. A map is indexed by text, and what it does not have is null. -/
def element (net : Network) (key : String) (collection index : Value) :
    Except RuntimeError Value :=
  match net.object? collection with
  | some (.map entries) => .ok ((entries.find? (index.concatText net.sizes)).getD .null)
  | some (.list items) =>
    match (listIndex? index items.length).bind (items[·]?) with
    | some v => .ok v
    | none => .error (net.invalidIndex key index)
  | _ => .error (.notIndexable key)

/-- An object with one element changed, or the reason why it cannot be. The collection is locked
meanwhile, and the text of an index that is the collection itself shows its length. So this text
waits for the lock, and the lock for the text: there is never a result. -/
def changeElement (net : Network) (key : String) (collection index v : Value) :
    Option (Except RuntimeError Object) :=
  match net.object? collection with
  | some (.map entries) =>
    if index.sameObject collection then none
    else some (.ok (.map (entries.insert (index.concatText net.sizes) v)))
  | some (.list items) =>
    match listIndex? index items.length with
    | some place => some (.ok (.list (items.set place v)))
    | none =>
      if index.sameObject collection then none else some (.error (net.invalidIndex key index))
  | _ => some (.error (.notIndexable key))

def setObject (net : Network) (collection : Value) (object : Object) : Network :=
  match collection with
  | .object ref => { net with objects := net.objects.set ref.id object }
  | _ => net

/-- Changes an element of a collection in place and stores the collection back where it is visible
from, so that those who watch the key are told. -/
def replace (net : Network) (store : StoreId) (fallback : List StoreId) (key : String)
    (collection index v : Value) : Option (Except RuntimeError Unit × Changed) :=
  match net.changeElement key collection index v with
  | some (.ok object) =>
    let net := net.setObject collection object
    some (.ok (), net.assign (net.holder store fallback key) key collection)
  | some (.error e) => some (.error e, net, [])
  | none => none

/-- The answer to a request of a run on a store, with what it changes, if there ever is one. -/
def answer (net : Network) (store : StoreId) (fallback : List StoreId) :
    (r : Request) → Option (r.Answer × Changed)
  | .fetch key seed => some (net.fetch store fallback key seed)
  | .assign key v => some ((), net.assign store key v)
  | .define key v => some ((), net.set store key v)
  | .concatText v => some (v.concatText net.sizes, net, [])
  | .element key collection index => some (net.element key collection index, net, [])
  | .replace key collection index v => net.replace store fallback key collection index v

end Network

end SlotScript
