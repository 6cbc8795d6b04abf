import SlotScript.Network.Basic

/-!
# Holding

Collections, commands and observables hold on to each other, and values are what they do it by.
Each definition here lists what one thing holds directly; who has to be held is not its concern.
-/

namespace SlotScript

/-- What can hold on to something and be held. -/
inductive Holding where
  | object (id : ObjectId)
  | observable (id : ObservableId)
deriving DecidableEq

namespace Holding

def ofValue : Value → List Holding
  | .object ref => [.object ref.id]
  | _ => []

def ofValues (vs : List Value) : List Holding := vs.flatMap ofValue

def ofCode (code : Code) : List Holding := ofValues code.literals

def ofHost (host : Option Host) : List Holding :=
  match host with
  | some h => ofValues (h.current.toList ++ h.root.toList)
  | none => []

def ofEnablement : Enablement → List Holding
  | .observed id => [.observable id]
  | _ => []

def ofObject : Object → List Holding
  | .list items => ofValues items
  | .map entries => ofValues entries.values
  | .host _ => []
  | .command (.program p) => ofCode p.code ++ ofHost p.host ++ ofEnablement p.enablement
  | .command _ => []

def ofObservable (o : Observable) : List Holding :=
  ofValues [o.value, o.parameter] ++ ofCode o.code ++ ofHost o.host

/-- What a thing of a network holds. -/
def heldBy (net : Network) : Holding → List Holding
  | .object id => ((net.objects[id]?).map ofObject).getD []
  | .observable id => ((net.observables.find? id).map ofObservable).getD []

end Holding

end SlotScript
