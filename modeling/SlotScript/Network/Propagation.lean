import SlotScript.Network.Release

/-!
# Propagation

A network with the tasks that are still to be done. Each step does the first of them, puts what
follows from it in front of the others, and releases what is no longer held. An operation asked for
from outside has come to its end when nothing is left to be done.

Code that was not compiled may run forever, and a run may wait for itself, so the number of steps is
limited; the limit is far beyond what compiled code takes.
-/

namespace SlotScript

structure Propagation where
  net : Network
  agenda : List Task

namespace Propagation

/-- Does the first task. -/
def step (p : Propagation) : Propagation :=
  match p.agenda with
  | [] => p
  | task :: rest =>
    let (net, tasks) := task.perform p.net
    ⟨net.release (tasks ++ rest), tasks ++ rest⟩

/-- Does tasks until none is left, but not more than a number of steps; `none` if that was not
enough. -/
def drive : Nat → Propagation → Option Network
  | 0, p => if p.agenda.isEmpty then some p.net else none
  | steps + 1, p => if p.agenda.isEmpty then some p.net else drive steps p.step

end Propagation

namespace Network

/-- The number of steps after which an operation is given up. -/
def patience : Nat := 1000000000000

/-- Does something to a network, with everything that follows from it. Reports and the result of a
run are those of this operation. -/
def perform (net : Network) (op : Operation) : Option Network :=
  let start : Network := { net with events := [], returned := none }
  Propagation.drive patience ⟨start, [.operate op .null none]⟩

end Network

end SlotScript
