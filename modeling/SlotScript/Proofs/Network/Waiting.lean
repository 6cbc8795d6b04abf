import SlotScript.Network.Propagation
import SlotScript.Proofs.Network.Elements
import SlotScript.Proofs.Network.Registration

/-! # Waiting for oneself

While an element of a collection is changed, the collection is locked. An index that is this very
collection cannot be turned into text meanwhile, so the change waits for itself. Nothing else in the
network is done from then on, and an operation that leads there never returns.
-/

namespace SlotScript

/-- To change a map or a list at an index that is this very collection. -/
def Request.Waits (net : Network) : Request → Prop
  | .replace _ collection index _ => net.OwnIndex collection index
  | _ => False

/-- What a run asks for when it goes on with an instruction. -/
def Task.request? : Task → Option Request
  | .proceed _ (.ask request _) => some request
  | _ => none

def Task.Waits (net : Network) (task : Task) : Prop :=
  ∃ request ∈ task.request?, request.Waits net

/-- A run waits for itself, and everything else is behind it. -/
def Propagation.Waits (p : Propagation) : Prop :=
  ∃ task ∈ p.agenda.head?, task.Waits p.net

instance (net : Network) (request : Request) : Decidable (request.Waits net) :=
  match request with
  | .replace _ collection index _ => inferInstanceAs (Decidable (net.OwnIndex collection index))
  | .fetch .. | .assign .. | .define .. | .concatText _ | .element .. => .isFalse id

instance (net : Network) (task : Task) : Decidable (task.Waits net) :=
  inferInstanceAs (Decidable (∃ request ∈ task.request?, request.Waits net))

instance (p : Propagation) : Decidable p.Waits :=
  inferInstanceAs (Decidable (∃ task ∈ p.agenda.head?, task.Waits p.net))

namespace Network

variable {net : Network}

/-- Such a request is never answered, and every other one is. -/
theorem answer_eq_none_iff {store : StoreId} {fallback : List StoreId} {request : Request} :
    net.answer store fallback request = none ↔ request.Waits net := by
  cases request with
  | replace key collection index v =>
      have never : net.answer store fallback (.replace key collection index v) = none ↔
          net.changeElement key collection index v = none := by
        simp only [answer, replace]
        split <;> simp [*]
      exact never.trans changeElement_eq_none_iff
  | _ => simp [answer, Request.Waits]

theorem OwnIndex.congr {net' : Network} {collection index : Value}
    (own : net.OwnIndex collection index) (objects : net'.objects = net.objects) :
    net'.OwnIndex collection index := by
  have same : net'.object? collection = net.object? collection := by
    unfold object?
    rw [objects]
  unfold OwnIndex at own ⊢
  rwa [same]

theorem objects_release (net : Network) (agenda : List Task) :
    (net.release agenda).objects = net.objects :=
  release_keeps Network.objects (fun _ reg => by cases reg <;> rfl) (fun _ _ => rfl)
    (fun _ _ => rfl) net agenda

end Network

theorem Task.waits_iff {net : Network} {r : Run} {request : Request}
    {next : request.Answer → Script Frame} :
    (Task.proceed r (.ask request next)).Waits net ↔
      net.answer r.activation.store r.activation.fallback request = none := by
  rw [Network.answer_eq_none_iff]
  constructor
  · rintro ⟨_, asks, waits⟩
    cases asks
    exact waits
  · exact fun waits => ⟨request, rfl, waits⟩

/-- What is an index of itself stays so as long as it is not changed. -/
theorem Request.Waits.congr {net net' : Network} {request : Request} (waits : request.Waits net)
    (objects : net'.objects = net.objects) : request.Waits net' := by
  cases request with
  | replace => exact Network.OwnIndex.congr waits objects
  | _ => exact waits.elim

namespace Propagation.Waits

variable {p : Propagation}

theorem of_unanswered {net : Network} {r : Run} {request : Request}
    {next : request.Answer → Script Frame}
    (never : net.answer r.activation.store r.activation.fallback request = none)
    (behind : List Task) : Waits ⟨net, .proceed r (.ask request next) :: behind⟩ :=
  ⟨_, rfl, Task.waits_iff.mpr never⟩

/-- A step does nothing, and only what is not needed any more is released. -/
theorem step_eq (waits : p.Waits) : p.step = ⟨p.net.release p.agenda, p.agenda⟩ := by
  obtain ⟨net, agenda⟩ := p
  obtain ⟨task, top, request, asks, waits⟩ := waits
  obtain ⟨behind, rfl⟩ := List.head?_eq_some_iff.mp top
  cases task with
  | proceed r script =>
      cases script with
      | ask request' next =>
          cases asks
          have never : net.answer r.activation.store r.activation.fallback request = none :=
            Network.answer_eq_none_iff.mpr waits
          simp only [Propagation.step, Task.perform, Network.proceed, never]
          rfl
      | _ => cases asks
  | _ => cases asks

theorem step (waits : p.Waits) : p.step.Waits := by
  rw [waits.step_eq]
  obtain ⟨task, top, request, asks, waits⟩ := waits
  exact ⟨task, top, request, asks, waits.congr (Network.objects_release _ _)⟩

theorem busy (waits : p.Waits) : p.agenda.isEmpty = false := by
  obtain ⟨task, top, -⟩ := waits
  obtain ⟨behind, agenda⟩ := List.head?_eq_some_iff.mp top
  rw [agenda, List.isEmpty_cons]

/-- However many steps are granted, they are not enough. -/
theorem drive (waits : p.Waits) (steps : Nat) : p.drive steps = none := by
  induction steps generalizing p with
  | zero => simp [Propagation.drive, waits.busy]
  | succ steps ih => simp [Propagation.drive, waits.busy, ih waits.step]

end Propagation.Waits

end SlotScript
