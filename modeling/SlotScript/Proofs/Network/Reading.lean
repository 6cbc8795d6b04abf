import SlotScript.Proofs.Network.Course

/-! # Runs that only read

A run that finds every slot it reads changes nothing, so nobody is told of anything and its task
stays on top of the agenda until it ends. How it ends depends on the network as it was at its start.
-/

namespace SlotScript

namespace Script

variable {α : Type}

/-- Ends do not ask, so with the same answers a script comes to one end only. -/
theorem Made.unique_end {s t u : Script α} {es es' : List Exchange}
    {tell : (r : Request) → Option r.Answer} (first : s.Made es t) (second : s.Made es' u)
    (first_told : ∀ x ∈ es, tell x.request = some x.answer)
    (second_told : ∀ x ∈ es', tell x.request = some x.answer) (first_ends : t.IsFinal)
    (second_ends : u.IsFinal) : t = u := by
  induction first generalizing es' with
  | none =>
      cases second with
      | none => rfl
      | one => exact first_ends.elim
  | one _ ih =>
      cases second with
      | none => exact second_ends.elim
      | one second =>
          have here := first_told _ (.head _)
          have here' := second_told _ (.head _)
          cases here.symm.trans here'
          exact ih second (fun x member => first_told x (.tail _ member))
            (fun x member => second_told x (.tail _ member)) first_ends

theorem isFinal_ofExcept (x : Except RuntimeError α) : (ofExcept x).IsFinal := by
  cases x <;> trivial

end Script

/-- A run that has come to its end with some number of instructions does so with more. -/
theorem Code.run_add {context : Context} {code : Code} {n : Nat} {f : Frame} {es : List Exchange}
    {result : Except RuntimeError Frame}
    (made : (code.run context n f).Made es (Script.ofExcept (result.map some))) (more : Nat) :
    (code.run context (n + more) f).Made es (Script.ofExcept (result.map some)) := by
  induction n generalizing f es with
  | zero =>
      cases at_f : code[f.next]? with
      | none => rwa [run_end at_f] at made ⊢
      | some i =>
          simp only [run, at_f] at made
          cases result <;> cases made
  | succ n ih =>
      cases at_f : code[f.next]? with
      | none => rwa [run_end at_f] at made ⊢
      | some i =>
          rw [Nat.add_right_comm]
          rw [run_succ at_f] at made ⊢
          obtain ⟨u, first, same⟩ | ⟨front, back, f', rfl, first, second⟩ := made.of_bind
          · cases u with
            | done f' =>
                have ended :
                    (code.run context n f').Made [] (Script.ofExcept (result.map some)) := by
                  rw [same]
                  exact .none _
                have later := (first.bind (code.run context (n + more))).append (ih ended)
                rwa [List.append_nil] at later
            | fail e =>
                rw [same]
                exact first.bind _
            | ask | invoke => cases result <;> cases same
          · exact (first.bind _).append (ih second)

namespace Network

/-- The answer to a request, if giving it changes nothing. -/
def tell? (net : Network) (store : StoreId) : (r : Request) → Option r.Answer
  | .fetch key _ => net.lookup? store key
  | .concatText v => some (v.concatText net.sizes)
  | .element key collection index => some (net.element key collection index)
  | .assign .. | .define .. | .replace .. => none

theorem answer_of_tell {net : Network} {store : StoreId} {r : Request} {answer : r.Answer}
    (h : net.tell? store r = some answer) : net.answer store [] r = some (answer, net, []) := by
  cases r with
  | fetch key seed =>
      have found : net.lookup? store key = some answer := h
      simp [Network.answer, fetch, found]
  | concatText | element =>
      cases h
      rfl
  | assign | define | replace => cases h

/-- The keys are visible from the store. -/
def Defines (net : Network) (store : StoreId) (keys : List String) : Prop :=
  ∀ key ∈ keys, (net.lookup? store key).isSome

theorem Defines.tells {net : Network} {store : StoreId} {keys : List String}
    (defines : net.Defines store keys) {r : Request} (reads : r.Reads keys) :
    (net.tell? store r).isSome := by
  cases r with
  | fetch key seed => exact defines key reads
  | concatText | element => rfl
  | assign | define | replace => exact reads.elim

/-- Two networks look the same from a store, as far as values and slots with these keys go. -/
structure Alike (store : StoreId) (keys : List String) (net net' : Network) : Prop where
  lookup : ∀ key ∈ keys, net'.lookup? store key = net.lookup? store key
  objects : net'.objects = net.objects
  owner : net'.owner store = net.owner store

namespace Alike

variable {store : StoreId} {keys : List String} {net net' net'' : Network}

theorem refl (net : Network) : Alike store keys net net :=
  ⟨fun _ _ => rfl, rfl, rfl⟩

theorem trans (first : Alike store keys net net') (second : Alike store keys net' net'') :
    Alike store keys net net'' := by
  refine ⟨?_, second.objects.trans first.objects, second.owner.trans first.owner⟩
  intro key member
  rw [second.lookup key member, first.lookup key member]

theorem symm (h : Alike store keys net net') : Alike store keys net' net :=
  ⟨fun key member => (h.lookup key member).symm, h.objects.symm, h.owner.symm⟩

theorem defines (h : Alike store keys net net') (defines : net.Defines store keys) :
    net'.Defines store keys := by
  intro key member
  rw [h.lookup key member]
  exact defines key member

theorem sizes (h : Alike store keys net net') : net'.sizes = net.sizes := by
  unfold Network.sizes
  rw [h.objects]

theorem tell (h : Alike store keys net net') {r : Request} (reads : r.Reads keys) :
    net'.tell? store r = net.tell? store r := by
  cases r with
  | fetch key seed => exact h.lookup key reads
  | concatText v => simp only [tell?, h.sizes]
  | element key collection index =>
      have same : net'.object? collection = net.object? collection := by
        unfold object?
        rw [h.objects]
      simp only [tell?, element, same, h.sizes, invalidIndex]
  | assign | define | replace => rfl

end Alike

/-- The code of an activation comes to this end by reading alone. -/
def Evaluates (net : Network) (a : Activation) (result : Except RuntimeError Frame) : Prop :=
  ∃ n es, (a.code.run a.context n .start).Made es (Script.ofExcept (result.map some)) ∧
    ∀ x ∈ es, net.tell? a.store x.request = some x.answer

theorem Evaluates.unique {net : Network} {a : Activation} {result other : Except RuntimeError Frame}
    (first : net.Evaluates a result) (second : net.Evaluates a other) : result = other := by
  obtain ⟨n, es, made, told⟩ := first
  obtain ⟨k, es', made', told'⟩ := second
  have later := Code.run_add made k
  have later' := Code.run_add made' n
  rw [Nat.add_comm] at later'
  have same := later.unique_end later' told told' (Script.isFinal_ofExcept _)
    (Script.isFinal_ofExcept _)
  cases result <;> cases other <;> cases same <;> rfl

theorem Evaluates.congr {net net' : Network} {a : Activation}
    {result : Except RuntimeError Frame} (readOnly : a.code.ReadOnly)
    (alike : Alike a.store a.code.readKeys net net') (h : net.Evaluates a result) :
    net'.Evaluates a result := by
  obtain ⟨n, es, made, told⟩ := h
  refine ⟨n, es, made, ?_⟩
  intro x member
  obtain ⟨asked, -⟩ := (readOnly.run_asks a.context n .start).made made
  rw [alike.tell (asked x member)]
  exact told x member

/-- The activation of code on a store, for no host. -/
theorem activate_congr {net net' : Network} {code : Code} {store : StoreId} {keys : List String}
    (alike : Alike store keys net net') (parameter : Value) :
    net'.activate code store none parameter = net.activate code store none parameter := by
  simp [activate, selfValue, alike.owner]

end Network

namespace Run

variable {r : Run} {rest : List Task}

/-- The run does not write, and nothing waits for it or helps it out. -/
structure Quiet (r : Run) : Prop where
  readOnly : r.activation.code.ReadOnly
  fallback : r.activation.fallback = []
  alone : r.callers = []

theorem Quiet.commandless (quiet : r.Quiet) : ∀ i ∈ r.activation.code, i.op ≠ .invokeResource :=
  fun i member => (quiet.readOnly i member).2

theorem Stands.reads (quiet : r.Quiet) {frames : List Frame} {es : List Exchange} {task : Task}
    (stands : r.Stands frames es task) :
    ∀ x ∈ es, x.request.Reads r.activation.code.readKeys := by
  cases stands with
  | @between _ _ f path =>
      exact ((quiet.readOnly.run_asks _ _ _).made (path.run 0)).1
  | @within frames es es' f i script path at_f made =>
      intro x member
      obtain member | member := List.mem_append.mp member
      · exact ((quiet.readOnly.run_asks _ _ _).made (path.run 0)).1 x member
      · exact ((quiet.readOnly.perform_asks (List.mem_of_getElem? at_f) _).made made).1 x member

/-- What a run still has before it is code that only reads. -/
theorem Stands.asks (quiet : r.Quiet) {frames : List Frame} {es : List Exchange} {r' : Run}
    {request : Request} {next : request.Answer → Script Frame}
    (stands : r.Stands frames es (.proceed r' (.ask request next))) :
    request.Reads r.activation.code.readKeys := by
  cases stands with
  | within path at_f made =>
      exact ((quiet.readOnly.perform_asks (List.mem_of_getElem? at_f) _).made made).2.1

/-- A task of the run that does not end it, and finds what it asks for, leaves the network as it
is. -/
theorem Stands.perform_told (quiet : r.Quiet) {frames : List Frame} {es : List Exchange}
    {task : Task} (stands : r.Stands frames es task) (unfinished : task.ending? = none)
    {net : Network} (defines : net.Defines r.activation.store r.activation.code.readKeys) :
    (task.perform net).1 = net ∧
      (∀ t ∈ (task.perform net).2.dropLast, ∃ held, t = .letGo held) ∧
      ∀ x, task.exchange? net = some x →
        net.tell? r.activation.store x.request = some x.answer := by
  cases stands with
  | @between _ _ f path =>
      cases at_f : r.activation.code[f.next]? with
      | none => simp [Task.ending?, standingAt, at_f] at unfinished
      | some i =>
          have performed : (Task.run (r.standingAt f)).perform net =
              (net, [.proceed (r.standingAt f) (i.perform r.activation.context
                r.activation.code.length { f with next := f.next + 1 })]) :=
            Network.perform_run_next (r := r.standingAt f) at_f net
          rw [performed]
          refine ⟨rfl, List.forall_mem_nil _, ?_⟩
          intro x asked
          cases asked
  | @within frames es es' f i script path at_f made =>
      cases script with
      | done f' =>
          refine ⟨rfl, List.forall_mem_nil _, ?_⟩
          intro x asked
          cases asked
      | fail e => simp [Task.ending?] at unfinished
      | invoke id argument next =>
          have other := quiet.commandless i (List.mem_of_getElem? at_f)
          exact ((Instruction.perform_asks other _).made made).2.elim
      | ask request next =>
          have reads := Stands.asks quiet (.within path at_f made)
          obtain ⟨answer, told⟩ := Option.isSome_iff_exists.mp (defines.tells reads)
          have answered : net.answer (r.standingAt f).activation.store
              (r.standingAt f).activation.fallback request = some (answer, net, []) := by
            rw [show (r.standingAt f).activation.fallback = [] from quiet.fallback]
            exact Network.answer_of_tell told
          have performed : (Task.proceed (r.standingAt f) (.ask request next)).perform net =
              (net, (r.standingAt f).resume request (next answer)) :=
            Network.proceed_answered answered
          rw [performed]
          refine ⟨rfl, ?_, ?_⟩
          · cases next answer with
            | done => exact List.forall_mem_singleton.mpr ⟨_, rfl⟩
            | _ => exact List.forall_mem_nil _
          · intro x asked
            rw [Task.exchange?, answered] at asked
            cases asked
            exact told

/-- The task of a run stands above `rest`, and everything the run was told still holds. Nothing is
above its task but what ends the hold on something. -/
def Reading (r : Run) (rest : List Task) (p : Propagation) : Prop :=
  ∃ above own frames es, p.agenda = above ++ own :: rest ∧
    (∀ t ∈ above, ∃ held, t = .letGo held) ∧ r.Stands frames es own ∧
    ∀ x ∈ es, p.net.tell? r.activation.store x.request = some x.answer

theorem Reading.start (fresh : r.activation.frame = .start) (net : Network) :
    r.Reading rest ⟨net, .run r :: rest⟩ :=
  ⟨[], .run r, [], [], rfl, List.forall_mem_nil _, Stands.start fresh, List.forall_mem_nil _⟩

theorem Reading.congr (quiet : r.Quiet) {net net' : Network} {agenda : List Task}
    (alike : Network.Alike r.activation.store r.activation.code.readKeys net net')
    (h : r.Reading rest ⟨net, agenda⟩) : r.Reading rest ⟨net', agenda⟩ := by
  obtain ⟨above, own, frames, es, at_top, released, stands, told⟩ := h
  refine ⟨above, own, frames, es, at_top, released, stands, ?_⟩
  intro x member
  rw [alike.tell (stands.reads quiet x member)]
  exact told x member

/-- What comes next in a run that only reads: it goes on, or it has come to its end. -/
theorem Reading.perform (quiet : r.Quiet) {p : Propagation}
    (defines : p.net.Defines r.activation.store r.activation.code.readKeys)
    (h : r.Reading rest p) : ∃ task behind, p.agenda = task :: behind ∧
      ((task.ending? = none ∧ (task.perform p.net).1 = p.net ∧
          r.Reading rest ⟨p.net, (task.perform p.net).2 ++ behind⟩) ∨
        ∃ result, task.ending? = some result ∧ behind = rest ∧
          p.net.Evaluates r.activation result ∧ task.perform p.net =
            p.net.conclude ((result.map Frame.outcome).mapError .runtime) r.completion) := by
  obtain ⟨above, own, frames, es, agenda, released, stands, told⟩ := h
  cases above with
  | cons first above =>
      obtain ⟨held, rfl⟩ := released first (.head _)
      refine ⟨_, _, agenda, .inl ⟨rfl, rfl, above, own, frames, es, rfl, ?_, stands, told⟩⟩
      exact fun t member => released t (.tail _ member)
  | nil =>
      refine ⟨own, rest, agenda, ?_⟩
      cases ended : own.ending? with
      | some result =>
          obtain ⟨left, made, ends⟩ := stands.left
          rw [ends result ended] at made
          exact .inr ⟨result, rfl, rfl, ⟨_, es, made, told⟩,
            stands.perform_last quiet.alone ended _⟩
      | none =>
          obtain ⟨same, holds_end, answers⟩ := stands.perform_told quiet ended defines
          obtain ⟨above, next, performed, stands⟩ := stands.perform quiet.commandless ended p.net
          refine .inl ⟨rfl, same, above, next, _, _, ?_, ?_, stands, ?_⟩
          · rw [performed, List.append_assoc]
            rfl
          · rw [performed, List.dropLast_concat] at holds_end
            exact holds_end
          · intro x member
            obtain member | member := List.mem_append.mp member
            · exact told x member
            · exact answers x (by simpa using member)

end Run

end SlotScript
