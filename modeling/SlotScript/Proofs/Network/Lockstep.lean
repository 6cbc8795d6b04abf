import SlotScript.Proofs.Compiler.Modes
import SlotScript.Proofs.Network.Scopes

/-! # The modes of assignment on a store without ancestors

The nearest scope that defines a key can only be the store itself if there is no other, so the same
code compiled for either mode does the same there. The two runs are followed in lockstep. Whoever is
told of a write may start anything, but that is the same on both sides.
-/

namespace SlotScript

/-- A store has no ancestors. -/
def Network.Alone (net : Network) (store : StoreId) : Prop := net.chain store = [store]

theorem Network.Alone.assign_eq {net : Network} {store : StoreId} (alone : net.Alone store)
    (key : String) (v : Value) : net.assign store key v = net.set store key v := by
  have nearest : net.definer store key = store := by
    unfold Network.definer
    rw [alone, List.find?_cons]
    split <;> rfl
  rw [Network.assign, nearest]

/-- The same script, or a write to the local scope and one to the nearest scope that complete an
instruction; the second only where the two are the same. -/
inductive Script.Widens (only : Prop) : Script Frame → Script Frame → Prop where
  | same (script : Script Frame) : Widens only script script
  | store (key : String) (v : Value) (f : Frame) : only →
      Widens only (.ask (.define key v) fun _ => .done f) (.ask (.assign key v) fun _ => .done f)

theorem Instruction.Widens.perform {i i' : Instruction} (h : i.Widens i') {only : Prop}
    (here : only) (context : Context) (length : Nat) (f : Frame) :
    Script.Widens only (i.perform context length f) (i'.perform context length f) := by
  cases h with
  | same => exact .same _
  | store key =>
      obtain ⟨next, _ | ⟨v, stack⟩⟩ := f
      · exact .same _
      · exact .store key v ⟨next, stack⟩ here

/-- The same activation, or one on this store, with code that writes to the nearest scope in place
of code that writes to the local scope. -/
inductive Activation.Widens (store : StoreId) : Activation → Activation → Prop where
  | same (a : Activation) : Widens store a a
  | code {a : Activation} {code' : Code} : a.store = store → a.code.Widens code' →
      Widens store a { a with code := code' }

/-- Activations that wait for the same command and then go on alike. -/
inductive Caller.Widens (store : StoreId) : Caller → Caller → Prop where
  | mk {a a' : Activation} (command : ObjectId) (rest : Script Frame) : a.Widens store a' →
      Widens store ⟨a, command, rest⟩ ⟨a', command, rest⟩

/-- Runs with the same completion. -/
inductive Run.Widens (store : StoreId) : Run → Run → Prop where
  | mk {a a' : Activation} {callers callers' : List Caller} (completion : Completion) :
      a.Widens store a' → List.Forall₂ (Caller.Widens store) callers callers' →
      Widens store ⟨a, callers, completion⟩ ⟨a', callers', completion⟩

/-- The same task, or code is run on this store where the other runs the code that has its place. -/
inductive Task.Widens (store : StoreId) : Task → Task → Prop where
  | same (task : Task) : Widens store task task
  | execute {code code' : Code} (host : Option Host) (parameter? : Option Value)
      (delivered : Value) (label? : Option String) : code.Widens code' →
      Widens store (.operate (.execute (.code code) store host parameter?) delivered label?)
        (.operate (.execute (.code code') store host parameter?) delivered label?)
  | run {r r' : Run} : r.Widens store r' → Widens store (.run r) (.run r')
  | proceed {r r' : Run} {script script' : Script Frame} : r.Widens store r' →
      script.Widens (r.activation.store = store) script' →
      Widens store (.proceed r script) (.proceed r' script')

/-- The same network, with tasks that have each other's place. -/
def Followed.Widens (store : StoreId) (followed followed' : Followed) : Prop :=
  followed'.1 = followed.1 ∧ List.Forall₂ (Task.Widens store) followed.2 followed'.2

variable {store : StoreId} {net : Network}

theorem Task.widens_same (tasks : List Task) : List.Forall₂ (Widens store) tasks tasks :=
  List.forall₂_same.mpr fun task _ => .same task

theorem Followed.Widens.same (followed : Followed) : followed.Widens store followed :=
  ⟨rfl, Task.widens_same followed.2⟩

theorem Followed.Widens.single {task task' : Task} (h : task.Widens store task') :
    Followed.Widens store (net, [task]) (net, [task']) :=
  ⟨rfl, .cons h .nil⟩

theorem Activation.Widens.standingAt {a a' : Activation} (h : a.Widens store a') (f : Frame) :
    Activation.Widens store { a with frame := f } { a' with frame := f } := by
  cases h with
  | same => exact .same _
  | code here widens => exact .code here widens

theorem Activation.Widens.holding_eq {a a' : Activation} (h : a.Widens store a') :
    Holding.ofActivation a' = Holding.ofActivation a := by
  cases h with
  | same => rfl
  | code _ widens => simp only [Holding.ofActivation, Holding.ofCode, widens.literals_eq]

/-- Whatever the next instruction is, both go on alike, or both are at the end of their code. -/
theorem Activation.Widens.perform {a a' : Activation} (h : a.Widens store a') :
    Option.Rel (fun i i' => ∀ f : Frame, Script.Widens (a.store = store)
        (i.perform a.context a.code.length f) (i'.perform a'.context a'.code.length f))
      a.code[a.frame.next]? a'.code[a'.frame.next]? := by
  cases h with
  | same =>
      cases a.code[a.frame.next]? with
      | none => exact .none
      | some i => exact .some fun _ => .same _
  | @code code' here widens =>
      have next := widens.getElem? a.frame.next
      rw [widens.length_eq]
      generalize a.code[a.frame.next]? = i?, code'[a.frame.next]? = i?' at next ⊢
      cases next with
      | none => exact .none
      | some widens => exact .some fun f => widens.perform here _ _ f

namespace Run.Widens

variable {r r' : Run}

theorem place (h : r.Widens store r') : r'.activation.store = r.activation.store ∧
    r'.activation.fallback = r.activation.fallback := by
  cases h with
  | mk _ activation => cases activation <;> exact ⟨rfl, rfl⟩

theorem standingAt (h : r.Widens store r') (f : Frame) :
    (r.standingAt f).Widens store (r'.standingAt f) := by
  cases h with
  | mk completion activation callers => exact .mk completion (activation.standingAt f) callers

theorem conclude (h : r.Widens store r') (net : Network) (result : Except Failure Outcome) :
    Followed.Widens store (net.conclude result r.completion)
      (net.conclude result r'.completion) := by
  cases h
  exact .same _

theorem advance (h : r.Widens store r') (net : Network) :
    (net.advance r).Widens store (net.advance r') := by
  cases h with
  | @mk a a' callers callers' completion activation waiting =>
      have next := activation.perform
      unfold Network.advance
      dsimp only
      generalize a.code[a.frame.next]? = i?, a'.code[a'.frame.next]? = i?' at next ⊢
      cases next with
      | some performed =>
          have same : a'.frame = a.frame := by cases activation <;> rfl
          refine .single (.proceed (.mk completion activation waiting) ?_)
          rw [same]
          exact performed _
      | none =>
          cases waiting with
          | nil =>
              have same : a'.frame = a.frame := by cases activation <;> rfl
              dsimp only
              rw [same]
              exact .same _
          | cons caller waiting =>
              cases caller with
              | mk command rest activation =>
                  exact .single (.proceed (.mk completion activation waiting) (.same rest))

theorem invoke (h : r.Widens store r') (net : Network) (id : ObjectId) (argument : Value)
    (rest : Script Frame) :
    (net.invoke r id argument rest).Widens store (net.invoke r' id argument rest) := by
  unfold Network.invoke
  cases net.command? id with
  | none => exact .single (.proceed h (.same rest))
  | some command =>
      cases command with
      | report label => exact .single (.proceed h (.same rest))
      | reject text => exact h.conclude net _
      | program p =>
          cases h with
          | mk completion activation callers =>
              have waiting := callers.cons (.mk id rest activation)
              exact .single (.run (.mk completion (.same _) waiting))

theorem proceed (h : r.Widens store r') (alone : net.Alone store) {script script' : Script Frame}
    (going : script.Widens (r.activation.store = store) script') :
    (net.proceed r script).Widens store (net.proceed r' script') := by
  cases going with
  | store key v f here =>
      have written : net.answer r'.activation.store r'.activation.fallback (.assign key v) =
          net.answer r.activation.store r.activation.fallback (.define key v) := by
        show some ((), net.assign r'.activation.store key v) =
          some ((), net.set r.activation.store key v)
        rw [h.place.1, here, alone.assign_eq]
      simp only [Network.proceed, written]
      exact ⟨rfl, List.rel_append (Task.widens_same _)
        (.cons (.same _) (.cons (.run (h.standingAt f)) .nil))⟩
  | same =>
      cases script with
      | done f => exact .single (.run (h.standingAt f))
      | fail e => exact h.conclude net _
      | invoke id argument next => exact h.invoke net id argument next
      | ask request next =>
          simp only [Network.proceed, h.place]
          cases net.answer r.activation.store r.activation.fallback request with
          | none => exact .single (.proceed h (.same _))
          | some answered =>
              obtain ⟨answer, net', callbacks⟩ := answered
              refine ⟨rfl, List.rel_append (Task.widens_same _) ?_⟩
              cases next answer with
              | done f => exact .cons (.same _) (.cons (.run (h.standingAt f)) .nil)
              | _ => exact .cons (.proceed h (.same _)) .nil

/-- They hold on to the same things. -/
theorem holding_eq (h : r.Widens store r') : Holding.ofRun r' = Holding.ofRun r := by
  cases h with
  | mk _ activation callers =>
      simp only [Holding.ofRun, activation.holding_eq]
      refine congrArg _ (flatMap_eq_of_forall₂ callers fun caller caller' widens => ?_).symm
      cases widens with
      | mk _ _ activation => rw [activation.holding_eq]

end Run.Widens

namespace Task.Widens

variable {task task' : Task}

theorem perform (h : task.Widens store task') (alone : net.Alone store) :
    (task.perform net).Widens store (task'.perform net) := by
  cases h with
  | same => exact .same _
  | execute _ _ _ _ widens => exact .single (.run (.mk _ (.code rfl widens) .nil))
  | run h => exact h.advance net
  | proceed h going => exact h.proceed alone going

theorem holding_eq (h : task.Widens store task') : Holding.ofTask task' = Holding.ofTask task := by
  cases h with
  | same | execute => rfl
  | run h | proceed h => exact h.holding_eq

end Task.Widens

/-- Calls a callback or an observer. -/
def Task.tells : Task → Bool
  | .notify _ | .deliver .. | .complete _ => true
  | _ => false

/-- The calls of callbacks and observers among the next steps, in their order. -/
def Propagation.told : Nat → Propagation → List Task
  | 0, _ => []
  | n + 1, p => (p.agenda.head?.filter Task.tells).toList ++ told n p.step

/-- After any number of steps the networks are equal, the same has been called in the same order,
and either both are done or neither is. -/
structure Propagation.SameCourse (p p' : Propagation) : Prop where
  net : ∀ n, (p'.skip n).net = (p.skip n).net
  told : ∀ n, p'.told n = p.told n
  done : ∀ n, (p'.skip n).agenda.isEmpty = (p.skip n).agenda.isEmpty

/-- The same network, with tasks to be done that have each other's place. -/
structure Propagation.Widens (store : StoreId) (p p' : Propagation) : Prop where
  net : p'.net = p.net
  alone : p.net.Alone store
  agenda : List.Forall₂ (Task.Widens store) p.agenda p'.agenda

namespace Propagation.Widens

variable {p p' : Propagation}

theorem step (h : p.Widens store p') : p.step.Widens store p'.step := by
  obtain ⟨net, agenda⟩ := p
  obtain ⟨net', agenda'⟩ := p'
  obtain ⟨rfl, alone, tasks⟩ := h
  cases tasks with
  | nil => exact ⟨rfl, alone, .nil⟩
  | @cons task task' rest rest' first tasks =>
      obtain ⟨same, follow⟩ := first.perform alone
      have agenda := List.rel_append follow tasks
      have held := flatMap_eq_of_forall₂ agenda fun _ _ widens => widens.holding_eq.symm
      refine ⟨?_, ?_, agenda⟩
      · show (task'.perform net').1.release ((task'.perform net').2 ++ rest') =
          (task.perform net').1.release ((task.perform net').2 ++ rest)
        rw [same]
        exact Network.release_congr _ held.symm
      · exact ((sameScopes_step ⟨net', task :: rest⟩).chain store).trans alone

/-- Nothing is left to be done on the one side when nothing is left on the other. -/
theorem isEmpty_eq (h : p.Widens store p') : p'.agenda.isEmpty = p.agenda.isEmpty := by
  obtain ⟨net, agenda⟩ := p
  obtain ⟨net', agenda'⟩ := p'
  cases h.agenda <;> rfl

theorem skip (h : p.Widens store p') (n : Nat) : (p.skip n).Widens store (p'.skip n) := by
  induction n generalizing p p' with
  | zero => exact h
  | succ n ih => exact ih h.step

theorem drive_eq (h : p.Widens store p') (n : Nat) : p'.drive n = p.drive n := by
  induction n generalizing p p' with
  | zero => simp only [drive, h.isEmpty_eq, h.net]
  | succ n ih => simp only [drive, h.isEmpty_eq, h.net, ih h.step]

theorem told_eq (h : p.Widens store p') (n : Nat) : p'.told n = p.told n := by
  induction n generalizing p p' with
  | zero => rfl
  | succ n ih =>
      have first : p'.agenda.head?.filter Task.tells = p.agenda.head?.filter Task.tells := by
        obtain ⟨net, agenda⟩ := p
        obtain ⟨net', agenda'⟩ := p'
        cases h.agenda with
        | nil => rfl
        | cons first _ => cases first <;> rfl
      rw [Propagation.told, Propagation.told, first, ih h.step]

theorem sameCourse (h : p.Widens store p') : p.SameCourse p' :=
  ⟨fun n => (h.skip n).net, h.told_eq, fun n => (h.skip n).isEmpty_eq⟩

end Propagation.Widens

/-- A store is asked to run code, before whatever else is to be done. -/
def Code.asked (code : Code) (net : Network) (store : StoreId) (host : Option Host)
    (parameter? : Option Value) (delivered : Value) (label? : Option String) (rest : List Task) :
    Propagation :=
  ⟨net, .operate (.execute (.code code) store host parameter?) delivered label? :: rest⟩

theorem Code.Widens.asked {code code' : Code} (h : code.Widens code') (alone : net.Alone store)
    (host : Option Host) (parameter? : Option Value) (delivered : Value) (label? : Option String)
    (rest : List Task) :
    Propagation.Widens store (code.asked net store host parameter? delivered label? rest)
      (code'.asked net store host parameter? delivered label? rest) :=
  ⟨rfl, alone, .cons (.execute host parameter? delivered label? h) (Task.widens_same rest)⟩

/-- The two modes accept the same and give code that differs in the stores only. On a store without
ancestors, whatever is attached to it, both do the same step by step. -/
theorem Code.modes_agree (tokens : List Token) :
    ofTokens .nearest tokens = (ofTokens .direct tokens).map (List.map Instruction.widened) ∧
    ∀ code code', ofTokens .direct tokens = .ok code → ofTokens .nearest tokens = .ok code' →
      ∀ (net : Network) (store : StoreId) (host : Option Host) (parameter? : Option Value),
        net.Alone store →
        net.perform (.execute (.code code') store host parameter?) =
          net.perform (.execute (.code code) store host parameter?) ∧
        ∀ (delivered : Value) (label? : Option String) (rest : List Task),
          (code.asked net store host parameter? delivered label? rest).SameCourse
            (code'.asked net store host parameter? delivered label? rest) := by
  obtain ⟨e, direct, nearest⟩ | ⟨_, _, direct, nearest, widens⟩ := Code.widens_of_ofTokens tokens
  · refine ⟨by rw [direct, nearest]; rfl, fun code code' compiled => ?_⟩
    cases direct.symm.trans compiled
  · refine ⟨by rw [direct, nearest, widens.eq_widened]; rfl, ?_⟩
    intro code code' compiled compiled' net store host parameter? alone
    cases direct.symm.trans compiled
    cases nearest.symm.trans compiled'
    refine ⟨?_, fun delivered label? rest => ?_⟩
    · have begun : Network.Alone { net with events := [], returned := none } store := alone
      exact (widens.asked begun host parameter? .null none []).drive_eq Network.patience
    · exact (widens.asked alone host parameter? delivered label? rest).sameCourse

/-- The tokens of `$b = $a`. -/
def copyTokens : List Token :=
  [.ofKind .dollar, .identifier "b", .ofKind .equals, .ofKind .dollar, .identifier "a"]

/-- Their code for the local scope. -/
def copyCode : Code :=
  [.keyed .getResource "$a", .keyedWith .directSetResource "$b" (.sentinel .last),
    .keyed .getResource "$b"]

/-- A store has `$a`, and somebody watches `$b`. -/
def watchingB : Network := ((oneSlot.ask (.watch 0 "$b" "w" none)).skip 1).net

theorem Code.modes_agree_copyTokens : ∃ code' : Code,
    ofTokens .direct copyTokens = .ok copyCode ∧ ofTokens .nearest copyTokens = .ok code' ∧
    code'.map Instruction.op = [.getResource, .setResource, .getResource] ∧
    (code'.asked watchingB 0 none none .null none []).told 12 = [.notify (.report "w" none)] ∧
    ((code'.asked watchingB 0 none none .null none []).skip 12).net.slot? 0 "$b" =
      some (.int32 0) ∧
    ((code'.asked watchingB 0 none none .null none []).skip 12).agenda.isEmpty = true := by
  obtain ⟨modes, agree⟩ := Code.modes_agree copyTokens
  have direct : ofTokens .direct copyTokens = .ok copyCode := rfl
  rw [direct] at modes
  obtain ⟨net, told, done⟩ :=
    (agree copyCode _ direct modes watchingB 0 none none rfl).2 .null none []
  have calls : (copyCode.asked watchingB 0 none none .null none []).told 12 =
      [.notify (.report "w" none)] := rfl
  have ended : ((copyCode.asked watchingB 0 none none .null none []).skip 12).agenda.isEmpty =
      true := by decide +kernel
  have copied : ((copyCode.asked watchingB 0 none none .null none []).skip 12).net.slot? 0 "$b" =
      some (.int32 0) := rfl
  exact ⟨_, direct, modes, rfl, (told 12).trans calls, net 12 ▸ copied, (done 12).trans ended⟩

end SlotScript
