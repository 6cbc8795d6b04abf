import SlotScript.Proofs.Compiler.Correctness
import SlotScript.Proofs.Network.Waiting

/-! # Tasks that come to an end

Tasks settle if they are done at some time, whatever is still to be done after them, or if a run
comes to wait for itself before that. Compiled code leads forward, so a run of it settles if those
it tells on its way do. What has to be known of the network meanwhile is left open: it is any
property that lasts. A run that waits for itself does so forever, and nothing else is done.
-/

namespace SlotScript

namespace Network

variable {I J : Network → Prop} {net : Network} {tasks : List Task}

/-- Whatever is to be done afterwards, these tasks are done at some time, and then the network has a
property. Or else a run comes to wait for itself. -/
def Settles (I : Network → Prop) (net : Network) (tasks : List Task) : Prop :=
  ∀ rest, (∃ net', I net' ∧ Propagation.Leads ⟨net, tasks ++ rest⟩ ⟨net', rest⟩) ∨
    ∃ p, p.Waits ∧ Propagation.Leads ⟨net, tasks ++ rest⟩ p

namespace Settles

theorem nil (h : I net) : Settles I net [] :=
  fun _ => .inl ⟨net, h, .here _⟩

theorem waits {task : Task} (h : ∀ rest, Propagation.Waits ⟨net, task :: rest⟩) :
    Settles I net [task] :=
  fun rest => .inr ⟨_, h rest, .here _⟩

theorem append {more : List Task} (first : Settles J net tasks)
    (second : ∀ net', J net' → Settles I net' more) : Settles I net (tasks ++ more) := by
  intro rest
  rw [List.append_assoc]
  obtain ⟨net', holds, leads⟩ | ⟨p, waits, leads⟩ := first (more ++ rest)
  · obtain ⟨net'', holds', leads'⟩ | ⟨p, waits, leads'⟩ := second net' holds rest
    · exact .inl ⟨net'', holds', leads.trans leads'⟩
    · exact .inr ⟨p, waits, leads.trans leads'⟩
  · exact .inr ⟨p, waits, leads⟩

/-- A task settles if what follows from it does. -/
theorem task {task : Task}
    (h : ∀ agenda, Settles I ((task.perform net).1.release agenda) (task.perform net).2) :
    Settles I net [task] := by
  intro behind
  obtain ⟨net', holds, leads⟩ | ⟨p, waits, leads⟩ := h ((task.perform net).2 ++ behind) behind
  · exact .inl ⟨net', holds, .step leads⟩
  · exact .inr ⟨p, waits, .step leads⟩

theorem all (holds : J net) (h : ∀ task ∈ tasks, ∀ net, J net → Settles J net [task]) :
    Settles J net tasks := by
  induction tasks generalizing net with
  | nil => exact .nil holds
  | cons task tasks ih =>
      have first := h task (.head _) net holds
      exact first.append fun net' holds' => ih holds' fun t member => h t (.tail _ member)

/-- What settles returns unless a run comes to wait for itself. -/
theorem returns (h : Settles I net tasks)
    (answered : ∀ p, Propagation.Leads ⟨net, tasks⟩ p → ¬ p.Waits) :
    ∃ steps net', Propagation.drive steps ⟨net, tasks⟩ = some net' ∧ I net' := by
  obtain ⟨net', holds, leads⟩ | ⟨p, waits, leads⟩ := h []
  · rw [List.append_nil] at leads
    obtain ⟨steps, driven⟩ := leads.drive rfl
    exact ⟨steps, net', driven, holds⟩
  · rw [List.append_nil] at leads
    exact (answered p leads waits).elim

end Settles

/-- While a property lasts, runs can ask for anything, and those who are told settle. -/
structure Carries (J : Network → Prop) : Prop where
  release {net : Network} (agenda : List Task) : J net → J (net.release agenda)
  answer {net : Network} {store : StoreId} {fallback : List StoreId} {r : Request}
    {x : r.Answer × Changed} : J net → net.answer store fallback r = some x →
    J x.2.1 ∧ ∀ callback ∈ x.2.2, ∀ net', J net' → Settles J net' [.notify callback]

/-- The end of a run settles, whatever its result. -/
def EndsWell (J I : Network → Prop) (completion : Completion) : Prop :=
  ∀ net result, J net → ∀ agenda, Settles I ((net.conclude result completion).1.release agenda)
    (net.conclude result completion).2

end Network

/-- Code that comes from tokens. -/
def Code.Compiled (code : Code) : Prop :=
  ∃ mode tokens, Code.ofTokens mode tokens = .ok code

theorem Code.Compiled.keeps {code : Code} (compiled : code.Compiled) :
    ∃ depth, Code.Keeps code.length depth 0 code ∧ depth 0 = 0 := by
  obtain ⟨mode, tokens, compiled⟩ := compiled
  obtain ⟨program, -, rfl⟩ := Code.eq_emit_of_ofTokens compiled
  exact ⟨program.depthAt, program.keeps_emit mode, program.depthAt_zero⟩

open Network

variable {I J : Network → Prop} {r : Run}

/-- An instruction settles if the run settles wherever the instruction leads. -/
theorem Run.settles_proceed (carries : Carries J) (ends : EndsWell J I r.completion)
    {script : Script Frame} (asks : script.Asks fun _ => True) (f : Frame)
    (later : ∀ es f', script.Made es (.done f') → (∀ x ∈ es, x.Possible) → ∀ net, J net →
      Settles I net [.run (r.standingAt f')])
    {net : Network} (holds : J net) : Settles I net [.proceed (r.standingAt f) script] := by
  induction script generalizing net with
  | done f' =>
      refine .task fun agenda => ?_
      exact later [] f' (.none _) (List.forall_mem_nil _) _ (carries.release agenda holds)
  | fail e => exact .task (ends net _ holds)
  | invoke => exact asks.elim
  | ask request next ih =>
      cases answered : net.answer (r.standingAt f).activation.store
          (r.standingAt f).activation.fallback request with
      | none => exact .waits fun rest => .of_unanswered answered rest
      | some result =>
          obtain ⟨answer, net', callbacks⟩ := result
          have possible := Network.answer_possible answered
          obtain ⟨holds', told⟩ := carries.answer holds answered
          refine .task fun agenda => ?_
          rw [show Task.perform net (.proceed (r.standingAt f) (.ask request next)) = _ from
            Network.proceed_answered answered]
          have notified : Settles J (net'.release agenda) (callbacks.map .notify) := by
            refine .all (carries.release agenda holds') ?_
            rintro _ member
            obtain ⟨callback, called, rfl⟩ := List.mem_map.mp member
            exact told callback called
          refine notified.append fun net'' holds'' => ?_
          have onward (es : List Exchange) (f' : Frame) (made : (next answer).Made es (.done f'))
              (others : ∀ x ∈ es, x.Possible) :=
            later _ f' (.one made) (List.forall_mem_cons.mpr ⟨possible, others⟩)
          cases left : next answer with
          | done f' =>
              have released : Settles J net'' [.letGo (Holding.ofValues (atHand request))] :=
                .task fun agenda => .nil (carries.release agenda holds'')
              refine released.append fun net holds => ?_
              exact onward [] f' (left ▸ .none _) (List.forall_mem_nil _) net holds
          | _ =>
              have continued := ih answer (asks.2 answer) onward holds''
              rw [left] at continued
              exact continued

/-- From anywhere on its path, a run of code that leads forward settles. -/
theorem Run.settles_path (carries : Carries J) (ends : EndsWell J I r.completion)
    (alone : r.callers = []) {depth : Nat → Nat}
    (keeps : Code.Keeps r.activation.code.length depth 0 r.activation.code) (empty : depth 0 = 0)
    (n : Nat) {frames : List Frame} {es : List Exchange} {f : Frame}
    (path : r.activation.code.Path r.activation.context frames es f)
    (possible : ∀ x ∈ es, x.Possible) (near : r.activation.code.length ≤ frames.length + n)
    {net : Network} (holds : J net) : Settles I net [.run (r.standingAt f)] := by
  induction n generalizing frames es f net with
  | zero =>
      obtain ⟨-, steps, bounded, -⟩ := path.keeps keeps empty possible
      have at_end : r.activation.code[f.next]? = none :=
        List.getElem?_eq_none (Nat.le_trans near steps)
      refine .task fun agenda => ?_
      rw [Network.perform_run_last (r := r.standingAt f) at_end alone]
      exact ends net _ holds agenda
  | succ n ih =>
      refine .task fun agenda => ?_
      cases at_f : r.activation.code[f.next]? with
      | none =>
          rw [Network.perform_run_last (r := r.standingAt f) at_f alone]
          exact ends net _ holds agenda
      | some i =>
          rw [Network.perform_run_next (r := r.standingAt f) at_f]
          have commandless := keeps.commandless i (List.mem_of_getElem? at_f)
          have asks : (i.perform r.activation.context r.activation.code.length
              { f with next := f.next + 1 }).Asks fun _ => True :=
            (Instruction.perform_asks commandless _).mono fun _ _ => trivial
          refine settles_proceed carries ends asks f ?_ (carries.release agenda holds)
          intro es' f' made others net' holds'
          refine ih (.step path at_f made) ?_ ?_ holds'
          · exact List.forall_mem_append.mpr ⟨possible, others⟩
          · rw [List.length_append, List.length_singleton]
            omega

/-- A run of compiled code settles from its start on. -/
theorem Run.settles (carries : Carries J) (ends : EndsWell J I r.completion)
    (alone : r.callers = []) (compiled : r.activation.code.Compiled)
    (fresh : r.activation.frame = .start) {net : Network} (holds : J net) :
    Settles I net [.run r] := by
  obtain ⟨depth, keeps, empty⟩ := compiled.keeps
  have standing : r.standingAt .start = r := by
    rw [standingAt, ← fresh]
  rw [← standing]
  exact settles_path carries ends alone keeps empty _ .start (List.forall_mem_nil _)
    (Nat.le_add_left _ _) holds

end SlotScript
