import SlotScript.Network.Propagation
import SlotScript.Proofs.Machine.Failure
import SlotScript.Proofs.Machine.Path
import SlotScript.Proofs.Machine.Requests
import SlotScript.Proofs.Network.Cases
import SlotScript.Proofs.Network.Elements

/-! # The course of a run in a network

While a run is under way its task stands in the agenda right before what was to be done anyway, and
above it stands whatever its writes have brought about: callbacks, and runs of other code. A course
follows one run through all this and logs the tasks of the run alone. In the log the run takes one
path through its code, whoever else was told, ran or wrote in between.
-/

namespace SlotScript

namespace Task

/-- What a task asks of the network, with the answer it is about to get, if there ever is one. -/
def exchange? (net : Network) : Task → Option Exchange
  | .proceed r (.ask request _) =>
    (net.answer r.activation.store r.activation.fallback request).map fun x => ⟨request, x.1⟩
  | _ => none

/-- The frame of a run before an instruction. -/
def frame? : Task → Option Frame
  | .run r => some r.activation.frame
  | _ => none

/-- How a run ends with a task, if it does: with a final frame or with an error. -/
def ending? : Task → Option (Except RuntimeError Frame)
  | .run r =>
    match r.activation.code[r.activation.frame.next]? with
    | some _ => none
    | none => some (.ok r.activation.frame)
  | .proceed _ (.fail e) => some (.error e)
  | _ => none

end Task

/-- A run is started with `rest` to be done after it. The log has the tasks of the run itself, each
with the network it found; other tasks are done while they stand above it. -/
inductive Course (rest : List Task) (p : Propagation) :
    List (Network × Task) → Propagation → Prop where
  | start : Course rest p [] p
  | own {log : List (Network × Task)} {q : Propagation} {task : Task} :
      Course rest p log q → q.agenda = task :: rest → task.ending? = none →
      Course rest p (log ++ [(q.net, task)]) q.step
  | other {log : List (Network × Task)} {q : Propagation} {task own : Task} {above : List Task} :
      Course rest p log q → q.agenda = task :: (above ++ own :: rest) → Course rest p log q.step

namespace Course

/-- Everything the run asked, with the answers. -/
def exchanges (log : List (Network × Task)) : List Exchange :=
  log.filterMap fun (net, task) => task.exchange? net

/-- The frames at which the run stood before its instructions. -/
def frames (log : List (Network × Task)) : List Frame :=
  log.filterMap fun (_, task) => task.frame?

theorem exchanges_append (log : List (Network × Task)) (net : Network) (task : Task) :
    exchanges (log ++ [(net, task)]) = exchanges log ++ (task.exchange? net).toList := by
  simp only [exchanges, List.filterMap_append]
  cases h : task.exchange? net <;> simp [h]

theorem frames_append (log : List (Network × Task)) (net : Network) (task : Task) :
    frames (log ++ [(net, task)]) = frames log ++ task.frame?.toList := by
  simp only [frames, List.filterMap_append]
  cases h : task.frame? <;> simp [h]

end Course

theorem Propagation.step_eq {p : Propagation} {task : Task} {rest : List Task}
    (h : p.agenda = task :: rest) :
    p.step = ⟨(task.perform p.net).1.release ((task.perform p.net).2 ++ rest),
      (task.perform p.net).2 ++ rest⟩ := by
  simp only [Propagation.step, h]

/-- A step does the first task and leaves the others where they are. -/
theorem Propagation.agenda_step {p : Propagation} {task : Task} {rest : List Task}
    (h : p.agenda = task :: rest) : p.step.agenda = (task.perform p.net).2 ++ rest := by
  simp only [Propagation.step, h]

/-- Where the task of a run stands after a path: between two instructions, or within one. -/
inductive Run.Stands (r : Run) : List Frame → List Exchange → Task → Prop where
  | between {frames : List Frame} {es : List Exchange} {f : Frame} :
      r.activation.code.Path r.activation.context frames es f →
      r.Stands frames es (.run (r.standingAt f))
  | within {frames : List Frame} {es es' : List Exchange} {f : Frame} {i : Instruction}
      {script : Script Frame} :
      r.activation.code.Path r.activation.context frames es f →
      r.activation.code[f.next]? = some i →
      (i.perform r.activation.context r.activation.code.length { f with next := f.next + 1 }).Made
        es' script →
      r.Stands (frames ++ [f]) (es ++ es') (.proceed (r.standingAt f) script)

namespace Run

variable {r : Run}

/-- What the script of the whole code has left when a run of it stands at a task. -/
theorem Stands.left {frames : List Frame} {es : List Exchange} {task : Task}
    (stands : r.Stands frames es task) :
    ∃ left, (r.activation.code.run r.activation.context
        (frames.length + r.activation.code.length) .start).Made es left ∧
      ∀ result, task.ending? = some result → left = Script.ofExcept (result.map some) := by
  cases stands with
  | @between _ _ f path =>
      refine ⟨_, path.run _, ?_⟩
      intro result ended
      cases behind : r.activation.code[f.next]? with
      | some i => simp [Task.ending?, standingAt, behind] at ended
      | none =>
          obtain rfl : .ok f = result := by simpa [Task.ending?, standingAt, behind] using ended
          rw [Code.run_end behind]
          rfl
  | @within frames es es' f i script path at_f made =>
      have run := path.run (1 + r.activation.code.length)
      rw [← Nat.add_assoc, Nat.add_comm 1, Code.run_succ at_f] at run
      rw [List.length_append, List.length_singleton]
      refine ⟨_, run.append (made.bind _), ?_⟩
      intro result ended
      cases script with
      | fail e =>
          cases ended
          rfl
      | done | ask | invoke => cases ended

/-- A task of a run that does not end it is followed by a task of the run, above which stands what
the request of the task brought about. -/
theorem Stands.perform (commandless : ∀ i ∈ r.activation.code, i.op ≠ .invokeResource)
    {frames : List Frame} {es : List Exchange} {task : Task} (stands : r.Stands frames es task)
    (unfinished : task.ending? = none) (net : Network) :
    ∃ above own, (task.perform net).2 = above ++ [own] ∧
      r.Stands (frames ++ task.frame?.toList) (es ++ (task.exchange? net).toList) own := by
  cases stands with
  | @between _ _ f path =>
      cases at_f : r.activation.code[f.next]? with
      | none => simp [Task.ending?, standingAt, at_f] at unfinished
      | some i =>
          refine ⟨[], _, ?_, .within path at_f (.none _)⟩
          rw [Network.perform_run_next (r := r.standingAt f) at_f]
          rfl
  | @within frames es es' f i script path at_f made =>
      cases script with
      | done f' =>
          refine ⟨[], .run (r.standingAt f'), rfl, ?_⟩
          simp only [Task.frame?, Task.exchange?, Option.toList, List.append_nil]
          exact .between (.step path at_f made)
      | fail e => simp [Task.ending?] at unfinished
      | invoke id argument next =>
          have other := commandless i (List.mem_of_getElem? at_f)
          exact ((Instruction.perform_asks other _).made made).2.elim
      | ask request next =>
          simp only [Task.frame?, Task.exchange?, Option.toList_none, List.append_nil,
            List.append_assoc]
          show ∃ above own,
            (net.proceed (r.standingAt f) (.ask request next)).2 = above ++ [own] ∧ _
          refine Network.ask_cases (fun never => ?_)
            (fun answer net' callbacks f' answered left => ?_)
            fun answer net' callbacks answered _ => ?_
          · rw [never]
            exact ⟨[], _, rfl, .within path at_f (by simpa using made)⟩
          · have made := made.append (.one (.none (next answer)))
            rw [left] at made
            rw [answered]
            exact ⟨_, .run (r.standingAt f'), (List.append_assoc _ [_] [_]).symm,
              .between (.step path at_f made)⟩
          · rw [answered]
            exact ⟨_, _, rfl, .within path at_f (made.append (.one (.none (next answer))))⟩

/-- When a run ends that nothing else waits for, its completion gets the result. -/
theorem Stands.perform_last {frames : List Frame} {es : List Exchange} {task : Task}
    (stands : r.Stands frames es task) (alone : r.callers = []) {result : Except RuntimeError Frame}
    (ended : task.ending? = some result) (net : Network) :
    task.perform net =
      net.conclude ((result.map Frame.outcome).mapError .runtime) r.completion := by
  cases stands with
  | @between _ _ f path =>
      cases last : r.activation.code[f.next]? with
      | some i => simp [Task.ending?, standingAt, last] at ended
      | none =>
          obtain rfl : .ok f = result := by simpa [Task.ending?, standingAt, last] using ended
          exact Network.perform_run_last (r := r.standingAt f) last alone net
  | @within _ _ _ _ _ script =>
      cases script with
      | fail e =>
          cases ended
          rfl
      | done | ask | invoke => cases ended

end Run

/-- What is right above `rest` is what is on top if nothing else is above `rest`. -/
theorem eq_of_agenda {above rest : List Task} {own task : Task}
    (agenda : above ++ own :: rest = task :: rest) : above = [] ∧ own = task := by
  cases above with
  | nil => exact ⟨rfl, (List.cons.inj agenda).1⟩
  | cons first above =>
      have longer := congrArg List.length agenda
      simp only [List.length_cons, List.cons_append, List.length_append] at longer
      omega

/-- What each task of a run keeps, whatever network it finds, the run keeps in its course. -/
theorem Course.keeps {r : Run} {I : List (Network × Task) → Task → Prop} (start : I [] (.run r))
    (step : ∀ {log task} (net : Network), I log task → task.ending? = none →
      ∃ above own, (task.perform net).2 = above ++ [own] ∧ I (log ++ [(net, task)]) own)
    {rest : List Task} {net : Network} {log : List (Network × Task)} {p : Propagation}
    (course : Course rest ⟨net, .run r :: rest⟩ log p) :
    ∃ above own, p.agenda = above ++ own :: rest ∧ I log own := by
  induction course with
  | start => exact ⟨[], .run r, rfl, start⟩
  | @own log q task _ at_top unfinished ih =>
      obtain ⟨above, own, agenda, kept⟩ := ih
      obtain ⟨rfl, rfl⟩ := eq_of_agenda (agenda.symm.trans at_top)
      obtain ⟨above, next, performed, kept⟩ := step q.net kept unfinished
      refine ⟨above, next, ?_, kept⟩
      rw [Propagation.agenda_step at_top, performed, List.append_assoc]
      rfl
  | @other log q task _ above _ at_top ih =>
      obtain ⟨above', own, agenda, kept⟩ := ih
      cases above' with
      | nil =>
          have := congrArg List.length (at_top.symm.trans agenda)
          simp only [List.length_cons, List.nil_append, List.length_append] at this
          omega
      | cons first above' =>
          obtain ⟨rfl, behind⟩ := List.cons.inj (at_top.symm.trans agenda)
          refine ⟨(task.perform q.net).2 ++ above', own, ?_, kept⟩
          rw [Propagation.agenda_step at_top, behind, List.append_assoc]
          rfl

theorem Run.Stands.start {r : Run} (fresh : r.activation.frame = .start) :
    r.Stands [] [] (.run r) := by
  have standing : r.standingAt .start = r := by
    rw [standingAt, ← fresh]
  have stands : r.Stands [] [] (.run (r.standingAt .start)) := .between .start
  rwa [standing] at stands

/-- In a course the run takes a path through its code. -/
theorem Course.stands {r : Run} (commandless : ∀ i ∈ r.activation.code, i.op ≠ .invokeResource)
    (fresh : r.activation.frame = .start) {rest : List Task} {net : Network}
    {log : List (Network × Task)} {p : Propagation}
    (course : Course rest ⟨net, .run r :: rest⟩ log p) :
    ∃ above own, p.agenda = above ++ own :: rest ∧
      r.Stands (frames log) (exchanges log) own := by
  refine course.keeps (I := fun log own => r.Stands (frames log) (exchanges log) own)
    (Run.Stands.start fresh) ?_
  intro log task net stands unfinished
  rw [frames_append, exchanges_append]
  exact stands.perform commandless unfinished net

/-- When nothing is above it, the task of the run is on top. -/
theorem Course.stands_on_top {r : Run}
    (commandless : ∀ i ∈ r.activation.code, i.op ≠ .invokeResource)
    (fresh : r.activation.frame = .start) {rest : List Task} {net : Network}
    {log : List (Network × Task)} {p : Propagation} {task : Task}
    (course : Course rest ⟨net, .run r :: rest⟩ log p) (at_top : p.agenda = task :: rest) :
    r.Stands (frames log) (exchanges log) task := by
  obtain ⟨above, own, agenda, stands⟩ := course.stands commandless fresh
  obtain ⟨-, rfl⟩ := eq_of_agenda (agenda.symm.trans at_top)
  exact stands

theorem Network.answer_possible {net : Network} {store : StoreId} {fallback : List StoreId}
    {request : Request} {x : request.Answer × Changed}
    (answered : net.answer store fallback request = some x) :
    Exchange.Possible ⟨request, x.1⟩ := by
  cases request with
  | element key collection index =>
      cases answered
      unfold element
      split
      · trivial
      · split
        · trivial
        · exact .inr ⟨_, rfl⟩
      · exact .inl rfl
  | replace key collection index v =>
      obtain ⟨object, -, rfl⟩ | ⟨e, failed, rfl⟩ := replace_eq_some answered
      · trivial
      · exact changeElement_fails failed
  | _ => trivial

theorem Course.possible (log : List (Network × Task)) : ∀ x ∈ exchanges log, x.Possible := by
  intro x member
  obtain ⟨⟨net, task⟩, -, asked⟩ := List.mem_filterMap.mp member
  simp only [Task.exchange?] at asked
  split at asked
  · obtain ⟨x, answered, rfl⟩ := Option.map_eq_some_iff.mp asked
    exact net.answer_possible answered
  · cases asked

end SlotScript
