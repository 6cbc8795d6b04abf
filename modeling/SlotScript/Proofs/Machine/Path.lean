import SlotScript.Proofs.Machine.Run

/-! # The way a run takes through its code

A path lists the frames at which a run stood, one before each instruction, and everything it asked
on its way. It is what a run is seen to do from outside, where other things happen in between.
-/

namespace SlotScript

namespace Code

/-- From the start of the code to a frame: the frames before it, and all exchanges so far. -/
inductive Path (context : Context) (code : Code) :
    List Frame → List Exchange → Frame → Prop where
  | start : Path context code [] [] .start
  | step {frames : List Frame} {es es' : List Exchange} {f f' : Frame} {i : Instruction} :
      Path context code frames es f → code[f.next]? = some i →
      (i.perform context code.length { f with next := f.next + 1 }).Made es' (.done f') →
      Path context code (frames ++ [f]) (es ++ es') f'

/-- What is left of a run behind a path. -/
theorem Path.run {context : Context} {code : Code} {frames : List Frame} {es : List Exchange}
    {f : Frame} (path : Path context code frames es f) (n : Nat) :
    (code.run context (frames.length + n) .start).Made es (code.run context n f) := by
  induction path generalizing n with
  | start =>
      rw [List.length_nil, Nat.zero_add]
      exact .none _
  | @step frames es es' f f' i _ at_f performed ih =>
      have before := ih (n + 1)
      rw [run_succ at_f] at before
      rw [List.length_append, List.length_singleton, Nat.add_right_comm, Nat.add_assoc]
      exact before.append (performed.bind _)

end Code

end SlotScript
