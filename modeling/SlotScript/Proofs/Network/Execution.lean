import SlotScript.Proofs.Compiler.Agreement
import SlotScript.Proofs.Network.Writeback

/-! # Runs where nobody watches

Where no store is watched, nothing is done between two instructions of a run, and what the run gets
to know are the answers of the network alone. So a run carries out the script of its code: each
request is answered where the one before it has left the stores, and if one is never answered, the
run waits for good. That goes for a single instruction and for the code of a whole expression,
wherever it stands.
-/

namespace SlotScript

/-- A script of code on a store comes to its end, with its requests answered by a network one after
the other. -/
inductive Script.Ends {α : Type} (store : StoreId) (fallback : List StoreId) :
    Script α → Network → Except RuntimeError α → Network → Prop where
  | done (a : α) (net : Network) : Ends store fallback (.done a) net (.ok a) net
  | fail (e : RuntimeError) (net : Network) : Ends store fallback (.fail e) net (.error e) net
  | ask {request : Request} {next : request.Answer → Script α} {net net' : Network}
      {result : Except RuntimeError α} {x : request.Answer × Changed} :
      net.answer store fallback request = some x →
      Ends store fallback (next x.1) x.2.1 result net' →
      Ends store fallback (.ask request next) net result net'

/-- A script of code on a store comes to a request that a network never answers. -/
inductive Script.Waits {α : Type} (store : StoreId) (fallback : List StoreId) :
    Script α → Network → Prop where
  | here {request : Request} {next : request.Answer → Script α} {net : Network} :
      net.answer store fallback request = none → Waits store fallback (.ask request next) net
  | ask {request : Request} {next : request.Answer → Script α} {net : Network}
      {x : request.Answer × Changed} : net.answer store fallback request = some x →
      Waits store fallback (next x.1) x.2.1 → Waits store fallback (.ask request next) net

/-- Where a run is left by a script of its next instruction. -/
def Run.arrived (r : Run) : Except RuntimeError Frame → Task
  | .ok f => .run (r.standingAt f)
  | .error e => .proceed r (.fail e)

namespace Script

variable {α β : Type} {store : StoreId} {fallback : List StoreId} {net net' : Network}

/-- A script that runs no command comes to an end or waits. -/
theorem Asks.ends {P : Request → Prop} {s : Script α} (asks : s.Asks P) (store : StoreId)
    (fallback : List StoreId) (net : Network) :
    (∃ result net', s.Ends store fallback net result net') ∨ s.Waits store fallback net := by
  induction s generalizing net with
  | done a => exact .inl ⟨_, _, .done a net⟩
  | fail e => exact .inl ⟨_, _, .fail e net⟩
  | ask r next ih =>
      cases answered : net.answer store fallback r with
      | none => exact .inr (.here answered)
      | some x =>
          obtain ⟨result, net', ends⟩ | waits := ih _ (asks.2 x.1) x.2.1
          · exact .inl ⟨result, net', .ask answered ends⟩
          · exact .inr (.ask answered waits)
  | invoke => exact asks.elim

theorem ends_ofExcept (x : Except RuntimeError α) (net : Network) :
    (ofExcept x).Ends store fallback net x net := by
  cases x with
  | ok a => exact .done a net
  | error e => exact .fail e net

namespace Ends

theorem unique {s : Script α} {result result' : Except RuntimeError α} {net'' : Network}
    (first : s.Ends store fallback net result net')
    (second : s.Ends store fallback net result' net'') :
    result = result' ∧ net' = net'' := by
  induction first with
  | done | fail =>
      cases second
      exact ⟨rfl, rfl⟩
  | ask answered _ ih =>
      cases second with
      | ask answered' second =>
          cases answered.symm.trans answered'
          exact ih second

theorem bind {s : Script α} {f : α → Script β} {a : α} {m : Network}
    {result : Except RuntimeError β} (first : s.Ends store fallback net (.ok a) m)
    (second : (f a).Ends store fallback m result net') :
    (s.bind f).Ends store fallback net result net' := by
  generalize ended : Except.ok a = left at first
  induction first with
  | done => cases ended; exact second
  | fail => cases ended
  | ask answered _ ih => exact .ask answered (ih second ended)

theorem bind_error {s : Script α} {e : RuntimeError} (f : α → Script β)
    (first : s.Ends store fallback net (.error e) net') :
    (s.bind f).Ends store fallback net (.error e) net' := by
  generalize ended : Except.error e = left at first
  induction first with
  | done => cases ended
  | fail => cases ended; exact .fail e _
  | ask answered _ ih => exact .ask answered (ih ended)

/-- The end of one script after another: the first one fails, or it comes to its end and the second
one does what it does from there. -/
theorem of_bind {s : Script α} {f : α → Script β} {result : Except RuntimeError β}
    (ends : (s.bind f).Ends store fallback net result net') :
    (∃ e, s.Ends store fallback net (.error e) net' ∧ result = .error e) ∨
      ∃ a m, s.Ends store fallback net (.ok a) m ∧ (f a).Ends store fallback m result net' := by
  induction s generalizing net with
  | done a => exact .inr ⟨a, net, .done a net, ends⟩
  | fail e =>
      cases ends
      exact .inl ⟨e, .fail e _, rfl⟩
  | ask r next ih =>
      cases ends with
      | ask answered ends =>
          obtain ⟨e, failed, rfl⟩ | ⟨a, m, first, second⟩ := ih _ ends
          · exact .inl ⟨e, .ask answered failed, rfl⟩
          · exact .inr ⟨a, m, .ask answered first, second⟩
  | invoke => cases ends

/-- What succeeds does so in all its parts. -/
theorem of_bind_ok {s : Script α} {f : α → Script β} {b : β}
    (ends : (s.bind f).Ends store fallback net (.ok b) net') :
    ∃ a m, s.Ends store fallback net (.ok a) m ∧ (f a).Ends store fallback m (.ok b) net' := by
  obtain ⟨e, -, failed⟩ | succeeds := ends.of_bind
  · cases failed
  · exact succeeds

/-- What holds through every answer holds at the end. -/
theorem keeps {I : Network → Prop} {s : Script α} {result : Except RuntimeError α}
    (ends : s.Ends store fallback net result net')
    (step : ∀ net request, ∀ x ∈ net.answer store fallback request, I net → I x.2.1)
    (here : I net) : I net' := by
  induction ends with
  | done | fail => exact here
  | ask answered _ ih => exact ih (step _ _ _ answered here)

/-- What waits behind a script that comes to its end waits in all. -/
theorem bind_waits {s : Script α} {f : α → Script β} {a : α} {m : Network}
    (first : s.Ends store fallback net (.ok a) m) (second : (f a).Waits store fallback m) :
    (s.bind f).Waits store fallback net := by
  generalize ended : Except.ok a = left at first
  induction first with
  | done => cases ended; exact second
  | fail => cases ended
  | ask answered _ ih => exact .ask answered (ih second ended)

end Ends

namespace Waits

theorem bind {s : Script α} (waits : s.Waits store fallback net) (f : α → Script β) :
    (s.bind f).Waits store fallback net := by
  induction waits with
  | here never => exact .here never
  | ask answered _ ih => exact .ask answered ih

/-- Of one script after another, one waits. -/
theorem of_bind {s : Script α} {f : α → Script β} (waits : (s.bind f).Waits store fallback net) :
    s.Waits store fallback net ∨
      ∃ a m, s.Ends store fallback net (.ok a) m ∧ (f a).Waits store fallback m := by
  induction s generalizing net with
  | done a => exact .inr ⟨a, net, .done a net, waits⟩
  | fail | invoke => cases waits
  | ask r next ih =>
      cases waits with
      | here never => exact .inl (.here never)
      | ask answered waits =>
          obtain waits | ⟨a, m, first, second⟩ := ih _ waits
          · exact .inl (.ask answered waits)
          · exact .inr ⟨a, m, .ask answered first, second⟩

end Waits

end Script

namespace Network

variable {net net' m : Network}

section Found

variable {store : StoreId} {fallback : List StoreId} {key : String} {v : Value}

/-- What is found is given to whoever asks, whatever seed it comes with. -/
theorem fetch_of_found
    (found : (store :: fallback).findSome? (fun scope => net.lookup? scope key) = some v)
    (seed : Value) : net.fetch store fallback key seed = (v, net, []) := by
  simp only [fetch, found]

theorem found_of_lookup? (found : net.lookup? store key = some v) (fallback : List StoreId) :
    (store :: fallback).findSome? (fun scope => net.lookup? scope key) = some v := by
  rw [List.findSome?_cons, found]

end Found

theorem LeavesStores.lookup? (left : LeavesStores net m) (s : StoreId) (key : String) :
    m.lookup? s key = net.lookup? s key := by
  simp only [Network.lookup?, chain, slot?, left.1]

theorem LeavesStores.set (left : LeavesStores net m) (s : StoreId) (key : String) (v : Value) :
    LeavesStores (net.set s key v).1 (m.set s key v).1 := by
  refine ⟨?_, left.2⟩
  simp only [Network.set, modifyStore, left.1]

theorem LeavesStores.definer (left : LeavesStores net m) (s : StoreId) (key : String) :
    m.definer s key = net.definer s key := by
  simp only [Network.definer, chain, slot?, left.1]

theorem LeavesStores.holder (left : LeavesStores net m) (s : StoreId) (fallback : List StoreId)
    (key : String) : m.holder s fallback key = net.holder s fallback key := by
  simp only [Network.holder, left.lookup?]

theorem LeavesStores.setObject (left : LeavesStores net m) (collection : Value)
    (object : Object) : LeavesStores (net.setObject collection object)
      (m.setObject collection object) := by
  cases collection with
  | object ref => exact ⟨left.1, congrArg (List.set · ref.id object) left.2⟩
  | _ => exact left

/-- What is never answered is not answered with the same objects either. -/
theorem LeavesStores.unanswered (left : LeavesStores net m) {store : StoreId}
    {fallback : List StoreId} {request : Request}
    (never : net.answer store fallback request = none) : m.answer store fallback request = none :=
  answer_eq_none_iff.mpr ((answer_eq_none_iff.mp never).congr left.2)

/-- The same stores and objects give the same answers and are the same afterwards. -/
theorem LeavesStores.answer (left : LeavesStores net m) {store : StoreId}
    {fallback : List StoreId} {request : Request} {x : request.Answer × Changed}
    (answered : net.answer store fallback request = some x) :
    ∃ changed, m.answer store fallback request = some (x.1, changed) ∧
      LeavesStores x.2.1 changed.1 := by
  have sizes : m.sizes = net.sizes := by
    unfold Network.sizes
    rw [left.2]
  have object (collection : Value) : m.object? collection = net.object? collection := by
    cases collection <;> simp only [object?, left.2]
  cases request with
  | fetch key seed =>
      cases answered
      simp only [Network.answer, fetch, left.lookup?]
      split
      · exact ⟨_, rfl, left⟩
      · exact ⟨_, rfl, left.set store key seed⟩
  | assign key v =>
      cases answered
      simp only [Network.answer, assign, left.definer]
      exact ⟨_, rfl, left.set _ key v⟩
  | define key v =>
      cases answered
      exact ⟨_, rfl, left.set store key v⟩
  | concatText v =>
      cases answered
      simp only [Network.answer, sizes]
      exact ⟨_, rfl, left⟩
  | element key collection index =>
      cases answered
      simp only [Network.answer, element, object, sizes, invalidIndex]
      exact ⟨_, rfl, left⟩
  | replace key collection index v =>
      have changed : m.changeElement key collection index v =
          net.changeElement key collection index v := by
        simp only [changeElement, object, sizes, invalidIndex]
      obtain ⟨object', there, rfl⟩ | ⟨e, refused, rfl⟩ := replace_eq_some answered
      · have put := left.setObject collection object'
        simp only [Network.answer, replace, changed, there, assign, put.definer, put.holder]
        exact ⟨_, rfl, put.set _ key collection⟩
      · simp only [Network.answer, replace, changed, refused]
        exact ⟨_, rfl, left⟩

namespace Unwatched

variable {r : Run} {behind : List Task} {result : Except RuntimeError Frame}

/-- A task that leaves nobody watching is followed by what it brings up. -/
theorem step (task : Task) (unwatched : (task.perform net).1.Unwatched) (behind : List Task) :
    ∃ m, LeavesStores (task.perform net).1 m ∧
      Propagation.Leads ⟨net, task :: behind⟩ ⟨m, (task.perform net).2 ++ behind⟩ :=
  ⟨_, unwatched.release _, .step (.here _)⟩

/-- A request is answered, and the run goes on. -/
theorem leads_ask (unwatched : net.Unwatched) (left : LeavesStores net m) {request : Request}
    {x : request.Answer × Changed}
    (answered : net.answer r.activation.store r.activation.fallback request = some x)
    (rest : request.Answer → Script Frame) (behind : List Task) :
    ∃ m', LeavesStores x.2.1 m' ∧
      Propagation.Leads ⟨m, .proceed r (.ask request rest) :: behind⟩
        ⟨m', r.onward (rest x.1) :: behind⟩ := by
  obtain ⟨⟨next, callbacks⟩, answered', left'⟩ := left.answer answered
  obtain ⟨still, silent⟩ := (left.unwatched unwatched).answer answered'
  obtain rfl : callbacks = [] := silent
  have performed : (Task.proceed r (.ask request rest)).perform m =
      (next, r.resume request (rest x.1)) := proceed_answered answered'
  obtain ⟨m₁, left₁, first⟩ := step (.proceed r (.ask request rest))
    (by rw [performed]; exact still) behind
  rw [performed] at left₁ first
  -- An instruction that is complete lets go of what it had at hand before the run goes on.
  cases complete : rest x.1 with
  | done f =>
      rw [complete] at first
      obtain ⟨m₂, left₂, second⟩ := step (.letGo (Holding.ofValues (atHand request)))
        (left₁.unwatched still) (.run (r.standingAt f) :: behind)
      exact ⟨m₂, (left'.trans left₁).trans left₂, first.trans second⟩
  | _ =>
      rw [complete] at first
      exact ⟨m₁, left'.trans left₁, first⟩

/-- A run goes through a script of its instruction. -/
theorem leads_onward {s : Script Frame}
    (ends : s.Ends r.activation.store r.activation.fallback net result net')
    (unwatched : net.Unwatched) (left : LeavesStores net m) :
    ∃ m', LeavesStores net' m' ∧
      Propagation.Leads ⟨m, r.onward s :: behind⟩ ⟨m', r.arrived result :: behind⟩ := by
  induction ends generalizing m with
  | done f | fail e => exact ⟨m, left, .here _⟩
  | @ask request next _ _ _ x answered _ ih =>
      obtain ⟨m₁, left₁, first⟩ := leads_ask unwatched left answered next behind
      obtain ⟨m₂, left₂, rest⟩ := ih (unwatched.answer answered).1 left₁
      exact ⟨m₂, left₂, first.trans rest⟩

/-- A run waits where a script of its instruction does. -/
theorem leads_waits {s : Script Frame}
    (waits : s.Waits r.activation.store r.activation.fallback net)
    (unwatched : net.Unwatched) (left : LeavesStores net m) (behind : List Task) :
    ∃ p, p.Waits ∧ Propagation.Leads ⟨m, .proceed r s :: behind⟩ p := by
  induction waits generalizing m with
  | here never => exact ⟨_, .of_unanswered (left.unanswered never) behind, .here _⟩
  | @ask request next _ x answered waits ih =>
      obtain ⟨m₁, left₁, first⟩ := leads_ask unwatched left answered next behind
      obtain ⟨p, waiting, rest⟩ := ih (unwatched.answer answered).1 left₁
      cases script : next x.1 with
      | done =>
          rw [script] at waits
          cases waits
      | _ =>
          rw [script] at first rest
          exact ⟨p, waiting, first.trans rest⟩

/-- A run takes up its next instruction and goes through its script. -/
theorem leads_instruction {i : Instruction}
    (next : r.activation.code[r.activation.frame.next]? = some i)
    (ends : (i.perform r.activation.context r.activation.code.length
      { r.activation.frame with next := r.activation.frame.next + 1 }).Ends r.activation.store
        r.activation.fallback net result net')
    (unwatched : net.Unwatched) (left : LeavesStores net m) (behind : List Task) :
    ∃ m', LeavesStores net' m' ∧
      Propagation.Leads ⟨m, .run r :: behind⟩ ⟨m', r.arrived result :: behind⟩ := by
  generalize script : i.perform r.activation.context r.activation.code.length
    { r.activation.frame with next := r.activation.frame.next + 1 } = s at ends
  have still := left.unwatched unwatched
  have performed : (Task.run r).perform m = (m, [.proceed r s]) := by
    rw [perform_run_next next, script]
  obtain ⟨m₁, left₁, first⟩ := step (.run r) (by rw [performed]; exact still) behind
  rw [performed] at left₁ first
  cases s with
  | done f =>
      obtain ⟨m₂, left₂, second⟩ := step (.proceed r (.done f)) (left₁.unwatched still) behind
      obtain ⟨m₃, left₃, rest⟩ := leads_onward ends unwatched ((left.trans left₁).trans left₂)
      exact ⟨m₃, left₃, first.trans (second.trans rest)⟩
  | _ =>
      obtain ⟨m₂, left₂, rest⟩ := leads_onward ends unwatched (left.trans left₁)
      exact ⟨m₂, left₂, first.trans rest⟩

/-- A run waits at its next instruction if the script of that does. -/
theorem leads_waiting {i : Instruction}
    (next : r.activation.code[r.activation.frame.next]? = some i)
    (waits : (i.perform r.activation.context r.activation.code.length
      { r.activation.frame with next := r.activation.frame.next + 1 }).Waits r.activation.store
        r.activation.fallback net)
    (unwatched : net.Unwatched) (left : LeavesStores net m) (behind : List Task) :
    ∃ p, p.Waits ∧ Propagation.Leads ⟨m, .run r :: behind⟩ p := by
  have performed := perform_run_next next m
  obtain ⟨m₁, left₁, first⟩ := step (.run r)
    (by rw [performed]; exact left.unwatched unwatched) behind
  rw [performed] at left₁ first
  obtain ⟨p, waiting, rest⟩ := leads_waits waits unwatched (left.trans left₁) behind
  exact ⟨p, waiting, first.trans rest⟩

end Unwatched

end Network

open Network

/-- From a frame on, a run carries out a script, from stores as some network has them, and comes to
a frame to stop at or to an error, or waits where the script does. -/
inductive Run.CarriesOut (r : Run) {α : Type} (Stop : α → Frame → Prop) (f : Frame) (s : Script α)
    (behind : List Task) (net m : Network) : Prop where
  | succeeds {a : α} {f' : Frame} {net' m' : Network} : Stop a f' →
      s.Ends r.activation.store r.activation.fallback net (.ok a) net' → LeavesStores net' m' →
      Propagation.Leads ⟨m, .run (r.standingAt f) :: behind⟩
        ⟨m', .run (r.standingAt f') :: behind⟩ → CarriesOut r Stop f s behind net m
  | fails {e : RuntimeError} {f' : Frame} {net' m' : Network} :
      s.Ends r.activation.store r.activation.fallback net (.error e) net' → LeavesStores net' m' →
      Propagation.Leads ⟨m, .run (r.standingAt f) :: behind⟩
        ⟨m', .proceed (r.standingAt f') (.fail e) :: behind⟩ → CarriesOut r Stop f s behind net m
  | waits {p : Propagation} : s.Waits r.activation.store r.activation.fallback net → p.Waits →
      Propagation.Leads ⟨m, .run (r.standingAt f) :: behind⟩ p →
      CarriesOut r Stop f s behind net m
  /-- The stack is full before the script is at its end. -/
  | overflows {f' : Frame} {m' : Network} :
      Propagation.Leads ⟨m, .run (r.standingAt f) :: behind⟩
        ⟨m', .proceed (r.standingAt f') (.fail (.stackOverflow Stack.maxDepth)) :: behind⟩ →
      CarriesOut r Stop f s behind net m

namespace Code.Agrees

variable {α : Type} {Stop : α → Frame → Prop} {s : Script α} {f : Frame} {r : Run}

/-- A run carries out what its code agrees with, as its instructions do one after the other. -/
theorem carriesOut
    (agrees : r.activation.code.Agrees r.activation.context Stop f s)
    (commandless : ∀ i ∈ r.activation.code, i.op ≠ .invokeResource) {net m : Network}
    (unwatched : net.Unwatched) (left : LeavesStores net m) (behind : List Task) :
    r.CarriesOut Stop f s behind net m := by
  induction agrees generalizing net m with
  | @stop f a ended => exact .succeeds ended (.done a net) left (.here _)
  | @perform f i β first g t at_f performs leads _ ih =>
      have asks : (i.perform r.activation.context r.activation.code.length
          { f with next := f.next + 1 }).Asks i.MayAsk :=
        Instruction.perform_asks (commandless i (List.mem_of_getElem? at_f)) _
      obtain ⟨result, net', ends⟩ | waits :=
        asks.ends r.activation.store r.activation.fallback net
      case inr =>
        obtain ⟨p, waiting, led⟩ := Unwatched.leads_waiting (r := r.standingAt f) at_f waits
          unwatched left behind
        rw [performs] at waits
        -- Behind the script the instruction only puts a value on the stack.
        obtain waits | ⟨b, net₁, -, waits⟩ := waits.of_bind
        · exact .waits (waits.bind t) waiting led
        · obtain overflows | ⟨f', next, -⟩ := leads b
          · rw [overflows] at waits
            cases waits
          · rw [next] at waits
            cases waits
      obtain ⟨m', left', done⟩ := Unwatched.leads_instruction (r := r.standingAt f) at_f ends
        unwatched left behind
      -- Either the script of the instruction fails, or the stack is full, or the run goes on.
      rw [performs] at ends
      obtain ⟨e, failed, rfl⟩ | ⟨b, net₁, first, second⟩ := ends.of_bind
      · exact .fails (failed.bind_error t) left' done
      obtain overflows | ⟨f', next, -⟩ := leads b
      · rw [overflows] at second
        cases second
        exact .overflows done
      · rw [next] at second
        cases second
        have unwatched' : net'.Unwatched :=
          first.keeps (fun _ _ _ answered still => (still.answer answered).1) unwatched
        cases ih b _ next unwatched' left' with
        | succeeds ended rest left'' later =>
            exact .succeeds ended (first.bind rest) left'' (done.trans later)
        | fails rest left'' later => exact .fails (first.bind rest) left'' (done.trans later)
        | waits rest waiting later =>
            exact .waits (first.bind_waits rest) waiting (done.trans later)
        | overflows later => exact .overflows (done.trans later)

end Code.Agrees

end SlotScript
