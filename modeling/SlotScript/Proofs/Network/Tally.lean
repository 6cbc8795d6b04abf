import SlotScript.Proofs.Network.Execution

/-! # Counting up and down

Counting reads a key, steps the value and writes it back. The value may come from a fallback store
and is then written to the store itself, or there may be none, and then one is made first. Either
way counting down takes back what counting up has done, as far as the store can see, and what cannot
be counted is left alone.
-/

namespace SlotScript

open Network

/-- One integer of a kind comes right before another one; the least comes after the greatest. -/
inductive Value.Precedes : Value → Value → Prop where
  | int32 (n : Int32) : Precedes (.int32 n) (.int32 (n + 1))
  | int64 (n : Int64) : Precedes (.int64 n) (.int64 (n + 1))

/-- The forms that count up lead from an integer to the next one, and the others back. -/
theorem Value.Precedes.steps {v w : Value} (next : v.Precedes w) :
    v.step false = .ok w ∧ w.step true = .ok v := by
  cases next <;> simp [Value.step]

namespace Network

variable {net net' m : Network} {store : StoreId} {fallback : List StoreId} {key : String}
  {v w : Value} {form : Counting}

/-- Code on a store counts a key, and that leaves a value on the stack and leads to a network. So it
is for every run that meets the instruction with room on its stack. -/
def Counts (net : Network) (store : StoreId) (fallback : List StoreId) (form : Counting)
    (key : String) (v : Value) (net' : Network) : Prop :=
  ∀ (r : Run) (behind : List Task) (m : Network),
    r.activation.store = store → r.activation.fallback = fallback →
    r.activation.code[r.activation.frame.next]? = some (form.instruction key) →
    r.activation.frame.stack.length < Stack.maxDepth → LeavesStores net m →
    ∃ m', LeavesStores net' m' ∧ Propagation.Leads ⟨m, .run r :: behind⟩
      ⟨m', .run (r.standingAt ⟨r.activation.frame.next + 1, v :: r.activation.frame.stack⟩) ::
        behind⟩

/-- Code on a store has changed what it finds under a key to some value, and nothing else. -/
structure Counted (net net' : Network) (store : StoreId) (key : String) (v : Value) : Prop where
  unwatched : net'.Unwatched
  exist : store < net'.stores.length
  finds : net'.lookup? store key = some v
  others : ∀ (s : StoreId) (k : String), k ≠ key → net'.lookup? s k = net.lookup? s k

section Form

/-- The network after a value was read and another one written for it. -/
def counted (net : Network) (store : StoreId) (fallback : List StoreId) (key : String)
    (new : Value) : Network :=
  ((net.fetch store fallback key absentKeySeed).2.1.assign store key new).1

/-- What code counts from. -/
def tally (net : Network) (store : StoreId) (fallback : List StoreId) (key : String) : Value :=
  (net.fetch store fallback key absentKeySeed).1

theorem tally_of_absent (absent : ∀ scope ∈ store :: fallback, net.lookup? scope key = none) :
    net.tally store fallback key = .int32 0 := by
  simp only [tally, fetch, List.findSome?_eq_none_iff.mpr absent]
  rfl

theorem apply_eq (form : Counting) (key : String) :
    form.apply key = .ask (.fetch key absentKeySeed) fun old =>
      (Script.ofExcept (old.step form.isDown)).bind fun new =>
        .ask (.assign key new) fun _ => .done (if form.yieldsOld then old else new) := rfl

theorem ends_count_ok (steps : (net.tally store fallback key).step form.isDown = .ok w) :
    (form.apply key).Ends store fallback net
      (.ok (if form.yieldsOld then net.tally store fallback key else w))
      (net.counted store fallback key w) := by
  unfold tally at steps
  rw [apply_eq]
  refine .ask rfl ?_
  simp only [steps]
  exact .ask rfl (.done _ _)

theorem ends_count_error {e : RuntimeError}
    (fails : (net.tally store fallback key).step form.isDown = .error e) :
    (form.apply key).Ends store fallback net (.error e)
      (net.fetch store fallback key absentKeySeed).2.1 := by
  unfold tally at fails
  rw [apply_eq]
  refine .ask rfl ?_
  simp only [fails]
  exact .fail e _

/-- What may be read, and is then written, is found where it was written. -/
theorem Unwatched.counted (unwatched : net.Unwatched) (exist : store < net.stores.length)
    (fallback : List StoreId) (key : String) (w : Value) :
    net.Counted (net.counted store fallback key w) store key w := by
  have fetched : store < (net.fetch store fallback key absentKeySeed).2.1.stores.length := by
    rw [length_stores_fetch]
    exact exist
  refine ⟨?_, ?_, ?_, ?_⟩
  · exact ((unwatched.answer (r := .fetch key absentKeySeed) rfl).1.set _ key w).1
  · unfold Network.counted assign
    rw [length_stores_set]
    exact fetched
  · exact lookup?_assign_self fetched w
  · intro s k other
    refine (lookup?_set_other other w).trans ?_
    exact fetch_cases (fun _ _ => rfl) fun _ => lookup?_set_other other _

theorem push_of_full {below : Stack} (full : Stack.maxDepth ≤ below.length) (next : Nat)
    (v : Value) : Frame.push ⟨next, below⟩ v = .error (.stackOverflow Stack.maxDepth) := by
  unfold Frame.push Stack.push
  rw [if_pos full]
  rfl

/-- The instruction of a form puts the value of the form on the stack, if there is room for it. -/
theorem leads_count {result : Except RuntimeError Value}
    (ends : (form.apply key).Ends store fallback net result net') (unwatched : net.Unwatched)
    {r : Run} (here : r.activation.store = store) (falls : r.activation.fallback = fallback)
    (next : r.activation.code[r.activation.frame.next]? = some (form.instruction key))
    (left : LeavesStores net m) (behind : List Task) :
    ∃ m', LeavesStores net' m' ∧ Propagation.Leads ⟨m, .run r :: behind⟩
      ⟨m', r.arrived (result.bind fun v => Frame.push
        ⟨r.activation.frame.next + 1, r.activation.frame.stack⟩ v) :: behind⟩ := by
  subst here falls
  refine Unwatched.leads_instruction next ?_ unwatched left behind
  rw [Instruction.computes_count form key r.activation.frame.stack]
  cases result with
  | ok v => exact ends.bind (Script.ends_ofExcept _ net')
  | error e => exact ends.bind_error _

/-- A value that has a neighbour is counted. -/
theorem counts_of_step (unwatched : net.Unwatched)
    (steps : (net.tally store fallback key).step form.isDown = .ok w) :
    net.Counts store fallback form key
      (if form.yieldsOld then net.tally store fallback key else w)
      (net.counted store fallback key w) := by
  intro r behind m here falls next room left
  have leads := leads_count (ends_count_ok steps) unwatched here falls next left behind
  rwa [Except.bind, push_of_room room] at leads

/-- A value that has none is left alone, and so is everything else: a key that nobody shows would
have been counted from zero. -/
theorem ends_count_of_fails {e : RuntimeError}
    (fails : (net.tally store fallback key).step form.isDown = .error e) :
    (form.apply key).Ends store fallback net (.error e) net := by
  have failed := ends_count_error fails
  obtain ⟨place, v, resolves⟩ | absent := net.resolves_or_absent store fallback key
  · rwa [fetch_of_found resolves.found] at failed
  · have zero : net.tally store fallback key = .int32 0 := tally_of_absent absent
    rw [zero] at fails
    cases fails

end Form

section Forms

/-- What one form counts a key from and to, what it yields, and that nothing else has changed. -/
theorem Unwatched.counts (unwatched : net.Unwatched) (exist : store < net.stores.length)
    (form : Counting) (tally : net.tally store fallback key = v)
    (steps : v.step form.isDown = .ok w) :
    ∃ net', net.Counts store fallback form key (if form.yieldsOld then v else w) net' ∧
      net.Counted net' store key w := by
  subst tally
  exact ⟨_, counts_of_step unwatched steps, unwatched.counted exist fallback key w⟩

/-- What has been counted to can be counted from. -/
theorem Counted.again (counted : net.Counted net' store key v) (fallback : List StoreId)
    (form : Counting) (steps : v.step form.isDown = .ok w) :
    ∃ net'', net'.Counts store fallback form key (if form.yieldsOld then v else w) net'' ∧
      net'.Counted net'' store key w := by
  refine counted.unwatched.counts counted.exist form ?_ steps
  rw [tally, fetch_of_found (found_of_lookup? counted.finds fallback)]

/-- Up and down and up and down again, and the value is the one before. -/
theorem Unwatched.counts_up_and_down (unwatched : net.Unwatched)
    (exist : store < net.stores.length) (tally : net.tally store fallback key = v)
    (next : v.Precedes w) :
    ∃ net₁ net₂ net₃ net₄,
      net.Counts store fallback .preIncrement key w net₁ ∧
      net₁.Counts store fallback .preDecrement key v net₂ ∧
      net₂.Counts store fallback .postIncrement key v net₃ ∧
      net₃.Counts store fallback .postDecrement key w net₄ ∧
      (∃ place, net₄.Resolves store fallback key place v) ∧
      ∀ (s : StoreId) (k : String), k ≠ key → net₄.lookup? s k = net.lookup? s k := by
  obtain ⟨up, down⟩ := next.steps
  obtain ⟨net₁, first, c₁⟩ := unwatched.counts exist .preIncrement tally up
  obtain ⟨net₂, second, c₂⟩ := c₁.again fallback .preDecrement down
  obtain ⟨net₃, third, c₃⟩ := c₂.again fallback .postIncrement up
  obtain ⟨net₄, fourth, c₄⟩ := c₃.again fallback .postDecrement down
  refine ⟨net₁, net₂, net₃, net₄, first, second, third, fourth,
    exists_resolves (found_of_lookup? c₄.finds fallback), fun s k other => ?_⟩
  rw [c₄.others s k other, c₃.others s k other, c₂.others s k other, c₁.others s k other]

/-- Reading a key that nobody shows makes the slot that would be there if it had been set to zero. -/
theorem Unwatched.counts_absent (unwatched : net.Unwatched) (exist : store < net.stores.length)
    (absent : ∀ scope ∈ store :: fallback, net.lookup? scope key = none) (form : Counting) :
    ∃ v net', net.Counts store fallback form key v net' ∧
      (net.set store key (.int32 0)).1.Counts store fallback form key v net' := by
  have steps : (Value.int32 0).step form.isDown =
      .ok (.int32 (if form.isDown then -1 else 1)) := by
    cases form <;> rfl
  have made : (net.set store key (.int32 0)).1.lookup? store key = some (.int32 0) :=
    lookup?_set_self exist _
  have found := fetch_of_found (found_of_lookup? made fallback) absentKeySeed
  have created : net.fetch store fallback key absentKeySeed =
      (.int32 0, net.set store key (.int32 0)) := by
    simp only [fetch, List.findSome?_eq_none_iff.mpr absent]
    rfl
  have here := counts_of_step unwatched (by rw [tally_of_absent absent]; exact steps)
  have there := counts_of_step (unwatched.set store key (.int32 0)).1
    (by rw [tally, found]; exact steps)
  rw [tally, Network.counted, created] at here
  rw [tally, Network.counted, found] at there
  exact ⟨_, _, here, there⟩

/-- A run counts or it fails, and it fails with everything as it was unless the stack is full. -/
theorem Unwatched.counts_or_fails (unwatched : net.Unwatched) {r : Run}
    (next : r.activation.code[r.activation.frame.next]? = some (form.instruction key))
    (behind : List Task) :
    (∃ v net', net.Counts r.activation.store r.activation.fallback form key v net' ∧
      r.activation.frame.stack.length < Stack.maxDepth) ∨
    ∃ e m, Propagation.Leads ⟨net, .run r :: behind⟩ ⟨m, .proceed r (.fail e) :: behind⟩ ∧
      (LeavesStores net m ∨
        Stack.maxDepth ≤ r.activation.frame.stack.length ∧ e = .stackOverflow Stack.maxDepth) := by
  cases stepped : (net.tally r.activation.store r.activation.fallback key).step form.isDown with
  | ok w =>
      by_cases room : r.activation.frame.stack.length < Stack.maxDepth
      · exact .inl ⟨_, _, counts_of_step unwatched stepped, room⟩
      · have full := Nat.not_lt.mp room
        obtain ⟨m, -, leads⟩ := leads_count (ends_count_ok stepped) unwatched rfl rfl next
          (.refl net) behind
        rw [Except.bind, push_of_full full] at leads
        exact .inr ⟨_, m, leads, .inr ⟨full, rfl⟩⟩
  | error e =>
      obtain ⟨m, left, leads⟩ := leads_count (ends_count_of_fails stepped) unwatched rfl rfl next
        (.refl net) behind
      exact .inr ⟨e, m, leads, .inl left⟩

/-- Counting up and counting down take each other back, whichever form yields which value. A key
that nobody shows is counted from zero. What is not counted, for another reason than a full stack,
leaves all stores and objects as they were. -/
theorem Unwatched.counts_back (unwatched : net.Unwatched) (exist : store < net.stores.length)
    (fallback : List StoreId) (key : String) :
    (∀ v w : Value, v.Precedes w →
      ((∃ place, net.Resolves store fallback key place v) ∨
        (∀ scope ∈ store :: fallback, net.lookup? scope key = none) ∧ v = .int32 0) →
      ∃ net₁ net₂ net₃ net₄,
        net.Counts store fallback .preIncrement key w net₁ ∧
        net₁.Counts store fallback .preDecrement key v net₂ ∧
        net₂.Counts store fallback .postIncrement key v net₃ ∧
        net₃.Counts store fallback .postDecrement key w net₄ ∧
        (∃ place, net₄.Resolves store fallback key place v) ∧
        ∀ (s : StoreId) (k : String), k ≠ key → net₄.lookup? s k = net.lookup? s k) ∧
    ((∀ scope ∈ store :: fallback, net.lookup? scope key = none) →
      ∀ form, ∃ v net', net.Counts store fallback form key v net' ∧
        (net.set store key (.int32 0)).1.Counts store fallback form key v net') ∧
    ∀ (form : Counting) (r : Run) (behind : List Task),
      r.activation.store = store → r.activation.fallback = fallback →
      r.activation.code[r.activation.frame.next]? = some (form.instruction key) →
      (∃ v net', net.Counts store fallback form key v net' ∧
        r.activation.frame.stack.length < Stack.maxDepth) ∨
      ∃ e m, Propagation.Leads ⟨net, .run r :: behind⟩ ⟨m, .proceed r (.fail e) :: behind⟩ ∧
        (LeavesStores net m ∨
          Stack.maxDepth ≤ r.activation.frame.stack.length ∧ e = .stackOverflow Stack.maxDepth) := by
  refine ⟨fun v w next held => ?_, unwatched.counts_absent exist, ?_⟩
  · have tally : net.tally store fallback key = v := by
      obtain ⟨place, resolves⟩ | ⟨absent, rfl⟩ := held
      · rw [Network.tally, fetch_of_found resolves.found]
      · exact tally_of_absent absent
    exact unwatched.counts_up_and_down exist tally next
  · rintro form r behind rfl rfl next
    exact unwatched.counts_or_fails next behind

/-- An empty store, and one with the greatest integer of a kind that it falls back on. -/
def greatestBehind : Network where
  stores := [{ ancestors := [], owner := .null },
    { ancestors := [], owner := .null, slots := .ofList [("$k", .int64 Int64.maxValue)] }]

/-- Counting up from the greatest integer comes to the least one, in a slot of the store itself, and
from there back again. -/
theorem Unwatched.counts_back_greatest : greatestBehind.Unwatched ∧
    ∃ net₁ net₂ net₃ net₄,
      greatestBehind.Counts 0 [1] .preIncrement "$k" (.int64 Int64.minValue) net₁ ∧
      net₁.Counts 0 [1] .preDecrement "$k" (.int64 Int64.maxValue) net₂ ∧
      net₂.Counts 0 [1] .postIncrement "$k" (.int64 Int64.maxValue) net₃ ∧
      net₃.Counts 0 [1] .postDecrement "$k" (.int64 Int64.minValue) net₄ ∧
      ∃ place, net₄.Resolves 0 [1] "$k" place (.int64 Int64.maxValue) := by
  have unwatched : greatestBehind.Unwatched := by
    simp [Network.Unwatched, greatestBehind]
  have exist : 0 < greatestBehind.stores.length := by decide
  have wraps : (Value.int64 Int64.maxValue).Precedes (.int64 Int64.minValue) := .int64 _
  obtain ⟨net₁, net₂, net₃, net₄, first, second, third, fourth, resolves, -⟩ :=
    (unwatched.counts_back exist [1] "$k").1 _ _ wraps (.inl (exists_resolves rfl))
  exact ⟨unwatched, net₁, net₂, net₃, net₄, first, second, third, fourth, resolves⟩

/-- A store with a number to count. -/
def holdingOne : Network where
  stores := [{ ancestors := [], owner := .null, slots := .ofList [("$k", .int32 1)] }]

/-- As many statements as the stack holds values, and then `++$k`. -/
def crowded : Program :=
  List.replicate Stack.maxDepth (.literal (.int32 0)) ++ [.count .preIncrement "$k"]

/-- The value is written before there is known to be room for it on the stack, so a program that
fails there has counted. -/
theorem counts_on_full_stack : holdingOne.Unwatched ∧
    holdingOne.slot? 0 "$k" = some (.int32 1) ∧ ∃ after,
      (holdingOne.ask (.execute (.code (crowded.emit .nearest)) 0 none none)).drive 256 =
        some after ∧
      after.returned = some (.error (.runtime (.stackOverflow Stack.maxDepth))) ∧
      after.slot? 0 "$k" = some (.int32 2) := by
  have unwatched : holdingOne.Unwatched := by
    simp [Network.Unwatched, holdingOne]
  have runs : ∃ after ∈
      (holdingOne.ask (.execute (.code (crowded.emit .nearest)) 0 none none)).drive 256,
      after.returned = some (.error (.runtime (.stackOverflow Stack.maxDepth))) ∧
      after.slot? 0 "$k" = some (.int32 2) := by
    decide +kernel
  exact ⟨unwatched, rfl, runs⟩

end Forms

end Network

end SlotScript
