import SlotScript.Proofs.Compiler.Correctness
import SlotScript.Proofs.Compiler.Parts
import SlotScript.Proofs.Network.Execution
import SlotScript.Syntax.Parser

/-! # What an assignment evaluates to

An assignment writes a value and then reads the key again, and that is the value it leaves on the
stack. A scoped write may go to another store than a later read begins with, and the right side may
have changed which scope defines the key. All the same the read finds what has been written, and so
does every later one.
-/

namespace SlotScript

open Network SlotScript.Parser

/-- The network after a write by the set operation of the mode. -/
def AssignMode.written (mode : AssignMode) (net : Network) (store : StoreId) (key : String)
    (v : Value) : Network :=
  match mode with
  | .nearest => (net.assign store key v).1
  | .direct => (net.set store key v).1

/-- An assignment by code on a store, with the value that it comes to and the network behind it. The
right side and the operator are evaluated by themselves, and nothing but their requests and a last
write happens. -/
inductive Parser.AssignmentForm.Assigns (mode : AssignMode) (context : Context) (store : StoreId)
    (fallback : List StoreId) (key : String) (e : Expr) :
    AssignmentForm → Network → Value → Network → Prop where
  | plain {net net' : Network} {v : Value} :
      (e.eval mode context).Ends store fallback net (.ok v) net' →
      Assigns mode context store fallback key e .plain net v (mode.written net' store key v)
  /-- The left operand is what the key holds before the right side is evaluated. -/
  | update {op : Arithmetic} {net net' : Network} {w v : Value} :
      (e.eval mode context).Ends store fallback (net.fetch store fallback key .null).2.1 (.ok w)
        net' →
      (op.apply (net.read store fallback key) w).Ends store fallback net' (.ok v) net' →
      Assigns mode context store fallback key e (.update op) net v (mode.written net' store key v)
  | fill {net net' : Network} {v : Value} : net.read store fallback key = .null →
      (e.eval mode context).Ends store fallback (net.fetch store fallback key .null).2.1 (.ok v)
        net' →
      Assigns mode context store fallback key e .fill net v (mode.written net' store key v)
  /-- The right side is left alone, and nothing is written. -/
  | kept {net : Network} : net.read store fallback key ≠ .null →
      Assigns mode context store fallback key e .fill net (net.read store fallback key) net

/-- What a run does that comes to the code of an assignment with some stack. -/
inductive Run.Assigns (r : Run) (mode : AssignMode) (form : AssignmentForm) (key : String)
    (e : Expr) (start : Nat) (stack : Stack) (behind : List Task) (net : Network) : Prop where
  /-- The value is on the stack behind the code, and whoever reads the key finds it. -/
  | succeeds {v : Value} {net' m : Network} :
      form.Assigns mode r.activation.context r.activation.store r.activation.fallback key e net v
        net' →
      LeavesStores net' m →
      (∀ seed, m.fetch r.activation.store r.activation.fallback key seed = (v, m, [])) →
      Propagation.Leads ⟨net, .run (r.standingAt ⟨start, stack⟩) :: behind⟩
        ⟨m, .run (r.standingAt ⟨start + (form.node key e).size, v :: stack⟩) :: behind⟩ →
      Assigns r mode form key e start stack behind net
  /-- Evaluation of the assignment waits for itself, and so does the run. -/
  | waits {p : Propagation} :
      ((form.node key e).eval mode r.activation.context).Waits r.activation.store
        r.activation.fallback net → p.Waits →
      Propagation.Leads ⟨net, .run (r.standingAt ⟨start, stack⟩) :: behind⟩ p →
      Assigns r mode form key e start stack behind net
  /-- Evaluation of the assignment fails, or the stack is full. -/
  | fails {error : RuntimeError} {f : Frame} {m : Network} :
      (error = .stackOverflow Stack.maxDepth ∨ ∃ net',
        ((form.node key e).eval mode r.activation.context).Ends r.activation.store
          r.activation.fallback net (.error error) net') →
      Propagation.Leads ⟨net, .run (r.standingAt ⟨start, stack⟩) :: behind⟩
        ⟨m, .proceed (r.standingAt f) (.fail error) :: behind⟩ →
      Assigns r mode form key e start stack behind net

section Writing

variable {mode : AssignMode} {context : Context} {store : StoreId} {fallback : List StoreId}
  {key : String} {e : Expr} {net net' : Network} {v w : Value}

/-- The scopes of a store find what has been written through it, in either mode. -/
theorem AssignMode.lookup?_written (mode : AssignMode) (exist : store < net.stores.length)
    (key : String) (v : Value) : (mode.written net store key v).lookup? store key = some v := by
  cases mode with
  | nearest => exact lookup?_assign_self exist v
  | direct => exact lookup?_set_self exist v

theorem Script.Ends.exist {α : Type} {s : Script α} {result : Except RuntimeError α}
    (ends : s.Ends store fallback net result net') (exist : store < net.stores.length) :
    store < net'.stores.length := by
  have scopes : SameScopes net net' :=
    ends.keeps (fun _ _ _ answered same => same.trans (.answer answered)) (.of_eq rfl)
  have there := scopes.exist store
  rw [List.getElem?_eq_getElem exist, Option.isSome_some] at there
  exact (List.getElem?_eq_some_iff.mp (Option.some_get there).symm).1

theorem ends_read (exist : store < net.stores.length) :
    (Script.read key).Ends store fallback net (.ok (net.read store fallback key))
      (net.fetch store fallback key .null).2.1 := by
  rw [← (fetch_null exist fallback key).1]
  exact .ask rfl (.done _ _)

/-- What is stored is what is read back. -/
theorem ends_store (exist : store < net.stores.length) :
    (mode.store key v).Ends store fallback net (.ok v) (mode.written net store key v) := by
  have reads : (Script.read key).Ends store fallback (mode.written net store key v) (.ok v)
      (mode.written net store key v) := by
    have found := found_of_lookup? (mode.lookup?_written exist key v) fallback
    refine .ask (x := (v, mode.written net store key v, [])) ?_ (.done _ _)
    simp only [answer, fetch_of_found found]
  cases mode <;> exact .ask rfl reads

/-- An operator asks for texts at most. -/
theorem ends_apply {op : Arithmetic} {old : Value} {result : Except RuntimeError Value}
    (ends : (op.apply old w).Ends store fallback net result net') : net' = net := by
  cases op with
  | add =>
      simp only [Arithmetic.apply, Value.sum] at ends
      split at ends
      · cases ends with
        | ask answered ends =>
            cases answered
            cases ends with
            | ask answered ends =>
                cases answered
                cases ends
                rfl
      · exact (ends.unique (Script.ends_ofExcept _ net)).2
  | subtract | multiply | divide => exact (ends.unique (Script.ends_ofExcept _ net)).2

end Writing

section Evaluation

variable {mode : AssignMode} {context : Context} {store : StoreId} {fallback : List StoreId}
  {key : String} {e : Expr} {net net' : Network} {v : Value}

/-- What is not null has been found, so it need not be created. -/
theorem Network.fetch_of_read_ne_null (present : net.read store fallback key ≠ .null) :
    (net.fetch store fallback key .null).2.1 = net := by
  refine fetch_cases (fun _ _ => rfl) fun missing => ?_
  rw [Network.read, missing] at present
  exact absurd rfl present

/-- An assignment whose evaluation succeeds has done what its form says. -/
theorem Parser.AssignmentForm.assigns_of_ends (form : AssignmentForm)
    (exist : store < net.stores.length)
    (ends : ((form.node key e).eval mode context).Ends store fallback net (.ok v) net') :
    form.Assigns mode context store fallback key e net v net' := by
  cases form with
  | plain =>
      obtain ⟨w, net₁, right, stores⟩ := Script.Ends.of_bind_ok ends
      obtain ⟨same, rfl⟩ := stores.unique (ends_store (right.exist exist))
      cases same
      exact .plain right
  | update op =>
      obtain ⟨old, net₁, reads, ends⟩ := Script.Ends.of_bind_ok ends
      obtain ⟨read, rfl⟩ := reads.unique (ends_read exist)
      obtain ⟨w, net₂, right, ends⟩ := Script.Ends.of_bind_ok ends
      obtain ⟨new, net₃, applied, stores⟩ := Script.Ends.of_bind_ok ends
      obtain rfl := ends_apply applied
      obtain ⟨same, rfl⟩ := stores.unique (ends_store (right.exist (reads.exist exist)))
      cases read
      cases same
      exact .update right applied
  | fill =>
      obtain ⟨old, net₁, reads, ends⟩ := Script.Ends.of_bind_ok ends
      obtain ⟨read, rfl⟩ := reads.unique (ends_read exist)
      cases read
      split at ends
      case isTrue null =>
        obtain ⟨w, net₂, right, stores⟩ := Script.Ends.of_bind_ok ends
        obtain ⟨same, rfl⟩ := stores.unique (ends_store (right.exist (reads.exist exist)))
        cases same
        refine .fill ?_ right
        generalize net.read store fallback key = old at null
        cases old <;> first | rfl | cases null
      case isFalse present =>
        have held : net.read store fallback key ≠ .null := by
          intro null
          rw [null] at present
          exact present rfl
        rw [fetch_of_read_ne_null held] at ends
        cases ends
        exact .kept held

/-- The value of an assignment is found under its key. -/
theorem Parser.AssignmentForm.Assigns.found {form : AssignmentForm}
    (assigns : form.Assigns mode context store fallback key e net v net')
    (exist : store < net.stores.length) :
    (store :: fallback).findSome? (fun scope => net'.lookup? scope key) = some v := by
  have fetched (seed : Value) : store < (net.fetch store fallback key seed).2.1.stores.length := by
    rw [length_stores_fetch]
    exact exist
  cases assigns with
  | plain right => exact found_of_lookup? (mode.lookup?_written (right.exist exist) key v) fallback
  | update right _ | fill _ right =>
      exact found_of_lookup? (mode.lookup?_written (right.exist (fetched _)) key v) fallback
  | kept held =>
      unfold Network.read at held ⊢
      cases found : (store :: fallback).findSome? fun scope => net.lookup? scope key with
      | none =>
          rw [found] at held
          exact absurd rfl held
      | some w => rfl

end Evaluation

/-- Where an assignment is laid out in code without commands, a run assigns. -/
theorem Parser.AssignmentForm.run_assigns {mode : AssignMode} (form : AssignmentForm) (key : String)
    (e : Expr) {start : Nat} {r : Run}
    (here : r.activation.code.Holds start ((form.node key e).layout mode start))
    (commandless : ∀ i ∈ r.activation.code, i.op ≠ .invokeResource) {net : Network}
    (unwatched : net.Unwatched) (exist : r.activation.store < net.stores.length) (stack : Stack)
    (behind : List Task) : r.Assigns mode form key e start stack behind net := by
  have agrees : r.activation.code.Agrees r.activation.context
      (fun v f => f = ⟨start + (form.node key e).size, v :: stack⟩) ⟨start, stack⟩
      (((form.node key e).eval mode r.activation.context).bind .done) :=
    (form.node key e).agrees here fun _ => .stop rfl
  cases agrees.carriesOut commandless unwatched (.refl net) behind with
  | succeeds there ends left leads =>
      obtain ⟨v, net', ends, last⟩ := ends.of_bind_ok
      cases last
      subst there
      have assigns := form.assigns_of_ends exist ends
      have found := assigns.found exist
      simp only [← left.lookup?] at found
      exact .succeeds assigns left (fetch_of_found found) leads
  | fails ends left leads =>
      obtain ⟨e, failed, same⟩ | ⟨v, m, -, last⟩ := ends.of_bind
      · cases same
        exact .fails (.inr ⟨_, failed⟩) leads
      · cases last
  | waits waits waiting leads =>
      obtain waits | ⟨v, m, -, last⟩ := waits.of_bind
      · exact .waits waits waiting leads
      · cases last
  | overflows leads => exact .fails (.inl rfl) leads

/-- Every assignment in a compiled program leaves on the stack what it has stored, and that is what
its key reads as from then on, unless it fails or comes to wait for itself. Its code stands
somewhere, and a run may come to it with any stack and in any state of the stores, as long as nobody
watches them. -/
theorem Parser.AssignmentForm.yields_stored {mode : AssignMode} {tokens : List Token} {code : Code}
    (compiled : Code.ofTokens mode tokens = .ok code) :
    ∃ program, Program.parse tokens = .ok program ∧
      ∀ (form : AssignmentForm) (key : String) (e : Expr),
        (∀ statement ∈ program, (form.node key e).Within statement →
          ∃ start, code.Holds start ((form.node key e).layout mode start)) ∧
        ∀ start, code.Holds start ((form.node key e).layout mode start) →
          ∀ (r : Run) (net : Network) (stack : Stack) (behind : List Task),
            r.activation.code = code → net.Unwatched → r.activation.store < net.stores.length →
              r.Assigns mode form key e start stack behind net := by
  obtain ⟨program, parsed, rfl⟩ := Code.eq_emit_of_ofTokens compiled
  refine ⟨program, parsed, fun form key e => ⟨fun statement member within => ?_, ?_⟩⟩
  · rw [program.emit_eq_layout]
    exact Program.holds_within member within (Code.holds_behind [] _)
  · intro start here r net stack behind own unwatched exist
    have commandless := (program.keeps_emit mode).commandless
    rw [← own] at here commandless
    exact form.run_assigns key e here commandless unwatched exist stack behind

/-- `$k += $k = $parameter`, whose right side gives the key another scope. -/
def addOwn : List Token :=
  [.ofKind .dollar, .identifier "k", .ofKind .plusEquals, .ofKind .dollar, .identifier "k",
    .ofKind .equals, .ofKind .dollar, .ofKind .parameterWord]

/-- An empty store, and one with a number that it falls back on. -/
def numberBehind : Network where
  stores := [{ ancestors := [], owner := .null },
    { ancestors := [], owner := .null, slots := .ofList [("$k", .int32 2)] }]

/-- The left operand comes from the fallback store, the sum goes to the store itself, and this is
where it is found. -/
theorem Parser.AssignmentForm.yields_stored_addOwn :
    ∃ code, Code.ofTokens .nearest addOwn = .ok code ∧
      (∃ start, ∀ (r : Run) (behind : List Task), r.activation.code = code →
        r.activation.store = 0 → r.Assigns .nearest (.update .add) "$k" (.assign "$k" .parameter)
          start [] behind numberBehind) ∧
      ∃ net', (AssignmentForm.update .add).Assigns .nearest ⟨.int32 5, .null⟩ 0 [1] "$k"
        (.assign "$k" .parameter) numberBehind (.int32 7) net' := by
  obtain ⟨code, compiled⟩ : ∃ code, Code.ofTokens .nearest addOwn = .ok code := ⟨_, rfl⟩
  obtain ⟨program, parsed, assigns⟩ := AssignmentForm.yields_stored compiled
  obtain ⟨stands, runs⟩ := assigns (.update .add) "$k" (.assign "$k" .parameter)
  cases parsed
  obtain ⟨start, here⟩ := stands _ (.head _) .whole
  have unwatched : numberBehind.Unwatched := by
    simp [Network.Unwatched, numberBehind]
  refine ⟨code, compiled, ⟨start, fun r behind own on => ?_⟩, _,
    .update (w := .int32 5) (.ask rfl (.ask rfl (.done _ _))) (.done _ _)⟩
  exact runs start here r numberBehind [] behind own unwatched (by rw [on]; decide)

end SlotScript
