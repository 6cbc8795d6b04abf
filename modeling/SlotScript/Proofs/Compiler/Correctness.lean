import SlotScript.Compiler
import SlotScript.Proofs.Compiler.Safety
import SlotScript.Proofs.Network.Session

/-! # What compilation promises

The main results on compiled code: it does what the tree of its program means, and it is safe to run.
Both hold for every run that begins at the start of the code, on whatever store, for whatever host
and parameter, and whatever else happens in the network meanwhile.
-/

namespace SlotScript

/-- Code does what its program means. -/
structure Code.Implements (code : Code) (mode : AssignMode) (program : Program) : Prop where
  /-- All that the code asks, evaluation of the tree asks as well, in the same order, and with the
  same answers both end alike, unless the stack of the code overflows. -/
  script (context : Context) :
    (code.run context code.length .start).Curtails
      (fun left o => left.map Frame.outcome = some o) (program.eval mode context)
  /-- So it is in a network: evaluation of the tree makes the exchanges of the run, and when the run
  ends, evaluation ends with the same outcome, unless the run met a full stack. What is concluded
  from the run is that outcome. -/
  course {r : Run} {rest : List Task} {net : Network} {log : List (Network × Task)}
    {p : Propagation} : r.activation.code = code → r.activation.frame = .start →
    Course rest ⟨net, .run r :: rest⟩ log p →
    ∃ left, (program.eval mode r.activation.context).Made (Course.exchanges log) left ∧
      ∀ task result, p.agenda = task :: rest → task.ending? = some result →
        (left = Script.ofExcept (result.map Frame.outcome) ∨
          result = .error (.stackOverflow Stack.maxDepth) ∧
            ∃ f ∈ Course.frames log, f.stack.length = Stack.maxDepth) ∧
        (r.callers = [] → task.perform p.net =
          p.net.conclude ((result.map Frame.outcome).mapError .runtime) r.completion)

theorem Program.implements_emit (mode : AssignMode) (program : Program) :
    (program.emit mode).Implements mode program := by
  refine ⟨fun context => program.run_emit mode context (Nat.le_refl _), ?_⟩
  intro r rest net log p own fresh course
  have keeps := program.keeps_emit mode
  have safe := program.safe_emit mode
  rw [← own] at keeps
  obtain ⟨above, task, agenda, stands⟩ := course.stands keeps.commandless fresh
  obtain ⟨left, made, ends⟩ := stands.left
  have curtails := program.run_emit mode r.activation.context
    (n := (Course.frames log).length + r.activation.code.length) (own ▸ Nat.le_add_left _ _)
  rw [← own] at curtails
  obtain ⟨left', made', curtails⟩ := curtails.made made
  refine ⟨left', made', ?_⟩
  intro task' result at_top ended
  obtain ⟨-, rfl⟩ := eq_of_agenda (agenda.symm.trans at_top)
  refine ⟨?_, fun alone => stands.perform_last alone ended p.net⟩
  rw [ends result ended] at curtails
  cases result with
  | ok f =>
      left
      cases curtails with
      | done same =>
          cases same
          rfl
  | error e =>
      cases curtails with
      | fail => exact .inl rfl
      | overflow =>
          right
          refine ⟨rfl, ?_⟩
          obtain ⟨-, overflowed⟩ := safe.fails own fresh course at_top ended
          obtain ⟨-, f, i, es, last, -, deep, -⟩ := overflowed _ rfl
          have member := List.mem_of_getLast? last
          obtain ⟨-, reached⟩ := safe.reached own fresh course
          exact ⟨f, member, (reached f member).2.trans deep⟩

theorem Code.eq_emit_of_ofTokens {mode : AssignMode} {tokens : List Token} {code : Code}
    (compiled : Code.ofTokens mode tokens = .ok code) :
    ∃ program, Program.parse tokens = .ok program ∧ code = program.emit mode := by
  unfold Code.ofTokens at compiled
  cases parsed : Program.parse tokens with
  | error e =>
      rw [parsed] at compiled
      cases compiled
  | ok program =>
      rw [parsed] at compiled
      cases compiled
      exact ⟨program, rfl, rfl⟩

/-- Compiled code agrees with direct evaluation of the syntax tree of its tokens. -/
theorem Code.implements_of_ofTokens {mode : AssignMode} {tokens : List Token} {code : Code}
    (compiled : Code.ofTokens mode tokens = .ok code) :
    ∃ program, Program.parse tokens = .ok program ∧ code.Implements mode program := by
  obtain ⟨program, parsed, rfl⟩ := eq_emit_of_ofTokens compiled
  exact ⟨program, parsed, program.implements_emit mode⟩

/-- `$a ??= $b || $c[$d]`, where a conditional jump and three jumps of a chain share their ends. -/
def fillByChain : List Token :=
  [.ofKind .dollar, .identifier "a", .ofKind .questionQuestionEquals, .ofKind .dollar,
    .identifier "b", .ofKind .barBar, .ofKind .dollar, .identifier "c", .ofKind .openBracket,
    .ofKind .dollar, .identifier "d", .ofKind .closeBracket]

theorem Code.implements_fillByChain : ∃ code, Code.ofTokens .nearest fillByChain = .ok code ∧
    ∃ program, Program.parse fillByChain = .ok program ∧ code.Implements .nearest program :=
  ⟨_, rfl, Code.implements_of_ofTokens rfl⟩

/-- Compiled code has a depth for each of its instructions, at which every run meets it. -/
theorem Code.safe_of_ofTokens {mode : AssignMode} {tokens : List Token} {code : Code}
    (compiled : Code.ofTokens mode tokens = .ok code) :
    ∃ program depth, Program.parse tokens = .ok program ∧ code.Safe depth program.length := by
  obtain ⟨program, parsed, rfl⟩ := eq_emit_of_ofTokens compiled
  exact ⟨program, program.depthAt, parsed, program.safe_emit mode⟩

theorem Code.safe_fillByChain : ∃ code, Code.ofTokens .direct fillByChain = .ok code ∧
    ∃ program depth, Program.parse fillByChain = .ok program ∧ code.Safe depth program.length :=
  ⟨_, rfl, Code.safe_of_ofTokens rfl⟩

/-- `$m[$m] = 1`. -/
def indexByItself : List Token :=
  [.ofKind .dollar, .identifier "m", .ofKind .openBracket, .ofKind .dollar, .identifier "m",
    .ofKind .closeBracket, .ofKind .equals, ⟨.numericLiteral, "1", some (.int32 1)⟩]

/-- A store with an empty map. -/
def Network.holdingMap : Network where
  stores := [{ ancestors := [], owner := .null, slots := .ofList [("$m", .object ⟨.map, 0⟩)] }]
  objects := [.map .empty]

/-- Such code does not halt where the slot has a map. -/
theorem Code.never_halts_indexByItself : ∃ code, Code.ofTokens .nearest indexByItself = .ok code ∧
    ∀ steps, Propagation.drive steps
      ⟨.holdingMap, [.run ⟨⟨code, 0, [], ⟨.null, .null⟩, .start⟩, [], .answer⟩]⟩ = none := by
  refine ⟨_, rfl, ?_⟩
  exact (Propagation.Leads.of_skip 7 _).drive_none (Propagation.Waits.drive (by decide +kernel))

end SlotScript
