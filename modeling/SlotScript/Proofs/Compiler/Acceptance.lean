import SlotScript.Compiler
import SlotScript.Proofs.Syntax.Completeness

/-! # What is compiled

Compilation decides the grammar up to the limit of nesting, and what it emits is the code of the one
program that the tokens spell.
-/

namespace SlotScript

theorem Program.parse_eq_ok_iff {tokens : List Token} {program : Program} :
    Program.parse tokens = .ok program ↔
      Program.Spelled tokens program ∧ program.nesting ≤ Parser.maxNesting := by
  constructor
  · exact Parser.reads_statements _ (Nat.le_refl _)
  · rintro ⟨spelled, nests⟩
    exact Parser.accepts_statements _ (Nat.le_refl _) spelled nests

namespace Code

theorem ofTokens_eq_ok_iff {mode : AssignMode} {tokens : List Token} {code : Code} :
    Code.ofTokens mode tokens = .ok code ↔ ∃ program, Program.Spelled tokens program ∧
      program.nesting ≤ Parser.maxNesting ∧ code = program.emit mode := by
  unfold Code.ofTokens
  constructor
  · intro h
    cases parsed : Program.parse tokens with
    | error => rw [parsed] at h; cases h
    | ok program =>
        rw [parsed] at h
        cases h
        obtain ⟨spelled, nests⟩ := Program.parse_eq_ok_iff.mp parsed
        exact ⟨program, spelled, nests, rfl⟩
  · rintro ⟨program, spelled, nests, rfl⟩
    rw [Program.parse_eq_ok_iff.mpr ⟨spelled, nests⟩]
    rfl

end Code

end SlotScript
