import Mathlib.Data.Nat.Digits.Defs
import SlotScript.Text.CharClass

/-!
# The number that digits denote

Digits denote a number by their places, whatever the case of the letters among them and however many
zeros come first. What is read of them is this number.
-/

namespace SlotScript.Text

/-- The characters are the digits of the number, in either case, leading zeros included. -/
def Denotes (radix : Nat) (digits : List Char) (n : Nat) : Prop :=
  ∃ values, List.Forall₂ (fun c d => d < radix ∧ c.toLower = Nat.digitChar d) digits values ∧
    Nat.ofDigits radix values.reverse = n

/-- The characters with a given lower case are itself and its upper case. -/
theorem eq_or_eq_of_toLower {c d : Char} (same : c.toLower = d) : c = d ∨ c = d.toUpper := by
  subst same
  have ascii : ∀ n < 128, (Char.ofNat n) = (Char.ofNat n).toLower ∨
      (Char.ofNat n) = (Char.ofNat n).toLower.toUpper := by decide +kernel
  by_cases upper : c.val ≥ 'A'.val ∧ c.val ≤ 'Z'.val
  · have last : c.toNat ≤ 90 := UInt32.le_iff_toNat_le.mp upper.2
    have found := ascii c.toNat (by omega)
    rwa [Char.ofNat_toNat] at found
  · have lower : c.toLower = c := dif_neg upper
    exact .inl lower.symm

/-- A digit in either case is read as its value. -/
theorem digit?_of_digitChar {radix d : Nat} {c : Char} (bounded : radix ≤ 16) (small : d < radix)
    (same : c.toLower = Nat.digitChar d) : digit? radix c = some d := by
  have hexadecimal : ∀ d < 16, digit? 16 (Nat.digitChar d) = some d ∧
      digit? 16 (Nat.digitChar d).toUpper = some d := by decide
  have read : digit? 16 c = some d := by
    obtain ⟨lower, upper⟩ := hexadecimal d (by omega)
    obtain rfl | rfl := eq_or_eq_of_toLower same
    · exact lower
    · exact upper
  simp only [digit?, Option.filter_eq_some_iff, decide_eq_true_eq] at read ⊢
  exact ⟨read.1, small⟩

/-- What is read of digits is the number they denote. -/
theorem Denotes.number? {radix : Nat} {digits : List Char} {n : Nat} (bounded : radix ≤ 16)
    (denoted : Denotes radix digits n) : number? radix digits = some n := by
  obtain ⟨values, spelled, rfl⟩ := denoted
  rw [Nat.ofDigits_eq_foldr, List.foldr_reverse]
  unfold Text.number?
  generalize 0 = total
  induction spelled generalizing total with
  | nil => rfl
  | @cons c d digits values first further ih =>
    rw [List.foldlM_cons, digit?_of_digitChar bounded first.1 first.2]
    have shifted : d + radix * total = total * radix + d := by
      rw [Nat.mul_comm, Nat.add_comm]
    exact (ih _).trans (by rw [List.foldl_cons, Nat.cast_id, shifted])

theorem Denotes.isDigit {radix : Nat} {digits : List Char} {n : Nat} (bounded : radix ≤ 16)
    (denoted : Denotes radix digits n) : ∀ c ∈ digits, isDigit radix c := by
  obtain ⟨values, spelled, -⟩ := denoted
  induction spelled with
  | nil => exact List.forall_mem_nil _
  | cons first further ih =>
    refine List.forall_mem_cons.mpr ⟨?_, ih⟩
    rw [Text.isDigit, digit?_of_digitChar bounded first.1 first.2]
    rfl

end SlotScript.Text
