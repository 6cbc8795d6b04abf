import Mathlib.Algebra.Order.Field.Rat
import Mathlib.Algebra.Order.Ring.Cast
import Mathlib.Data.Rat.Cast.Order
import Mathlib.Order.WithBot
import Mathlib.Tactic.NormNum
import Mathlib.Tactic.Positivity
import SlotScript.Operator.Comparison
import SlotScript.Proofs.Operator.Integers

/-! # The order of exact numbers

Integers and decimals have an exact value, and null counts as one below all of them. Equality and
order go different ways to a common kind, but both of them say what is true of the exact values, so
they agree with each other and hold across kinds. Only the order of an unsigned integer and a
negative one is not defined.
-/

namespace SlotScript

/-- The number that a decimal is. -/
def Decimal.value (d : Decimal) : ℚ := d.signed / 10 ^ d.scale

namespace Value

/-- A value with its place among the exact numbers. -/
inductive Exact : Value → WithBot ℚ → Prop where
  | null : Exact .null ⊥
  | integer {v : Value} {kind : NumericKind} {n : Int} : v.StandsFor kind n →
    v.kind = .number kind → Exact v (n : ℚ)
  | decimal (d : Decimal) : Exact (.decimal d) d.value

/-- A negative integer of a kind with a sign. -/
inductive IsNegative : Value → Prop where
  | int32 {n : Int32} : n < 0 → IsNegative (.int32 n)
  | int64 {n : Int64} : n < 0 → IsNegative (.int64 n)

/-- One of two values is of an unsigned kind and the other one is negative. -/
def Clash (a b : Value) : Prop := a.isUnsigned ∧ b.IsNegative ∨ b.isUnsigned ∧ a.IsNegative

end Value

namespace Decimal

theorem alignedTo_eq {d : Decimal} {scale : Nat} (large : d.scale ≤ scale) :
    (d.alignedTo scale : ℚ) = d.value * 10 ^ scale := by
  have power : (10 : ℚ) ^ scale = 10 ^ d.scale * 10 ^ (scale - d.scale) := by
    rw [← pow_add, Nat.add_sub_cancel' large]
  have nonzero : (10 : ℚ) ^ d.scale ≠ 0 := by positivity
  calc (d.alignedTo scale : ℚ) = d.signed * 10 ^ (scale - d.scale) := by simp [alignedTo, tenTo]
    _ = d.value * 10 ^ scale := by rw [value, power, ← mul_assoc, div_mul_cancel₀ _ nonzero]

/-- Both sides at one scale compare as the numbers themselves. -/
theorem compare_eq_cmp (a b : Decimal) : a.compare b = cmp a.value b.value := by
  set scale := max a.scale b.scale with largest
  have left : (a.alignedTo scale : ℚ) = a.value * 10 ^ scale := alignedTo_eq (le_max_left ..)
  have right : (b.alignedTo scale : ℚ) = b.value * 10 ^ scale := alignedTo_eq (le_max_right ..)
  calc a.compare b
      = cmp (a.alignedTo scale) (b.alignedTo scale) := (cmp_eq_compare _ _).symm
    _ = cmp (a.alignedTo scale : ℚ) (b.alignedTo scale) := (Int.cast_strictMono.cmp_map_eq _ _).symm
    _ = cmp a.value b.value := by
        rw [left, right, cmp_mul_pos_right (by positivity)]

theorem equal_iff (a b : Decimal) : a.equal b ↔ a.value = b.value := by
  rw [equal, beq_iff_eq, compare_eq_cmp, cmp_eq_eq_iff]

/-- An integer that a mantissa has room for is a decimal. -/
theorem ofInt?_of_lt {n : Int} (fits : n.natAbs < mantissaLimit) :
    ∃ d, ofInt? n = some d ∧ d.value = n := by
  refine ⟨_, dif_pos ⟨fits, by decide⟩, ?_⟩
  simp only [value, signed, decide_eq_true_eq, pow_zero, div_one]
  split
  all_goals
    congr 1
    omega

end Decimal

namespace Value

variable {a b c v : Value} {kind ka kb : NumericKind} {l n r : Int} {x y z : WithBot ℚ}

/-- A mantissa has room for each integer of 64 bits. -/
theorem StandsFor.toDecimal (stands : v.StandsFor kind n) (numeric : v.kind = .number kind) :
    ∃ d, v.toDecimal = .ok d ∧ d.value = n := by
  have fits : n.natAbs < Decimal.mantissaLimit := by
    have holds := stands.holds
    have limit : Decimal.mantissaLimit = 2 ^ 96 := rfl
    split at holds <;>
      simp only [NumericKind.holds, Bool.and_eq_true, decide_eq_true_eq] at holds <;> omega
  obtain ⟨d, made, value⟩ := Decimal.ofInt?_of_lt fits
  refine ⟨d, ?_, value⟩
  cases stands with
  | null | bool => cases numeric
  | int32 | uint32 | int64 | uint64 => simp only [Value.toDecimal, decimalOfInt, made]

/-- The negative values are those below zero. -/
theorem StandsFor.isNegative_iff (stands : v.StandsFor kind n) : v.IsNegative ↔ n < 0 := by
  constructor
  · rintro (negative | negative) <;> cases stands
    · simpa [Int32.lt_iff_toInt_lt] using negative
    · simpa [Int64.lt_iff_toInt_lt] using negative
  · intro negative
    cases stands with
    | null => omega
    | bool b => cases b <;> simp at negative
    | uint32 | uint64 => omega
    | int32 n => exact .int32 (by simpa [Int32.lt_iff_toInt_lt] using negative)
    | int64 n => exact .int64 (by simpa [Int64.lt_iff_toInt_lt] using negative)

theorem StandsFor.toUInt64_nat (stands : v.StandsFor kind n) (nonneg : 0 ≤ n) :
    ∃ u, v.toUInt64 = .ok u ∧ (u.toNat : Int) = n := by
  have fits := stands.holds_uint64_iff.mpr nonneg
  exact ⟨_, by rw [Value.toUInt64, stands.integralOf, if_pos fits]; rfl,
    NumericKind.uint64_of_holds fits⟩

theorem StandsFor.toInt64_int (stands : v.StandsFor kind n) (signed : ¬ kind.isUnsigned) :
    ∃ i, v.toInt64 = .ok i ∧ i.toInt = n := by
  have fits := stands.holds
  rw [if_neg signed] at fits
  exact ⟨_, by rw [Value.toInt64, stands.integralOf, if_pos fits]; rfl,
    NumericKind.int64_of_holds fits⟩

/-- A value that is not null is the decimal of its place. -/
theorem Exact.toDecimal {q : ℚ} (exact : v.Exact q) : ∃ d, v.toDecimal = .ok d ∧ d.value = q := by
  generalize place : (q : WithBot ℚ) = x at exact
  cases exact with
  | null => nomatch place
  | integer stands numeric =>
    obtain rfl := WithBot.coe_inj.mp place
    exact stands.toDecimal numeric
  | decimal d =>
    obtain rfl := WithBot.coe_inj.mp place
    exact ⟨d, rfl, rfl⟩

theorem equal_of_numeric (left : a.kind = .number ka) (right : b.kind = .number kb) :
    a.equal b = equalAt (ka.max kb) a b := by
  cases a <;> cases left <;> cases b <;> cases right <;> rfl

theorem equal_null (numeric : v.kind = .number kind) :
    Value.equal .null v = false ∧ v.equal .null = false := by
  cases v <;> cases numeric <;> exact ⟨rfl, rfl⟩

/-- Integers are equal at the higher of their kinds, where no range is asked for. -/
theorem StandsFor.equal_iff (left : a.StandsFor ka l) (right : b.StandsFor kb r)
    (leftKind : a.kind = .number ka) (rightKind : b.kind = .number kb) :
    a.equal b ↔ l = r := by
  rw [equal_of_numeric leftKind rightKind]
  obtain kind | kind | kind | kind := left.max_cases right <;>
    simp [kind, equalAt, left.integral, right.integral]

/-- With a decimal on either side both sides are taken as decimals. -/
theorem equal_iff_of_decimal {p q : ℚ} (left : a.Exact p) (right : b.Exact q)
    (leftKind : a.kind = .number ka) (rightKind : b.kind = .number kb)
    (decimal : ka.max kb = .decimal) : a.equal b ↔ p = q := by
  obtain ⟨d, taken, rfl⟩ := left.toDecimal
  obtain ⟨d', taken', rfl⟩ := right.toDecimal
  rw [equal_of_numeric leftKind rightKind, decimal]
  simp only [equalAt, taken, taken', Decimal.equal_iff]

theorem Exact.equal_iff (left : a.Exact x) (right : b.Exact y) : a.equal b ↔ x = y := by
  cases left with
  | null =>
    cases right with
    | null => exact ⟨fun _ => rfl, fun _ => rfl⟩
    | integer _ numeric => simp [(equal_null numeric).1]
    | decimal d => exact ⟨nofun, nofun⟩
  | integer stands numeric =>
    cases right with
    | null => simp [(equal_null numeric).2]
    | integer stands' numeric' =>
      rw [stands.equal_iff stands' numeric numeric', WithBot.coe_inj, Int.cast_inj]
    | decimal d =>
      rw [equal_iff_of_decimal (.integer stands numeric) (.decimal d) numeric rfl, WithBot.coe_inj]
      cases stands <;> rfl
  | decimal d =>
    cases right with
    | null => exact ⟨nofun, nofun⟩
    | integer stands' numeric' =>
      rw [equal_iff_of_decimal (.decimal d) (.integer stands' numeric') rfl numeric',
        WithBot.coe_inj]
      cases stands' <;> rfl
    | decimal d' =>
      rw [equal_iff_of_decimal (.decimal d) (.decimal d') rfl rfl rfl, WithBot.coe_inj]

theorem compare_of_decimal (left : a.kind = .number ka) (right : b.kind = .number kb)
    (decimal : ka = .decimal ∨ kb = .decimal) :
    a.compare b = do return (← a.toDecimal).compare (← b.toDecimal) := by
  obtain rfl | rfl := decimal
  · cases a <;> cases left
    cases b <;> cases right <;> rfl
  · cases b <;> cases right
    cases a <;> cases left <;> rfl

theorem StandsFor.compare_eq (left : a.StandsFor ka l) (right : b.StandsFor kb r)
    (leftKind : a.kind = .number ka) (rightKind : b.kind = .number kb) :
    a.compare b =
      if ka.isUnsigned || kb.isUnsigned then return Ord.compare (← a.toUInt64) (← b.toUInt64)
      else return Ord.compare (← a.toInt64) (← b.toInt64) := by
  cases left <;> cases leftKind <;> cases right <;> cases rightKind <;> rfl

theorem compare_uint64 (u w : UInt64) : Ord.compare u w = cmp (u.toNat : Int) w.toNat := by
  change compareOfLessAndEq u w = _
  simp only [compareOfLessAndEq, UInt64.lt_iff_toNat_lt, ← UInt64.toNat_inj, cmp, cmpUsing]
  grind

theorem compare_int64 (i j : Int64) : Ord.compare i j = cmp i.toInt j.toInt := by
  change compareOfLessAndEq i j = _
  simp only [compareOfLessAndEq, Int64.lt_iff_toInt_lt, ← Int64.toInt_inj, cmp, cmpUsing]
  grind

theorem StandsFor.clash_iff (left : a.StandsFor ka l) (right : b.StandsFor kb r) :
    a.Clash b ↔ ka.isUnsigned ∧ r < 0 ∨ kb.isUnsigned ∧ l < 0 := by
  rw [Clash, left.isUnsigned, right.isUnsigned, left.isNegative_iff, right.isNegative_iff]

/-- An order is defined unless a word without a sign would have to be negative. -/
theorem StandsFor.compare_cases (left : a.StandsFor ka l) (right : b.StandsFor kb r)
    (leftKind : a.kind = .number ka) (rightKind : b.kind = .number kb) :
    (a.Clash b → a.compare b = .error (.overflow .uint64)) ∧
      (¬ a.Clash b → a.compare b = .ok (cmp l r)) := by
  rw [left.clash_iff right, left.compare_eq right leftKind rightKind]
  by_cases unsigned : ka.isUnsigned ∨ kb.isUnsigned
  case pos =>
    rw [if_pos (by simpa using unsigned)]
    constructor
    · intro clash
      rw [left.toUInt64, right.toUInt64]
      by_cases sign : 0 ≤ l
      · have := left.nonneg
        have other : ¬ 0 ≤ r := by
          obtain ⟨_, negative⟩ | ⟨_, negative⟩ := clash <;> omega
        rw [if_pos sign, if_neg other]
        rfl
      · rw [if_neg sign]
        rfl
    · intro apart
      have signs : 0 ≤ l ∧ 0 ≤ r := by
        obtain ⟨first, second⟩ := not_or.mp apart
        obtain unsigned | unsigned := unsigned
        · exact ⟨left.nonneg unsigned, not_lt.mp fun negative => first ⟨unsigned, negative⟩⟩
        · exact ⟨not_lt.mp fun negative => second ⟨unsigned, negative⟩, right.nonneg unsigned⟩
      obtain ⟨u, taken, rfl⟩ := left.toUInt64_nat signs.1
      obtain ⟨w, taken', rfl⟩ := right.toUInt64_nat signs.2
      rw [taken, taken', ← compare_uint64]
      rfl
  case neg =>
    obtain ⟨signed, signed'⟩ := not_or.mp unsigned
    obtain ⟨i, taken, rfl⟩ := left.toInt64_int signed
    obtain ⟨j, taken', rfl⟩ := right.toInt64_int signed'
    rw [if_neg (by simpa using unsigned), taken, taken', ← compare_int64]
    exact ⟨fun clash => absurd (clash.imp And.left And.left) unsigned, fun _ => rfl⟩

theorem compare_eq_of_decimal {p q : ℚ} (left : a.Exact p) (right : b.Exact q)
    (leftKind : a.kind = .number ka) (rightKind : b.kind = .number kb)
    (decimal : ka = .decimal ∨ kb = .decimal) : a.compare b = .ok (cmp p q) := by
  obtain ⟨d, taken, rfl⟩ := left.toDecimal
  obtain ⟨d', taken', rfl⟩ := right.toDecimal
  rw [compare_of_decimal leftKind rightKind decimal, taken, taken', ← Decimal.compare_eq_cmp]
  rfl

/-- A value without an unsigned kind that is not negative either has an order with all others. -/
theorem not_clash (signed : ¬ v.isUnsigned) (nonneg : ¬ v.IsNegative) (other : Value) :
    ¬ v.Clash other ∧ ¬ other.Clash v := by
  simp [Clash, signed, nonneg]

theorem compare_null (numeric : v.kind = .number kind) :
    Value.compare .null v = .ok .lt ∧ v.compare .null = .ok .gt := by
  cases v <;> cases numeric <;> exact ⟨rfl, rfl⟩

theorem cmp_coe (p q : ℚ) : cmp (p : WithBot ℚ) q = cmp p q :=
  WithBot.coe_strictMono.cmp_map_eq p q

/-- Only unsigned integers and negative ones have no order; all else is ordered as the exact values
are. -/
theorem Exact.compare_cases (left : a.Exact x) (right : b.Exact y) :
    (a.Clash b → a.compare b = .error (.overflow .uint64)) ∧
      (¬ a.Clash b → a.compare b = .ok (cmp x y)) := by
  have null := not_clash (v := .null) nofun nofun
  have decimal (d : Decimal) := not_clash (v := .decimal d) nofun nofun
  cases left with
  | null =>
    refine ⟨fun clash => absurd clash (null b).1, fun _ => ?_⟩
    cases right with
    | null => rfl
    | integer _ numeric =>
      rw [(compare_null numeric).1, cmp_eq_lt_iff .. |>.mpr (WithBot.bot_lt_coe _)]
    | decimal d => rw [(compare_null rfl).1, cmp_eq_lt_iff .. |>.mpr (WithBot.bot_lt_coe _)]
  | integer stands numeric =>
    cases right with
    | null =>
      refine ⟨fun clash => absurd clash (null a).2, fun _ => ?_⟩
      rw [(compare_null numeric).2, cmp_eq_gt_iff .. |>.mpr (WithBot.bot_lt_coe _)]
    | integer stands' numeric' =>
      have cases := stands.compare_cases stands' numeric numeric'
      rwa [← (Int.cast_strictMono (R := ℚ)).cmp_map_eq, ← cmp_coe] at cases
    | decimal d =>
      refine ⟨fun clash => absurd clash (decimal d a).2, fun _ => ?_⟩
      rw [compare_eq_of_decimal (.integer stands numeric) (.decimal d) numeric rfl (.inr rfl),
        cmp_coe]
  | decimal d =>
    refine ⟨fun clash => absurd clash (decimal d b).1, fun _ => ?_⟩
    cases right with
    | null => rw [(compare_null rfl).2, cmp_eq_gt_iff .. |>.mpr (WithBot.bot_lt_coe _)]
    | integer stands numeric =>
      rw [compare_eq_of_decimal (.decimal d) (.integer stands numeric) rfl numeric (.inl rfl),
        cmp_coe]
    | decimal d' =>
      rw [compare_eq_of_decimal (.decimal d) (.decimal d') rfl rfl (.inl rfl),
        cmp_coe]

/-- Whether one value comes before another one or is equal to it, if they have an order. -/
def AtMost (a b : Value) : Prop := ∃ o, a.compare b = .ok o ∧ o.isLE

/-- Where there is an order, it is that of the places. -/
theorem Exact.eq_cmp {o : Ordering} (left : a.Exact x) (right : b.Exact y)
    (ordered : a.compare b = .ok o) : o = cmp x y ∧ ¬ a.Clash b := by
  obtain ⟨clashing, apart⟩ := left.compare_cases right
  by_cases clash : a.Clash b
  · nomatch (clashing clash).symm.trans ordered
  · exact ⟨Except.ok.inj (ordered.symm.trans (apart clash)), clash⟩

theorem isLE_cmp (x y : WithBot ℚ) : (cmp x y).isLE ↔ x ≤ y := by
  rw [← not_lt, ← cmp_eq_gt_iff]
  cases cmp x y <;> decide

/-- Equality and order of exact numbers, whatever their kinds are: where they are defined and what
they say, and the laws that follow. -/
theorem exact_order (left : a.Exact x) (middle : b.Exact y) (right : c.Exact z) :
    ((a.Clash b → a.compare b = .error (.overflow .uint64)) ∧
      (¬ a.Clash b → a.compare b = .ok (cmp x y))) ∧
    (a.equal b ↔ x = y) ∧
    (a.equal a ∧ (a.equal b → b.equal a) ∧ (a.equal b → b.equal c → a.equal c)) ∧
    (∀ o, a.compare b = .ok o → (o = .eq ↔ a.equal b) ∧ b.compare a = .ok o.swap) ∧
    (a.AtMost b → b.AtMost a → a.equal b) ∧
    (∀ first second both, a.compare b = .ok first → b.compare c = .ok second →
      a.compare c = .ok both → first.isLE → second.isLE →
        both.isLE ∧ (first = .lt ∨ second = .lt → both = .lt)) := by
  refine ⟨left.compare_cases middle, left.equal_iff middle, ⟨?_, ?_, ?_⟩, ?_, ?_, ?_⟩
  · rw [left.equal_iff left]
  · rw [left.equal_iff middle, middle.equal_iff left]
    exact Eq.symm
  · rw [left.equal_iff middle, middle.equal_iff right, left.equal_iff right]
    exact Eq.trans
  · intro o ordered
    obtain ⟨rfl, apart⟩ := left.eq_cmp middle ordered
    refine ⟨by rw [cmp_eq_eq_iff, left.equal_iff middle], ?_⟩
    rw [cmp_swap, (middle.compare_cases left).2 fun clash => apart (Or.symm clash)]
  · rintro ⟨o, ordered, below⟩ ⟨o', ordered', above⟩
    obtain ⟨rfl, _⟩ := left.eq_cmp middle ordered
    obtain ⟨rfl, _⟩ := middle.eq_cmp left ordered'
    rw [left.equal_iff middle]
    exact le_antisymm ((isLE_cmp ..).mp below) ((isLE_cmp ..).mp above)
  · intro first second both ordered ordered' ordered'' below below'
    obtain ⟨rfl, _⟩ := left.eq_cmp middle ordered
    obtain ⟨rfl, _⟩ := middle.eq_cmp right ordered'
    obtain ⟨rfl, _⟩ := left.eq_cmp right ordered''
    have xy := (isLE_cmp ..).mp below
    have yz := (isLE_cmp ..).mp below'
    refine ⟨(isLE_cmp ..).mpr (xy.trans yz), ?_⟩
    rw [cmp_eq_lt_iff, cmp_eq_lt_iff, cmp_eq_lt_iff]
    rintro (less | less)
    · exact less.trans_le yz
    · exact xy.trans_lt less

/-- A word without a sign has no order with a negative integer, though it may equal a decimal with
fraction digits. -/
theorem exact_order_mixed :
    Value.compare (.int64 (-1)) (.uint32 3) = .error (.overflow .uint64) ∧
      Value.equal (.uint32 3) (.decimal ⟨false, 300, 2, by decide, by decide⟩) := by
  have negative : Exact (.int64 (-1)) ((-1 : Int) : ℚ) := .integer (.int64 _) rfl
  have word : Exact (.uint32 3) ((3 : Int) : ℚ) := .integer (.uint32 _) rfl
  have fraction := Exact.decimal ⟨false, 300, 2, by decide, by decide⟩
  refine ⟨(exact_order negative word .null).1.1 (.inr ⟨rfl, .int64 (by decide)⟩),
    (exact_order word fraction .null).2.1.mpr (congrArg _ ?_)⟩
  rw [Decimal.value, eq_div_iff (by positivity)]
  norm_num [Decimal.signed]

end Value

end SlotScript
