import Mathlib.Data.Int.ModEq
import SlotScript.Proofs.Syntax.Evaluation

/-! # Operators on integers

Null and truth values count as integers too, of the lowest rank. Two integers are taken at the
higher of their ranks, where both must have a place; then the exact result is brought into the range
of that kind, so it is exact modulo the number of values the kind has. Only a quotient can fail once
both have their place. Bitwise operators see the two's complement of 64 bits whatever the kinds are.
-/

namespace SlotScript

/-- A value that counts as an integer, with the kind whose rank it has. -/
inductive Value.StandsFor : Value → NumericKind → Int → Prop where
  | null : StandsFor .null .int32 0
  | bool (b : Bool) : StandsFor (.bool b) .int32 b.toInt
  | int32 (n : Int32) : StandsFor (.int32 n) .int32 n.toInt
  | uint32 (n : UInt32) : StandsFor (.uint32 n) .uint32 n.toNat
  | int64 (n : Int64) : StandsFor (.int64 n) .int64 n.toInt
  | uint64 (n : UInt64) : StandsFor (.uint64 n) .uint64 n.toNat

namespace NumericKind

/-- The number of bits of an integral kind. -/
def width : NumericKind → Nat
  | int32 | uint32 => 32
  | int64 | uint64 => 64
  | float | double | decimal => 0

/-- The least integer of an integral kind. -/
def least : NumericKind → Int
  | int32 => -2 ^ 31
  | int64 => -2 ^ 63
  | uint32 | uint64 | float | double | decimal => 0

/-- A value of the kind, with the integer in its range that an exact result comes to there. -/
structure Reduces (kind : NumericKind) (exact : Int) (v : Value) : Prop where
  numeric : v.kind = .number kind
  integer : ∃ n, v.StandsFor kind n ∧ kind.holds n ∧ n ≡ exact [ZMOD 2 ^ kind.width]

end NumericKind

namespace Arithmetic

/-- The result in integers without bounds. Quotients are truncated. -/
def exactly (l r : Int) : Arithmetic → Int
  | add => l + r
  | subtract => l - r
  | multiply => l * r
  | divide => l.tdiv r

/-- What an operation makes of two integers at some kind. -/
inductive Gives (op : Arithmetic) (kind : NumericKind) (l r : Int) :
    Except RuntimeError Value → Prop where
  /-- One of them is out of range. -/
  | unfit : ¬ (kind.holds l ∧ kind.holds r) → Gives op kind l r (.error (.overflow kind))
  | byZero : kind.holds l → kind.holds r → op = .divide → r = 0 →
    Gives op kind l r (.error .divideByZero)
  /-- The one quotient that is out of range. -/
  | beyond : kind.holds l → kind.holds r → op = .divide → l = kind.least → r = -1 →
    Gives op kind l r (.error (.overflow kind))
  | result {v : Value} : kind.holds l → kind.holds r →
    (op = .divide → r ≠ 0 ∧ ¬ (l = kind.least ∧ r = -1)) →
    kind.Reduces (op.exactly l r) v → Gives op kind l r (.ok v)

end Arithmetic

namespace Bitwise

def onWords (x y : BitVec 64) : Bitwise → BitVec 64
  | and => x &&& y
  | or => x ||| y
  | xor => x ^^^ y

/-- What an operation makes of two values of some ranks that count as integers. -/
inductive Gives (op : Bitwise) (ka kb : NumericKind) (l r : Int) :
    Value → Value → Except RuntimeError Value → Prop where
  | truths (x y : Bool) :
    Gives op ka kb l r (.bool x) (.bool y) (.ok (.bool (Value.bitwiseBool op x y)))
  /-- One of them is unsigned and the other one negative. -/
  | negative {a b : Value} : ka.isUnsigned ∧ r < 0 ∨ kb.isUnsigned ∧ l < 0 →
    Gives op ka kb l r a b (.error (.overflow .uint64))
  | unsigned {a b : Value} : ka.isUnsigned ∨ kb.isUnsigned → 0 ≤ l → 0 ≤ r →
    Gives op ka kb l r a b (.ok (.uint64 ⟨op.onWords (.ofInt 64 l) (.ofInt 64 r)⟩))
  | signed {a b : Value} : (¬ ∃ x y, a = .bool x ∧ b = .bool y) →
    ¬ ka.isUnsigned → ¬ kb.isUnsigned →
    Gives op ka kb l r a b (.ok (.int64 ⟨⟨op.onWords (.ofInt 64 l) (.ofInt 64 r)⟩⟩))

end Bitwise

namespace Value

variable {a b : Value} {ka kb : NumericKind} {l r : Int}

theorem StandsFor.integral (stands : a.StandsFor ka l) (target : NumericKind) :
    a.integral target = .ok l := by
  cases stands with
  | bool b => cases b <;> rfl
  | null | int32 | uint32 | int64 | uint64 => rfl

theorem StandsFor.integralOf (stands : a.StandsFor ka l) (target : NumericKind) :
    a.integralOf target = if target.holds l then .ok l else .error (.overflow target) := by
  simp only [Value.integralOf, stands.integral]
  rfl

/-- Two operands run at the higher of their ranks. -/
theorem StandsFor.promoted (left : a.StandsFor ka l) (right : b.StandsFor kb r) :
    Value.promoted a b = ka.max kb := by
  cases left <;> cases right <;> rfl

theorem StandsFor.isUnsigned (stands : a.StandsFor ka l) : a.isUnsigned = ka.isUnsigned := by
  cases stands <;> rfl

theorem StandsFor.isString (stands : a.StandsFor ka l) : a.isString = false := by
  cases stands <;> rfl

/-- The kind of two operands is integral. -/
theorem StandsFor.max_cases (left : a.StandsFor ka l) (right : b.StandsFor kb r) :
    ka.max kb = .int32 ∨ ka.max kb = .uint32 ∨ ka.max kb = .int64 ∨ ka.max kb = .uint64 := by
  cases left <;> cases right <;> decide

end Value

namespace NumericKind

/-! A word has an integer that its kind holds, and each integer that the kind holds has its word. -/

theorem holds_int32 (n : Int32) : int32.holds n.toInt = true := by
  have := n.le_toInt
  have := n.toInt_lt
  simp only [holds, Bool.and_eq_true, decide_eq_true_eq]
  omega

theorem holds_int64 (n : Int64) : int64.holds n.toInt = true := by
  have := n.le_toInt
  have := n.toInt_lt
  simp only [holds, Bool.and_eq_true, decide_eq_true_eq]
  omega

theorem holds_uint32 (n : UInt32) : uint32.holds n.toNat = true := by
  have := n.toNat_lt
  simp only [holds, Bool.and_eq_true, decide_eq_true_eq]
  omega

theorem holds_uint64 (n : UInt64) : uint64.holds n.toNat = true := by
  have := n.toNat_lt
  simp only [holds, Bool.and_eq_true, decide_eq_true_eq]
  omega

variable {exact n : Int}

theorem int32_of_holds (fits : int32.holds n) : (Int32.ofInt n).toInt = n := by
  simp only [holds, Bool.and_eq_true, decide_eq_true_eq] at fits
  exact Int32.toInt_ofInt_of_le (by omega) (by omega)

theorem int64_of_holds (fits : int64.holds n) : (Int64.ofInt n).toInt = n := by
  simp only [holds, Bool.and_eq_true, decide_eq_true_eq] at fits
  exact Int64.toInt_ofInt_of_le (by omega) (by omega)

theorem uint32_of_holds (fits : uint32.holds n) : ((UInt32.ofNat n.toNat).toNat : Int) = n := by
  simp only [holds, Bool.and_eq_true, decide_eq_true_eq] at fits
  rw [UInt32.toNat_ofNat_of_lt' (by simp only [UInt32.size]; omega)]
  omega

theorem uint64_of_holds (fits : uint64.holds n) : ((UInt64.ofNat n.toNat).toNat : Int) = n := by
  simp only [holds, Bool.and_eq_true, decide_eq_true_eq] at fits
  rw [UInt64.toNat_ofNat_of_lt' (by simp only [UInt64.size]; omega)]
  omega

/-- What remains of an exact result in so many bits, read with a sign. -/
theorem modEq_bmod (exact : Int) (width : Nat) :
    exact.bmod (2 ^ width) ≡ exact [ZMOD 2 ^ width] := by
  have := Int.bmod_emod (x := exact) (m := 2 ^ width)
  simpa [Int.ModEq] using this

theorem reduces_int32 {n : Int32} (value : n.toInt = exact.bmod (2 ^ 32)) :
    int32.Reduces exact (.int32 n) where
  numeric := rfl
  integer := ⟨n.toInt, .int32 n, holds_int32 n, value ▸ modEq_bmod exact 32⟩

theorem reduces_int64 {n : Int64} (value : n.toInt = exact.bmod (2 ^ 64)) :
    int64.Reduces exact (.int64 n) where
  numeric := rfl
  integer := ⟨n.toInt, .int64 n, holds_int64 n, value ▸ modEq_bmod exact 64⟩

theorem reduces_uint32 {n : UInt32} (value : (n.toNat : Int) ≡ exact [ZMOD 2 ^ 32]) :
    uint32.Reduces exact (.uint32 n) where
  numeric := rfl
  integer := ⟨n.toNat, .uint32 n, holds_uint32 n, value⟩

theorem reduces_uint64 {n : UInt64} (value : (n.toNat : Int) ≡ exact [ZMOD 2 ^ 64]) :
    uint64.Reduces exact (.uint64 n) where
  numeric := rfl
  integer := ⟨n.toNat, .uint64 n, holds_uint64 n, value⟩

/-- The integers that a kind holds are apart modulo their number. -/
theorem eq_of_modEq {kind : NumericKind} {n m : Int} (left : kind.holds n) (right : kind.holds m)
    (same : n ≡ m [ZMOD 2 ^ kind.width]) : n = m := by
  cases kind <;>
    simp only [holds, Bool.and_eq_true, decide_eq_true_eq, Bool.false_eq_true] at left right <;>
    simp only [width, Int.ModEq] at same <;> omega

/-- The value of an integral kind for an integer that it holds. -/
def word (n : Int) : NumericKind → Value
  | int32 => .int32 (.ofInt n)
  | uint32 => .uint32 (.ofNat n.toNat)
  | int64 => .int64 (.ofInt n)
  | uint64 => .uint64 (.ofNat n.toNat)
  | float | double | decimal => .null

theorem eq_word {kind : NumericKind} {v : Value} (numeric : v.kind = .number kind)
    (stands : v.StandsFor kind n) : v = kind.word n := by
  cases stands with
  | null | bool => cases numeric
  | int32 | uint32 | int64 | uint64 => simp [word]

/-- A kind has one value for what an exact result comes to. -/
theorem Reduces.unique {kind : NumericKind} {v w : Value} (first : kind.Reduces exact v)
    (second : kind.Reduces exact w) : v = w := by
  obtain ⟨numeric, n, stands, fits, same⟩ := first
  obtain ⟨numeric', m, stands', fits', same'⟩ := second
  obtain rfl := eq_of_modEq fits fits' (same.trans same'.symm)
  rw [eq_word numeric stands, eq_word numeric' stands']

end NumericKind

namespace Arithmetic

open NumericKind

section Quotient

variable {kind : NumericKind} {l r : Int} {word : Type} {w : word} {wrap : word → Value}
  {zero limit : Prop} [Decidable zero] [Decidable limit]

/-- The divisor is looked at first, then the one quotient that is out of range. -/
theorem gives_quotient (left : kind.holds l) (right : kind.holds r) (zero_iff : zero ↔ r = 0)
    (limit_iff : limit ↔ l = kind.least ∧ r = -1) (reduces : kind.Reduces (l.tdiv r) (wrap w)) :
    Gives .divide kind l r (wrap <$> if zero then .error .divideByZero
      else if limit then .error (.overflow kind) else .ok w) := by
  by_cases none : r = 0
  · rw [if_pos (zero_iff.mpr none)]
    exact .byZero left right rfl none
  · rw [if_neg (mt zero_iff.mp none)]
    by_cases outside : l = kind.least ∧ r = -1
    · rw [if_pos (limit_iff.mpr outside)]
      exact .beyond left right rfl outside.1 outside.2
    · rw [if_neg (mt limit_iff.mp outside)]
      exact .result left right (fun _ => ⟨none, outside⟩) reduces

/-- Without a sign no quotient is out of range. -/
theorem gives_quotient_of_nonneg (left : kind.holds l) (right : kind.holds r) (nonneg : 0 ≤ r)
    (zero_iff : zero ↔ r = 0) (reduces : kind.Reduces (l.tdiv r) (wrap w)) :
    Gives .divide kind l r (wrap <$> if zero then .error .divideByZero else .ok w) := by
  have never : ¬ (l = kind.least ∧ r = -1) := by omega
  have gives := gives_quotient left right zero_iff (iff_of_false not_false never) reduces
  rwa [if_neg not_false] at gives

end Quotient

theorem gives_int32 (op : Arithmetic) (x y : Int32) :
    op.Gives .int32 x.toInt y.toInt (Value.int32 <$> Value.arithmeticInt32 op x y) := by
  have left := holds_int32 x
  have right := holds_int32 y
  cases op with
  | add => exact .result left right nofun (reduces_int32 (Int32.toInt_add x y))
  | subtract => exact .result left right nofun (reduces_int32 (Int32.toInt_sub x y))
  | multiply => exact .result left right nofun (reduces_int32 (Int32.toInt_mul x y))
  | divide =>
    exact gives_quotient left right Int32.toInt_inj.symm
      (and_congr Int32.toInt_inj.symm Int32.toInt_inj.symm) (reduces_int32 (Int32.toInt_div x y))

theorem gives_int64 (op : Arithmetic) (x y : Int64) :
    op.Gives .int64 x.toInt y.toInt (Value.int64 <$> Value.arithmeticInt64 op x y) := by
  have left := holds_int64 x
  have right := holds_int64 y
  cases op with
  | add => exact .result left right nofun (reduces_int64 (Int64.toInt_add x y))
  | subtract => exact .result left right nofun (reduces_int64 (Int64.toInt_sub x y))
  | multiply => exact .result left right nofun (reduces_int64 (Int64.toInt_mul x y))
  | divide =>
    exact gives_quotient left right Int64.toInt_inj.symm
      (and_congr Int64.toInt_inj.symm Int64.toInt_inj.symm) (reduces_int64 (Int64.toInt_div x y))

theorem gives_uint32 (op : Arithmetic) (x y : UInt32) :
    op.Gives .uint32 x.toNat y.toNat (Value.uint32 <$> Value.arithmeticUInt32 op x y) := by
  have left := holds_uint32 x
  have right := holds_uint32 y
  have below := y.toNat_lt
  cases op with
  | add =>
    refine .result left right nofun (reduces_uint32 ?_)
    simp only [UInt32.toNat_add, exactly, Int.ModEq]
    omega
  | subtract =>
    refine .result left right nofun (reduces_uint32 ?_)
    simp only [UInt32.toNat_sub, exactly, Int.ModEq]
    omega
  | multiply =>
    refine .result left right nofun (reduces_uint32 ?_)
    simp [UInt32.toNat_mul, exactly, Int.ModEq]
  | divide =>
    refine gives_quotient_of_nonneg left right (Int.natCast_nonneg _) ?_ (reduces_uint32 ?_)
    · rw [Int.natCast_eq_zero]
      exact UInt32.toNat_inj.symm
    · rw [UInt32.toNat_div]
      exact Int.ModEq.refl _

theorem gives_uint64 (op : Arithmetic) (x y : UInt64) :
    op.Gives .uint64 x.toNat y.toNat (Value.uint64 <$> Value.arithmeticUInt64 op x y) := by
  have left := holds_uint64 x
  have right := holds_uint64 y
  have below := y.toNat_lt
  cases op with
  | add =>
    refine .result left right nofun (reduces_uint64 ?_)
    simp only [UInt64.toNat_add, exactly, Int.ModEq]
    omega
  | subtract =>
    refine .result left right nofun (reduces_uint64 ?_)
    simp only [UInt64.toNat_sub, exactly, Int.ModEq]
    omega
  | multiply =>
    refine .result left right nofun (reduces_uint64 ?_)
    simp [UInt64.toNat_mul, exactly, Int.ModEq]
  | divide =>
    refine gives_quotient_of_nonneg left right (Int.natCast_nonneg _) ?_ (reduces_uint64 ?_)
    · rw [Int.natCast_eq_zero]
      exact UInt64.toNat_inj.symm
    · rw [UInt64.toNat_div]
      exact Int.ModEq.refl _

variable {op : Arithmetic} {a b : Value} {ka kb kind : NumericKind} {l r : Int}

theorem Gives.unique {first second : Except RuntimeError Value} (left : op.Gives kind l r first)
    (right : op.Gives kind l r second) : first = second := by
  cases left with
  | result _ _ defined reduces =>
    cases right with
    | result _ _ _ reduces' => rw [reduces.unique reduces']
    | _ => grind
  | _ => cases right <;> grind

/-- Both operands are taken at a kind, the left one first; what is to be shown is what the kind's
own operation gives. -/
theorem Gives.of_taken {word : Type} {take : Int → word} {wrap : word → Value}
    {run : word → word → Except RuntimeError word}
    (left : a.StandsFor ka l) (right : b.StandsFor kb r)
    (gives : kind.holds l → kind.holds r → op.Gives kind l r (wrap <$> run (take l) (take r))) :
    op.Gives kind l r (do
      return wrap (← run (← take <$> a.integralOf kind) (← take <$> b.integralOf kind))) := by
  rw [left.integralOf, right.integralOf]
  by_cases fitsLeft : kind.holds l
  · by_cases fitsRight : kind.holds r
    · simp only [fitsLeft, fitsRight, if_true, bind_pure_comp]
      exact gives fitsLeft fitsRight
    · simpa [fitsLeft, fitsRight] using .unfit fun fits => fitsRight fits.2
  · simpa [fitsLeft] using .unfit fun fits => fitsLeft fits.1

/-- The operation at an integral kind gives what the integers of its operands come to there. -/
theorem arithmetic_gives (left : a.StandsFor ka l) (right : b.StandsFor kb r) :
    op.Gives (ka.max kb) l r (Value.arithmetic op a b) := by
  simp only [Value.arithmetic, left.promoted right]
  obtain kind | kind | kind | kind := left.max_cases right <;> simp only [kind]
  case inl =>
    refine Gives.of_taken left right fun fitsLeft fitsRight => ?_
    simpa only [int32_of_holds, fitsLeft, fitsRight] using gives_int32 op (.ofInt l) (.ofInt r)
  case inr.inl =>
    refine Gives.of_taken left right fun fitsLeft fitsRight => ?_
    simpa only [uint32_of_holds, fitsLeft, fitsRight]
      using gives_uint32 op (.ofNat l.toNat) (.ofNat r.toNat)
  case inr.inr.inl =>
    refine Gives.of_taken left right fun fitsLeft fitsRight => ?_
    simpa only [int64_of_holds, fitsLeft, fitsRight] using gives_int64 op (.ofInt l) (.ofInt r)
  case inr.inr.inr =>
    refine Gives.of_taken left right fun fitsLeft fitsRight => ?_
    simpa only [uint64_of_holds, fitsLeft, fitsRight]
      using gives_uint64 op (.ofNat l.toNat) (.ofNat r.toNat)

end Arithmetic

namespace Value

variable {a b : Value} {ka kb : NumericKind} {l r : Int}

/-- Words of 64 bits hold each integer that a value stands for, with a sign or without. -/
theorem StandsFor.holds (stands : a.StandsFor ka l) :
    if ka.isUnsigned then NumericKind.uint64.holds l else NumericKind.int64.holds l := by
  cases stands with
  | null => decide
  | bool b => cases b <;> decide
  | int32 n =>
    have := NumericKind.holds_int32 n
    simp only [NumericKind.holds, Bool.and_eq_true, decide_eq_true_eq] at this
    simp [NumericKind.isUnsigned, NumericKind.holds]
    omega
  | uint32 n =>
    have := NumericKind.holds_uint32 n
    simp only [NumericKind.holds, Bool.and_eq_true, decide_eq_true_eq] at this
    simp [NumericKind.isUnsigned, NumericKind.holds]
    omega
  | int64 n => exact NumericKind.holds_int64 n
  | uint64 n => exact NumericKind.holds_uint64 n

/-- A negative integer is none of an unsigned kind. -/
theorem StandsFor.holds_uint64_iff (stands : a.StandsFor ka l) :
    NumericKind.uint64.holds l ↔ 0 ≤ l := by
  have holds := stands.holds
  split at holds <;>
    simp only [NumericKind.holds, Bool.and_eq_true, decide_eq_true_eq] at holds ⊢ <;> omega

theorem StandsFor.nonneg (stands : a.StandsFor ka l) (unsigned : ka.isUnsigned) : 0 ≤ l := by
  have holds := stands.holds
  rw [if_pos unsigned] at holds
  exact stands.holds_uint64_iff.mp holds

theorem StandsFor.toUInt64 (stands : a.StandsFor ka l) :
    a.toUInt64 = if 0 ≤ l then .ok ⟨.ofInt 64 l⟩ else .error (.overflow .uint64) := by
  simp only [Value.toUInt64, stands.integralOf, stands.holds_uint64_iff]
  split
  case isTrue nonneg =>
    obtain ⟨n, rfl⟩ := Int.eq_ofNat_of_zero_le nonneg
    rfl
  case isFalse => rfl

theorem StandsFor.toInt64 (stands : a.StandsFor ka l) (signed : ¬ ka.isUnsigned) :
    a.toInt64 = .ok ⟨⟨.ofInt 64 l⟩⟩ := by
  have holds := stands.holds
  rw [if_neg signed] at holds
  simp only [Value.toInt64, stands.integralOf, holds, if_true]
  rfl

/-- Unless both are truth values, it is words that are combined. -/
theorem bitwise_of_not_bool {op : Bitwise} (apart : ¬ ∃ x y, a = .bool x ∧ b = .bool y) :
    Value.bitwise op a b =
      if a.isUnsigned || b.isUnsigned then
        return .uint64 (bitwiseUInt64 op (← a.toUInt64) (← b.toUInt64))
      else return .int64 (bitwiseInt64 op (← a.toInt64) (← b.toInt64)) := by
  unfold Value.bitwise
  split
  case h_1 x y => exact absurd ⟨x, y, rfl, rfl⟩ apart
  case h_2 => rfl

theorem bitwiseUInt64_eq (op : Bitwise) (x y : BitVec 64) :
    bitwiseUInt64 op ⟨x⟩ ⟨y⟩ = ⟨op.onWords x y⟩ := by
  cases op <;> rfl

theorem bitwiseInt64_eq (op : Bitwise) (x y : BitVec 64) :
    bitwiseInt64 op ⟨⟨x⟩⟩ ⟨⟨y⟩⟩ = ⟨⟨op.onWords x y⟩⟩ := by
  cases op <;> rfl

end Value

namespace Bitwise

variable {op : Bitwise} {a b : Value} {ka kb : NumericKind} {l r : Int}

theorem Gives.unique {first second : Except RuntimeError Value} (left : a.StandsFor ka l)
    (right : b.StandsFor kb r) (one : op.Gives ka kb l r a b first)
    (other : op.Gives ka kb l r a b second) : first = second := by
  have := left.nonneg
  have := right.nonneg
  cases one with
  | truths x y =>
    cases left
    cases right
    cases other <;> simp_all [NumericKind.isUnsigned]
  | _ =>
    cases other with
    | truths x y =>
      cases left
      cases right
      simp_all [NumericKind.isUnsigned]
    | _ => grind

/-- What the operation gives is right whichever operand fails to be a word. -/
theorem bitwise_gives (left : a.StandsFor ka l) (right : b.StandsFor kb r) :
    op.Gives ka kb l r a b (Value.bitwise op a b) := by
  by_cases truths : ∃ x y, a = .bool x ∧ b = .bool y
  case pos =>
    obtain ⟨x, y, rfl, rfl⟩ := truths
    exact .truths x y
  case neg =>
  rw [Value.bitwise_of_not_bool truths, left.isUnsigned, right.isUnsigned]
  by_cases unsigned : ka.isUnsigned ∨ kb.isUnsigned
  case pos =>
    have either : (ka.isUnsigned || kb.isUnsigned) = true := by simpa using unsigned
    rw [either, if_pos rfl, left.toUInt64, right.toUInt64]
    by_cases signs : 0 ≤ l ∧ 0 ≤ r
    case pos =>
      rw [if_pos signs.1, if_pos signs.2]
      have result : op.Gives ka kb l r a b _ := .unsigned unsigned signs.1 signs.2
      rwa [← Value.bitwiseUInt64_eq] at result
    case neg =>
      have negative : ka.isUnsigned ∧ r < 0 ∨ kb.isUnsigned ∧ l < 0 := by
        obtain unsigned | unsigned := unsigned
        · have := left.nonneg unsigned
          exact .inl ⟨unsigned, by omega⟩
        · have := right.nonneg unsigned
          exact .inr ⟨unsigned, by omega⟩
      have result : op.Gives ka kb l r a b _ := .negative negative
      -- The left operand is taken first, but the error is the same.
      by_cases sign : 0 ≤ l
      · rwa [if_pos sign, if_neg fun other => signs ⟨sign, other⟩]
      · rwa [if_neg sign]
  case neg =>
    obtain ⟨signedLeft, signedRight⟩ := not_or.mp unsigned
    have neither : (ka.isUnsigned || kb.isUnsigned) = false := by simpa using unsigned
    have result : op.Gives ka kb l r a b _ := .signed truths signedLeft signedRight
    rw [neither, left.toInt64 signedLeft, right.toInt64 signedRight]
    rwa [← Value.bitwiseInt64_eq] at result

end Bitwise

/-- Arithmetic and bitwise operators on integers do exactly what was said above. As neither operand
is text, a sum of them is one of numbers. -/
theorem Value.integral_operators {a b : Value} {ka kb : NumericKind} {l r : Int}
    (left : a.StandsFor ka l) (right : b.StandsFor kb r) :
    (∀ (op : Arithmetic) result,
      (Value.arithmetic op a b = result ↔ op.Gives (ka.max kb) l r result) ∧
        op.apply a b = Script.ofExcept (Value.arithmetic op a b)) ∧
    ∀ (op : Bitwise) result, Value.bitwise op a b = result ↔ op.Gives ka kb l r a b result := by
  refine ⟨fun op result => ⟨⟨?_, ?_⟩, ?_⟩, fun op result => ⟨?_, ?_⟩⟩
  · rintro rfl
    exact Arithmetic.arithmetic_gives left right
  · exact (Arithmetic.arithmetic_gives left right).unique
  · cases op with
    | add =>
      simp only [Arithmetic.apply, Value.sum, left.isString, right.isString]
      rfl
    | subtract | multiply | divide => rfl
  · rintro rfl
    exact Bitwise.bitwise_gives left right
  · exact Bitwise.Gives.unique left right (Bitwise.bitwise_gives left right)

/-- The least 64-bit integer has no quotient by the 32-bit integer below zero, while the sum of the
greatest 32-bit integer and a truth value wraps around; a negative integer and an unsigned one share
no word. -/
theorem Value.integral_operators_limits :
    Value.arithmetic .divide (.int64 Int64.minValue) (.int32 (-1)) = .error (.overflow .int64) ∧
    Value.arithmetic .add (.int32 Int32.maxValue) (.bool true) = .ok (.int32 Int32.minValue) ∧
    Value.bitwise .xor (.uint32 1) (.int32 (-1)) = .error (.overflow .uint64) :=
  ⟨((Value.integral_operators (.int64 _) (.int32 _)).1 .divide _).1.mpr
      (.beyond (by decide) (by decide) rfl (by decide) (by decide)),
    ((Value.integral_operators (.int32 _) (.bool _)).1 .add _).1.mpr
      (.result (by decide) (by decide) nofun ⟨rfl, _, .int32 _, by decide, by decide⟩),
    ((Value.integral_operators (.uint32 _) (.int32 _)).2 .xor _).mpr
      (.negative (.inl ⟨rfl, by decide⟩))⟩

end SlotScript
