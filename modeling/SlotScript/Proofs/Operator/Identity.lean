import Mathlib
import SlotScript.Proofs.Operator.Ordering

/-! # Identity of values

Identity is symmetric, and every value is identical to itself, with one exception: a real may be
undefined, and then it is identical to nothing. A real of single precision is compared at double
precision, where nothing becomes undefined that was not so before.

The laws of bit patterns and of equality of reals come with the library as a whole only. No smaller
part of it has them, which is why this module imports all of it.
-/

namespace SlotScript

open Float.Model Float.Model.UnpackedFloat

/-- The pattern is that of a number or an infinity: without the sign it does not go beyond the
pattern of infinity. -/
def BinaryFormat.Defined (format : BinaryFormat) (bits : Nat) : Prop :=
  bits % format.signPlace ≤ format.infinity

namespace BinaryFormat

/-- An undefined pattern has all bits of its exponent and some of its fraction. -/
theorem isNaNBits_iff {spec : Format} (b : BitVec spec.numBits) : isNaNBits b = true ↔
    b.toNat / 2 ^ spec.mantissaBitsWithoutImplicit % 2 ^ spec.exponentBits =
      2 ^ spec.exponentBits - 1 ∧ b.toNat % 2 ^ spec.mantissaBitsWithoutImplicit ≠ 0 := by
  simp only [isNaNBits, decide_eq_true_eq, unpackExponent_def, unpackMantissa_def, ne_eq,
    ← BitVec.toNat_inj, BitVec.extractLsb'_toNat, BitVec.neg_one_eq_allOnes, BitVec.toNat_allOnes,
    Nat.shiftRight_eq_div_pow, BitVec.toNat_ofNat, Nat.zero_mod, Nat.pow_zero, Nat.div_one]

theorem defined_withSign (negative : Bool) {magnitude : Nat}
    (small : magnitude ≤ double.infinity) :
    double.Defined (double.withSign negative magnitude) ∧
      double.withSign negative magnitude < 2 ^ 64 := by
  have infinity : double.infinity = 0x7FF0000000000000 := rfl
  have place : double.signPlace = 0x8000000000000000 := rfl
  rw [infinity] at small
  simp only [Defined, withSign, infinity, place]
  split <;> omega

theorem defined_nearest (negative : Bool) (numerator denominator : Nat) :
    double.Defined (double.nearest negative numerator denominator) ∧
      double.nearest negative numerator denominator < 2 ^ 64 := by
  unfold nearest
  split
  · exact defined_withSign negative (Nat.zero_le _)
  · exact defined_withSign negative (Nat.min_le_right _ _)

/-- A defined pattern is read as a number or an infinity. -/
theorem Defined.decode_ne_nan {bits : Nat} (defined : single.Defined bits) :
    single.decode bits ≠ .nan := by
  have infinity : single.infinity = 0x7F800000 := rfl
  have count : single.fractionCount = 0x800000 := rfl
  have place : single.signPlace = 0x80000000 := rfl
  simp only [Defined, infinity, place] at defined
  simp only [decode, infinity, count, place]
  split
  · rw [if_pos (by omega)]
    nofun
  · split <;> nofun

theorem defined_toBits {x : Float32} (defined : x ≠ Float32.nan) :
    single.Defined x.toBits.toNat := by
  have infinity : single.infinity = 0x7F800000 := rfl
  have place : single.signPlace = 0x80000000 := rfl
  refine Classical.byContradiction fun undefined => defined ?_
  simp only [Defined, infinity, place] at undefined
  have bounded := x.toBits.toNat_lt
  have pattern : @isNaNBits .binary32 x.toBits.toBitVec = true := by
    refine (isNaNBits_iff _).mpr ?_
    simp only [UInt32.toNat_toBitVec]
    omega
  obtain ⟨exponent, fraction⟩ := of_decide_eq_true pattern
  have same := x.toModel.valid.eq_packedNaN exponent fraction
  exact Float32.toBits_inj.mp (UInt32.toBitVec_inj.mp same)

theorem Defined.ofBits_ne_nan {bits : Nat} (defined : double.Defined bits) (fits : bits < 2 ^ 64) :
    Float.ofBits (UInt64.ofNat bits) ≠ Float.nan := by
  have infinity : double.infinity = 0x7FF0000000000000 := rfl
  have place : double.signPlace = 0x8000000000000000 := rfl
  simp only [Defined, infinity, place] at defined
  have kept : (UInt64.ofNat bits).toBitVec.toNat = bits := Nat.mod_eq_of_lt fits
  have pattern : ¬ @isNaNBits .binary64 (UInt64.ofNat bits).toBitVec = true := by
    rw [isNaNBits_iff, kept]
    simp only
    omega
  have same : (Float.ofBits (UInt64.ofNat bits)).toBits = UInt64.ofNat bits :=
    UInt64.toBitVec_inj.mp ((pack_unpack _).trans (if_neg pattern))
  intro undefined
  rw [undefined] at same
  rw [← same] at pattern
  exact pattern (by decide)

end BinaryFormat

namespace BinaryReading

theorem defined_encode {reading : BinaryReading} (defined : reading ≠ .nan) :
    BinaryFormat.double.Defined (reading.encode .double) ∧ reading.encode .double < 2 ^ 64 := by
  cases reading with
  | nan => exact (defined rfl).elim
  | infinite negative => exact BinaryFormat.defined_withSign negative (Nat.le_refl _)
  | finite negative => exact BinaryFormat.defined_nearest negative _ _

/-- A real that is undefined at double precision was so at single precision. -/
theorem toDouble_ofSingle_eq_nan_iff {x : Float32} :
    (ofSingle x).toDouble = Float.nan ↔ x = Float32.nan := by
  constructor
  · intro undefined
    refine Classical.byContradiction fun other => ?_
    obtain ⟨defined, fits⟩ :=
      defined_encode (BinaryFormat.defined_toBits other).decode_ne_nan
    exact defined.ofBits_ne_nan fits undefined
  · rintro rfl
    decide +kernel

end BinaryReading

namespace Value

/-- A real without a value. -/
def isNaN : Value → Bool
  | .float x => x.isNaN
  | .double x => x.isNaN
  | _ => false

/-- Reals are equal either way round, also where one is undefined. -/
theorem beq_comm_real (x y : Float) : (x == y) = (y == x) := by
  rw [Bool.eq_iff_iff, Float.beq_iff_ne_nan_and_eq, Float.beq_iff_ne_nan_and_eq]
  grind

theorem equalAt_comm (kind : NumericKind) (a b : Value) : equalAt kind a b = equalAt kind b a := by
  have decimals (x y : Decimal) : x.equal y = y.equal x := by
    rw [Bool.eq_iff_iff, Decimal.equal_iff, Decimal.equal_iff, eq_comm]
  have integers (x y : Int) : (x == y) = (y == x) := Bool.beq_comm
  cases kind with
  | decimal =>
    simp only [equalAt]
    cases a.toDecimal <;> cases b.toDecimal <;> simp only [decimals]
  | float | double =>
    simp only [equalAt]
    cases a.toDouble <;> cases b.toDouble <;> simp only [beq_comm_real]
  | int32 | uint32 | int64 | uint64 =>
    simp only [equalAt]
    generalize a.integral _ = x, b.integral _ = y
    cases x <;> cases y <;> simp only [integers]

theorem identical_comm (a b : Value) : a.identical b = b.identical a := by
  unfold identical
  by_cases same : a.kind = b.kind
  · rw [same]
    cases a <;> cases b <;> simp_all [equal, kind, numericKind?, equalAt_comm, Bool.beq_comm]
  · simp [same, Ne.symm same]

/-- Only an undefined real is not identical to itself. -/
theorem identical_self (v : Value) : v.identical v = !v.isNaN := by
  have real (x : Float) : (x == x) = !decide (x = Float.nan) := by
    rw [Bool.eq_iff_iff, Float.beq_iff_ne_nan_and_eq]
    simp
  cases v with
  | float x =>
    simpa [identical, equal, numericKind?, kind, NumericKind.max, equalAt, toDouble, isNaN,
      BinaryReading.toDouble_ofSingle_eq_nan_iff] using real (BinaryReading.ofSingle x).toDouble
  | double x =>
    simpa [identical, equal, numericKind?, kind, NumericKind.max, equalAt, toDouble, isNaN]
      using real x
  | decimal d =>
    have same : d.equal d = true := (Decimal.equal_iff d d).mpr rfl
    simp [identical, equal, numericKind?, kind, NumericKind.max, equalAt, toDecimal, isNaN, same]
  | int32 | int64 | uint32 | uint64 =>
    simp [identical, equal, numericKind?, kind, NumericKind.max, equalAt, integral, isNaN]
  | null | bool | string | object => simp [identical, equal, isNaN]

end Value

end SlotScript
