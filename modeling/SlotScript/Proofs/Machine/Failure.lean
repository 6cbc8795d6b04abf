import SlotScript.Proofs.Machine.Run

/-! # What an operation can fail with

Operations on values and collections have errors of their own. The errors of the machine, such as a
stack that is empty or a jump out of the code, are none of them, so an instruction that finds what
it needs on the stack fails regularly or because the stack is full.
-/

namespace SlotScript

/-- The errors of operations on values and collections. -/
def RuntimeError.Regular : RuntimeError → Prop
  | divideByZero | overflow _ | conversion .. | booleanConversion _ | unsupportedOperand ..
  | notIndexable _ | invalidIndex .. => True
  | _ => False

section Values

variable {α β : Type}

def FailsRegularly (x : Except RuntimeError α) : Prop := ∀ e, x = .error e → e.Regular

namespace FailsRegularly

theorem ok (a : α) : FailsRegularly (.ok a : Except RuntimeError α) := nofun

theorem error {e : RuntimeError} (h : e.Regular) :
    FailsRegularly (.error e : Except RuntimeError α) := by
  rintro _ ⟨⟩
  exact h

theorem refuse {c : Prop} [Decidable c] {e : RuntimeError} {x : Except RuntimeError α}
    (regular : e.Regular) (h : FailsRegularly x) : FailsRegularly (if c then .error e else x) := by
  split
  · exact error regular
  · exact h

theorem bind {x : Except RuntimeError α} {f : α → Except RuntimeError β} (first : FailsRegularly x)
    (second : ∀ a, FailsRegularly (f a)) : FailsRegularly (x >>= f) := by
  cases x with
  | error e => exact error (first e rfl)
  | ok a => exact second a

theorem map {x : Except RuntimeError α} (h : FailsRegularly x) (f : α → β) :
    FailsRegularly (f <$> x) := by
  cases x with
  | error e => exact error (h e rfl)
  | ok a => exact ok (f a)

end FailsRegularly

namespace Value

open FailsRegularly

theorem integralOfReal_fails (x : Float) (target : NumericKind) :
    FailsRegularly (integralOfReal x target) := by
  unfold integralOfReal
  split
  · split
    · exact error trivial
    · exact ok _
  · exact error trivial

theorem integralOf_fails (v : Value) (target : NumericKind) :
    FailsRegularly (v.integralOf target) := by
  have read : FailsRegularly (v.integral target) := by
    unfold integral
    split
    case h_7 | h_8 => exact integralOfReal_fails _ _
    case h_10 =>
      split
      · exact ok _
      · exact error trivial
    case h_11 => exact error trivial
    all_goals exact ok _
  apply read.bind
  intro n
  split
  · exact ok _
  · exact error trivial

theorem toInt32_fails (v : Value) : FailsRegularly v.toInt32 := (v.integralOf_fails _).map _

theorem toInt64_fails (v : Value) : FailsRegularly v.toInt64 := (v.integralOf_fails _).map _

theorem toUInt32_fails (v : Value) : FailsRegularly v.toUInt32 := (v.integralOf_fails _).map _

theorem toUInt64_fails (v : Value) : FailsRegularly v.toUInt64 := (v.integralOf_fails _).map _

theorem toDouble_fails (v : Value) : FailsRegularly v.toDouble := by
  unfold toDouble
  split
  case h_10 =>
    split
    · exact ok _
    · exact error trivial
  case h_11 => exact error trivial
  all_goals exact ok _

theorem toSingle_fails (v : Value) : FailsRegularly v.toSingle := by
  unfold toSingle
  split
  · exact ok _
  · split
    · exact ok _
    · exact error trivial
  · exact v.toDouble_fails.map _

theorem decimalOfInt_fails (n : Int) : FailsRegularly (decimalOfInt n) := by
  unfold decimalOfInt
  split
  · exact ok _
  · exact error trivial

theorem toDecimal_fails (v : Value) : FailsRegularly v.toDecimal := by
  unfold toDecimal
  split
  case h_1 | h_9 => exact ok _
  case h_7 | h_8 | h_10 =>
    split
    · exact ok _
    · exact error trivial
  case h_11 => exact error trivial
  all_goals exact decimalOfInt_fails _

theorem toBool_fails (v : Value) : FailsRegularly v.toBool := by
  cases v with
  | object => exact error trivial
  | _ => exact ok _

theorem decimalResult_fails (d : Option Decimal) : FailsRegularly (decimalResult d) := by
  cases d with
  | none => exact error trivial
  | some d => exact ok d

theorem arithmeticInt32_fails (op : Arithmetic) (x y : Int32) :
    FailsRegularly (arithmeticInt32 op x y) := by
  cases op with
  | divide => exact refuse trivial (refuse trivial (ok _))
  | _ => exact ok _

theorem arithmeticInt64_fails (op : Arithmetic) (x y : Int64) :
    FailsRegularly (arithmeticInt64 op x y) := by
  cases op with
  | divide => exact refuse trivial (refuse trivial (ok _))
  | _ => exact ok _

theorem arithmeticUInt32_fails (op : Arithmetic) (x y : UInt32) :
    FailsRegularly (arithmeticUInt32 op x y) := by
  cases op with
  | divide => exact refuse trivial (ok _)
  | _ => exact ok _

theorem arithmeticUInt64_fails (op : Arithmetic) (x y : UInt64) :
    FailsRegularly (arithmeticUInt64 op x y) := by
  cases op with
  | divide => exact refuse trivial (ok _)
  | _ => exact ok _

theorem arithmeticSingle_fails (op : Arithmetic) (x y : Float32) :
    FailsRegularly (arithmeticSingle op x y) := by
  cases op with
  | divide => exact refuse trivial (ok _)
  | _ => exact ok _

theorem arithmeticDouble_fails (op : Arithmetic) (x y : Float) :
    FailsRegularly (arithmeticDouble op x y) := by
  cases op with
  | divide => exact refuse trivial (ok _)
  | _ => exact ok _

theorem arithmeticDecimal_fails (op : Arithmetic) (x y : Decimal) :
    FailsRegularly (arithmeticDecimal op x y) := by
  cases op with
  | divide => exact refuse trivial (decimalResult_fails _)
  | _ => exact decimalResult_fails _

theorem arithmetic_fails (op : Arithmetic) (a b : Value) :
    FailsRegularly (arithmetic op a b) := by
  unfold arithmetic
  cases promoted a b with
  | int32 =>
      refine a.toInt32_fails.bind fun x => b.toInt32_fails.bind fun y => ?_
      exact (arithmeticInt32_fails op x y).bind fun z => ok _
  | int64 =>
      refine a.toInt64_fails.bind fun x => b.toInt64_fails.bind fun y => ?_
      exact (arithmeticInt64_fails op x y).bind fun z => ok _
  | uint32 =>
      refine a.toUInt32_fails.bind fun x => b.toUInt32_fails.bind fun y => ?_
      exact (arithmeticUInt32_fails op x y).bind fun z => ok _
  | uint64 =>
      refine a.toUInt64_fails.bind fun x => b.toUInt64_fails.bind fun y => ?_
      exact (arithmeticUInt64_fails op x y).bind fun z => ok _
  | float =>
      refine a.toSingle_fails.bind fun x => b.toSingle_fails.bind fun y => ?_
      exact (arithmeticSingle_fails op x y).bind fun z => ok _
  | double =>
      refine a.toDouble_fails.bind fun x => b.toDouble_fails.bind fun y => ?_
      exact (arithmeticDouble_fails op x y).bind fun z => ok _
  | decimal =>
      refine a.toDecimal_fails.bind fun x => b.toDecimal_fails.bind fun y => ?_
      exact (arithmeticDecimal_fails op x y).bind fun z => ok _

theorem bitwise_fails (op : Bitwise) (a b : Value) : FailsRegularly (bitwise op a b) := by
  unfold bitwise
  split
  · exact ok _
  · split
    · exact (toUInt64_fails _).bind fun x => (toUInt64_fails _).bind fun y => ok _
    · exact (toInt64_fails _).bind fun x => (toInt64_fails _).bind fun y => ok _

theorem compare_fails (a b : Value) : FailsRegularly (a.compare b) := by
  unfold compare
  split
  case h_4 =>
    dsimp only
    split
    · exact a.toDecimal_fails.bind fun x => b.toDecimal_fails.bind fun y => ok _
    · split
      · exact a.toDouble_fails.bind fun x => b.toDouble_fails.bind fun y => ok _
      · split
        · exact a.toUInt64_fails.bind fun x => b.toUInt64_fails.bind fun y => ok _
        · exact a.toInt64_fails.bind fun x => b.toInt64_fails.bind fun y => ok _
  all_goals exact ok _

theorem step_fails (down : Bool) (v : Value) : FailsRegularly (v.step down) := by
  cases v with
  | decimal d =>
      exact (decimalOfInt_fails _).bind fun one => (decimalResult_fails _).bind fun e => ok _
  | bool | uint32 | uint64 | string | object => exact error trivial
  | _ => exact ok _

theorem negate_fails (v : Value) : FailsRegularly v.negate := by
  cases v with
  | bool | uint32 | uint64 | string | object => exact error trivial
  | _ => exact ok _

theorem bitwiseNot_fails (v : Value) : FailsRegularly v.bitwiseNot := by
  cases v with
  | float | double | decimal | string | object => exact error trivial
  | _ => exact ok _

end Value

end Values

/-- What surroundings can answer: only looking into a collection can fail, and only because there is
no collection or no such place in it. -/
def Exchange.Possible : Exchange → Prop
  | ⟨.element key .., .error e⟩ | ⟨.replace key .., .error e⟩ =>
    e = .notIndexable key ∨ ∃ index, e = .invalidIndex key index
  | _ => True

theorem Exchange.Possible.regular {e : RuntimeError} {key : String}
    (h : e = .notIndexable key ∨ ∃ index, e = .invalidIndex key index) : e.Regular := by
  obtain rfl | ⟨index, rfl⟩ := h <;> trivial

namespace Script

variable {α β : Type}

/-- With possible answers the script fails regularly or yields a result with a property, and it runs
no command. -/
def Yields (P : α → Prop) : Script α → Prop
  | done a => P a
  | fail e => e.Regular
  | ask r next => ∀ answer, Exchange.Possible ⟨r, answer⟩ → (next answer).Yields P
  | invoke _ _ _ => False

namespace Yields

variable {P : α → Prop} {Q : β → Prop}

theorem bind {s : Script α} {f : α → Script β} (first : s.Yields P)
    (second : ∀ a, P a → (f a).Yields Q) : (s.bind f).Yields Q := by
  induction s with
  | done a => exact second a first
  | fail e => exact first
  | ask r next ih => exact fun answer possible => ih answer (first answer possible)
  | invoke => exact first.elim

theorem ofExcept {x : Except RuntimeError α} (fails : FailsRegularly x)
    (yields : ∀ a, x = .ok a → P a) : (Script.ofExcept x).Yields P := by
  cases x with
  | error e => exact fails e rfl
  | ok a => exact yields a rfl

theorem made {s t : Script α} {es : List Exchange} (h : s.Yields P) (made : s.Made es t)
    (possible : ∀ x ∈ es, x.Possible) : t.Yields P := by
  induction made with
  | none => exact h
  | one _ ih =>
      obtain ⟨first, later⟩ := List.forall_mem_cons.mp possible
      exact ih (h _ first) later

end Yields

/-- A script of which nothing is known but how it fails. -/
abbrev Regular (s : Script α) : Prop := s.Yields fun _ => True

theorem regular_ofExcept {x : Except RuntimeError α} (fails : FailsRegularly x) :
    (ofExcept x).Regular :=
  .ofExcept fails fun _ _ => trivial

end Script

end SlotScript
