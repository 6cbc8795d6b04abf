import SlotScript.Machine.Step

/-! # What a script asks and what it is told

A script meets its surroundings only in exchanges: a request and the answer to it. `Made` says which
exchanges a script can make and what it does afterwards; nothing is assumed about who answers.
`Curtails` compares two scripts that ask the same, one of which may run out of stack on the way.
-/

namespace SlotScript

/-- A request together with the answer it got. -/
structure Exchange where
  request : Request
  answer : request.Answer

namespace Script

variable {α β γ : Type}

@[simp] theorem pure_eq (a : α) : (pure a : Script α) = done a := rfl

@[simp] theorem bind_eq (s : Script α) (f : α → Script β) : s >>= f = s.bind f := rfl

@[simp] theorem done_bind (a : α) (f : α → Script β) : (done a).bind f = f a := rfl

@[simp] theorem fail_bind (e : RuntimeError) (f : α → Script β) :
    (fail e : Script α).bind f = fail e := rfl

@[simp] theorem ask_bind (r : Request) (next : r.Answer → Script α) (f : α → Script β) :
    (ask r next).bind f = ask r fun answer => (next answer).bind f := rfl

@[simp] theorem invoke_bind (id : Nat) (argument : Value) (next : Script α) (f : α → Script β) :
    (invoke id argument next).bind f = invoke id argument (next.bind f) := rfl

@[simp] theorem ofExcept_ok (a : α) : (ofExcept (.ok a) : Script α) = done a := rfl

@[simp] theorem ofExcept_error (e : RuntimeError) : (ofExcept (.error e) : Script α) = fail e := rfl

@[simp] theorem lift_eq (x : Except RuntimeError α) : (liftM x : Script α) = ofExcept x := rfl

@[simp] theorem request_eq (r : Request) : request r = ask r done := rfl

theorem bind_assoc (s : Script α) (f : α → Script β) (g : β → Script γ) :
    (s.bind f).bind g = s.bind fun a => (f a).bind g := by
  induction s with
  | done | fail => rfl
  | ask r next ih =>
      simp only [ask_bind]
      congr 1
      funext answer
      exact ih answer
  | invoke id argument next ih => simp only [invoke_bind, ih]

/-- The script makes these exchanges and has the other one still before it. -/
inductive Made : Script α → List Exchange → Script α → Prop where
  | none (s : Script α) : Made s [] s
  | one {r : Request} {next : r.Answer → Script α} {answer : r.Answer} {es : List Exchange}
      {left : Script α} : Made (next answer) es left → Made (ask r next) (⟨r, answer⟩ :: es) left

namespace Made

theorem append {s t u : Script α} {es es' : List Exchange} (first : Made s es t)
    (second : Made t es' u) : Made s (es ++ es') u := by
  induction first with
  | none => exact second
  | one _ ih => exact .one (ih second)

theorem bind {s t : Script α} {es : List Exchange} (made : Made s es t) (f : α → Script β) :
    Made (s.bind f) es (t.bind f) := by
  induction made with
  | none => exact .none _
  | one _ ih => exact .one ih

/-- The exchanges of one script after another: those of the first, and if it comes to its end
among them, those of the second. -/
theorem of_bind {s : Script α} {f : α → Script β} {es : List Exchange} {left : Script β}
    (made : Made (s.bind f) es left) :
    (∃ t, Made s es t ∧ left = t.bind f) ∨
      ∃ front back a, es = front ++ back ∧ Made s front (done a) ∧ Made (f a) back left := by
  induction s generalizing es with
  | done a => exact .inr ⟨[], es, a, rfl, .none _, made⟩
  | fail e =>
      cases made
      exact .inl ⟨fail e, .none _, rfl⟩
  | ask r next ih =>
      cases made with
      | none => exact .inl ⟨ask r next, .none _, rfl⟩
      | @one _ _ answer es left made =>
          obtain ⟨t, first, rfl⟩ | ⟨front, back, a, rfl, first, second⟩ := ih answer made
          · exact .inl ⟨t, .one first, rfl⟩
          · exact .inr ⟨_ :: front, back, a, rfl, .one first, second⟩
  | invoke id argument next =>
      cases made
      exact .inl ⟨invoke id argument next, .none _, rfl⟩

end Made

/-- The script has come to its end. -/
def IsFinal : Script α → Prop
  | done _ | fail _ => True
  | _ => False

/-- A script followed by one that ends at once: it fails, or it comes to its end and the other one
says how. -/
theorem Made.end_of_bind {s : Script α} {f : α → Script β} {es : List Exchange} {t : Script β}
    (made : (s.bind f).Made es t) (final : t.IsFinal) (ends : ∀ a, (f a).IsFinal) :
    (∃ e, s.Made es (fail e) ∧ t = fail e) ∨ ∃ a, s.Made es (done a) ∧ t = f a := by
  obtain ⟨u, first, rfl⟩ | ⟨front, back, a, rfl, first, second⟩ := made.of_bind
  · cases u with
    | done a => exact .inr ⟨a, first, rfl⟩
    | fail e => exact .inl ⟨e, first, rfl⟩
    | ask | invoke => exact final.elim
  · generalize h : f a = u at second
    cases second with
    | none =>
        rw [List.append_nil]
        exact .inr ⟨a, first, h.symm⟩
    | one =>
        have here := ends a
        rw [h] at here
        exact here.elim

/-- The first script makes the requests of the second and ends like it, with results that `R`
relates, but it may fail with a full stack at any point. -/
inductive Curtails (R : α → β → Prop) : Script α → Script β → Prop where
  | overflow (t : Script β) : Curtails R (fail (.stackOverflow Stack.maxDepth)) t
  | done {a : α} {b : β} : R a b → Curtails R (done a) (done b)
  | fail (e : RuntimeError) : Curtails R (fail e) (fail e)
  | ask {r : Request} {next : r.Answer → Script α} {next' : r.Answer → Script β} :
      (∀ answer, Curtails R (next answer) (next' answer)) → Curtails R (ask r next) (ask r next')
  | invoke (id : Nat) (argument : Value) {next : Script α} {next' : Script β} :
      Curtails R next next' → Curtails R (invoke id argument next) (invoke id argument next')

namespace Curtails

variable {R : α → β → Prop}

/-- Whatever the first script asks, the second asks too. -/
theorem made {s s' : Script α} {t : Script β} {es : List Exchange} (h : Curtails R s t)
    (made : Made s es s') : ∃ t', Made t es t' ∧ Curtails R s' t' := by
  induction made generalizing t with
  | none => exact ⟨t, .none _, h⟩
  | one _ ih =>
      cases h with
      | ask h =>
          obtain ⟨t', made, h⟩ := ih (h _)
          exact ⟨t', .one made, h⟩

/-- Two scripts that begin with the same one. -/
theorem bind {δ : Type} (s : Script δ) {f : δ → Script α} {g : δ → Script β}
    (h : ∀ a, Curtails R (f a) (g a)) : Curtails R (s.bind f) (s.bind g) := by
  induction s with
  | done a => exact h a
  | fail e => exact .fail e
  | ask r next ih => exact .ask ih
  | invoke id argument next ih => exact .invoke id argument ih

end Curtails

end Script

end SlotScript
