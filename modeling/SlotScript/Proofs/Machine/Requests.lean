import SlotScript.Proofs.Machine.Run

/-! # What a run may ask

The opcode and the key of an instruction bound what it asks, whatever it is told, and no instruction
but one that runs a command asks more than twice. Code without instructions that write or run
commands asks for nothing but the slots it may read, and for what can be learnt from values.
-/

namespace SlotScript

namespace Script

variable {α β : Type} {P : Request → Prop}

/-- All that the script may ask has a property, whatever it is told, and it runs no command. -/
def Asks (P : Request → Prop) : Script α → Prop
  | done _ | fail _ => True
  | ask r next => P r ∧ ∀ answer, (next answer).Asks P
  | invoke _ _ _ => False

theorem Asks.bind {s : Script α} {f : α → Script β} (first : s.Asks P)
    (second : ∀ a, (f a).Asks P) : (s.bind f).Asks P := by
  induction s with
  | done a => exact second a
  | fail => trivial
  | ask r next ih => exact ⟨first.1, fun answer => ih answer (first.2 answer)⟩
  | invoke => exact first.elim

theorem Asks.mono {Q : Request → Prop} {s : Script α} (h : s.Asks P) (weaker : ∀ r, P r → Q r) :
    s.Asks Q := by
  induction s with
  | done | fail => trivial
  | ask r next ih => exact ⟨weaker r h.1, fun answer => ih answer (h.2 answer)⟩
  | invoke => exact h.elim

theorem asks_ofExcept (x : Except RuntimeError α) : (ofExcept x).Asks P := by
  cases x <;> trivial

/-- All that the script may ask has a property, it asks no more than so often, whatever it is told,
and it runs no command. -/
def AsksWithin (P : Request → Prop) : Script α → Nat → Prop
  | done _, _ | fail _, _ => True
  | ask r next, n + 1 => P r ∧ ∀ answer, (next answer).AsksWithin P n
  | ask _ _, 0 | invoke _ _ _, _ => False

theorem asksWithin_ofExcept (x : Except RuntimeError α) (n : Nat) :
    (ofExcept x).AsksWithin P n := by
  cases x <;> trivial

/-- A value that is at hand is used without a question. -/
theorem AsksWithin.bind_ofExcept {x : Except RuntimeError α} {f : α → Script β} {n : Nat}
    (h : ∀ a, x = .ok a → (f a).AsksWithin P n) : ((ofExcept x).bind f).AsksWithin P n := by
  cases x with
  | ok a => exact h a rfl
  | error => trivial

theorem AsksWithin.asks {s : Script α} {n : Nat} (h : s.AsksWithin P n) : s.Asks P := by
  induction s generalizing n with
  | done | fail => trivial
  | ask r next ih =>
      cases n with
      | zero => exact h.elim
      | succ n => exact ⟨h.1, fun answer => ih answer (h.2 answer)⟩
  | invoke => exact h.elim

theorem AsksWithin.length_le {s t : Script α} {n : Nat} {es : List Exchange}
    (h : s.AsksWithin P n) (made : s.Made es t) : es.length ≤ n := by
  induction made generalizing n with
  | none => exact Nat.zero_le n
  | one _ ih =>
      cases n with
      | zero => exact h.elim
      | succ n => exact Nat.succ_le_succ (ih (h.2 _))

theorem Asks.made {s t : Script α} {es : List Exchange} (h : s.Asks P) (made : s.Made es t) :
    (∀ x ∈ es, P x.request) ∧ t.Asks P := by
  induction made with
  | none =>
      refine ⟨?_, h⟩
      intro x member
      cases member
  | one _ ih =>
      obtain ⟨asked, left⟩ := ih (h.2 _)
      exact ⟨List.forall_mem_cons.mpr ⟨h.1, asked⟩, left⟩

end Script

/-- Whether the instruction changes what its key holds. -/
def Opcode.writesResource : Opcode → Bool
  | setResource | directSetResource | indexSet | preIncrementResource | postIncrementResource
  | preDecrementResource | postDecrementResource => true
  | _ => false

/-- Whether the instruction counts a slot up or down. -/
def Opcode.counts : Opcode → Bool
  | preIncrementResource | postIncrementResource | preDecrementResource
  | postDecrementResource => true
  | _ => false

/-- Whether the instruction changes what it finds under its key, and does not just write to it. -/
def Opcode.updatesResource : Opcode → Bool
  | indexSet | preIncrementResource | postIncrementResource | preDecrementResource
  | postDecrementResource => true
  | _ => false

theorem Opcode.writes_of_updates {op : Opcode} (updates : op.updatesResource) :
    op.writesResource := by
  cases op <;> first | rfl | cases updates

theorem Opcode.updates_of_counts {op : Opcode} (counts : op.counts) : op.updatesResource := by
  cases op <;> first | rfl | cases counts

namespace Instruction

/-- What an instruction that runs no command may ask. -/
def MayAsk (i : Instruction) : Request → Prop
  | .fetch key seed =>
    i.key = .ok key ∧ (i.op.readsResource ∧ seed = .null ∨ i.op.updatesResource)
  | .assign .. => i.op = .setResource ∨ i.op.counts
  | .define .. => i.op = .directSetResource
  | .replace .. => i.op = .indexSet
  | .concatText _ | .element .. => True

variable {context : Context} {length : Nat} {i : Instruction}

open Script

theorem count_asksWithin (counts : i.op.counts) (f : Frame) (seed : Value)
    (down yieldsOld : Bool) : (i.count f seed down yieldsOld).AsksWithin i.MayAsk 2 := by
  refine AsksWithin.bind_ofExcept fun key own =>
    ⟨⟨own, .inr (Opcode.updates_of_counts counts)⟩, fun old => ?_⟩
  refine AsksWithin.bind_ofExcept fun new _ => ⟨.inr counts, fun _ => ?_⟩
  exact asksWithin_ofExcept _ 0

/-- Commands are run by the instruction made for it and by no other. Others ask at most twice. -/
theorem perform_asksWithin (other : i.op ≠ .invokeResource) (f : Frame) :
    (i.perform context length f).AsksWithin i.MayAsk 2 := by
  unfold perform
  cases op : i.op with
  | invokeResource => exact (other op).elim
  | jumpIfNull =>
      refine AsksWithin.bind_ofExcept fun target _ => AsksWithin.bind_ofExcept fun v _ => ?_
      split
      · exact AsksWithin.bind_ofExcept fun _ _ => trivial
      · trivial
  | jumpIfNotNull =>
      exact AsksWithin.bind_ofExcept fun target _ => AsksWithin.bind_ofExcept fun v _ => trivial
  | jump => exact AsksWithin.bind_ofExcept fun target _ => trivial
  | push => exact AsksWithin.bind_ofExcept fun v _ => asksWithin_ofExcept _ _
  | add =>
      refine AsksWithin.bind_ofExcept fun _ _ => AsksWithin.bind_ofExcept fun _ _ => ?_
      dsimp only
      split
      · exact ⟨trivial, fun front => ⟨trivial, fun back => asksWithin_ofExcept _ _⟩⟩
      · exact AsksWithin.bind_ofExcept fun _ _ => asksWithin_ofExcept _ _
  | negate | logicalNot | bitwiseNot =>
      exact AsksWithin.bind_ofExcept fun _ _ => AsksWithin.bind_ofExcept fun _ _ =>
        asksWithin_ofExcept _ _
  | getResource =>
      refine AsksWithin.bind_ofExcept fun key own => ⟨⟨own, ?_⟩, fun _ => asksWithin_ofExcept _ _⟩
      rw [op]
      exact .inl ⟨rfl, rfl⟩
  | setResource | directSetResource =>
      refine AsksWithin.bind_ofExcept fun _ _ => AsksWithin.bind_ofExcept fun key _ =>
        ⟨?_, fun _ => trivial⟩
      simp [MayAsk, op]
  | preIncrementResource | postIncrementResource | preDecrementResource | postDecrementResource =>
      exact count_asksWithin (by rw [op]; rfl) _ _ _ _
  | indexGet =>
      refine AsksWithin.bind_ofExcept fun key own => AsksWithin.bind_ofExcept fun _ _ => ?_
      refine ⟨⟨own, ?_⟩, fun _ => ?_⟩
      · rw [op]
        exact .inl ⟨rfl, rfl⟩
      · exact ⟨trivial, fun answer => AsksWithin.bind_ofExcept fun _ _ => asksWithin_ofExcept _ _⟩
  | indexSet =>
      refine AsksWithin.bind_ofExcept fun key own => AsksWithin.bind_ofExcept fun _ _ => ?_
      refine AsksWithin.bind_ofExcept fun _ _ => ⟨⟨own, ?_⟩, fun _ => ⟨op, fun answer => ?_⟩⟩
      · rw [op]
        exact .inr rfl
      · exact AsksWithin.bind_ofExcept fun _ _ => asksWithin_ofExcept _ _
  | _ => exact asksWithin_ofExcept _ _

theorem perform_asks (other : i.op ≠ .invokeResource) (f : Frame) :
    (i.perform context length f).Asks i.MayAsk :=
  (perform_asksWithin other f).asks

theorem exchanges_le (other : i.op ≠ .invokeResource) {f : Frame} {es : List Exchange}
    {left : Script Frame} (made : (i.perform context length f).Made es left) : es.length ≤ 2 :=
  (perform_asksWithin other f).length_le made

end Instruction

/-- A question that leaves everything as it is, as long as the slots with these keys exist. -/
def Request.Reads (keys : List String) : Request → Prop
  | .fetch key _ => key ∈ keys
  | .concatText _ | .element .. => True
  | .assign .. | .define .. | .replace .. => False

namespace Code

/-- No instruction writes or runs a command. -/
def ReadOnly (code : Code) : Prop :=
  ∀ i ∈ code, i.op.writesResource = false ∧ i.op ≠ .invokeResource

/-- One step in collecting the keys that are read. -/
def noteKey (keys : List String) (i : Instruction) : List String :=
  match i.op.readsResource, i.key with
  | true, .ok key => if keys.contains key then keys else keys ++ [key]
  | _, _ => keys

theorem mem_foldl_noteKey {code : Code} {known : List String} {key : String} (h : key ∈ known) :
    key ∈ code.foldl noteKey known := by
  induction code generalizing known with
  | nil => exact h
  | cons i code ih =>
      refine ih ?_
      unfold noteKey
      split
      · split
        · exact h
        · exact List.mem_append_left _ h
      · exact h

theorem mem_readKeys {code : Code} {i : Instruction} {key : String} (member : i ∈ code)
    (reads : i.op.readsResource) (own : i.key = .ok key) : key ∈ code.readKeys := by
  show key ∈ code.foldl noteKey []
  generalize ([] : List String) = known
  induction code generalizing known with
  | nil => cases member
  | cons j code ih =>
      rw [List.foldl_cons]
      cases member with
      | head =>
          refine mem_foldl_noteKey ?_
          simp only [noteKey, reads, own]
          split
          case isTrue h => exact List.contains_iff_mem.mp h
          case isFalse => simp
      | tail _ member => exact ih member _

theorem ReadOnly.perform_asks {code : Code} (readOnly : code.ReadOnly) {context : Context}
    {i : Instruction} (member : i ∈ code) (f : Frame) :
    (i.perform context code.length f).Asks (Request.Reads code.readKeys) := by
  obtain ⟨silent, commandless⟩ := readOnly i member
  refine (Instruction.perform_asks commandless f).mono ?_
  intro r asked
  cases r with
  | fetch key seed =>
      obtain ⟨own, ⟨reads, -⟩ | updates⟩ := asked
      · exact mem_readKeys member reads own
      · rw [Opcode.writes_of_updates updates] at silent
        cases silent
  | assign key v =>
      obtain stored | counts := asked
      · rw [stored] at silent
        cases silent
      · rw [Opcode.writes_of_updates (Opcode.updates_of_counts counts)] at silent
        cases silent
  | define | replace =>
      rw [show i.op = _ from asked] at silent
      cases silent
  | concatText | element => trivial

theorem ReadOnly.run_asks {code : Code} (readOnly : code.ReadOnly) (context : Context) (n : Nat)
    (f : Frame) : (code.run context n f).Asks (Request.Reads code.readKeys) := by
  induction n generalizing f with
  | zero =>
      unfold run
      split <;> trivial
  | succ n ih =>
      cases at_f : code[f.next]? with
      | none =>
          rw [run_end at_f]
          trivial
      | some i =>
          rw [run_succ at_f]
          exact (readOnly.perform_asks (List.mem_of_getElem? at_f) _).bind ih

end Code

end SlotScript
