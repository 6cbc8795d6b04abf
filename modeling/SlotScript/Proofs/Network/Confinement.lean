import SlotScript.Proofs.Compiler.Counting
import SlotScript.Proofs.Compiler.Modes
import SlotScript.Proofs.Network.Noninterference
import SlotScript.Proofs.Network.Scopes
import SlotScript.Proofs.Network.Seat
import SlotScript.Proofs.Network.Shadowing

/-! # What a run may touch

A run writes to the local store, to the nearest scope that has the key, and back to the scope where
a collection was found. The last of these writes what is there already, so even a fallback store
keeps its slots when one of its collections changes. What remains is that keys come up in the local
store alone, and that nothing outside the chain of scopes changes.

Nobody watches the stores here, so that all that happens is the doing of the run.
-/

namespace SlotScript

/-- What may become of the slots while code of a mode, which counts slots or does not, runs on a
store, from one moment to a later one. -/
structure Network.Confined (mode : AssignMode) (counts : Bool) (store : StoreId)
    (net net' : Network) : Prop where
  scopes : SameScopes net net'
  /-- Any other store has the keys it had. -/
  keys : ∀ s, s ≠ store → ∀ key, (net'.slot? s key).isSome = (net.slot? s key).isSome
  outside : ∀ s, s ∉ net.chain store → ∀ key, net'.slot? s key = net.slot? s key
  /-- The local store loses no key. -/
  kept : ∀ key, (net.slot? store key).isSome → (net'.slot? store key).isSome
  /-- Code that writes to the nearest scope gives the local store only keys that no scope had. -/
  gained : mode = .nearest → ∀ key, net.slot? store key = none →
    (net'.slot? store key).isSome → ∀ scope ∈ net.chain store, net.slot? scope key = none
  /-- Code that writes to the local scope changes no other slot, unless it counts. -/
  apart : mode = .direct → counts = false → ∀ s, s ≠ store → ∀ key,
    net'.slot? s key = net.slot? s key

namespace Network

variable {mode : AssignMode} {counts : Bool} {store : StoreId} {fallback : List StoreId}
  {net net' : Network} {key : String}

namespace Confined

theorem of_slots (scopes : SameScopes net net')
    (slots : ∀ s key, net'.slot? s key = net.slot? s key) :
    Confined mode counts store net net' where
  scopes := scopes
  keys s _ key := congrArg Option.isSome (slots s key)
  outside s _ key := slots s key
  kept key has := slots store key ▸ has
  gained _ key missing has := by
    rw [slots, missing] at has
    cases has
  apart _ _ s _ key := slots s key

theorem of_leaves (left : LeavesStores net net') : Confined mode counts store net net' :=
  .of_slots (.of_eq left.1) fun s key => by simp only [slot?, left.1]

theorem refl (net : Network) : Confined mode counts store net net :=
  .of_leaves ⟨rfl, rfl⟩

theorem trans {net'' : Network} (first : Confined mode counts store net net')
    (second : Confined mode counts store net' net'') : Confined mode counts store net net'' where
  scopes := first.scopes.trans second.scopes
  keys s other key := (second.keys s other key).trans (first.keys s other key)
  outside s beyond key := by
    have still : s ∉ net'.chain store := first.scopes.chain store ▸ beyond
    exact (second.outside s still key).trans (first.outside s beyond key)
  kept key has := second.kept key (first.kept key has)
  gained nearest key missing has := by
    cases between : net'.slot? store key with
    | some v => exact first.gained nearest key missing (Option.isSome_iff_exists.mpr ⟨v, between⟩)
    | none =>
        -- The key came up later, and the other scopes have the keys they had at first.
        intro scope member
        by_cases here : scope = store
        · exact here ▸ missing
        · have later := second.gained nearest key between has scope
            (first.scopes.chain store ▸ member)
          have same := first.keys scope here key
          rw [later] at same
          exact Option.isNone_iff_eq_none.mp (by simpa using same.symm)
  apart direct silent s other key :=
    (second.apart direct silent s other key).trans (first.apart direct silent s other key)

/-- A write within the chain, to the store itself or to a slot that is there. -/
theorem set {target : StoreId} (here : target ∈ net.chain store)
    (has : target ≠ store → (net.slot? target key).isSome)
    (gains : mode = .nearest → target = store → net.slot? store key = none →
      ∀ scope ∈ net.chain store, net.slot? scope key = none)
    (near : mode = .direct → counts = false → target = store) (v : Value) :
    Confined mode counts store net (net.set target key v).1 := by
  have keeps (s : StoreId) (k : String) (there : (net.slot? s k).isSome) :
      ((net.set target key v).1.slot? s k).isSome := by
    rw [slot?_set]
    split
    · unfold slot? at there
      cases found : net.stores[s]? with
      | none => simp [found] at there
      | some st => rfl
    · exact there
  constructor
  case scopes => exact .set net target key v
  case keys =>
    intro s other k
    by_cases written : target = s ∧ k = key
    · obtain ⟨rfl, rfl⟩ := written
      rw [has other, keeps _ _ (has other)]
    · rw [slot?_set, if_neg written]
  case outside =>
    intro s beyond k
    refine slot?_set_other (.inl ?_) v
    rintro rfl
    exact beyond here
  case kept => exact keeps store
  case gained =>
    intro nearest k missing found
    by_cases written : target = store ∧ k = key
    · obtain ⟨rfl, rfl⟩ := written
      exact gains nearest rfl missing
    · rw [slot?_set, if_neg written, missing] at found
      cases found
  case apart =>
    intro direct silent s other k
    refine slot?_set_other (.inl ?_) v
    rw [near direct silent]
    exact other.symm

/-- A missing key is created where no scope has it. -/
theorem fetch (net : Network) (store : StoreId) (fallback : List StoreId) (key : String)
    (seed : Value) : Confined mode counts store net (net.fetch store fallback key seed).2.1 := by
  refine fetch_cases (fun _ _ => .refl net) fun missing => ?_
  have nowhere : net.lookup? store key = none := List.findSome?_eq_none_iff.mp missing _ (.head _)
  refine .set (.head _) (fun other => (other rfl).elim) ?_ (fun _ _ => rfl) seed
  exact fun _ _ _ => List.findSome?_eq_none_iff.mp nowhere

theorem define (direct : mode = .direct) (v : Value) :
    Confined mode counts store net (net.set store key v).1 := by
  refine .set (.head _) (fun other => (other rfl).elim) ?_ (fun _ _ => rfl) v
  subst direct
  exact nofun

theorem assign (wide : mode = .nearest ∨ counts) (v : Value) :
    Confined mode counts store net (net.assign store key v).1 := by
  have near (direct : mode = .direct) (silent : counts = false) :
      net.definer store key = store := by
    obtain rfl | counting := wide
    · cases direct
    · cases silent.symm.trans counting
  obtain ⟨own, nowhere⟩ | ⟨has, -⟩ := net.definer_eq store key
  · unfold Network.assign
    rw [own]
    exact .set (.head _) (fun other => (other rfl).elim) (fun _ _ _ => nowhere) (fun _ _ => rfl) v
  · refine .set (net.definer_mem_chain store key) (fun _ => has) (fun _ here missing => ?_) near v
    rw [here, missing] at has
    cases has

end Confined

/-- What is found under a key is in the slot where an element of it would be changed. -/
theorem slot?_definer_holder {v : Value}
    (found : (store :: fallback).findSome? (fun scope => net.lookup? scope key) = some v) :
    net.slot? (net.definer (net.holder store fallback key) key) key = some v := by
  obtain ⟨place, resolves⟩ := exists_resolves found
  rw [resolves.seat]
  exact resolves.holds

/-- A collection that was found under its key is put back where it was. -/
theorem Confined.replace {collection index v : Value}
    (found : ∀ ref, collection = .object ref →
      (store :: fallback).findSome? (fun scope => net.lookup? scope key) = some collection)
    {x : Except RuntimeError Unit × Changed}
    (answered : net.replace store fallback key collection index v = some x) :
    Confined mode counts store net x.2.1 := by
  obtain ⟨object, changed, rfl⟩ | ⟨e, -, rfl⟩ := replace_eq_some answered
  · cases collection with
    | object ref =>
        have there := slot?_definer_holder (found ref rfl)
        refine .of_slots (.trans (.of_eq rfl) (.set _ _ key _)) fun s k => ?_
        have behind : (net.setObject (.object ref) object).slot? _ key = _ := there
        exact slot?_set_same behind s k
    | _ => simp [changeElement, object?] at changed
  · exact .refl net

end Network

open Network

section Instructions

variable {α β : Type} {mode : AssignMode} {counts : Bool} {code : Code} {store : StoreId}
  {fallback : List StoreId}

/-- Whatever the script asks for stays within the bounds, beginning with some network. Between two
questions what nobody holds may be released. -/
def Script.Confines (mode : AssignMode) (counts : Bool) (store : StoreId)
    (fallback : List StoreId) : Script α → Network → Prop
  | .done _, _ | .fail _, _ => True
  | .ask r next, net => ∀ x ∈ net.answer store fallback r,
    Confined mode counts store net x.2.1 ∧
      ∀ net', LeavesStores x.2.1 net' → (next x.1).Confines mode counts store fallback net'
  | .invoke .., _ => False

/-- A script that asks for nothing that is out of bounds anywhere. -/
theorem Script.Asks.confines {P : Request → Prop} {s : Script α} (asks : s.Asks P)
    (each : ∀ r, P r → ∀ net, ∀ x ∈ net.answer store fallback r,
      Confined mode counts store net x.2.1)
    (net : Network) : s.Confines mode counts store fallback net := by
  induction s generalizing net with
  | done | fail => trivial
  | invoke => exact asks.elim
  | ask r next ih =>
      exact fun x answered => ⟨each r asks.1 net x answered, fun net' _ => ih _ (asks.2 _) net'⟩

theorem Script.confines_ofExcept_bind {x : Except RuntimeError α} {f : α → Script β}
    {net : Network} (h : ∀ a, x = .ok a → (f a).Confines mode counts store fallback net) :
    ((ofExcept x).bind f).Confines mode counts store fallback net := by
  cases x with
  | ok a => exact h a rfl
  | error => trivial

/-- An element of a collection is changed right after the collection was found under the key. -/
theorem Instruction.perform_indexSet_confines {context : Context} {length : Nat}
    {i : Instruction} (op : i.op = .indexSet) (f : Frame) (net : Network) :
    (i.perform context length f).Confines mode counts store fallback net := by
  unfold perform
  rw [op]
  refine Script.confines_ofExcept_bind fun key _ => Script.confines_ofExcept_bind fun index _ => ?_
  refine Script.confines_ofExcept_bind fun value _ => ?_
  rintro x ⟨⟩
  refine ⟨.fetch net store fallback key .null, fun net' left => ?_⟩
  have found (ref : ObjectRef) (object : (net.fetch store fallback key .null).1 = .object ref) :
      (store :: fallback).findSome? (fun scope => net'.lookup? scope key) =
        some (net.fetch store fallback key .null).1 := by
    simp only [Network.fetch] at left object ⊢
    split
    case h_1 v there =>
      rw [there] at left
      simpa only [lookup?, chain, slot?, left.1] using there
    case h_2 missing =>
      rw [missing] at object
      cases object
  intro x answered
  refine ⟨Confined.replace found answered, fun net'' _ => ?_⟩
  exact Script.confines_ofExcept_bind fun _ _ =>
    (Script.asks_ofExcept (P := fun _ => False) _).confines (fun _ => False.elim) net''

/-- No instruction of code of a mode asks for anything out of bounds. -/
theorem Code.StoresBy.perform_confines (stores : code.StoresBy mode) {i : Instruction}
    (member : i ∈ code) (commandless : i.op ≠ .invokeResource) (context : Context) (length : Nat)
    (f : Frame) (net : Network) :
    (i.perform context length f).Confines mode code.counts store fallback net := by
  by_cases op : i.op = .indexSet
  case pos => exact i.perform_indexSet_confines op f net
  case neg =>
    refine (i.perform_asks commandless f).confines (fun r asked net x answered => ?_) net
    cases r with
    | fetch key seed =>
        cases answered
        exact .fetch net store fallback key seed
    | concatText | element =>
        cases answered
        exact .refl net
    | replace => exact (op asked).elim
    | define key v =>
        cases answered
        refine .define ?_ v
        have own := stores i member (by rw [show i.op = _ from asked]; rfl)
        cases mode with
        | direct => rfl
        | nearest => cases (show i.op = _ from asked).symm.trans own
    | assign key v =>
        cases answered
        refine .assign ?_ v
        obtain stored | counts := asked
        · have own := stores i member (by rw [stored]; rfl)
          cases mode with
          | nearest => exact .inl rfl
          | direct => cases stored.symm.trans own
        · exact .inr (List.any_eq_true.mpr ⟨i, member, counts⟩)

end Instructions

/-- Nothing is left to be done but to go on with the run, which may wait for itself, or nothing at
all if it is over. -/
inductive Run.Sole (mode : AssignMode) (r : Run) (net : Network) : List Task → Prop where
  | between (f : Frame) : Sole mode r net [.run (r.standingAt f)]
  | released (held : List Holding) (f : Frame) :
      Sole mode r net [.letGo held, .run (r.standingAt f)]
  | within (f : Frame) {script : Script Frame} :
      script.Confines mode r.activation.code.counts r.activation.store r.activation.fallback net →
      Sole mode r net [.proceed (r.standingAt f) script]
  | waits {agenda : List Task} : Propagation.Waits ⟨net, agenda⟩ → Sole mode r net agenda
  | done : Sole mode r net []

/-- A run of code of a mode is by itself, and nobody watches what it does. -/
structure Run.Unobserved (mode : AssignMode) (r : Run) (p : Propagation) : Prop where
  unwatched : p.net.Unwatched
  sole : r.Sole mode p.net p.agenda

/-- From one moment to another a run stays within the bounds, and by itself. -/
structure Run.Stays (mode : AssignMode) (r : Run) (p q : Propagation) : Prop where
  confined : Confined mode r.activation.code.counts r.activation.store p.net q.net
  unobserved : r.Unobserved mode q

namespace Run

variable {mode : AssignMode} {r : Run} {net : Network} {p : Propagation}

/-- A task that stays within the bounds may be followed by a release. -/
theorem Stays.of_perform {task : Task} {rest : List Task}
    (confined : Confined mode r.activation.code.counts r.activation.store net (task.perform net).1)
    (unwatched : (task.perform net).1.Unwatched)
    (sole : ∀ net', LeavesStores (task.perform net).1 net' →
      r.Sole mode net' ((task.perform net).2 ++ rest)) :
    r.Stays mode ⟨net, task :: rest⟩ (Propagation.step ⟨net, task :: rest⟩) := by
  have left := unwatched.release ((task.perform net).2 ++ rest)
  exact ⟨confined.trans (.of_leaves left), left.unwatched unwatched, sole _ left⟩

/-- A run that waits changes nothing. -/
theorem Stays.of_waits (unwatched : p.net.Unwatched) (waits : p.Waits) : r.Stays mode p p.step := by
  have left := unwatched.release p.agenda
  have later := waits.step
  rw [waits.step_eq] at later ⊢
  exact ⟨.of_leaves left, left.unwatched unwatched, .waits later⟩

theorem Stays.of_conclude (asked : r.completion = .answer) (unwatched : net.Unwatched)
    {task : Task} {result : Except Failure Outcome}
    (performed : task.perform net = net.conclude result r.completion) :
    r.Stays mode ⟨net, [task]⟩ (Propagation.step ⟨net, [task]⟩) := by
  rw [asked] at performed
  refine .of_perform ?_ ?_ fun net' _ => ?_
  · rw [performed]
    exact .of_leaves ⟨rfl, rfl⟩
  · rw [performed]
    exact unwatched
  · rw [performed]
    exact .done

/-- One step of a run stays within the bounds. -/
theorem Unobserved.step (alone : r.callers = []) (asked : r.completion = .answer)
    (stores : r.activation.code.StoresBy mode)
    (commandless : ∀ i ∈ r.activation.code, i.op ≠ .invokeResource)
    (h : r.Unobserved mode p) : r.Stays mode p p.step := by
  obtain ⟨net, agenda⟩ := p
  obtain ⟨unwatched, sole⟩ := h
  cases sole with
  | done => exact ⟨.refl net, unwatched, .done⟩
  | waits waits => exact .of_waits unwatched waits
  | released held f => exact .of_perform (.refl net) unwatched fun _ _ => .between f
  | between f =>
      cases at_f : r.activation.code[f.next]? with
      | none =>
          have performed : (Task.run (r.standingAt f)).perform net =
              net.conclude (.ok f.outcome) r.completion :=
            perform_run_last (r := r.standingAt f) at_f alone net
          exact .of_conclude asked unwatched performed
      | some i =>
          have member := List.mem_of_getElem? at_f
          have performed : (Task.run (r.standingAt f)).perform net =
              (net, [.proceed (r.standingAt f) (i.perform r.activation.context
                r.activation.code.length { f with next := f.next + 1 })]) :=
            perform_run_next (r := r.standingAt f) at_f net
          refine .of_perform ?_ ?_ fun net' _ => ?_
          · rw [performed]
            exact .refl net
          · rw [performed]
            exact unwatched
          · rw [performed]
            exact .within f (stores.perform_confines member (commandless i member) _ _ _ net')
  | @within f script confines =>
      cases script with
      | done f' => exact .of_perform (.refl net) unwatched fun _ _ => .between f'
      | fail e => exact .of_conclude asked unwatched rfl
      | invoke => exact confines.elim
      | ask request next =>
          cases answered : net.answer r.activation.store r.activation.fallback request with
          | none => exact .of_waits unwatched (.of_unanswered (r := r.standingAt f) answered [])
          | some x =>
              obtain ⟨answer, net', callbacks⟩ := x
              obtain ⟨still, silent⟩ := unwatched.answer answered
              obtain rfl : callbacks = [] := silent
              obtain ⟨confined, onward⟩ := confines _ answered
              have performed : (Task.proceed (r.standingAt f) (.ask request next)).perform net =
                  (net', (r.standingAt f).resume request (next answer)) :=
                proceed_answered (r := r.standingAt f) answered
              refine .of_perform ?_ ?_ fun net'' left => ?_
              · rwa [performed]
              · rwa [performed]
              rw [performed] at left ⊢
              have later := onward net'' left
              cases goesOn : next answer with
              | done f' => exact .released _ f'
              | _ =>
                  rw [goesOn] at later
                  exact .within f later

/-- However far a run goes, it stays within the bounds. -/
theorem Unobserved.skip (alone : r.callers = []) (asked : r.completion = .answer)
    (stores : r.activation.code.StoresBy mode)
    (commandless : ∀ i ∈ r.activation.code, i.op ≠ .invokeResource)
    (h : r.Unobserved mode p) (n : Nat) : r.Stays mode p (p.skip n) := by
  induction n generalizing p with
  | zero => exact ⟨.refl _, h⟩
  | succ n ih =>
      obtain ⟨first, h⟩ := h.step alone asked stores commandless
      obtain ⟨later, h⟩ := ih h
      exact ⟨first.trans later, h⟩

end Run

namespace Place

variable {p : Place} {code : Code} {parameter : Value}

/-- Code is asked to run here. -/
def asking (p : Place) (code : Code) (parameter : Value) : Propagation :=
  p.net.ask (.execute (.code code) p.store p.host (some parameter))

/-- Between any two moments of a run here, from when it is asked for, it stays within the bounds. -/
theorem confined (unwatched : p.net.Unwatched) {mode : AssignMode} (stores : code.StoresBy mode)
    (commandless : ∀ i ∈ code, i.op ≠ .invokeResource) (parameter : Value) {n m : Nat}
    (later : n ≤ m) : Confined mode code.counts p.store ((p.asking code parameter).skip n).net
      ((p.asking code parameter).skip m).net := by
  have unwatched' : (p.asking code parameter).net.Unwatched := unwatched
  have started : LeavesStores (p.asking code parameter).net (p.start code parameter) :=
    unwatched'.release _
  have begun : (p.run code parameter).Unobserved mode
      ⟨p.start code parameter, [.run (p.run code parameter)]⟩ :=
    ⟨started.unwatched unwatched, .between .start⟩
  obtain ⟨more, rfl⟩ := Nat.exists_eq_add_of_le later
  cases n with
  | zero =>
      cases more with
      | zero => exact .refl _
      | succ more =>
          rw [Nat.zero_add]
          have onward := begun.skip rfl rfl stores commandless more
          exact (Confined.of_leaves started).trans onward.confined
  | succ n =>
      rw [Propagation.skip_add (n + 1) more]
      have there := begun.skip rfl rfl stores commandless n
      exact (there.unobserved.skip rfl rfl stores commandless more).confined

end Place

/-- Compiled code comes to its end, with a value or an error, unless it comes to wait for itself. In
either case, from any moment on its way to any later one keys come up in the local store alone,
where no scope had them unless the code writes locally. Nothing changes outside the chain of scopes,
and where code writes locally and no sign that counts is among its tokens, nothing outside the local
store. -/
theorem Code.confined_of_ofTokens {mode : AssignMode} {tokens : List Token} {code : Code}
    (compiled : Code.ofTokens mode tokens = .ok code) {p : Place} (unwatched : p.net.Unwatched)
    (parameter : Value) :
    ((∃ steps result, ((p.asking code parameter).skip steps).agenda = [] ∧
        ((p.asking code parameter).skip steps).net.returned = some result) ∨
      ∃ steps, ((p.asking code parameter).skip steps).Waits) ∧
    ∀ n m, n ≤ m → Confined mode (tokens.any (·.kind.counts)) p.store
      ((p.asking code parameter).skip n).net ((p.asking code parameter).skip m).net := by
  obtain ⟨depth, keeps, -⟩ := Compiled.keeps ⟨mode, tokens, compiled⟩
  obtain ⟨program, -, emitted⟩ := eq_emit_of_ofTokens compiled
  have stores : code.StoresBy mode := emitted ▸ program.storesBy mode
  constructor
  · have begun (n : Nat) : (p.asking code parameter).skip (n + 1) =
        Propagation.skip n ⟨p.start code parameter, [.run (p.run code parameter)]⟩ := rfl
    obtain ⟨net', ⟨result, returned⟩, leads⟩ | ⟨q, waits, leads⟩ :=
      Place.settles_run unwatched ⟨mode, tokens, compiled⟩ parameter []
    · obtain ⟨steps, there⟩ := leads.skip
      have ended : (p.asking code parameter).skip (steps + 1) = ⟨net', []⟩ := there
      exact .inl ⟨steps + 1, result, by rw [ended], by rw [ended, returned]⟩
    · obtain ⟨steps, there⟩ := leads.skip
      exact .inr ⟨steps + 1, there ▸ waits⟩
  · intro n m later
    rw [← counts_of_ofTokens compiled]
    exact Place.confined unwatched stores keeps.commandless parameter later

/-- The tokens of `$l[0] = $b; $b = $c`. -/
def putThenShadow : List Token :=
  [.ofKind .dollar, .identifier "l", .ofKind .openBracket, ⟨.numericLiteral, "0", some (.int32 0)⟩,
    .ofKind .closeBracket, .ofKind .equals, .ofKind .dollar, .identifier "b", .ofKind .semicolon,
    .ofKind .dollar, .identifier "b", .ofKind .equals, .ofKind .dollar, .identifier "c"]

/-- An inner scope without slots, with `$b` in the outer one and a list in a fallback store. -/
def listBehind : Place where
  net := {
    stores := [
      { ancestors := [], owner := .null, slots := Table.empty.insert "$b" (.int32 1) },
      { ancestors := [0], owner := .null },
      { ancestors := [], owner := .null,
        slots := Table.empty.insert "$l" (.object ⟨.list, 0⟩) }]
    objects := [.list [.null]] }
  store := 1
  host := some { fallback := [2] }

theorem Code.confined_putThenShadow : ∃ code, Code.ofTokens .direct putThenShadow = .ok code ∧
    listBehind.net.Unwatched ∧ putThenShadow.any (·.kind.counts) = false ∧
    ((∃ steps result, ((listBehind.asking code .null).skip steps).agenda = [] ∧
        ((listBehind.asking code .null).skip steps).net.returned = some result) ∧
      ∀ n m, n ≤ m → Confined .direct (putThenShadow.any (·.kind.counts)) 1
        ((listBehind.asking code .null).skip n).net ((listBehind.asking code .null).skip m).net) ∧
    -- The list was changed, and `$b` and `$c` have come up in the inner scope.
    ((listBehind.asking code .null).skip 25).agenda = [] ∧
    ((listBehind.asking code .null).skip 25).net.objects = [.list [.int32 1]] ∧
    ((listBehind.asking code .null).skip 25).net.stores.map (·.slots.entries) =
      [[("$b", .int32 1)], [("$c", .null), ("$b", .null)], [("$l", .object ⟨.list, 0⟩)]] := by
  have compiled : Code.ofTokens .direct putThenShadow = .ok _ := rfl
  have unwatched : listBehind.net.Unwatched := by
    refine List.forall_mem_cons.mpr ⟨rfl, List.forall_mem_cons.mpr ⟨rfl, ?_⟩⟩
    exact List.forall_mem_singleton.mpr rfl
  obtain ⟨-, confined⟩ := Code.confined_of_ofTokens compiled unwatched .null
  exact ⟨_, compiled, unwatched, rfl, ⟨⟨25, _, rfl, rfl⟩, confined⟩, rfl, rfl, rfl⟩

end SlotScript
