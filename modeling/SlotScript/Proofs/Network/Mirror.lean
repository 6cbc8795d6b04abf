import SlotScript.Proofs.Network.Scopes
import SlotScript.Proofs.Network.Tidiness

/-! # What a binding shows

A binding reads its key again whenever it is told to, and it is told of everything that can change
what is found under the key, in whatever scope that happens. It may be told late, when others have
written again in the meantime, but then it is told of that as well. So once nothing is left to be
done, the binding has what its store has.
-/

namespace SlotScript

/-- The value that a store finds under a key, null if there is none. -/
def Network.visible (net : Network) (store : StoreId) (key : String) : Value :=
  (net.lookup? store key).getD .null

/-- A value is taken for another one. -/
def Value.Matches (v w : Value) : Prop :=
  v = w ∨ v.identical w = true

namespace Network

variable {net net' : Network} {k : Publisher} {u : Upkeep} {id : BindingId} {b : Binding}

/-- Whoever is still there was there before, and watches the same. -/
theorem Registers.upkeep_of_active (h : Registers net net') (made : net.Made k)
    (found : net'.upkeep? k = some u) (active : u.disposed = false) :
    net.upkeep? k = some u := by
  cases h with
  | same h => exact h.upkeep k ▸ found
  | keeps _ _ _ _ upkeep => exact upkeep k ▸ found
  | @makes j v mid fresh _ _ _ upkeep =>
      have other : k ≠ j := by
        rintro rfl
        exact fresh made
      rwa [upkeep, if_neg other] at found
  | ends h =>
      rw [h.upkeep] at found
      split at found
      · cases active.symm.trans (h.ended u found).1
      · exact found

theorem nextBinding_release (net : Network) (agenda : List Task) :
    (net.release agenda).nextBinding = net.nextBinding :=
  release_keeps Network.nextBinding (fun _ reg => by cases reg <;> rfl) (fun _ _ => rfl)
    (fun _ _ => rfl) net agenda

/-- What a release leaves has not changed. -/
structure Spares (net net' : Network) : Prop where
  slots : ∀ s key, net'.slot? s key = net.slot? s key
  upkeep : ∀ k u, net'.upkeep? k = some u → net.upkeep? k = some u

theorem Spares.release (net : Network) (agenda : List Task) :
    Spares net (net.release agenda) := by
  refine release_preserves (P := Spares net) (fun before ends => ?_)
    ⟨fun _ _ => rfl, fun _ _ => id⟩ agenda
  refine ⟨fun s key => ?_, fun k u found => ?_⟩
  · rw [← before.slots]
    unfold slot?
    rw [ends.spared, Option.bind_map]
    rfl
  · rw [ends.upkeep] at found
    split at found
    · cases found
    · exact before.upkeep k u found

/-- What is seen of a store is decided by the slots in its scope. -/
theorem visible_eq (scopes : SameScopes net net') {store : StoreId} {key : String}
    (slots : ∀ s ∈ net.chain store, net'.slot? s key = net.slot? s key) :
    net'.visible store key = net.visible store key := by
  unfold visible lookup?
  rw [scopes.chain, findSome?_congr slots]

theorem liveBinding?_eq_some_iff :
    net.liveBinding? id = some b ↔ net.bindings.find? id = some b ∧ b.disposed = false := by
  simp [liveBinding?, Option.filter_eq_some_iff]

/-- A live binding is called once for its key in each of its scopes, and for nothing else. -/
theorem Registered.count_calls (h : net.Registered) {s : StoreId} {st : Store}
    (found : net.stores[s]? = some st) (key? : Option String) (id : BindingId) :
    (net.callbacksFor s key?).countP (·.wakes? = some (.binding id)) =
      if (net.liveBinding? id).any fun b => key? = some b.key ∧ s ∈ net.chain b.store then 1
      else 0 := by
  rw [← (h.tidy found).bindings id key?]
  simp only [callbacksFor, found, List.countP_map, List.countP_filter]
  exact List.countP_congr fun l _ => by simp

/-- A live binding is called for its key in every scope. -/
theorem Registered.calls_refresh (h : Registered net) (alive : net.liveBinding? id = some b)
    {s : StoreId} (member : s ∈ net.chain b.store) (exist : (net.stores[s]?).isSome) :
    .refresh id ∈ net.callbacksFor s (some b.key) := by
  obtain ⟨st, found⟩ := Option.isSome_iff_exists.mp exist
  have once := h.count_calls found (some b.key) id
  rw [alive, Option.any_some, if_pos (by simpa using member)] at once
  obtain ⟨callback, called, wakes⟩ := List.countP_pos_iff.mp (once ▸ Nat.one_pos)
  obtain rfl : callback = .refresh id := Callback.eq_of_wakes? (of_decide_eq_true wakes)
  exact called

theorem stored_of_news {task : Task} {news : News}
    (found : net.news? task (.binding id) = some news) :
    ∃ b, net.bindings.find? id = some b ∧ news.stored = net.visible b.store b.key := by
  unfold news? at found
  split at found
  · rename_i k v _ finding _
    split at found
    · rename_i new
      cases found
      obtain rfl := new.1
      unfold Task.finding? at finding
      split at finding
      · split at finding <;> cases finding
      · obtain ⟨b, found, same⟩ := Option.map_eq_some_iff.mp finding
        cases same
        exact ⟨b, found, rfl⟩
      · cases finding
    · cases found
  · cases found

theorem identical_of_refresh (alive : net.liveBinding? id = some b)
    (nothing : net.news? (.notify (.refresh id)) (.binding id) = none) :
    b.value.identical (net.visible b.store b.key) = true := by
  obtain ⟨found, active⟩ := liveBinding?_eq_some_iff.mp alive
  have finding : (Task.notify (.refresh id)).finding? net =
      some (.binding id, net.visible b.store b.key) := by
    simp only [Task.finding?, found, Option.map_some]
    rfl
  have here := publication?_binding found
  refine Classical.byContradiction fun new => ?_
  rw [news?_of_finding finding here active (Bool.eq_false_iff.mpr new), if_pos rfl] at nothing
  cases nothing

/-- Once it has done what it is told to, a binding shows what its store finds. Otherwise it shows
what it did, or is still to be told. -/
theorem Turns.matches {task : Task} {rest : List Task} {gone : Subscription} {b' : Publication}
    (turns : net.Turns task gone (.binding id) b.publication b')
    (alive : net.liveBinding? id = some b)
    (told : b.value.Matches (net.visible b.store b.key) ∨
      .notify (.refresh id) ∈ task :: rest) :
    b'.value.Matches (net.visible b.store b.key) ∨ .notify (.refresh id) ∈ rest := by
  have value := turns.value
  cases news : net.news? task (.binding id) with
  | some news' =>
      obtain ⟨b₀, found, stored⟩ := stored_of_news news
      cases found.symm.trans (liveBinding?_eq_some_iff.mp alive).1
      rw [news] at value
      exact .inl (.inl (value.trans stored))
  | none =>
      rw [news] at value
      have same : b'.value = b.value := value
      rw [same]
      obtain shows | pending := told
      · exact .inl shows
      · cases pending with
        | head => exact .inl (.inr (identical_of_refresh alive news))
        | tail _ member => exact .inr member

end Network

open Network

/-- A binding of a key of a store. If it is alive, it shows what the store finds, or it is about to
read its key again. -/
structure Propagation.Mirrors (id : BindingId) (store : StoreId) (key : String)
    (p : Propagation) : Prop where
  kept : p.WellKept
  orderly : p.Orderly
  made : p.net.Made (.binding id)
  told : ∀ b, p.net.liveBinding? id = some b → b.store = store ∧ b.key = key ∧
    (b.value.Matches (p.net.visible store key) ∨ .notify (.refresh id) ∈ p.agenda)

namespace Propagation

variable {p q : Propagation} {task : Task} {rest : List Task} {id : BindingId} {store : StoreId}
  {key : String}

theorem spares_step (agenda : p.agenda = task :: rest) :
    (task.perform p.net).1.Spares p.step.net := by
  rw [step_eq agenda]
  exact .release _ _

/-- A live binding was alive before, and watched the same key, unless it has just been made. -/
theorem WellKept.alive_before (h : p.WellKept) (agenda : p.agenda = task :: rest)
    (made : p.net.Made (.binding id)) {b' : Binding}
    (alive : p.step.net.liveBinding? id = some b') :
    ∃ b, p.net.liveBinding? id = some b ∧ b.upkeep = b'.upkeep := by
  have deed := deed_perform h.net.forest (h.clean task (agenda ▸ .head _))
  obtain ⟨found, active⟩ := liveBinding?_eq_some_iff.mp alive
  have left := (spares_step agenda).upkeep (.binding id) b'.upkeep (upkeep?_binding found)
  obtain ⟨b, before, same⟩ :=
    Option.map_eq_some_iff.mp (deed.registers.upkeep_of_active made left active)
  exact ⟨b, liveBinding?_eq_some_iff.mpr
    ⟨before, (congrArg Upkeep.disposed same).trans active⟩, same⟩

/-- A live binding is told when its key changes in one of its scopes. -/
theorem WellKept.refreshes (h : p.WellKept) (agenda : p.agenda = task :: rest) {b : Binding}
    (alive : p.net.liveBinding? id = some b) {s : StoreId} (member : s ∈ p.net.chain b.store)
    (differs : (task.perform p.net).1.slot? s b.key ≠ p.net.slot? s b.key) :
    .notify (.refresh id) ∈ (task.perform p.net).2 := by
  have deed := deed_perform h.net.forest (h.clean task (agenda ▸ .head _))
  have exist : (p.net.stores[s]?).isSome := by
    refine Classical.byContradiction fun none => differs ?_
    have after := (SameScopes.perform p.net task).exist s
    rw [Option.not_isSome_iff_eq_none] at none
    rw [none, Option.isSome_none, Option.isSome_eq_false_iff, Option.isNone_iff_eq_none] at after
    simp only [slot?, none, after]
  exact deed.heralds s b.key differs _ (h.net.calls_refresh alive member exist)

theorem Mirrors.step (h : p.Mirrors id store key) (agenda : p.agenda = task :: rest) :
    p.step.Mirrors id store key := by
  obtain ⟨⟨gone, shift⟩, orderly⟩ := h.orderly.step agenda
  refine ⟨h.kept.step agenda, orderly, shift.made _ h.made, fun b' alive => ?_⟩
  obtain ⟨later, -⟩ := liveBinding?_eq_some_iff.mp alive
  obtain ⟨b, alive, same⟩ := h.kept.alive_before agenda h.made alive
  obtain ⟨rfl, rfl, told⟩ := h.told b alive
  refine ⟨(congrArg Upkeep.store same).symm, ?_, ?_⟩
  · exact (List.singleton_inj.mp (congrArg Upkeep.keys same)).symm
  rw [agenda_step agenda]
  by_cases changed : ∃ s ∈ p.net.chain b.store,
      (task.perform p.net).1.slot? s b.key ≠ p.net.slot? s b.key
  · obtain ⟨s, member, differs⟩ := changed
    exact .inr (List.mem_append_left _ (h.kept.refreshes agenda alive member differs))
  · have visible : p.step.net.visible b.store b.key = p.net.visible b.store b.key := by
      refine visible_eq p.sameScopes_step fun s member =>
        ((spares_step agenda).slots s b.key).trans ?_
      exact Classical.byContradiction fun differs => changed ⟨s, member, differs⟩
    have here : p.net.publication? (.binding id) = some b.publication := by
      simp only [publication?, (liveBinding?_eq_some_iff.mp alive).1, Option.map_some]
    obtain ⟨-, new | ⟨c, before, turns⟩⟩ :=
      shift.publication (.binding id) b'.publication (by simp [publication?, later])
    · exact (new.fresh h.made).elim
    · cases here.symm.trans before
      rw [visible]
      exact (turns.matches alive (agenda ▸ told)).imp_right (List.mem_append_right _)

theorem Mirrors.next (h : p.Mirrors id store key) (next : p.Next q) : q.Mirrors id store key := by
  cases next with
  | ask net op =>
      refine ⟨h.kept.ask op, h.orderly.ask op, h.made, fun b alive => ?_⟩
      obtain ⟨same_store, same_key, shows | pending⟩ := h.told b alive
      · exact ⟨same_store, same_key, .inl shows⟩
      · cases pending
  | task busy =>
      obtain ⟨task, rest, agenda⟩ := List.exists_cons_of_ne_nil busy
      exact h.step agenda

/-- As long as something is left to be done, that is what comes next. -/
theorem Next.eq_step (next : p.Next q) (agenda : p.agenda = task :: rest) : q = p.step := by
  cases next with
  | ask => cases agenda
  | task => rfl

/-- Nobody has to be told when a key is bound that is found. -/
theorem step_bind {name : String} {v delivered : Value} {label? : Option String}
    (agenda : p.agenda = .operate (.bind name store key) delivered label? :: rest)
    (found : p.net.lookup? store key = some v) :
    p.step = ⟨p.net.release (.attach name { store, key, value := v } :: rest),
      .attach name { store, key, value := v } :: rest⟩ := by
  have performed : (Task.operate (.bind name store key) delivered label?).perform p.net =
      (p.net, [.attach name { store, key, value := v }]) := by
    simp [Task.perform, operate, fetch, found]
  rw [step_eq agenda, performed]
  rfl

/-- A binding that is attached to its key goes on to show what its store finds. -/
theorem Mirrors.attach (kept : p.WellKept) (orderly : p.Orderly) {name : String} {b : Binding}
    (agenda : p.agenda = .attach name b :: rest)
    (shows : b.value.Matches (p.net.visible b.store b.key)) :
    p.step.Mirrors p.net.nextBinding b.store b.key ∧
      p.step.net.bindingNames.find? name = some p.net.nextBinding := by
  have performed : (Task.attach name b).perform p.net = (p.net.attach name b, []) := rfl
  have stepped : p.step = ⟨(p.net.attach name b).release rest, rest⟩ := by
    rw [step_eq agenda, performed]
    rfl
  have makes := Makes.attach p.net name b
  have upstream : (p.net.attach name b).Upstream := by
    simpa only [performed] using orderly.upstream_perform agenda
  have sheds : (p.net.attach name b).Sheds p.step.net := stepped ▸ .release upstream rest
  have left : (p.net.attach name b).Spares p.step.net := stepped ▸ .release _ rest
  have enrolled := Enrolls.listenOn b.key (.refresh p.net.nextBinding)
    (kept.net.forest.chain_nodup b.store) p.net
  have visible : p.step.net.visible b.store b.key = p.net.visible b.store b.key :=
    visible_eq (enrolled.scopes.trans (stepped ▸ .release _ rest))
      fun s _ => (left.slots s b.key).trans (enrolled.slots s b.key)
  refine ⟨⟨kept.step agenda, (orderly.step agenda).2, ?_, fun b' alive => ?_⟩, ?_⟩
  · exact (sheds.made _).mpr ((makes.made _).mpr (.inl rfl))
  · obtain ⟨found, -⟩ := liveBinding?_eq_some_iff.mp alive
    have added : (p.net.attach name b).bindings.find? p.net.nextBinding =
        some { b with watching := (p.net.watch b.store b.key (.refresh p.net.nextBinding)).1 } :=
      (Table.find?_insert _ _ _ _).trans (if_pos rfl)
    have upkeep := left.upkeep (.binding p.net.nextBinding) b'.upkeep (upkeep?_binding found)
    have here := publication?_binding found
    rw [upkeep?_binding added, Option.some.injEq] at upkeep
    refine ⟨(congrArg Upkeep.store upkeep).symm, ?_, .inl ?_⟩
    · exact (List.singleton_inj.mp (congrArg Upkeep.keys upkeep)).symm
    obtain gone | same := sheds.publication (.binding p.net.nextBinding)
    · cases here.symm.trans gone
    · rw [here] at same
      simp only [publication?, added, Option.map_some, Option.some.injEq] at same
      rw [visible, show b'.value = b.value from congrArg Publication.value same]
      exact shows
  · have names : p.step.net.bindingNames = (p.net.attach name b).bindingNames := by
      rw [stepped]
      exact release_keeps Network.bindingNames (fun _ reg => by cases reg <;> rfl)
        (fun _ _ => rfl) (fun _ _ => rfl) _ rest
    rw [names]
    exact (Table.find?_insert _ name name _).trans (if_pos rfl)

end Propagation

/-- A binding whose key was found when it was made shows what its store finds under the key,
whenever nothing is left to be done, and null if the store finds nothing. -/
theorem Session.binding_mirrors {start : Network} {p : Propagation} {name : String}
    {store : StoreId} {key : String} {delivered : Value} {label? : Option String}
    {rest : List Task} (untouched : start.Untouched) (forest : start.Forest)
    (unheard : ∀ st ∈ start.stores, st.listeners = [])
    (before : Session (fun _ => True) ⟨start, []⟩ p)
    (agenda : p.agenda = .operate (.bind name store key) delivered label? :: rest)
    (resolves : (p.net.lookup? store key).isSome) :
    p.step.step.net.bindingNames.find? name = some p.net.nextBinding ∧
    ∀ q b, Session (fun _ => True) p q → q.agenda = [] →
      q.net.liveBinding? p.net.nextBinding = some b →
      b.store = store ∧ b.key = key ∧
        (b.value = (q.net.lookup? store key).getD .null ∨
          b.value.identical ((q.net.lookup? store key).getD .null) = true) := by
  obtain ⟨kept, orderly⟩ := before.wellKept untouched forest unheard
  obtain ⟨v, found⟩ := Option.isSome_iff_exists.mp resolves
  have first := Propagation.step_bind agenda found
  have attaching : p.step.agenda = .attach name { store, key, value := v } :: rest := by rw [first]
  have next : p.Next p.step := .task (agenda ▸ List.cons_ne_nil _ rest)
  have left : p.net.Spares p.step.net := by
    rw [first]
    exact .release _ _
  have same : p.step.net.nextBinding = p.net.nextBinding := by
    rw [first]
    exact nextBinding_release _ _
  have shows : p.step.net.visible store key = v := by
    rw [visible_eq p.sameScopes_step fun s _ => left.slots s key, Network.visible, found]
    rfl
  obtain ⟨bound, named⟩ := Propagation.Mirrors.attach (kept.next next) (orderly.next next) attaching
    (.inl shows.symm)
  rw [same] at bound named
  refine ⟨named, fun q b since done alive => ?_⟩
  have reached : q = p ∨ q = p.step ∨ q.Mirrors p.net.nextBinding store key := by
    refine (since.preserves (Q := fun q => q = p ∨ q = p.step ∨
      q.Mirrors p.net.nextBinding store key) (.inl rfl) ?_).1
    rintro m m' - (rfl | rfl | mirrors) next -
    · exact .inr (.inl (next.eq_step agenda))
    · exact .inr (.inr (next.eq_step attaching ▸ bound))
    · exact .inr (.inr (mirrors.next next))
  obtain rfl | rfl | mirrors := reached
  · cases done.symm.trans agenda
  · cases done.symm.trans attaching
  · obtain ⟨same_store, same_key, shows | pending⟩ := mirrors.told b alive
    · exact ⟨same_store, same_key, shows⟩
    · rw [done] at pending
      cases pending

theorem forest_twoScopes : twoScopes.Forest := by
  rintro (_ | _ | _) st found
  · cases found
    exact .inl rfl
  · cases found
    exact .inr ⟨0, Nat.zero_lt_one, rfl⟩
  · cases found

/-- Whoever watches `$a` from the inner scope writes it in the outer one. -/
def watchingA : Propagation :=
  twoScopes.ask (.watch 1 "$a" "w" (some (.set 0 "$a" (.int32 5))))

/-- The inner scope has `$a` bound. -/
def bindingA : Propagation := (watchingA.skip 1).net.ask (.bind "x" 1 "$a")

/-- It gets an `$a` of its own, which then hides what is written in the outer scope. -/
def hidingA : Propagation := (bindingA.skip 2).net.ask (.set 1 "$a" (.int32 2))

/-- It loses it again. -/
def uncoveringA : Propagation := (hidingA.skip 19).net.ask (.remove 1 "$a")

theorem Session.binding_mirrors_uncoveringA : ∃ b₁ b₂ : Binding,
    (hidingA.skip 19).net.liveBinding? 0 = some b₁ ∧ b₁.value = .int32 2 ∧
    (hidingA.skip 19).net.lookup? b₁.store b₁.key = some (.int32 2) ∧
    (uncoveringA.skip 20).net.liveBinding? 0 = some b₂ ∧ b₂.value = .int32 5 ∧
    (uncoveringA.skip 20).net.lookup? b₂.store b₂.key = some (.int32 5) ∧
    (b₂.value = .int32 5 ∨ b₂.value.identical (.int32 5) = true) := by
  have untouched : twoScopes.Untouched := ⟨rfl, rfl, rfl⟩
  have unheard : ∀ st ∈ twoScopes.stores, st.listeners = [] := by decide
  have watched : Lasts (fun _ => True) ⟨twoScopes, []⟩ _ (watchingA.skip 1) :=
    (Lasts.ask (.start trivial) rfl trivial).walk 1 (by decide +kernel) fun _ _ => trivial
  have asked : Lasts (fun _ => True) ⟨twoScopes, []⟩ _ bindingA :=
    watched.ask (by decide +kernel) trivial
  have hidden : Lasts (fun _ => True) bindingA _ (hidingA.skip 19) :=
    (((Lasts.start trivial).walk 2 (by decide +kernel) fun _ _ => trivial).ask
      (by decide +kernel) trivial).walk 19 (by decide +kernel) fun _ _ => trivial
  have uncovered : Lasts (fun _ => True) bindingA _ (uncoveringA.skip 20) :=
    (hidden.ask (by decide +kernel) trivial).walk 20 (by decide +kernel) fun _ _ => trivial
  obtain ⟨-, mirrors⟩ :=
    Session.binding_mirrors untouched forest_twoScopes unheard asked.session rfl
      (by decide +kernel)
  obtain ⟨-, -, shows⟩ := mirrors _ _ uncovered.session (by decide +kernel) rfl
  exact ⟨_, _, rfl, rfl, rfl, rfl, rfl, rfl, shows⟩

end SlotScript
