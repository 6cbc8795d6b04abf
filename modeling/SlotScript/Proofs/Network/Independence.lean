import SlotScript.Proofs.Network.Retention
import SlotScript.Proofs.Network.Trace

/-! # Independence of other observers

Two networks that differ in some observers, and in the subscriptions that keep them, go on in the
same way while callbacks do not act: whatever is done in the one is done in the other, but for what
the additional observers are told. So nobody receives anything else for the subscription of another
observer being dropped.
-/

namespace SlotScript

/-- What is kept under a label. -/
def Network.subscription (net : Network) (label : String) : Subscription :=
  (net.subscriptions.find? label).getD []

/-- Where nothing is kept under a label, there is nothing to be dropped. -/
theorem Network.unsubscribe_eq (net : Network) (label : String) : net.unsubscribe label =
    { net with subscriptions := net.subscriptions.erase label }.drop (net.subscription label) := by
  unfold subscription
  refine unsubscribe_cases (fun unknown => ?_) fun sub found => ?_
  · rw [Table.erase_of_find?_eq_none unknown, unknown]
    rfl
  · rw [found]
    rfl

/-- What is kept under a label beside some registrations. -/
def Network.keptUnder (net : Network) (gone : Subscription) (label : String) : Subscription :=
  (net.subscription label).filter (· ∉ gone)

/-- Two networks that differ in what observers are, and in labels under which some registrations are
kept. -/
structure Network.Akin (gone : Subscription) (net net' : Network) : Prop where
  core : net.core = net'.core
  kept : ∀ label, net.keptUnder gone label = net'.keptUnder gone label

/-- A registration that is not among some others is kept if it is kept beside them. -/
theorem Network.kept_iff_keptUnder (net : Network) {gone : Subscription} {reg : Registration}
    (other : reg ∉ gone) :
    net.Kept reg ↔ ∃ label, reg ∈ net.keptUnder gone label := by
  refine exists_congr fun label => ?_
  cases found : net.subscriptions.find? label with
  | none => simp [keptUnder, subscription, found]
  | some sub => simp [keptUnder, subscription, found, other]

/-- The same of what follows from tasks. -/
structure Followed.Akin (gone : Subscription) (followed followed' : Followed) : Prop where
  net : followed.1.Akin gone followed'.1
  tasks : followed.2.filter Task.quiet = followed'.2.filter Task.quiet

/-- Keeps observers in their seats and nothing else. -/
def Subscription.Seats (sub : Subscription) : Prop :=
  ∀ reg ∈ sub, ∃ (s : Publisher) (n : Nat), reg = s.seat n

namespace Network.Akin

variable {gone : Subscription} {net net' : Network}

theorem of_core (core : net.core = net'.core)
    (subscriptions : net.subscriptions = net'.subscriptions) : Network.Akin gone net net' :=
  ⟨core, fun label => by simp only [keptUnder, subscription, subscriptions]⟩

theorem symm (h : Network.Akin gone net net') : Network.Akin gone net' net :=
  ⟨h.core.symm, fun label => (h.kept label).symm⟩

theorem trans {net'' : Network} (first : Network.Akin gone net net')
    (second : Network.Akin gone net' net'') : Network.Akin gone net net'' :=
  ⟨first.core.trans second.core, fun label => (first.kept label).trans (second.kept label)⟩

/-- What does not look at the difference keeps it. -/
theorem blind (h : Network.Akin gone net net') {f : Network → Followed} (blind : Blind f) :
    Followed.Akin gone (f net) (f net') := by
  have same : (f net).core = (f net').core := by rw [blind.core, h.core, ← blind.core]
  refine ⟨⟨congrArg Prod.fst same, fun label => ?_⟩, congrArg Prod.snd same⟩
  simp only [keptUnder, subscription, blind.subscriptions]
  exact h.kept label

theorem core_drop_filter (seats : gone.Seats) (net : Network) (sub : Subscription) :
    (net.drop sub).core = (net.drop (sub.filter (· ∉ gone))).core := by
  induction sub generalizing net with
  | nil => rfl
  | cons reg sub ih =>
      show ((net.unregister reg).drop sub).core = _
      by_cases here : reg ∈ gone
      · obtain ⟨s, n, rfl⟩ := seats reg here
        rw [List.filter_cons_of_neg (by simpa using here), core_drop, core_unregister_seat,
          ← core_drop, ih]
      · rw [List.filter_cons_of_pos (by simpa using here), ih]
        rfl

theorem drop (h : Network.Akin gone net net') (seats : gone.Seats) {sub sub' : Subscription}
    (same : sub.filter (· ∉ gone) = sub'.filter (· ∉ gone)) :
    Network.Akin gone (net.drop sub) (net'.drop sub') := by
  refine ⟨?_, fun label => ?_⟩
  · rw [core_drop_filter seats, core_drop, h.core, same, ← core_drop, ← core_drop_filter seats]
  · simp only [keptUnder, subscription, subscriptions_drop]
    exact h.kept label

theorem relabel (h : Network.Akin gone net net') (label : String) {sub sub' : Subscription}
    (same : sub.filter (· ∉ gone) = sub'.filter (· ∉ gone)) :
    Network.Akin gone { net with subscriptions := net.subscriptions.insert label sub }
      { net' with subscriptions := net'.subscriptions.insert label sub' } := by
  refine ⟨h.core, fun other => ?_⟩
  simp only [keptUnder, subscription, Table.find?_insert]
  split
  · exact same
  · exact h.kept other

theorem unlabel (h : Network.Akin gone net net') (label : String) :
    Network.Akin gone { net with subscriptions := net.subscriptions.erase label }
      { net' with subscriptions := net'.subscriptions.erase label } := by
  refine ⟨h.core, fun other => ?_⟩
  simp only [keptUnder, subscription, Table.find?_erase]
  split
  · rfl
  · exact h.kept other

theorem adopt (h : Network.Akin gone net net') (seats : gone.Seats) (label : String)
    {sub sub' : Subscription} (same : sub.filter (· ∉ gone) = sub'.filter (· ∉ gone)) :
    Network.Akin gone (net.adopt label sub) (net'.adopt label sub') :=
  (h.relabel label same).drop seats (h.kept label)

theorem unsubscribe (h : Network.Akin gone net net') (seats : gone.Seats) (label : String) :
    Network.Akin gone (net.unsubscribe label) (net'.unsubscribe label) := by
  rw [unsubscribe_eq, unsubscribe_eq]
  exact (h.unlabel label).drop seats (h.kept label)

/-- Observers that leave are missed by nobody else. -/
theorem leave {label : String} (seats : (net.subscription label).Seats) :
    Network.Akin (net.subscription label) (net.unsubscribe label) net := by
  have none : (net.subscription label).filter (· ∉ net.subscription label) = [] := by simp
  rw [unsubscribe_eq]
  refine ⟨?_, fun other => ?_⟩
  · rw [core_drop_filter seats, none]
    rfl
  · simp only [keptUnder, subscription, subscriptions_drop, Table.find?_erase]
    split
    · rename_i same
      exact same ▸ none.symm
    · rfl

theorem collect (h : Network.Akin gone net net') (labels : List String) :
    (net.collect labels).1.filter (· ∉ gone) = (net'.collect labels).1.filter (· ∉ gone) ∧
      Network.Akin gone (net.collect labels).2 (net'.collect labels).2 := by
  induction labels generalizing net net' with
  | nil => exact ⟨rfl, h⟩
  | cons label labels ih =>
      obtain ⟨joined, rest⟩ := ih (h.unlabel label)
      refine ⟨?_, rest⟩
      simp only [Network.collect, List.filter_append, joined]
      exact congrArg (· ++ _) (h.kept label)

theorem combine (h : Network.Akin gone net net') (seats : gone.Seats) (labels : List String)
    (label : String) :
    Network.Akin gone (net.combine labels label) (net'.combine labels label) := by
  obtain ⟨joined, collected⟩ := h.collect labels
  exact collected.adopt seats label joined

theorem listenOn (h : Network.Akin gone net net') (key : String) (callback : Callback)
    (stores : List StoreId) :
    (Network.listenOn key callback stores net).1 = (Network.listenOn key callback stores net').1 ∧
      Network.Akin gone (Network.listenOn key callback stores net).2
        (Network.listenOn key callback stores net').2 := by
  have first := net.core_listenOn key callback stores
  have second := net'.core_listenOn key callback stores
  rw [h.core, second] at first
  obtain ⟨regs, core⟩ := Prod.mk.inj first
  refine ⟨regs.symm, core.symm, fun label => ?_⟩
  simp only [keptUnder, subscription, (Grows.listenOn key callback stores _).1.labels]
  exact h.kept label

theorem watch (h : Network.Akin gone net net') (seats : gone.Seats) (store : StoreId)
    (key label : String) (callback : Callback) :
    Followed.Akin gone (keep label (net.watch store key callback))
      (keep label (net'.watch store key callback)) := by
  have chain : net'.chain store = net.chain store := congrArg (·.chain store) h.core.symm
  obtain ⟨regs, watching⟩ := h.listenOn key callback (net.chain store)
  refine ⟨?_, rfl⟩
  simp only [keep, Network.watch, chain]
  exact watching.adopt seats label (congrArg _ regs)

theorem watchAll (h : Network.Akin gone net net') (seats : gone.Seats) (store : StoreId)
    (label : String) (callback : Callback) :
    Followed.Akin gone
      (keep label ([(net.listen store none callback).1], (net.listen store none callback).2))
      (keep label
        ([(net'.listen store none callback).1], (net'.listen store none callback).2)) := by
  have first : net.core.listen store none callback =
    ((net.listen store none callback).1, (net.listen store none callback).2.core) := rfl
  have second : net'.core.listen store none callback =
    ((net'.listen store none callback).1, (net'.listen store none callback).2.core) := rfl
  rw [h.core, second] at first
  obtain ⟨reg, core⟩ := Prod.mk.inj first
  have listening : Network.Akin gone (net.listen store none callback).2
      (net'.listen store none callback).2 := ⟨core.symm, h.kept⟩
  exact ⟨listening.adopt seats label (by rw [reg]), rfl⟩

theorem watchKey (h : Network.Akin gone net net') (seats : gone.Seats) (name label : String)
    (callback : Callback) :
    Followed.Akin gone
      (match net.keyNames.find? name with
        | some (store, key) => keep label (net.watch store key callback)
        | none => (net, []))
      (match net'.keyNames.find? name with
        | some (store, key) => keep label (net'.watch store key callback)
        | none => (net', [])) := by
  have names : net'.core.keyNames = net.core.keyNames := congrArg Network.keyNames h.core.symm
  replace names : net'.keyNames = net.keyNames := names
  rw [names]
  split
  · exact h.watch seats _ _ label callback
  · exact ⟨h, rfl⟩

theorem operate (h : Network.Akin gone net net') (seats : gone.Seats) (op : Operation)
    (delivered : Value) (label? : Option String) :
    Followed.Akin gone (net.operate op delivered label?) (net'.operate op delivered label?) := by
  cases op with
  | watch store key label action => exact h.watch seats store key label _
  | watchAll store label action => exact h.watchAll seats store label _
  | watchKey name label action => exact h.watchKey seats name label _
  | combine labels label => exact ⟨h.combine seats labels label, rfl⟩
  | unsubscribe label => exact ⟨h.unsubscribe seats label, rfl⟩
  | _ => exact h.blind (.operate id delivered label?)

/-- Every task is done in the one network as it is in the other. -/
theorem perform (h : Network.Akin gone net net') (seats : gone.Seats) (task : Task) :
    Followed.Akin gone (task.perform net) (task.perform net') := by
  cases task with
  | operate op delivered label => exact h.operate seats op delivered label
  | adopt label sub => exact ⟨h.adopt seats label rfl, rfl⟩
  | _ => exact h.blind (.perform id)

theorem release (h : Network.Akin gone net net') (agenda : List Task) :
    Network.Akin gone (net.release agenda) (net'.release agenda) := by
  refine ⟨?_, fun label => ?_⟩
  · rw [core_release, h.core, ← core_release]
  · simp only [keptUnder, subscription, subscriptions_release]
    exact h.kept label

theorem kept_iff (h : Network.Akin gone net net') {reg : Registration} (other : reg ∉ gone) :
    net.Kept reg ↔ net'.Kept reg := by
  simp only [kept_iff_keptUnder _ other, h.kept]

theorem news? (h : Network.Akin gone net net') (task : Task) (s : Publisher) :
    net.news? task s = net'.news? task s := by
  rw [← news?_core, h.core, news?_core]

theorem disposes (h : Network.Akin gone net net') (task : Task) (s : Publisher) :
    net.disposes task s = net'.disposes task s := by
  rw [← disposes_core, h.core, disposes_core]

end Network.Akin

end SlotScript
