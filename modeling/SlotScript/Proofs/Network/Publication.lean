import SlotScript.Proofs.Network.Registration

/-! # What can be observed

Observables and bindings are observed in the same way, so both are seen as publishers here. An
observer has a seat with its publisher for as long as a subscription keeps that seat; no
subscription is ever copied, so a seat that is given up is not kept elsewhere.
-/

namespace SlotScript

namespace Table

variable {κ α : Type} [DecidableEq κ] {f : α → Nat}

/-- What the entries weigh together. -/
def total (t : Table κ α) (f : α → Nat) : Nat :=
  t.values.foldr (fun a sum => f a + sum) 0

theorem total_insert (t : Table κ α) (key : κ) (a : α) :
    (t.insert key a).total f + ((t.find? key).map f).getD 0 = t.total f + f a := by
  obtain ⟨entries, nodup⟩ := t
  simp only [total, values, insert, find?]
  clear nodup
  induction entries with
  | nil => simp [put, look?]
  | cons entry rest ih =>
      by_cases same : entry.1 = key
      · simp only [put, look?, same, if_true, List.map_cons, List.foldr_cons, Option.map_some,
          Option.getD_some]
        omega
      · simp only [put, look?, same, if_false, List.map_cons, List.foldr_cons]
        omega

theorem total_erase (t : Table κ α) (key : κ) :
    (t.erase key).total f + ((t.find? key).map f).getD 0 = t.total f := by
  obtain ⟨entries, nodup⟩ := t
  simp only [total, values, erase, filterKeys, find?]
  induction entries with
  | nil => simp [look?]
  | cons entry rest ih =>
      obtain ⟨new, nodup⟩ := List.nodup_cons.mp nodup
      by_cases same : entry.1 = key
      · have others : rest.filter (fun entry => decide (entry.1 ≠ key)) = rest := by
          refine List.filter_eq_self.mpr fun other member => ?_
          have different : other.1 ≠ entry.1 := fun h => new (h ▸ List.mem_map_of_mem member)
          simpa [same] using different
        rw [List.filter_cons_of_neg (by simp [same]), others]
        simp [look?, same, Nat.add_comm]
      · have rest := ih nodup
        simp only [look?, same, if_false, List.filter_cons, ne_eq, not_false_eq_true, decide_true,
          if_true, List.map_cons, List.foldr_cons] at rest ⊢
        omega

theorem mem_values {t : Table κ α} {key : κ} {a : α} (found : t.find? key = some a) :
    a ∈ t.values := by
  obtain ⟨entries, nodup⟩ := t
  simp only [find?, values] at found ⊢
  clear nodup
  induction entries with
  | nil => cases found
  | cons entry rest ih =>
      by_cases here : entry.1 = key
      · simp only [look?, here, if_true] at found
        cases found
        exact .head _
      · simp only [look?, here, if_false] at found
        exact .tail _ (ih found)

theorem le_total {t : Table κ α} {key : κ} {a : α} (found : t.find? key = some a) :
    f a ≤ t.total f := by
  have sum := t.total_erase (f := f) key
  simp only [found, Option.map_some, Option.getD_some] at sum
  omega

theorem total_pos {t : Table κ α} :
    0 < t.total f ↔ ∃ key a, t.find? key = some a ∧ 0 < f a := by
  constructor
  · obtain ⟨entries, nodup⟩ := t
    simp only [total, values, find?]
    induction entries with
    | nil => exact fun pos => absurd pos (Nat.lt_irrefl 0)
    | cons entry rest ih =>
        obtain ⟨new, nodup⟩ := List.nodup_cons.mp nodup
        intro pos
        by_cases here : 0 < f entry.2
        · exact ⟨entry.1, entry.2, by simp [look?], here⟩
        · have later : 0 < (rest.map Prod.snd).foldr (fun a sum => f a + sum) 0 := by
            simp only [List.map_cons, List.foldr_cons] at pos
            omega
          obtain ⟨key, a, found, pos⟩ := ih nodup later
          have member : key ∈ rest.map Prod.fst :=
            mem_keys (t := ⟨rest, nodup⟩) (by simp [find?, found])
          have other : entry.1 ≠ key := fun same => new (same ▸ member)
          exact ⟨key, a, by simpa [look?, other] using found, pos⟩
  · rintro ⟨key, a, found, pos⟩
    exact Nat.lt_of_lt_of_le pos (le_total found)

end Table

/-- What can be observed. -/
inductive Publisher where
  | observable (id : ObservableId)
  | binding (id : BindingId)
deriving DecidableEq

/-- What keeps an observer in its place. -/
def Publisher.seat : Publisher → Nat → Registration
  | .observable id, n => .observer id n
  | .binding id, n => .bindingObserver id n

theorem Publisher.seat_inj {s k : Publisher} {n m : Nat} : s.seat n = k.seat m ↔ s = k ∧ n = m := by
  cases s <;> cases k <;> simp [seat]

/-- A publisher as its observers know it. -/
structure Publication where
  value : Value
  converter : Option Converter
  observers : Observers
  disposed : Bool
  watching : Subscription

namespace Publication

/-- The value that observers see. -/
def shown (b : Publication) (sizes : Sizes) : Value :=
  Converter.convert b.converter sizes b.value

/-- Without the observers whose seats are given up. -/
def without (b : Publication) (s : Publisher) (gone : Subscription) : Publication :=
  { b with observers :=
    { b.observers with list := b.observers.list.filter fun entry => s.seat entry.1 ∉ gone } }

theorem without_nil (b : Publication) (s : Publisher) : b.without s [] = b := by
  obtain ⟨value, converter, ⟨list, next⟩, disposed, watching⟩ := b
  simp [without]

theorem without_cons (b : Publication) (s : Publisher) (reg : Registration)
    (gone : Subscription) : (b.without s [reg]).without s gone = b.without s (reg :: gone) := by
  simp only [without, List.filter_filter]
  congr 3
  funext entry
  simp [Bool.and_comm]

/-- Whoever has no seat among those given up stays. -/
theorem without_of_not_mem {s : Publisher} {gone : Subscription} (none : ∀ n, s.seat n ∉ gone)
    (b : Publication) : b.without s gone = b := by
  obtain ⟨value, converter, ⟨list, next⟩, disposed, watching⟩ := b
  simp [without, none]

end Publication

def Observable.publication (o : Observable) : Publication :=
  ⟨o.value, o.converter, o.observers, o.disposed, o.watching⟩

def Binding.publication (b : Binding) : Publication :=
  ⟨b.value, b.target, b.observers, b.disposed, b.watching⟩

/-- Keeps callbacks with stores and nothing else. -/
def Subscription.Listens (sub : Subscription) : Prop :=
  ∀ s : Publisher, ∀ n, s.seat n ∉ sub

theorem Subscription.Listens.count {sub : Subscription} (listens : sub.Listens) (s : Publisher)
    (n : Nat) : sub.count (s.seat n) = 0 :=
  List.count_eq_zero.mpr (listens s n)

theorem Subscription.Listens.append {sub sub' : Subscription} (first : sub.Listens)
    (second : sub'.Listens) : Subscription.Listens (sub ++ sub') :=
  fun s n member => (List.mem_append.mp member).elim (first s n) (second s n)

namespace Network

def publication? (net : Network) : Publisher → Option Publication
  | .observable id => (net.observables.find? id).map Observable.publication
  | .binding id => (net.bindings.find? id).map Binding.publication

theorem publication?_observable {net : Network} {id : ObservableId} {o : Observable}
    (found : net.observables.find? id = some o) :
    net.publication? (.observable id) = some o.publication := by
  rw [publication?, found, Option.map_some]

theorem publication?_binding {net : Network} {id : BindingId} {b : Binding}
    (found : net.bindings.find? id = some b) :
    net.publication? (.binding id) = some b.publication := by
  rw [publication?, found, Option.map_some]

/-- What holds of an observable holds of it as its observers know it. -/
theorem forall_observable {net : Network} {id : ObservableId} {P : Publication → Prop}
    (h : ∀ o, net.observables.find? id = some o → P o.publication) :
    ∀ b, net.publication? (.observable id) = some b → P b := by
  intro b there
  obtain ⟨o, found, rfl⟩ := Option.map_eq_some_iff.mp there
  exact h o found

theorem forall_binding {net : Network} {id : BindingId} {P : Publication → Prop}
    (h : ∀ b, net.bindings.find? id = some b → P b.publication) :
    ∀ b, net.publication? (.binding id) = some b → P b := by
  intro b there
  obtain ⟨c, found, rfl⟩ := Option.map_eq_some_iff.mp there
  exact h c found

/-- A publisher has been made, though it may have been released since. -/
def Made (net : Network) : Publisher → Prop
  | .observable id => id < net.nextObservable
  | .binding id => id < net.nextBinding

/-- How often a registration is kept under labels. -/
def copies (net : Network) (reg : Registration) : Nat :=
  net.subscriptions.total fun sub => sub.count reg

/-- A subscription with a label keeps the registration. -/
def Kept (net : Network) (reg : Registration) : Prop :=
  ∃ label sub, net.subscriptions.find? label = some sub ∧ reg ∈ sub

theorem kept_iff {net : Network} {reg : Registration} : net.Kept reg ↔ 0 < net.copies reg := by
  unfold copies
  rw [Table.total_pos]
  simp only [List.count_pos_iff, Kept]

/-- What publishers are told of changes by is not kept for anyone else. -/
def Upstream (net : Network) : Prop :=
  ∀ s b, net.publication? s = some b → Subscription.Listens b.watching

variable {net net' net'' : Network}

/-- Some registrations come under a label, and others are given up. Nothing else is done to those
who observe. -/
structure Moves (taken gone : Subscription) (net net' : Network) : Prop where
  publication : ∀ s, net'.publication? s = (net.publication? s).map (·.without s gone)
  made : ∀ s, net'.Made s ↔ net.Made s
  copies : ∀ reg, net'.copies reg + gone.count reg = net.copies reg + taken.count reg

theorem publication?_of_eq (observables : net'.observables = net.observables)
    (bindings : net'.bindings = net.bindings) (s : Publisher) :
    net'.publication? s = net.publication? s := by
  cases s with
  | observable id => exact congrArg (fun t => (t.find? id).map Observable.publication) observables
  | binding id => exact congrArg (fun t => (t.find? id).map Binding.publication) bindings

theorem made_of_eq (observables : net'.nextObservable = net.nextObservable)
    (bindings : net'.nextBinding = net.nextBinding) (s : Publisher) :
    net'.Made s ↔ net.Made s := by
  cases s with
  | observable id => exact iff_of_eq (congrArg (id < ·) observables)
  | binding id => exact iff_of_eq (congrArg (id < ·) bindings)

/-- Nothing is done to those who observe. -/
theorem Moves.inert (observables : net'.observables = net.observables)
    (bindings : net'.bindings = net.bindings)
    (nextObservable : net'.nextObservable = net.nextObservable)
    (nextBinding : net'.nextBinding = net.nextBinding)
    (subscriptions : net'.subscriptions = net.subscriptions) : Moves [] [] net net' := by
  refine ⟨fun s => ?_, made_of_eq nextObservable nextBinding, fun reg => ?_⟩
  · rw [publication?_of_eq observables bindings]
    simp only [Publication.without_nil, Option.map_id']
  · rw [Network.copies, subscriptions]
    rfl

/-- Something else happened before. -/
theorem Moves.after {taken gone : Subscription} (first : Moves [] [] net net')
    (second : Moves taken gone net' net'') : Moves taken gone net net'' := by
  refine ⟨fun s => ?_, fun s => (second.made s).trans (first.made s), fun reg => ?_⟩
  · rw [second.publication, first.publication]
    simp only [Publication.without_nil, Option.map_id']
  · have copies := first.copies reg
    simp only [List.count_nil, Nat.add_zero] at copies
    rw [second.copies, copies]

theorem publication?_modifyObservable (net : Network) (id : ObservableId)
    {f : Observable → Observable} {g : Publication → Publication}
    (same : ∀ o, (f o).publication = g o.publication) (s : Publisher) :
    (net.modifyObservable id f).publication? s =
      if s = .observable id then (net.publication? s).map g else net.publication? s := by
  cases s with
  | observable k =>
      simp only [publication?, modifyObservable, Table.find?_adjust, Publisher.observable.injEq]
      split
      · cases net.observables.find? k <;> simp [same]
      · rfl
  | binding k => rfl

theorem publication?_modifyBinding (net : Network) (id : BindingId) {f : Binding → Binding}
    {g : Publication → Publication} (same : ∀ b, (f b).publication = g b.publication)
    (s : Publisher) : (net.modifyBinding id f).publication? s =
      if s = .binding id then (net.publication? s).map g else net.publication? s := by
  cases s with
  | observable k => rfl
  | binding k =>
      simp only [publication?, modifyBinding, Table.find?_adjust, Publisher.binding.injEq]
      split
      · cases net.bindings.find? k <;> simp [same]
      · rfl

theorem publication?_unregister (net : Network) (reg : Registration) (s : Publisher) :
    (net.unregister reg).publication? s = (net.publication? s).map (·.without s [reg]) := by
  have untouched (none : ∀ n, s.seat n ≠ reg) :
      net.publication? s = (net.publication? s).map (·.without s [reg]) := by
    have same (b : Publication) : b.without s [reg] = b :=
      Publication.without_of_not_mem (by simpa using none) b
    simp only [same, Option.map_id']
  cases reg with
  | listener store id =>
      exact untouched (fun n => by cases s <;> nofun)
  | observer id m =>
      refine (publication?_modifyObservable net id (g := (·.without (.observable id)
        [.observer id m])) (fun o => ?_) s).trans ?_
      · simp [Observable.publication, Publication.without, Observers.remove, Publisher.seat]
      · split
        · rename_i same
          rw [same]
        · rename_i other
          exact untouched fun n same => other (Publisher.seat_inj (k := .observable id).mp same).1
  | bindingObserver id m =>
      refine (publication?_modifyBinding net id (g := (·.without (.binding id)
        [.bindingObserver id m])) (fun o => ?_) s).trans ?_
      · simp [Binding.publication, Publication.without, Observers.remove, Publisher.seat]
      · split
        · rename_i same
          rw [same]
        · rename_i other
          exact untouched fun n same => other (Publisher.seat_inj (k := .binding id).mp same).1

theorem publication?_drop (net : Network) (sub : Subscription) (s : Publisher) :
    (net.drop sub).publication? s = (net.publication? s).map (·.without s sub) := by
  induction sub generalizing net with
  | nil =>
      simp only [Publication.without_nil, Option.map_id']
      rfl
  | cons reg sub ih =>
      refine (ih (net.unregister reg)).trans ?_
      rw [publication?_unregister, Option.map_map]
      congr 1
      exact funext fun b => b.without_cons s reg sub

theorem subscriptions_drop (net : Network) (sub : Subscription) :
    (net.drop sub).subscriptions = net.subscriptions :=
  drop_keeps Network.subscriptions (fun _ reg => by cases reg <;> rfl) net sub

theorem made_drop (net : Network) (sub : Subscription) (s : Publisher) :
    (net.drop sub).Made s ↔ net.Made s := by
  refine made_of_eq ?_ ?_ s
  · exact drop_keeps Network.nextObservable (fun _ reg => by cases reg <;> rfl) net sub
  · exact drop_keeps Network.nextBinding (fun _ reg => by cases reg <;> rfl) net sub

theorem copies_drop (net : Network) (sub : Subscription) (reg : Registration) :
    (net.drop sub).copies reg = net.copies reg := by
  simp only [copies, subscriptions_drop]

theorem count_old (t : Table String Subscription) (label : String) (reg : Registration) :
    ((t.find? label).map fun sub => sub.count reg).getD 0 =
      ((t.find? label).getD []).count reg := by
  cases t.find? label <;> rfl

theorem Moves.adopt (net : Network) (label : String) (sub : Subscription) :
    Moves sub ((net.subscriptions.find? label).getD []) net (net.adopt label sub) := by
  refine ⟨fun s => publication?_drop _ _ s, made_drop _ _, fun reg => ?_⟩
  have sum := Table.total_insert (f := fun sub => sub.count reg) net.subscriptions label sub
  rw [count_old] at sum
  simp only [Network.adopt, copies_drop]
  exact sum

theorem Moves.unsubscribe (net : Network) (label : String) :
    Moves [] ((net.subscriptions.find? label).getD []) net (net.unsubscribe label) := by
  refine unsubscribe_cases (fun unknown => ?_) fun sub found => ?_
  · rw [unknown]
    exact .inert rfl rfl rfl rfl rfl
  · rw [found, Option.getD_some]
    refine ⟨fun s => publication?_drop _ sub s, made_drop _ _, fun reg => ?_⟩
    have sum := Table.total_erase (f := fun sub => sub.count reg) net.subscriptions label
    rw [found] at sum
    rw [copies_drop]
    exact sum

theorem copies_collect (labels : List String) (net : Network) (reg : Registration) :
    (net.collect labels).2.copies reg + (net.collect labels).1.count reg = net.copies reg := by
  induction labels generalizing net with
  | nil => rfl
  | cons label labels ih =>
      have sum := Table.total_erase (f := fun sub => sub.count reg) net.subscriptions label
      rw [count_old] at sum
      have rest := ih { net with subscriptions := net.subscriptions.erase label }
      simp only [copies] at rest ⊢
      simp only [collect, List.count_append]
      omega

/-- Taking subscriptions away from their labels leaves everything else. -/
theorem collect_keeps {α : Type} (f : Network → α)
    (keeps : ∀ (net : Network) labels, f { net with subscriptions := labels } = f net)
    (labels : List String) (net : Network) : f (net.collect labels).2 = f net := by
  induction labels generalizing net with
  | nil => rfl
  | cons label labels ih => exact (ih _).trans (keeps net _)

theorem Moves.combine (net : Network) (labels : List String) (label : String) :
    ∃ gone, Moves [] gone net (net.combine labels label) := by
  refine ⟨(((net.collect labels).2.subscriptions).find? label).getD [], ?_⟩
  have adopted := Moves.adopt (net.collect labels).2 label (net.collect labels).1
  refine ⟨fun s => ?_, fun s => ?_, fun reg => ?_⟩
  · refine (adopted.publication s).trans ?_
    rw [publication?_of_eq (collect_keeps Network.observables (fun _ _ => rfl) labels net)
      (collect_keeps Network.bindings (fun _ _ => rfl) labels net)]
  · refine (adopted.made s).trans ?_
    exact made_of_eq (collect_keeps Network.nextObservable (fun _ _ => rfl) labels net)
      (collect_keeps Network.nextBinding (fun _ _ => rfl) labels net) s
  · exact (adopted.copies reg).trans (copies_collect labels net reg)

theorem Moves.same (h : Moves [] [] net net') (s : Publisher) :
    net'.publication? s = net.publication? s := by
  rw [h.publication]
  simp only [Publication.without_nil, Option.map_id']

theorem Moves.listen (net : Network) (store : StoreId) (key : Option String)
    (callback : Callback) : Moves [] [] net (net.listen store key callback).2 :=
  .inert rfl rfl rfl rfl rfl

theorem Moves.listenOn (key : String) (callback : Callback) (stores : List StoreId)
    (net : Network) : Moves [] [] net (listenOn key callback stores net).2 := by
  induction stores generalizing net with
  | nil => exact .inert rfl rfl rfl rfl rfl
  | cons store stores ih => exact (Moves.listen net store (some key) callback).after (ih _)

theorem Moves.watchKeys (store : StoreId) (callback : Callback) (keys : List String)
    (net : Network) : Moves [] [] net (watchKeys store callback keys net).2 := by
  induction keys generalizing net with
  | nil => exact .inert rfl rfl rfl rfl rfl
  | cons key keys ih =>
      exact (Moves.listenOn key callback (net.chain store) net).after (ih _)

theorem Moves.watched (net : Network) (o : Observable) : Moves [] [] net (net.watched o).2 :=
  (Moves.watchKeys o.store (.recalculate net.nextObservable) o.code.readKeys net).after
    (.listen _ o.store none (.recalculate net.nextObservable))

theorem listens_listener (store : StoreId) (id : Nat) :
    Subscription.Listens [.listener store id] := by
  intro s n
  cases s <;> simp [Publisher.seat]

theorem listens_listenOn (key : String) (callback : Callback) (stores : List StoreId)
    (net : Network) : (listenOn key callback stores net).1.Listens := by
  induction stores generalizing net with
  | nil => exact fun _ _ => List.not_mem_nil
  | cons store stores ih => exact (listens_listener store _).append (ih _)

theorem listens_watchKeys (store : StoreId) (callback : Callback) (keys : List String)
    (net : Network) : (watchKeys store callback keys net).1.Listens := by
  induction keys generalizing net with
  | nil => exact fun _ _ => List.not_mem_nil
  | cons key keys ih => exact (listens_listenOn key callback (net.chain store) net).append (ih _)

theorem listens_watched (net : Network) (o : Observable) : (net.watched o).1.Listens :=
  (listens_watchKeys o.store _ o.code.readKeys net).append (listens_listener o.store _)

/-- One publisher changes, and nothing else is done to those who observe. -/
structure Updates (s : Publisher) (f : Publication → Publication) (net net' : Network) : Prop where
  publication : ∀ k, net'.publication? k =
    if k = s then (net.publication? k).map f else net.publication? k
  made : ∀ k, net'.Made k ↔ net.Made k
  copies : ∀ reg, net'.copies reg = net.copies reg

theorem Updates.modifyObservable (net : Network) (id : ObservableId)
    {f : Observable → Observable} {g : Publication → Publication}
    (same : ∀ o, (f o).publication = g o.publication) :
    Updates (.observable id) g net (net.modifyObservable id f) :=
  ⟨publication?_modifyObservable net id same, fun _ => .rfl, fun _ => rfl⟩

theorem Updates.modifyBinding (net : Network) (id : BindingId) {f : Binding → Binding}
    {g : Publication → Publication} (same : ∀ b, (f b).publication = g b.publication) :
    Updates (.binding id) g net (net.modifyBinding id f) :=
  ⟨publication?_modifyBinding net id same, fun _ => .rfl, fun _ => rfl⟩

/-- To let go of callbacks is nothing to those who observe. -/
theorem Updates.drop {s : Publisher} {f : Publication → Publication} (h : Updates s f net net')
    {sub : Subscription} (listens : sub.Listens) : Updates s f net (net'.drop sub) := by
  refine ⟨fun k => ?_, fun k => (made_drop net' sub k).trans (h.made k), fun reg => ?_⟩
  · rw [publication?_drop, ← h.publication]
    simp only [Publication.without_of_not_mem (listens k), Option.map_id']
  · rw [copies_drop, h.copies]

/-- A publisher is made. -/
structure Makes (s : Publisher) (b : Publication) (net net' : Network) : Prop where
  fresh : ¬ net.Made s
  publication : ∀ k, net'.publication? k = if k = s then some b else net.publication? k
  made : ∀ k, net'.Made k ↔ k = s ∨ net.Made k
  copies : ∀ reg, net'.copies reg = net.copies reg

theorem Makes.addObservable (net : Network) (name : String) (o : Observable) :
    Makes (.observable net.nextObservable)
      (Observable.publication { o with watching := (net.watched o).1 })
      net (net.addObservable name o) := by
  have watched := Moves.watched net o
  refine ⟨Nat.lt_irrefl _, fun k => ?_, fun k => ?_, fun reg => ?_⟩
  · have same := watched.same k
    cases k with
    | observable id =>
        have inserted : (net.addObservable name o).observables =
            (net.watched o).2.observables.insert net.nextObservable
              { o with watching := (net.watched o).1 } := rfl
        simp only [publication?] at same ⊢
        rw [inserted, Table.find?_insert, ← same]
        simp only [Publisher.observable.injEq]
        split <;> rfl
    | binding id => exact same
  · have same := watched.made k
    cases k with
    | observable id =>
        rw [Publisher.observable.injEq]
        exact Nat.lt_succ_iff_lt_or_eq.trans or_comm
    | binding id =>
        rw [← same]
        exact ⟨.inr, fun h => h.resolve_left (by rintro ⟨⟩)⟩
  · exact (watched.copies reg)

theorem Makes.attach (net : Network) (name : String) (b : Binding) :
    Makes (.binding net.nextBinding)
      (Binding.publication
        { b with watching := (net.watch b.store b.key (.refresh net.nextBinding)).1 })
      net (net.attach name b) := by
  have watched : Moves [] [] net (net.watch b.store b.key (.refresh net.nextBinding)).2 :=
    .listenOn b.key _ (net.chain b.store) net
  refine ⟨Nat.lt_irrefl _, fun k => ?_, fun k => ?_, fun reg => ?_⟩
  · have same := watched.same k
    cases k with
    | observable id => exact same
    | binding id =>
        have inserted : (net.attach name b).bindings =
            (net.watch b.store b.key (.refresh net.nextBinding)).2.bindings.insert net.nextBinding
              { b with watching := (net.watch b.store b.key (.refresh net.nextBinding)).1 } := rfl
        simp only [publication?] at same ⊢
        rw [inserted, Table.find?_insert, ← same]
        simp only [Publisher.binding.injEq]
        split <;> rfl
  · have same := watched.made k
    cases k with
    | observable id =>
        rw [← same]
        exact ⟨.inr, fun h => h.resolve_left (by rintro ⟨⟩)⟩
    | binding id =>
        rw [Publisher.binding.injEq]
        exact Nat.lt_succ_iff_lt_or_eq.trans or_comm
  · exact (watched.copies reg)

/-- Some publishers are released, and nothing else is done to those who observe. -/
structure Sheds (net net' : Network) : Prop where
  publication : ∀ s, net'.publication? s = none ∨ net'.publication? s = net.publication? s
  made : ∀ s, net'.Made s ↔ net.Made s
  copies : ∀ reg, net'.copies reg = net.copies reg

theorem Sheds.refl (net : Network) : Sheds net net :=
  ⟨fun _ => .inr rfl, fun _ => .rfl, fun _ => rfl⟩

theorem Sheds.inert (observables : net'.observables = net.observables)
    (bindings : net'.bindings = net.bindings)
    (nextObservable : net'.nextObservable = net.nextObservable)
    (nextBinding : net'.nextBinding = net.nextBinding)
    (subscriptions : net'.subscriptions = net.subscriptions) : Sheds net net' := by
  refine ⟨fun s => .inr (publication?_of_eq observables bindings s),
    made_of_eq nextObservable nextBinding, fun reg => ?_⟩
  exact congrArg (fun t : Table String Subscription => t.total fun sub => sub.count reg)
    subscriptions

theorem Sheds.trans (first : Sheds net net') (second : Sheds net' net'') : Sheds net net'' := by
  refine ⟨fun s => ?_, fun s => (second.made s).trans (first.made s),
    fun reg => (second.copies reg).trans (first.copies reg)⟩
  obtain gone | same := second.publication s
  · exact .inl gone
  · exact same ▸ first.publication s

theorem Sheds.upstream (h : Sheds net net') (upstream : net.Upstream) : net'.Upstream := by
  intro s b found
  obtain gone | same := h.publication s
  · cases gone.symm.trans found
  · exact upstream s b (same ▸ found)

theorem Sheds.drop (h : Sheds net net') {sub : Subscription} (listens : sub.Listens) :
    Sheds net (net'.drop sub) := by
  refine ⟨fun s => ?_, fun s => (made_drop net' sub s).trans (h.made s), fun reg => ?_⟩
  · rw [publication?_drop]
    simp only [Publication.without_of_not_mem (listens s), Option.map_id']
    exact h.publication s
  · rw [copies_drop, h.copies]

theorem Sheds.releaseBinding (upstream : net.Upstream) (id : BindingId) :
    Sheds net (net.releaseBinding id) := by
  refine releaseBinding_cases (fun _ => .refl net) fun b found => ?_
  have erased : Sheds net { net with bindings := net.bindings.erase id } := by
    refine ⟨fun s => ?_, fun _ => .rfl, fun _ => rfl⟩
    cases s with
    | observable k => exact .inr rfl
    | binding k =>
        simp only [publication?, Table.find?_erase]
        split
        · exact .inl rfl
        · exact .inr rfl
  exact erased.drop (upstream (.binding id) b.publication (publication?_binding found))

theorem Sheds.releaseObservable (upstream : net.Upstream) (id : ObservableId) :
    Sheds net (net.releaseObservable id) := by
  refine releaseObservable_cases (fun _ => .refl net) fun o found => ?_
  have erased : Sheds net { net with observables := net.observables.erase id } := by
    refine ⟨fun s => ?_, fun _ => .rfl, fun _ => rfl⟩
    cases s with
    | observable k =>
        simp only [publication?, Table.find?_erase]
        split
        · exact .inl rfl
        · exact .inr rfl
    | binding k => exact .inr rfl
  exact erased.drop (upstream (.observable id) o.publication (publication?_observable found))

theorem Sheds.releaseBindings (upstream : net.Upstream) : Sheds net net.releaseBindings :=
  releaseBindings_induction (.refl net) fun _ id sheds =>
    sheds.trans (.releaseBinding (sheds.upstream upstream) id)

theorem Sheds.release (upstream : net.Upstream) (agenda : List Task) :
    Sheds net (net.release agenda) := by
  refine release_induction (.refl net) (fun _ id sheds => ?_) (fun _ id sheds => ?_) agenda
  · exact sheds.trans (.releaseBinding (sheds.upstream upstream) id)
  · exact sheds.trans (.releaseObservable (sheds.upstream upstream) id)

end Network

end SlotScript
