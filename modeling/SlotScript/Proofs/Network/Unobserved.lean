import SlotScript.Proofs.Network.Effect

/-! # What observers do not matter to

Without its observers, subscriptions and reports, a network goes on as it would with them, as long
as observers do not act: `core` forgets them, and whatever a task does to the core it does without
looking at what was forgotten. The exceptions are subscriptions that are dropped, and they matter
only for the callbacks they keep with stores.
-/

namespace SlotScript

namespace Table

variable {κ α β : Type}

theorem eq_of_entries {t t' : Table κ α} (same : t.entries = t'.entries) : t = t' := by
  cases t
  cases t'
  cases same
  rfl

/-- The table with the image of every value. -/
def map (t : Table κ α) (f : α → β) : Table κ β :=
  ⟨t.entries.map fun entry => (entry.1, f entry.2), by
    rw [List.map_map]
    exact t.nodup⟩

theorem keys_map (t : Table κ α) (f : α → β) : (t.map f).keys = t.keys := by
  simp only [keys, map, List.map_map]
  rfl

theorem values_map (t : Table κ α) (f : α → β) : (t.map f).values = t.values.map f := by
  simp only [values, map, List.map_map]
  rfl

theorem map_map (t : Table κ α) {f : α → α} (idem : ∀ a, f (f a) = f a) :
    (t.map f).map f = t.map f := by
  refine eq_of_entries ?_
  simp only [map, List.map_map, Function.comp_def, idem]

variable [DecidableEq κ]

theorem find?_map (t : Table κ α) (f : α → β) (key : κ) :
    (t.map f).find? key = (t.find? key).map f := by
  obtain ⟨entries, nodup⟩ := t
  simp only [find?, map]
  clear nodup
  induction entries with
  | nil => rfl
  | cons entry rest ih =>
      by_cases here : entry.1 = key
      · simp [look?, here]
      · simpa [look?, here] using ih

theorem map_insert (t : Table κ α) (f : α → β) (key : κ) (a : α) :
    (t.insert key a).map f = (t.map f).insert key (f a) := by
  refine eq_of_entries ?_
  obtain ⟨entries, nodup⟩ := t
  simp only [map, insert]
  clear nodup
  induction entries with
  | nil => rfl
  | cons entry rest ih =>
      by_cases here : entry.1 = key
      · simp [put, here]
      · simpa [put, here] using ih

theorem map_erase (t : Table κ α) (f : α → β) (key : κ) :
    (t.erase key).map f = (t.map f).erase key := by
  refine eq_of_entries ?_
  simp only [map, erase, filterKeys, List.filter_map]
  rfl

theorem insert_of_find? {t : Table κ α} {key : κ} {a : α} (found : t.find? key = some a) :
    t.insert key a = t := by
  refine eq_of_entries ?_
  obtain ⟨entries, nodup⟩ := t
  simp only [find?, insert] at found ⊢
  clear nodup
  induction entries with
  | nil => cases found
  | cons entry rest ih =>
      by_cases here : entry.1 = key
      · subst here
        obtain rfl : entry.2 = a := by simpa [look?] using found
        simp [put]
      · simp only [look?, here, if_false] at found
        simp [put, here, ih found]

/-- What is not seen in an image is nothing to the table of images. -/
theorem map_adjust_same (t : Table κ α) {g : α → β} {f : α → α} (same : ∀ a, g (f a) = g a)
    (key : κ) : (t.adjust key f).map g = t.map g := by
  unfold adjust
  cases found : t.find? key with
  | none => rfl
  | some a =>
      rw [map_insert, same]
      exact insert_of_find? (by rw [find?_map, found, Option.map_some])

/-- What is done to a value may be seen in its image. -/
theorem map_adjust (t : Table κ α) {g f : α → α} (idem : ∀ a, g (g a) = g a)
    (same : ∀ a, g (f a) = g (f (g a))) (key : κ) :
    (t.adjust key f).map g = ((t.map g).adjust key f).map g := by
  unfold adjust
  rw [find?_map]
  cases t.find? key with
  | none => exact (t.map_map idem).symm
  | some a =>
      simp only [Option.map_some, map_insert]
      rw [t.map_map idem, same]

end Table

def Observable.unobserved (o : Observable) : Observable :=
  { o with observers := o.observers.cleared }

def Binding.unobserved (b : Binding) : Binding :=
  { b with observers := b.observers.cleared }

theorem map_unobserved_observables (t : Table ObservableId Observable) :
    (t.map Observable.unobserved).map Observable.unobserved = t.map Observable.unobserved :=
  t.map_map fun _ => rfl

theorem map_unobserved_bindings (t : Table BindingId Binding) :
    (t.map Binding.unobserved).map Binding.unobserved = t.map Binding.unobserved :=
  t.map_map fun _ => rfl

/-- Brings nothing to an observer. -/
def Task.quiet : Task → Bool
  | .deliver .. | .complete _ => false
  | _ => true

theorem Task.quiet_iff {t : Task} : t.quiet = true ↔ ¬ t.Tells := by
  cases t with
  | deliver | complete => simp [quiet, Tells]
  | _ => simp [quiet, Tells]

namespace Network

/-- What is left of a network without observers, subscriptions and reports. -/
def core (net : Network) : Network :=
  { net with
    observables := net.observables.map Observable.unobserved
    bindings := net.bindings.map Binding.unobserved
    subscriptions := .empty
    events := []
    returned := none }

end Network

/-- What follows from a task, without what observers are told. -/
def Followed.core (followed : Followed) : Followed :=
  (followed.1.core, followed.2.filter Task.quiet)

def Changed.core (changed : Changed) : Changed := (changed.1.core, changed.2)

/-- What is done to the core does not depend on what it leaves out, and subscriptions stay where
they are. -/
structure Blind (f : Network → Followed) : Prop where
  core : ∀ net, (f net).core = (f net.core).core
  subscriptions : ∀ net, (f net).1.subscriptions = net.subscriptions

namespace Network

variable (net : Network)

@[simp] theorem core_core : net.core.core = net.core := by
  simp only [core, map_unobserved_observables, map_unobserved_bindings]

@[simp] theorem find?_core_observables (id : ObservableId) :
    net.core.observables.find? id = (net.observables.find? id).map Observable.unobserved :=
  Table.find?_map _ _ _

@[simp] theorem find?_core_bindings (id : BindingId) :
    net.core.bindings.find? id = (net.bindings.find? id).map Binding.unobserved :=
  Table.find?_map _ _ _

theorem core_modifyObservable (id : ObservableId) {f : Observable → Observable}
    (same : ∀ o, (f o).unobserved = (f o.unobserved).unobserved) :
    (net.modifyObservable id f).core = (net.core.modifyObservable id f).core := by
  have observables := Table.map_adjust net.observables (g := Observable.unobserved) (fun _ => rfl)
    same id
  simp only [core, modifyObservable, observables, map_unobserved_bindings]

theorem core_modifyBinding (id : BindingId) {f : Binding → Binding}
    (same : ∀ b, (f b).unobserved = (f b.unobserved).unobserved) :
    (net.modifyBinding id f).core = (net.core.modifyBinding id f).core := by
  have bindings := Table.map_adjust net.bindings (g := Binding.unobserved) (fun _ => rfl) same id
  simp only [core, modifyBinding, bindings, map_unobserved_observables]

theorem core_set (store : StoreId) (key : String) (v : Value) :
    net.core.set store key v = (net.set store key v).core := rfl

theorem core_assign (store : StoreId) (key : String) (v : Value) :
    net.core.assign store key v = (net.assign store key v).core := rfl

theorem core_remove (store : StoreId) (key : String) :
    net.core.remove store key = (net.remove store key).core := by
  have same : net.core.slot? store key = net.slot? store key := rfl
  unfold remove
  rw [same]
  split <;> rfl

theorem core_clear (store : StoreId) (order : KeyOrder) :
    net.core.clear store order = (net.clear store order).core := rfl

theorem core_fetch (store : StoreId) (fallback : List StoreId) (key : String) (seed : Value) :
    net.core.fetch store fallback key seed =
      ((net.fetch store fallback key seed).1, (net.fetch store fallback key seed).2.core) := by
  have same : net.core.lookup? = net.lookup? := rfl
  unfold fetch
  rw [same]
  split <;> rfl

theorem core_answer (store : StoreId) (fallback : List StoreId) (r : Request) :
    net.core.answer store fallback r =
      (net.answer store fallback r).map fun x => (x.1, x.2.core) := by
  cases r with
  | fetch key seed => exact congrArg some (net.core_fetch store fallback key seed)
  | replace key collection index v =>
      have same : net.core.changeElement = net.changeElement := rfl
      simp only [answer, replace]
      rw [same]
      split
      · cases collection <;> rfl
      · rfl
      · rfl
  | _ => rfl

theorem core_listenOn (key : String) (callback : Callback) (stores : List StoreId) :
    listenOn key callback stores net.core =
      ((listenOn key callback stores net).1, (listenOn key callback stores net).2.core) := by
  induction stores generalizing net with
  | nil => rfl
  | cons store stores ih =>
      have first : net.core.listen store (some key) callback =
        ((net.listen store (some key) callback).1, (net.listen store (some key) callback).2.core) :=
          rfl
      simp only [listenOn, first, ih]

theorem core_watchKeys (store : StoreId) (callback : Callback) (keys : List String) :
    watchKeys store callback keys net.core =
      ((watchKeys store callback keys net).1, (watchKeys store callback keys net).2.core) := by
  induction keys generalizing net with
  | nil => rfl
  | cons key keys ih =>
      have first : net.core.watch store key callback =
          ((net.watch store key callback).1, (net.watch store key callback).2.core) :=
        net.core_listenOn key callback (net.chain store)
      simp only [watchKeys, first, ih]

theorem core_watched (o : Observable) :
    net.core.watched o = ((net.watched o).1, (net.watched o).2.core) := by
  have same : net.core.nextObservable = net.nextObservable := rfl
  simp only [watched]
  rw [same, core_watchKeys]
  rfl

theorem core_insertObservable (id next : ObservableId) (o : Observable)
    (names : Table String ObservableId) :
    core { net with
      observables := net.observables.insert id o, nextObservable := next,
      observableNames := names } =
    { net.core with
      observables := net.core.observables.insert id o.unobserved, nextObservable := next,
      observableNames := names } := by
  simp only [core, Table.map_insert]

theorem core_insertBinding (id next : BindingId) (b : Binding) (names : Table String BindingId) :
    core { net with
      bindings := net.bindings.insert id b, nextBinding := next, bindingNames := names } =
    { net.core with
      bindings := net.core.bindings.insert id b.unobserved, nextBinding := next,
      bindingNames := names } := by
  simp only [core, Table.map_insert]

theorem subscriptions_fetch (store : StoreId) (fallback : List StoreId) (key : String)
    (seed : Value) : (net.fetch store fallback key seed).2.1.subscriptions = net.subscriptions :=
  fetch_cases (fun _ _ => rfl) fun _ => rfl

theorem subscriptions_answer {store : StoreId} {fallback : List StoreId} {r : Request}
    {x : r.Answer × Changed} (answered : net.answer store fallback r = some x) :
    x.2.1.subscriptions = net.subscriptions :=
  answer_keeps subscriptions (fun _ _ _ => rfl) answered

theorem core_eraseObservable (id : ObservableId) :
    core { net with observables := net.observables.erase id } =
      core { net.core with observables := net.core.observables.erase id } := by
  simp only [core, Table.map_erase, map_unobserved_observables, map_unobserved_bindings]

theorem core_eraseBinding (id : BindingId) :
    core { net with bindings := net.bindings.erase id } =
      core { net.core with bindings := net.core.bindings.erase id } := by
  simp only [core, Table.map_erase, map_unobserved_observables, map_unobserved_bindings]

/-- What one step does can be seen in the core, and so can what all of them do. -/
theorem core_foldl {α : Type} {f : Network → α → Network}
    (step : ∀ net a, (f net a).core = (f net.core a).core) (as : List α) (net : Network) :
    (as.foldl f net).core = (as.foldl f net.core).core := by
  induction as generalizing net with
  | nil => exact net.core_core.symm
  | cons a as ih => rw [List.foldl_cons, List.foldl_cons, ih, step, ← ih]

theorem core_unregister (reg : Registration) :
    (net.unregister reg).core = (net.core.unregister reg).core := by
  cases reg with
  | listener store id =>
      exact (core_core (net.unregister (.listener store id))).symm
  | observer id n => exact net.core_modifyObservable id fun _ => rfl
  | bindingObserver id n => exact net.core_modifyBinding id fun _ => rfl

theorem core_drop (sub : Subscription) : (net.drop sub).core = (net.core.drop sub).core :=
  core_foldl core_unregister sub net

/-- Seats are nothing to the core. -/
theorem core_unregister_seat (s : Publisher) (n : Nat) :
    (net.unregister (s.seat n)).core = net.core := by
  cases s with
  | observable id =>
      have same := net.observables.map_adjust_same (g := Observable.unobserved)
        (f := fun o => { o with observers := o.observers.remove n }) (fun _ => rfl) id
      simp only [Publisher.seat, unregister, modifyObservable, core, same]
  | binding id =>
      have same := net.bindings.map_adjust_same (g := Binding.unobserved)
        (f := fun b => { b with observers := b.observers.remove n }) (fun _ => rfl) id
      simp only [Publisher.seat, unregister, modifyBinding, core, same]

end Network

/-- Those who are told of something are not in the core. -/
theorem filter_deliveries (observers : List Observer) (v : Value) :
    (observers.map (Task.deliver · v)).filter Task.quiet = [] := by
  simp [List.filter_eq_nil_iff, Task.quiet]

theorem filter_completions (observers : List Observer) :
    (observers.map Task.complete).filter Task.quiet = [] := by
  simp [List.filter_eq_nil_iff, Task.quiet]

theorem Changed.core_followed (changed : Changed) :
    changed.core.followed.core = changed.followed.core := by
  simp [Followed.core, Changed.core, Changed.followed]

theorem Followed.core_holding (followed : Followed) (held : List Holding) :
    (followed.holding held).core = followed.core.holding held := by
  simp [Followed.core, Followed.holding, Task.quiet]

namespace Blind

variable {f : Network → Followed}

/-- Nothing is done. -/
theorem idle : Blind fun net => (net, []) :=
  ⟨fun net => by simp [Followed.core], fun _ => rfl⟩

/-- What stores do is seen in the core. -/
theorem changed {f : Network → Changed} (core : ∀ net, f net.core = (f net).core)
    (subscriptions : ∀ net, (f net).1.subscriptions = net.subscriptions) :
    Blind fun net => (f net).followed :=
  ⟨fun net => by rw [core, Changed.core_followed], subscriptions⟩

theorem holding (blind : Blind f) (held : List Holding) : Blind fun net => (f net).holding held :=
  ⟨fun net => by rw [Followed.core_holding, Followed.core_holding, ← blind.core],
    blind.subscriptions⟩

/-- What is done to the network is seen in the core, and what follows is the same. -/
theorem tasks {f : Network → Network} {g : Network → List Task}
    (core : ∀ net, (f net).core = (f net.core).core)
    (subscriptions : ∀ net, (f net).subscriptions = net.subscriptions)
    (same : ∀ net, g net.core = g net) : Blind fun net => (f net, g net) :=
  ⟨fun net => by simp only [Followed.core, same, ← core], subscriptions⟩

/-- What is done is nothing to the core. -/
theorem invisible {f : Network → Network} {g : Network → List Task}
    (core : ∀ net, (f net).core = net.core)
    (subscriptions : ∀ net, (f net).subscriptions = net.subscriptions)
    (same : ∀ net, g net.core = g net) : Blind fun net => (f net, g net) :=
  Blind.tasks (fun net => by rw [core, core, Network.core_core]) subscriptions same

/-- What is done depends on something that is seen in the core. -/
theorem on {α : Type} {d : Network → α} {g : α → Network → Followed}
    (same : ∀ net, d net.core = d net) (blind : ∀ a, Blind (g a)) :
    Blind fun net => g (d net) net :=
  ⟨fun net => by rw [same]; exact (blind _).core net, fun net => (blind _).subscriptions net⟩

/-- One thing after the other. -/
theorem after {f : Network → Network} {g : Network → Followed}
    (core : ∀ net, (f net).core = (f net.core).core)
    (subscriptions : ∀ net, (f net).subscriptions = net.subscriptions) (blind : Blind g) :
    Blind fun net => g (f net) :=
  ⟨fun net => by rw [blind.core, core, ← blind.core],
    fun net => (blind.subscriptions _).trans (subscriptions net)⟩

theorem publish (id : ObservableId) (v : Value) : Blind fun net => net.publish id v := by
  refine ⟨fun net => ?_, fun net => ?_⟩
  · simp only [Network.publish, Network.find?_core_observables]
    cases net.observables.find? id with
    | none => exact idle.core net
    | some o =>
        cases known : o.disposed || o.value.identical v with
        | true => simpa [Observable.unobserved, known] using idle.core net
        | false =>
            have same := net.core_modifyObservable id (f := fun o => { o with value := v })
              fun _ => rfl
            simp [Observable.unobserved, known, Followed.core, same, filter_deliveries]
  · show (net.publish id v).1.subscriptions = net.subscriptions
    exact Network.publish_cases (fun _ => rfl) fun _ _ _ _ => rfl

theorem recalculate (id : ObservableId) : Blind fun net => net.recalculate id := by
  refine ⟨fun net => ?_, fun net => ?_⟩
  · simp only [Network.recalculate, Network.find?_core_observables]
    cases net.observables.find? id with
    | none => exact idle.core net
    | some o =>
        cases known : o.disposed || o.evaluating with
        | true => simpa [Observable.unobserved, known] using idle.core net
        | false =>
            have same := net.core_modifyObservable id (f := fun o => { o with evaluating := true })
              fun _ => rfl
            have activated : net.core.activate = net.activate := rfl
            simp [Observable.unobserved, known, Followed.core, same, activated]
  · show (net.recalculate id).1.subscriptions = net.subscriptions
    exact Network.recalculate_cases (fun _ => rfl) fun _ _ _ _ => rfl

theorem disposeObservable (id : ObservableId) : Blind fun net => net.disposeObservable id := by
  refine ⟨fun net => ?_, fun net => ?_⟩
  · simp only [Network.disposeObservable, Network.find?_core_observables]
    cases net.observables.find? id with
    | none => exact idle.core net
    | some o =>
        cases known : o.disposed with
        | true => simpa [Observable.unobserved, known] using idle.core net
        | false =>
            have same := net.core_modifyObservable id
              (f := fun o => { o with
                disposed := true, observers := o.observers.cleared, watching := [] }) fun _ => rfl
            simp [Observable.unobserved, known, Followed.core, filter_completions,
              Network.core_drop _ o.watching, same]
  · show (net.disposeObservable id).1.subscriptions = net.subscriptions
    exact Network.disposeObservable_cases (fun _ => rfl) fun _ _ _ => Network.subscriptions_drop _ _

theorem disposeBinding (id : BindingId) : Blind fun net => net.disposeBinding id := by
  refine ⟨fun net => ?_, fun net => ?_⟩
  · simp only [Network.disposeBinding, Network.find?_core_bindings]
    cases net.bindings.find? id with
    | none => exact idle.core net
    | some b =>
        cases known : b.disposed with
        | true => simpa [Binding.unobserved, known] using idle.core net
        | false =>
            have same := net.core_modifyBinding id
              (f := fun b => { b with
                disposed := true, observers := b.observers.cleared, watching := [] }) fun _ => rfl
            simp [Binding.unobserved, known, Followed.core, filter_completions,
              Network.core_drop _ b.watching, same]
  · show (net.disposeBinding id).1.subscriptions = net.subscriptions
    exact Network.disposeBinding_cases (fun _ => rfl) fun _ _ _ => Network.subscriptions_drop _ _

theorem subscribeObservable (id : ObservableId) (observer : Observer) :
    Blind fun net => net.subscribeObservable id observer := by
  refine ⟨fun net => ?_, fun net => ?_⟩
  · simp only [Network.subscribeObservable, Network.find?_core_observables]
    cases net.observables.find? id with
    | none => exact idle.core net
    | some o =>
        cases known : o.disposed with
        | true => simp [Observable.unobserved, known, Followed.core, Task.quiet]
        | false =>
            have same := net.core_modifyObservable id
              (f := fun o => { o with observers := o.observers.add observer }) fun _ => rfl
            simp [Observable.unobserved, known, Followed.core, same, Task.quiet, Observers.cleared]
  · show (net.subscribeObservable id observer).1.subscriptions = net.subscriptions
    exact Network.subscribeObservable_cases (fun _ => rfl) (fun _ _ _ => rfl) fun _ _ _ => rfl

theorem subscribeBinding (id : BindingId) (observer : Observer) :
    Blind fun net => net.subscribeBinding id observer := by
  refine ⟨fun net => ?_, fun net => ?_⟩
  · simp only [Network.subscribeBinding, Network.find?_core_bindings]
    cases net.bindings.find? id with
    | none => exact idle.core net
    | some b =>
        cases known : b.disposed with
        | true => simp [Binding.unobserved, known, Followed.core, Task.quiet]
        | false =>
            have same := net.core_modifyBinding id
              (f := fun b => { b with observers := b.observers.add observer }) fun _ => rfl
            simp [Binding.unobserved, known, Followed.core, same, Task.quiet, Observers.cleared]
  · show (net.subscribeBinding id observer).1.subscriptions = net.subscriptions
    exact Network.subscribeBinding_cases (fun _ => rfl) (fun _ _ _ => rfl) fun _ _ _ => rfl

theorem refresh (id : BindingId) : Blind fun net => net.refresh id := by
  refine ⟨fun net => ?_, fun net => ?_⟩
  · simp only [Network.refresh, Network.find?_core_bindings]
    cases net.bindings.find? id with
    | none => exact idle.core net
    | some b =>
        have found : net.core.lookup? b.store b.key = net.lookup? b.store b.key := rfl
        cases known : b.disposed || b.value.identical ((net.lookup? b.store b.key).getD .null) with
        | true => simpa [Binding.unobserved, found, known] using idle.core net
        | false =>
            have same := net.core_modifyBinding id
              (f := fun c => { c with value := (net.lookup? b.store b.key).getD .null })
              fun _ => rfl
            simp [Binding.unobserved, found, known, Followed.core, same, filter_deliveries]
  · show (net.refresh id).1.subscriptions = net.subscriptions
    exact Network.refresh_cases (fun _ => rfl) fun _ _ _ _ _ _ => rfl

theorem pushBinding (id : BindingId) (given : Value) :
    Blind fun net => net.pushBinding id given := by
  refine ⟨fun net => ?_, fun net => ?_⟩
  · simp only [Network.pushBinding, Network.find?_core_bindings]
    cases net.bindings.find? id with
    | none => exact idle.core net
    | some b =>
        have sizes : net.core.sizes = net.sizes := rfl
        cases known : b.disposed ||
            (Converter.convert b.source net.sizes given).identical b.value with
        | true => simpa [Binding.unobserved, sizes, known] using idle.core net
        | false =>
            have assigned : Blind fun net =>
                (net.assign b.store b.key (Converter.convert b.source net.sizes given)).followed :=
              changed (fun net => net.core_assign _ _ _) fun _ => rfl
            simpa [Binding.unobserved, sizes, known] using
              (assigned.holding (Holding.ofValue given)).core net
  · show (net.pushBinding id given).1.subscriptions = net.subscriptions
    exact Network.pushBinding_cases (fun _ => rfl) fun _ _ _ _ _ _ => rfl

theorem addObservable (name : String) (o : Observable) :
    Blind fun net => (net.addObservable name o, []) := by
  refine tasks (fun net => ?_) (fun net => (Network.Grows.watched net o).1.labels) fun _ => rfl
  have added (net : Network) : (net.addObservable name o).core =
      Network.pin { (net.watched o).2.core with
        observables := (net.watched o).2.core.observables.insert net.nextObservable
          { o with watching := (net.watched o).1 }.unobserved
        nextObservable := net.nextObservable + 1
        observableNames := (net.watched o).2.observableNames.insert name net.nextObservable }
        o.code.literals :=
    congrArg (Network.pin · o.code.literals) ((net.watched o).2.core_insertObservable
      net.nextObservable (net.nextObservable + 1) { o with watching := (net.watched o).1 }
      ((net.watched o).2.observableNames.insert name net.nextObservable))
  have same : net.core.nextObservable = net.nextObservable := rfl
  rw [added, added, Network.core_watched, Network.core_core, same]
  rfl

theorem attach (name : String) (b : Binding) : Blind fun net => (net.attach name b, []) := by
  refine tasks (fun net => ?_) (fun net =>
    (Network.Grows.listenOn b.key (.refresh net.nextBinding) (net.chain b.store) net).1.labels)
    fun _ => rfl
  have attached (net : Network) : (net.attach name b).core =
      { (net.watch b.store b.key (.refresh net.nextBinding)).2.core with
        bindings := (net.watch b.store b.key (.refresh net.nextBinding)).2.core.bindings.insert
          net.nextBinding
          { b with watching := (net.watch b.store b.key (.refresh net.nextBinding)).1 }.unobserved
        nextBinding := net.nextBinding + 1
        bindingNames := (net.watch b.store b.key (.refresh net.nextBinding)).2.bindingNames.insert
          name net.nextBinding } :=
    (net.watch b.store b.key (.refresh net.nextBinding)).2.core_insertBinding
      net.nextBinding (net.nextBinding + 1)
      { b with watching := (net.watch b.store b.key (.refresh net.nextBinding)).1 }
      ((net.watch b.store b.key (.refresh net.nextBinding)).2.bindingNames.insert name
        net.nextBinding)
  have watched : net.core.watch b.store b.key (.refresh net.nextBinding) =
      ((net.watch b.store b.key (.refresh net.nextBinding)).1,
        (net.watch b.store b.key (.refresh net.nextBinding)).2.core) :=
    net.core_listenOn b.key (.refresh net.nextBinding) (net.chain b.store)
  have same : net.core.nextBinding = net.nextBinding := rfl
  rw [attached, attached, same, watched, Network.core_core]
  rfl

theorem report (event : Network → Event) (tasks : List Task) :
    Blind fun net => (net.report (event net), tasks) :=
  invisible (fun _ => rfl) (fun _ => rfl) fun _ => rfl

theorem conclude (result : Except Failure Outcome) (completion : Completion) :
    Blind fun net => net.conclude result completion := by
  have returned {g : Network → Followed} (blind : Blind g) :
      Blind fun net => g { net with returned := some result } :=
    blind.after (fun net => (Network.core_core net).symm) fun _ => rfl
  cases completion with
  | answer => exact returned idle
  | action label =>
      cases result with
      | ok outcome => exact idle
      | error failure => exact report (fun _ => .failed label failure) []
  | recalculation id =>
      have stopped {g : Network → Followed} (blind : Blind g) : Blind fun net =>
          g (net.modifyObservable id fun o => { o with evaluating := false }) :=
        blind.after (fun net => net.core_modifyObservable id fun _ => rfl) fun _ => rfl
      cases result with
      | ok outcome => exact stopped (publish id outcome.toValue)
      | error failure => exact stopped idle
  | creation name draft =>
      cases result with
      | ok outcome => exact returned (addObservable name { draft with value := outcome.toValue })
      | error failure => exact returned idle

theorem start (source : Source) {activation : Network → Code → Activation}
    (activated : ∀ net, activation net.core = activation net) (completion : Code → Completion) :
    Blind fun net => net.start source (activation net) completion := by
  unfold Network.start
  cases source.compile with
  | ok code =>
      exact invisible (fun _ => rfl) (fun _ => rfl)
        fun net => congrArg (fun a : Code → Activation => [Task.run ⟨a code, [], completion code⟩])
          (activated net)
  | error e => exact conclude _ _

theorem runCommand (command : Command) (argument : Value) :
    Blind fun net => net.runCommand command argument := by
  cases command with
  | report label =>
      exact (conclude (.ok .void) .answer).after
        (f := fun net => net.report (.called label (net.portrait argument)))
        (fun net => (Network.core_core net).symm) fun _ => rfl
  | reject text => exact conclude (.error (.runtime (.command text))) .answer
  | program p =>
      exact invisible (f := fun net => net)
        (g := fun net => [.run ⟨net.activate p.code p.store p.host argument, [], .answer⟩])
        (fun _ => rfl) (fun _ => rfl) fun _ => rfl

theorem invoke (r : Run) (id : ObjectId) (argument : Value) (rest : Script Frame) :
    Blind fun net => net.invoke r id argument rest := by
  have called (label : String) := report (fun net => .called label (net.portrait argument))
    [.proceed r rest]
  have ran (p : CommandProgram) := invisible (f := fun net => net) (g := fun net => [.run { r with
    activation := net.activate p.code p.store p.host argument
    callers := ⟨r.activation, id, rest⟩ :: r.callers }]) (fun _ => rfl) (fun _ => rfl) fun _ => rfl
  have skipped := invisible (f := fun net => net) (g := fun _ => [.proceed r rest])
    (fun _ => rfl) (fun _ => rfl) fun _ => rfl
  refine ⟨fun net => ?_, fun net => ?_⟩
  · have same : net.core.command? id = net.command? id := rfl
    simp only [Network.invoke, same]
    split
    · exact (called _).core net
    · exact (conclude _ _).core net
    · exact (ran _).core net
    · exact skipped.core net
  · show (net.invoke r id argument rest).1.subscriptions = net.subscriptions
    exact Network.invoke_cases (fun label _ => (called label).subscriptions net)
      (fun _ _ => (conclude _ _).subscriptions net) (fun p _ => (ran p).subscriptions net)
      fun _ => skipped.subscriptions net

theorem advance (r : Run) : Blind fun net => net.advance r := by
  unfold Network.advance
  dsimp only
  cases r.activation.code[r.activation.frame.next]? with
  | some i => exact invisible (fun _ => rfl) (fun _ => rfl) fun _ => rfl
  | none =>
      cases r.callers with
      | cons caller callers => exact invisible (fun _ => rfl) (fun _ => rfl) fun _ => rfl
      | nil => exact conclude _ _

theorem proceed (r : Run) (script : Script Frame) : Blind fun net => net.proceed r script := by
  cases script with
  | done frame => exact invisible (fun _ => rfl) (fun _ => rfl) fun _ => rfl
  | fail e => exact conclude _ _
  | ask request next =>
      refine ⟨fun net => ?_, fun net => ?_⟩
      · simp only [Network.proceed, Network.core_answer]
        cases net.answer r.activation.store r.activation.fallback request with
        | none => simp only [Option.map_none, Followed.core, Network.core_core]
        | some => simp only [Option.map_some, Followed.core, Changed.core, Network.core_core]
      · show (net.proceed r (.ask request next)).1.subscriptions = net.subscriptions
        exact Network.ask_cases (fun _ => rfl)
          (fun _ _ _ _ answered _ => net.subscriptions_answer answered)
          fun _ _ _ answered _ => net.subscriptions_answer answered
  | invoke id argument next => exact invoke r id argument next

theorem act (label : String) (delivered : Value) (action : Option Operation) :
    Blind fun net => net.act label delivered action := by
  cases action with
  | none => exact idle
  | some op =>
      have skipped : Blind fun net => (net.report (.skipped label), []) := report (fun _ => _) []
      have acts : Blind fun net => ({ net with acting := net.acting + 1 },
          [.operate op delivered (some label), .leave]) :=
        tasks (fun net => congrArg (fun c : Network => { c with acting := c.acting + 1 })
          net.core_core.symm) (fun _ => rfl) fun _ => rfl
      refine ⟨fun net => ?_, fun net => ?_⟩
      · have limit : net.core.actingLimit = net.actingLimit := rfl
        have acting : net.core.acting = net.acting := rfl
        simp only [Network.act, limit, acting]
        split
        · exact skipped.core net
        · exact acts.core net
      · show (net.act label delivered (some op)).1.subscriptions = net.subscriptions
        exact Network.act_cases (fun _ => rfl) (fun _ _ _ => rfl) fun _ _ _ => rfl

theorem notify (callback : Callback) : Blind fun net => net.notify callback := by
  cases callback with
  | report label action =>
      exact (act label .null action).after (f := fun net => net.report (.changed label))
        (fun net => (Network.core_core net).symm) fun _ => rfl
  | recalculate id => exact recalculate id
  | refresh id => exact refresh id

theorem withObservable (name : String) {f : Network → ObservableId → Followed}
    (blind : ∀ id, Blind fun net => f net id) :
    Blind fun net => net.withObservable name (f net) := by
  refine ⟨fun net => ?_, fun net => ?_⟩
  · have same : net.core.observableNames = net.observableNames := rfl
    simp only [Network.withObservable, same]
    split
    · exact (blind _).core net
    · exact idle.core net
  · show (net.withObservable name (f net)).1.subscriptions = net.subscriptions
    exact Network.withObservable_cases (fun _ => rfl) fun id _ => (blind id).subscriptions net

theorem withBinding (name : String) {f : Network → BindingId → Followed}
    (blind : ∀ id, Blind fun net => f net id) : Blind fun net => net.withBinding name (f net) := by
  refine ⟨fun net => ?_, fun net => ?_⟩
  · have same : net.core.bindingNames = net.bindingNames := rfl
    simp only [Network.withBinding, same]
    split
    · exact (blind _).core net
    · exact idle.core net
  · show (net.withBinding name (f net)).1.subscriptions = net.subscriptions
    exact Network.withBinding_cases (fun _ => rfl) fun id _ => (blind id).subscriptions net

end Blind

/-- Subscribes to stores, or drops subscriptions. -/
def Operation.Keeping : Operation → Prop
  | .watch .. | .watchAll .. | .watchKey .. | .combine .. | .unsubscribe _ => True
  | _ => False

theorem Blind.operate {op : Operation} (other : ¬ op.Keeping) (delivered : Value)
    (label : Option String) : Blind fun net => net.operate op delivered label := by
  cases op with
  | watch | watchAll | watchKey | combine | unsubscribe => exact (other trivial).elim
  | set store key v => exact .changed (fun net => net.core_set store key v) fun _ => rfl
  | assign store key v => exact .changed (fun net => net.core_assign store key v) fun _ => rfl
  | ensure store key seed =>
      exact (Blind.changed (fun net => congrArg Prod.snd (net.core_fetch store [] key seed))
        fun net => net.subscriptions_fetch store [] key seed).holding (Holding.ofValue seed)
  | remove store key =>
      have removes : Blind fun net => (net.remove store key).followed := by
        refine .changed (fun net => net.core_remove store key) fun net => ?_
        exact Network.remove_cases (fun _ => rfl) fun _ => rfl
      exact .on (d := fun net => net.slot? store key)
        (g := fun removed net =>
          (net.remove store key).followed.holding (Holding.ofValues removed.toList))
        (fun _ => rfl) fun removed => removes.holding _
  | clear store order => exact .changed (fun net => net.core_clear store order) fun _ => rfl
  | execute source store host parameter =>
      exact .start source (fun _ => rfl) _
  | observe name source store host parameter =>
      exact .start source (fun _ => rfl) _
  | setParameter name v =>
      exact .withObservable name fun id =>
        .tasks (fun net => net.core_modifyObservable id fun _ => rfl) (fun _ => rfl) fun _ => rfl
  | setConverter name converter =>
      exact .withObservable name fun id =>
        .tasks (fun net => net.core_modifyObservable id fun _ => rfl) (fun _ => rfl) fun _ => rfl
  | subscribe name label plain action =>
      exact .withObservable name fun id => .subscribeObservable id _
  | dispose name => exact .withObservable name fun id => .disposeObservable id
  | forget name =>
      exact .tasks (fun net => congrArg (fun c : Network =>
        { c with observableNames := c.observableNames.erase name }) net.core_core.symm)
        (fun _ => rfl) fun _ => rfl
  | bind name store key =>
      refine ⟨fun net => ?_, fun net => net.subscriptions_fetch store [] key .null⟩
      simp only [Network.operate, Network.core_fetch, Followed.core, Changed.core,
        Network.core_core]
  | push name v => exact .withBinding name fun id => .pushBinding id v
  | setTarget name converter =>
      exact .withBinding name fun id => .tasks (fun net => net.core_modifyBinding id fun _ => rfl)
        (fun _ => rfl) fun _ => rfl
  | setSource name converter =>
      exact .withBinding name fun id => .tasks (fun net => net.core_modifyBinding id fun _ => rfl)
        (fun _ => rfl) fun _ => rfl
  | subscribeBinding name label plain action =>
      exact .withBinding name fun id => .subscribeBinding id _
  | disposeBinding name => exact .withBinding name fun id => .disposeBinding id
  | nameKey name store key =>
      exact .tasks (fun net => congrArg (fun c : Network =>
        { c with keyNames := c.keyNames.insert name (store, key) }) net.core_core.symm)
        (fun _ => rfl) fun _ => rfl
  | nameCommand name command =>
      exact .tasks (fun net => congrArg (fun c : Network =>
        { c with commandNames := c.commandNames.insert name command }) net.core_core.symm)
        (fun _ => rfl) fun _ => rfl
  | run name parameter =>
      refine ⟨fun net => ?_, fun net => ?_⟩
      · have same : (net.core.commandNames.find? name).bind net.core.command? =
          (net.commandNames.find? name).bind net.command? := rfl
        simp only [Network.operate, same]
        split
        · exact (Blind.runCommand _ _).core net
        · exact Blind.idle.core net
      · show (net.operate (.run name parameter) delivered label).1.subscriptions =
          net.subscriptions
        exact Network.run_cases (fun _ => rfl) fun command _ =>
          (Blind.runCommand command parameter).subscriptions net

/-- Keeps or drops subscriptions. -/
def Task.Keeping : Task → Prop
  | .operate op _ _ => op.Keeping
  | .adopt .. => True
  | _ => False

/-- Whatever does not keep or drop subscriptions does not look at them, nor at observers. -/
theorem Blind.perform {task : Task} (other : ¬ task.Keeping) :
    Blind fun net => task.perform net := by
  cases task with
  | operate op delivered label => exact .operate other delivered label
  | notify callback => exact .notify callback
  | deliver observer v =>
      exact (Blind.act observer.label v observer.action).after
        (f := fun net => net.report (.next observer.label (net.portrait v)))
        (fun net => net.core_core.symm) fun _ => rfl
  | complete observer =>
      cases plain : observer.plain with
      | true =>
          simp only [Task.perform, plain]
          exact .idle
      | false =>
          simp only [Task.perform, plain]
          exact .report (fun _ => .completed observer.label) []
  | run r => exact .advance r
  | proceed r script => exact .proceed r script
  | adopt => exact (other trivial).elim
  | attach name b => exact .attach name b
  | leave =>
      exact .tasks (fun net => congrArg (fun c : Network => { c with acting := c.acting - 1 })
        net.core_core.symm) (fun _ => rfl) fun _ => rfl
  | letGo held => exact .idle

namespace Network

theorem core_publication? (net : Network) (s : Publisher) : net.core.publication? s =
    (net.publication? s).map fun b => { b with observers := b.observers.cleared } := by
  cases s with
  | observable id => simp only [publication?, find?_core_observables, Option.map_map]; rfl
  | binding id => simp only [publication?, find?_core_bindings, Option.map_map]; rfl

theorem news?_core (net : Network) (task : Task) (s : Publisher) :
    net.core.news? task s = net.news? task s := by
  have finding : task.finding? net.core = task.finding? net := by
    cases task with
    | notify callback =>
        cases callback with
        | refresh id => simp only [Task.finding?, find?_core_bindings, Option.map_map]; rfl
        | _ => rfl
    | _ => rfl
  simp only [news?, finding, core_publication?]
  cases task.finding? net with
  | none => rfl
  | some found => cases net.publication? s <;> rfl

theorem disposes_core (net : Network) (task : Task) (s : Publisher) :
    net.core.disposes task s = net.disposes task s := by
  have disposing : task.disposing? net.core = task.disposing? net := by
    cases task with
    | operate op => cases op <;> rfl
    | _ => rfl
  simp only [disposes, disposing, core_publication?, Option.any_map]

end Network

end SlotScript
