import SlotScript.Proofs.Network.Noninterference
import SlotScript.Proofs.Network.Scopes

/-! # Who is told of a change

In a forest of stores with callbacks that only report, every operation returns, and each of those
who watch is told once of what concerns it and of nothing else. Who watches is known from the
operations so far: a subscription that has been dropped is told of nothing any more, and the others
are told of what they would be told of anyway.
-/

namespace SlotScript

/-- Who watches after some operations. -/
def Operation.watchesAfter (ops : List Operation) : List Watch :=
  ops.foldl (fun ws op => op.watches ws) []

/-- Writes to a store, if anything. -/
def Operation.writes : Operation → Bool
  | .set .. | .assign .. | .remove .. | .clear .. => true
  | _ => false

namespace Network

/-- Operations have been asked for one after the other, and each of them has returned. -/
inductive History (start : Network) : List Operation → Network → Prop where
  | start : History start [] start
  | next {ops : List Operation} {op : Operation} {net net' : Network} {steps : Nat} :
      History start ops net → (net.ask op).drive steps = some net' →
      History start (ops ++ [op]) net'

/-- Whether an operation concerns somebody who watches: the key is written or removed in a store of
the scope, or such a store is cleared while it has the key, or the store is cleared that is watched
as a whole. -/
def concerns (net : Network) (op : Operation) (w : Watch) : Bool :=
  match op with
  | .set store key _ => store ∈ net.scope w ∧ w.key = some key
  | .assign store key _ => net.definer store key ∈ net.scope w ∧ w.key = some key
  | .remove store key => (store ∈ net.scope w ∧ w.key = some key) ∧ (net.slot? store key).isSome
  | .clear store _ => store ∈ net.scope w ∧ ∀ key ∈ w.key, (net.slot? store key).isSome
  | _ => false

/-- The stores as they are without their listeners. -/
def bare (net : Network) : Network where
  stores := net.stores.map fun st => { st with listeners := [], nextListener := 0 }

/-- The labels under which an operation is reported. -/
def audience (net : Network) (op : Operation) (ws : List Watch) : List String :=
  (ws.filter (net.concerns op)).map Watch.label

end Network

section Lists

variable {α κ : Type} [DecidableEq κ]

/-- A list that is gone through once for each of different keys. -/
theorem perm_flatMap_filter (as : List α) (f : α → κ) {keys : List κ} (nodup : keys.Nodup) :
    (keys.flatMap fun k => as.filter fun a => f a = k).Perm (as.filter fun a => f a ∈ keys) := by
  induction keys with
  | nil => simp
  | cons key keys ih =>
      obtain ⟨new, nodup⟩ := List.nodup_cons.mp nodup
      have parts := List.filter_append_perm (fun a => f a = key)
        (as.filter fun a => f a ∈ key :: keys)
      have first : (as.filter fun a => f a ∈ key :: keys).filter (fun a => f a = key) =
          as.filter fun a => f a = key := by
        rw [List.filter_filter]
        refine List.filter_congr fun a _ => ?_
        by_cases same : f a = key <;> simp [same]
      have others : (as.filter fun a => f a ∈ key :: keys).filter (fun a => !decide (f a = key)) =
          as.filter fun a => f a ∈ keys := by
        rw [List.filter_filter]
        refine List.filter_congr fun a _ => ?_
        by_cases same : f a = key <;> simp [same, new]
      rw [first, others] at parts
      exact (List.Perm.append_left _ (ih nodup)).trans parts

end Lists

namespace Propagation.Leads

/-- What returns does so in one way. -/
theorem drive_unique {p q : Propagation} {net : Network} {steps : Nat} (leads : p.Leads q)
    (done : q.agenda = []) (driven : p.drive steps = some net) : net = q.net := by
  obtain ⟨steps', driven'⟩ := leads.drive done
  exact Propagation.drive_unique driven driven'

end Propagation.Leads

namespace Network

variable {net net' start : Network} {ws : List Watch} {op : Operation} {store : StoreId}

/-- Where nothing is observed or bound, nothing is released. -/
theorem release_of_empty (observables : net.observables = .empty)
    (bindings : net.bindings = .empty) (agenda : List Task) : net.release agenda = net := by
  have same : net.releaseBindings = net := by
    simp only [releaseBindings, bindings]
    rfl
  have unnamed : net.unnamed = [] := by
    simp only [unnamed, observables]
    rfl
  simp only [release, same, releaseObservables, unnamed]

theorem step_report (observables : net.observables = .empty) (bindings : net.bindings = .empty)
    (label : String) (rest : List Task) :
    Propagation.step ⟨net, .notify (.report label none) :: rest⟩ =
      ⟨net.report (.changed label), rest⟩ := by
  have told : Task.perform net (.notify (.report label none)) =
      (net.report (.changed label), []) := rfl
  have released : (net.report (.changed label)).release rest = net.report (.changed label) :=
    release_of_empty (by exact observables) (by exact bindings) rest
  simp only [Propagation.step, told, List.nil_append, released]

theorem step_letGo (observables : net.observables = .empty) (bindings : net.bindings = .empty)
    (held : List Holding) (rest : List Task) :
    Propagation.step ⟨net, .letGo held :: rest⟩ = ⟨net, rest⟩ := by
  have done : Task.perform net (.letGo held) = (net, []) := rfl
  simp only [Propagation.step, done, List.nil_append]
  rw [release_of_empty observables bindings]

/-- Callbacks that only report do so, one after the other. -/
theorem leads_reports (observables : net.observables = .empty) (bindings : net.bindings = .empty)
    (labels : List String) (rest : List Task) :
    Propagation.Leads ⟨net, labels.map (fun label => .notify (.report label none)) ++ rest⟩
      ⟨{ net with events := net.events ++ labels.map .changed }, rest⟩ := by
  induction labels generalizing net with
  | nil =>
      have same : ({ net with events := net.events ++ [] } : Network) = net := by
        rw [List.append_nil]
      exact same.symm ▸ .here _
  | cons label labels ih =>
      have others := @ih (net.report (.changed label)) observables bindings
      simp only [report, List.append_assoc, List.singleton_append] at others
      refine .step ?_
      rw [List.map_cons, List.cons_append, step_report observables bindings]
      exact others

theorem stores_bare (s : StoreId) : (net.bare.stores[s]? : Option Store) =
    (net.stores[s]?).map fun st => { st with listeners := [], nextListener := 0 } :=
  List.getElem?_map

theorem chain_bare (s : StoreId) : net.bare.chain s = net.chain s := by
  unfold Network.chain
  rw [stores_bare]
  cases net.stores[s]? <;> rfl

theorem slot?_bare (s : StoreId) (key : String) : net.bare.slot? s key = net.slot? s key := by
  unfold slot?
  rw [stores_bare]
  cases net.stores[s]? <;> rfl

theorem definer_bare (s : StoreId) (key : String) :
    net.bare.definer s key = net.definer s key := by
  simp only [definer, chain_bare, slot?_bare]

theorem concerns_bare : net.bare.concerns op = net.concerns op := by
  funext w
  have scope : net.bare.scope w = net.scope w := by simp only [Network.scope, chain_bare]
  cases op with
  | set | assign | remove | clear => simp only [concerns, scope, definer_bare, slot?_bare]
  | _ => rfl

/-- A write to a store does the same to its slots, whoever listens. -/
theorem bare_write (store : StoreId) (g : Table String Value → Table String Value) :
    (net.modifyStore store fun st => { st with slots := g st.slots }).bare =
      (net.bare.modifyStore store fun st => { st with slots := g st.slots }).bare := by
  have same : (net.modifyStore store fun st => { st with slots := g st.slots }).bare.stores =
      (net.bare.modifyStore store fun st => { st with slots := g st.slots }).bare.stores := by
    refine List.ext_getElem? fun s => ?_
    simp only [stores_bare, stores_modifyStore]
    split <;> cases net.stores[s]? <;> rfl
  unfold bare at same ⊢
  exact congrArg (fun stores => ({ stores } : Network)) same

/-- Who listens at a store makes no difference. -/
theorem bare_listeners {f : Store → Store} (visible : ∀ st, (f st).visible = st.visible)
    (store : StoreId) : (net.modifyStore store f).bare = net.bare := by
  have same : (net.modifyStore store f).bare.stores = net.bare.stores := by
    refine List.ext_getElem? fun s => ?_
    rw [stores_bare, stores_bare, stores_modifyStore]
    split
    · cases net.stores[s]? with
      | none => rfl
      | some st =>
          obtain ⟨ancestors, others⟩ := Prod.mk.inj (visible st)
          obtain ⟨owner, slots⟩ := Prod.mk.inj others
          simp [ancestors, owner, slots]
    · rfl
  unfold bare at same ⊢
  exact congrArg (fun stores => ({ stores } : Network)) same

theorem bare_drop (sub : Subscription) : (net.drop sub).bare = net.bare := by
  refine drop_keeps bare (fun net reg => ?_) net sub
  cases reg with
  | listener store id =>
      refine bare_listeners ?_ store
      exact fun _ => rfl
  | observer | bindingObserver => rfl

theorem bare_listen (store : StoreId) (key : Option String) (callback : Callback) :
    (net.listen store key callback).2.bare = net.bare := by
  refine bare_listeners ?_ store
  exact fun _ => rfl

theorem bare_listenOn (key : String) (callback : Callback) (places : List StoreId) :
    (listenOn key callback places net).2.bare = net.bare := by
  induction places generalizing net with
  | nil => rfl
  | cons s places ih => exact ih.trans (bare_listen s _ _)

/-- What an operation does to slots is the same whoever listens. -/
theorem bare_operate (plain : op.Plain net) : (net.operate op .null none).1.bare =
    if op.writes then (net.bare.operate op .null none).1.bare else net.bare := by
  cases op with
  | set store key v => exact bare_write store fun slots => slots.insert key v
  | assign store key v =>
      have definer := net.definer_bare store key
      simp only [operate, Changed.followed, Network.assign, definer]
      exact bare_write (net.definer store key) fun slots => slots.insert key v
  | remove store key =>
      have slot := net.slot?_bare store key
      simp only [operate, Followed.holding, Changed.followed, Network.remove, slot]
      split
      · exact bare_write store fun slots => slots.erase key
      · simp only [bare, List.map_map, Function.comp_def, ite_self]
  | clear store order => exact bare_write store fun _ => .empty
  | watch store key label action => exact (bare_drop _).trans (bare_listenOn key _ _)
  | watchAll store label action =>
      exact (bare_drop _).trans (bare_listen store none _)
  | combine labels label =>
      obtain ⟨subs, collected, -⟩ := net.collect_eq labels
      exact (bare_drop _).trans (collected ▸ rfl)
  | unsubscribe label =>
      show (net.unsubscribe label).bare = net.bare
      exact unsubscribe_cases (fun _ => rfl) fun sub _ => bare_drop sub
  | _ => exact plain.elim

/-- No plain operation reports anything by itself. -/
theorem events_operate (plain : op.Plain net) :
    (net.operate op .null none).1.events = net.events := by
  have listens (key : String) (callback : Callback) (places : List StoreId) (net : Network) :
      (listenOn key callback places net).2.events = net.events := by
    induction places generalizing net with
    | nil => rfl
    | cons s places ih => exact ih _
  have drops (net : Network) (sub : Subscription) : (net.drop sub).events = net.events :=
    drop_keeps Network.events (fun _ reg => by cases reg <;> rfl) net sub
  cases op with
  | set | assign | clear => rfl
  | remove store key =>
      show (net.remove store key).1.events = net.events
      exact remove_cases (fun _ => rfl) fun _ => rfl
  | watch store key label action => exact (drops _ _).trans (listens key _ _ net)
  | watchAll store label action => exact drops _ _
  | combine labels label =>
      obtain ⟨subs, collected, -⟩ := net.collect_eq labels
      exact (drops _ _).trans (collected ▸ rfl)
  | unsubscribe label =>
      show (net.unsubscribe label).events = net.events
      exact unsubscribe_cases (fun _ => rfl) fun sub _ => drops _ sub
  | _ => exact plain.elim

/-- Reports, and perhaps something that is let go of when they have been made. -/
structure Reports (tasks : List Task) (labels : List String) : Prop where
  tasks : ∃ held, tasks = labels.map (fun label => .notify (.report label none)) ∨
    tasks = labels.map (fun label => .notify (.report label none)) ++ [.letGo held]

theorem Reports.leads {tasks : List Task} {labels : List String} (h : Reports tasks labels)
    (observables : net.observables = .empty) (bindings : net.bindings = .empty) :
    Propagation.Leads ⟨net, tasks⟩
      ⟨{ net with events := net.events ++ labels.map .changed }, []⟩ := by
  obtain ⟨held, rfl | rfl⟩ := h.tasks
  · have leads := leads_reports observables bindings labels []
    rwa [List.append_nil] at leads
  · refine (leads_reports observables bindings labels _).trans (.step ?_)
    rw [step_letGo (by exact observables) (by exact bindings)]
    exact .here _

namespace Ledger

theorem called (h : Ledger ws net) (exist : (net.stores[store]?).isSome) (key : Option String) :
    (net.callbacksFor store key).map Task.notify =
      ((ws.filter fun w => store ∈ net.scope w ∧ w.key = key).map Watch.label).map
        fun label => .notify (.report label none) := by
  rw [h.callbacksFor_eq exist, List.map_map, List.map_map]
  rfl

/-- Those who watch keys of a store that is cleared are told key by key. -/
theorem cleared (h : Ledger ws net) (exist : (net.stores[store]?).isSome) (order : KeyOrder) :
    ∃ labels : List String, (net.clear store order).2.map Task.notify =
      labels.map (fun label => .notify (.report label none)) ∧
        labels.Perm (net.audience (.clear store order) ws) := by
  obtain ⟨st, found⟩ := Option.isSome_iff_exists.mp exist
  have perm := order.perm st.slots.keys
  let keys : List (Option String) := none :: (order.arrange st.slots.keys).map some
  let inScope := ws.filter fun w => store ∈ net.scope w
  have nodup : keys.Nodup := by
    refine List.nodup_cons.mpr ⟨by simp, ?_⟩
    exact List.pairwise_map.mpr ((perm.nodup_iff.mpr st.slots.nodup).imp fun other same =>
      other (Option.some.inj same))
  have has (key : String) :
      key ∈ order.arrange st.slots.keys ↔ (net.slot? store key).isSome := by
    rw [perm.mem_iff]
    have slot : net.slot? store key = st.slots.find? key := by simp [slot?, found]
    rw [slot, Option.isSome_iff_ne_none]
    exact ⟨Table.find?_ne_none, Table.mem_keys⟩
  have parts := perm_flatMap_filter inScope Watch.key nodup
  refine ⟨_, ?_, (parts.trans (.of_eq ?_)).map Watch.label⟩
  · have called :
        (net.clear store order).2 = keys.flatMap fun key => net.callbacksFor store key := by
      simp only [Network.clear, found, Option.map_some, Option.getD_some, keys, List.flatMap_cons,
        List.flatMap_map]
    rw [called, List.map_flatMap, List.map_flatMap, List.map_flatMap]
    congr 1
    funext key
    rw [h.called exist, List.filter_filter]
    simp only [Bool.decide_and, Bool.and_comm]
  · rw [List.filter_filter]
    refine List.filter_congr fun w _ => ?_
    cases key : w.key <;> simp [concerns, key, keys, has, Bool.and_comm]

/-- Everyone whom an operation concerns is told. -/
theorem follows (h : Ledger ws net) (plain : op.Plain net) : ∃ labels,
    Reports (net.operate op .null none).2 labels ∧ labels.Perm (net.audience op ws) ∧
      ((∀ store order, op ≠ .clear store order) → labels = net.audience op ws) := by
  have exactly {tasks : List Task} (reports : Reports tasks (net.audience op ws)) :
      ∃ labels, Reports tasks labels ∧ labels.Perm (net.audience op ws) ∧
        ((∀ store order, op ≠ .clear store order) → labels = net.audience op ws) :=
    ⟨_, reports, .refl _, fun _ => rfl⟩
  have silent (nobody : ∀ w, net.concerns op w = false) : net.audience op ws = [] := by
    simp [audience, nobody]
  cases op with
  | set store key v => exact exactly ⟨[], .inl (h.called plain (some key))⟩
  | assign store key v =>
      have member := net.definer_mem_chain store key
      exact exactly ⟨[], .inl (h.called (h.forest.exist plain member) (some key))⟩
  | remove store key =>
      refine exactly ⟨Holding.ofValues (net.slot? store key).toList, .inr ?_⟩
      by_cases there : (net.slot? store key).isSome
      · have concerned : net.audience (.remove store key) ws =
            (ws.filter fun w => store ∈ net.scope w ∧ w.key = some key).map Watch.label := by
          refine congrArg _ (List.filter_congr fun w _ => ?_)
          simp [concerns, there]
        rw [concerned, ← h.called plain (some key)]
        simp only [Network.operate, Network.remove, if_pos there]
        rfl
      · rw [silent fun w => by simp [concerns, there]]
        simp only [Network.operate, Network.remove, if_neg there]
        rfl
  | clear store order =>
      obtain ⟨labels, called, perm⟩ := h.cleared plain order
      exact ⟨labels, ⟨[], .inl called⟩, perm, fun other => (other store order rfl).elim⟩
  | watch | watchAll | combine | unsubscribe =>
      refine exactly ⟨[], .inl ?_⟩
      rw [silent fun _ => rfl]
      rfl
  | _ => exact plain.elim

/-- An operation returns, with its reports. -/
theorem returns (h : Ledger ws net) (plain : op.Plain net) : ∃ net' labels,
    Propagation.Leads (net.ask op) ⟨net', []⟩ ∧ Ledger (op.watches ws) net' ∧
      SameScopes net net' ∧
      (net'.bare = if op.writes then (net.bare.operate op .null none).1.bare else net.bare) ∧
      net'.events = labels.map .changed ∧ labels.Perm (net.audience op ws) ∧
      ((∀ store order, op ≠ .clear store order) → labels = net.audience op ws) := by
  have asked : Ledger ws (net.ask op).net :=
    h.keeps (.of_eq rfl) rfl rfl (fun _ => rfl) fun s st found => ⟨st, found, rfl, rfl⟩
  have plain' : op.Plain (net.ask op).net := SameScopes.plain (.of_eq rfl) plain
  have later := asked.operate plain'
  obtain ⟨labels, reports, told⟩ := asked.follows plain'
  have step : (net.ask op).step = ⟨((net.ask op).net.operate op .null none).1,
      ((net.ask op).net.operate op .null none).2⟩ := by
    have released := release_of_empty later.observables later.bindings
      ((Task.perform (net.ask op).net (.operate op .null none)).2 ++ [])
    show Propagation.mk _ _ = _
    rw [List.append_nil] at released ⊢
    exact congrArg (Propagation.mk · _) released
  have silent : ((net.ask op).net.operate op .null none).1.events = [] := events_operate plain'
  refine ⟨_, labels, .step (step ▸ reports.leads later.observables later.bindings), ?_, ?_, ?_,
    ?_, told⟩
  · exact later.keeps (.of_eq rfl) rfl rfl (fun _ => rfl) fun s st found => ⟨st, found, rfl, rfl⟩
  · exact SameScopes.trans (.of_eq rfl) (.operate _ op .null none)
  · exact bare_operate plain'
  · rw [silent, List.nil_append]

end Ledger

/-- At first nobody watches. -/
theorem ledger_of_untouched (untouched : start.Untouched) (forest : start.Forest)
    (unheard : ∀ st ∈ start.stores, st.listeners = []) : Ledger [] start := by
  refine ⟨forest, untouched.observables, untouched.bindings, fun s st found => ?_,
    fun s st found => ?_, fun label reg member => ?_⟩
  · rw [unheard st (List.mem_of_getElem? found)]
    exact .nil
  · rw [unheard st (List.mem_of_getElem? found)]
    exact List.forall_mem_nil _
  · simp only [subscription, untouched.subscriptions, Table.find?_empty, Option.getD_none] at member
    cases member

theorem Ledger.history (h : Ledger [] start) {ops : List Operation}
    (plain : ∀ op ∈ ops, op.Plain start) (history : start.History ops net) :
    Ledger (Operation.watchesAfter ops) net ∧ SameScopes start net ∧
      net.bare = (ops.filter Operation.writes).foldl
        (fun net op => (net.operate op .null none).1.bare) start.bare := by
  induction history with
  | start => exact ⟨h, .of_eq rfl, rfl⟩
  | @next ops op net net' steps _ driven ih =>
      obtain ⟨before, now⟩ := List.forall_mem_append.mp plain
      obtain ⟨ledger, scopes, slots⟩ := ih before
      obtain ⟨last, labels, leads, later, same, written, -⟩ :=
        ledger.returns (scopes.plain (now op (.head _)))
      obtain rfl : net' = last := leads.drive_unique rfl driven
      refine ⟨?_, scopes.trans same, ?_⟩
      · rw [Operation.watchesAfter, List.foldl_append]
        exact later
      · rw [List.filter_append, List.foldl_append, written, ← slots]
        cases writes : op.writes <;> simp [writes]

/-- Whatever plain operations have been asked for, the next one returns, and each of those who watch
is told of it once if it concerns them and not at all otherwise. Unless a store is cleared, they are
told in the order in which they were registered. Whom it concerns is settled by what has been
written, whoever watched in the meantime. -/
theorem History.notifies_once {ops : List Operation} (untouched : start.Untouched)
    (forest : start.Forest) (unheard : ∀ st ∈ start.stores, st.listeners = [])
    (plain : ∀ op ∈ ops, op.Plain start) (history : start.History ops net)
    (next : op.Plain start) :
    (∃ steps net', (net.ask op).drive steps = some net') ∧
    (∀ steps net', (net.ask op).drive steps = some net' → ∃ labels,
      net'.events = labels.map .changed ∧
      labels.Perm (net.audience op (Operation.watchesAfter ops)) ∧
      ((∀ store order, op ≠ .clear store order) →
        labels = net.audience op (Operation.watchesAfter ops))) ∧
    ∀ ops' net', (∀ op ∈ ops', op.Plain start) → start.History ops' net' →
      ops'.filter Operation.writes = ops.filter Operation.writes →
      net'.concerns op = net.concerns op := by
  have ledger := ledger_of_untouched untouched forest unheard
  obtain ⟨later, scopes, slots⟩ := ledger.history plain history
  obtain ⟨last, labels, leads, -, -, -, told⟩ := later.returns (scopes.plain next)
  refine ⟨?_, fun steps net' driven => ?_, fun ops' net' plain' history' same => ?_⟩
  · obtain ⟨steps, driven⟩ := leads.drive rfl
    exact ⟨steps, last, driven⟩
  · obtain rfl : net' = last := leads.drive_unique rfl driven
    exact ⟨labels, told⟩
  · obtain ⟨-, -, slots'⟩ := ledger.history plain' history'
    rw [← concerns_bare, slots', same, ← slots, concerns_bare]

/-- Two scopes that define nothing. -/
def blankScopes : Network where
  stores := [{ ancestors := [], owner := .null }, { ancestors := [0], owner := .null }]

theorem forest_blankScopes : blankScopes.Forest := by
  intro store st found
  match store with
  | 0 =>
      cases found
      exact .inl rfl
  | 1 =>
      cases found
      exact .inr ⟨0, Nat.zero_lt_one, rfl⟩
  | _ + 2 => cases found

/-- `A` watches from the inner scope, and its subscription is joined with another one. `B` and `E`
watch in the outer scope, and `B` is dropped. -/
theorem History.notifies_once_joined : ∃ net net' steps,
    blankScopes.History [.watch 1 "$a" "A" none, .watch 0 "$a" "B" none, .watchAll 0 "D" none,
      .combine ["D", "A"] "C", .watch 0 "$a" "E" none, .unsubscribe "B"] net ∧
    (net.ask (.set 0 "$a" (.int32 1))).drive steps = some net' ∧
    net'.events = [.changed "A", .changed "E"] := by
  have first : blankScopes.History [.watch 1 "$a" "A" none] _ :=
    @History.next _ _ _ _ _ 1 .start rfl
  have second : blankScopes.History [.watch 1 "$a" "A" none, .watch 0 "$a" "B" none] _ :=
    @History.next _ _ _ _ _ 1 first rfl
  have third : blankScopes.History
      [.watch 1 "$a" "A" none, .watch 0 "$a" "B" none, .watchAll 0 "D" none] _ :=
    @History.next _ _ _ _ _ 1 second rfl
  have joined : blankScopes.History [.watch 1 "$a" "A" none, .watch 0 "$a" "B" none,
      .watchAll 0 "D" none, .combine ["D", "A"] "C"] _ :=
    @History.next _ _ _ _ _ 1 third rfl
  have fifth : blankScopes.History [.watch 1 "$a" "A" none, .watch 0 "$a" "B" none,
      .watchAll 0 "D" none, .combine ["D", "A"] "C", .watch 0 "$a" "E" none] _ :=
    @History.next _ _ _ _ _ 1 joined rfl
  have last : blankScopes.History [.watch 1 "$a" "A" none, .watch 0 "$a" "B" none,
      .watchAll 0 "D" none, .combine ["D", "A"] "C", .watch 0 "$a" "E" none, .unsubscribe "B"] _ :=
    @History.next _ _ _ _ _ 1 fifth rfl
  have next : (Operation.set 0 "$a" (.int32 1)).Plain blankScopes := rfl
  obtain ⟨⟨steps, net', driven⟩, told, -⟩ := History.notifies_once ⟨rfl, rfl, rfl⟩
    forest_blankScopes (by simp [blankScopes]) (by simp [Operation.Plain, blankScopes]) last next
  obtain ⟨labels, reported, -, ordered⟩ := told steps net' driven
  refine ⟨_, net', steps, last, driven, ?_⟩
  rw [reported, ordered fun _ => nofun]
  rfl

end Network

end SlotScript
