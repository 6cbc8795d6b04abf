import SlotScript.Proofs.Network.Lookup
import SlotScript.Proofs.Network.Mirror
import SlotScript.Proofs.Network.Restraint
import SlotScript.Proofs.Operator.Identity

/-! # What is pushed through a binding comes back

A binding does not keep what is pushed through it. It writes it to the nearest scope that defines
its key, and takes it over when it is called back from there, just as it would if someone else had
written. It is called back once, among all others who watch the key in that scope, and that is when
its observers are told.
-/

namespace SlotScript

namespace Network

/-- Asked for something, a network becomes another one by the time all that follows is done. -/
def Becomes (net : Network) (op : Operation) (net' : Network) : Prop :=
  ∃ steps, (net.ask op).drive steps = some net'

/-- The network as it is, with nothing reported yet. -/
def anew (net : Network) : Network := { net with events := [], returned := none }

/-- A value on its way from the bound side to the store. -/
def incoming (net : Network) (b : Binding) (v : Value) : Value :=
  Converter.convert b.source net.sizes v

/-- A binding has nothing to take over: it is disposed of, or it has what its store finds. -/
def satisfied (net : Network) (b : Binding) : Bool :=
  b.disposed || b.value.identical (net.visible b.store b.key)

/-- A binding with what its store finds. -/
def taking (net : Network) (b : Binding) : Binding :=
  { b with value := net.visible b.store b.key }

/-- What a binding tells its observers when it reads its key again. -/
def retold (net : Network) (b : Binding) : List Event :=
  if net.satisfied b then []
  else
    let shown := net.portrait (net.bindingValue (net.taking b))
    b.observers.current.map fun o => .next o.label shown

/-- What is reported when a callback is called that does not act. -/
def heard (net : Network) : Callback → List Event
  | .report label _ => [.changed label]
  | .recalculate _ => []
  | .refresh id => ((net.bindings.find? id).map net.retold).getD []

/-- The network after some more events were reported. -/
def record (net : Network) (events : List Event) : Network :=
  { net with events := net.events ++ events }

/-- The network when everyone has been told whom a callback concerns. -/
def called (net : Network) (callback : Callback) : Network :=
  { (net.notify callback).1 with events := net.events ++ net.heard callback }

/-- A value was written through a binding. -/
structure Pushed (net : Network) (id : BindingId) (b : Binding) (w : Value) (net' : Network) :
    Prop where
  /-- The nearest scope that defines the key has it. No other slot of any store has changed. -/
  slots : ∀ s key, net'.slot? s key =
    if s = net.definer b.store b.key ∧ key = b.key then some w else net.slot? s key
  /-- No collection has changed, and no name of a binding. -/
  objects : net'.objects = net.objects
  names : net'.bindingNames = net.bindingNames
  /-- The binding has taken it over. -/
  taken : net'.bindings.find? id = some { b with value := w }
  /-- This is what the binding shows. -/
  shows : net'.bindingValue { b with value := w } = Converter.convert b.target net.sizes w
  /-- Those who watch the key in that scope are told, one after the other. -/
  told : net'.events = (net.callbacksFor (net.definer b.store b.key) (some b.key)).flatMap
    (net.assign b.store b.key w).1.heard
  /-- The binding is one of them, once. -/
  once : (net.callbacksFor (net.definer b.store b.key) (some b.key)).countP
    (·.wakes? = some (.binding id)) = 1
  /-- When it is told, each of its observers receives what it shows. -/
  heard : (net.assign b.store b.key w).1.heard (.refresh id) = b.observers.current.map fun o =>
    .next o.label (net.portrait (Converter.convert b.target net.sizes w))

end Network

open Network

variable {net net' : Network} {p q : Propagation} {task : Task} {rest : List Task}
  {callback : Callback} {callbacks : List Callback} {id : BindingId} {b : Binding} {name : String}
  {v w : Value}

namespace Network

theorem slot?_congr (stores : net'.stores = net.stores) : net'.slot? = net.slot? := by
  funext s key
  simp only [slot?, stores]

theorem visible_congr (stores : net'.stores = net.stores) : net'.visible = net.visible := by
  funext store key
  simp only [visible, lookup?, chain, slot?_congr stores, stores]

theorem portrait_congr (objects : net'.objects = net.objects) (v : Value) :
    net'.portrait v = net.portrait v := by
  have portray (levels : Nat) : net'.portray levels = net.portray levels := by
    induction levels with
    | zero => rfl
    | succ levels ih =>
        funext v
        cases v <;> simp only [Network.portray, objects, ih]
  exact congrFun (portray portraitLevels) v

theorem sizes_congr (objects : net'.objects = net.objects) : net'.sizes = net.sizes := by
  unfold sizes
  rw [objects]

theorem taking_congr (stores : net'.stores = net.stores) : net'.taking = net.taking := by
  funext b
  simp only [taking, visible_congr stores]

theorem satisfied_congr (stores : net'.stores = net.stores) : net'.satisfied = net.satisfied := by
  funext b
  simp only [satisfied, visible_congr stores]

theorem retold_congr (stores : net'.stores = net.stores) (objects : net'.objects = net.objects) :
    net'.retold = net.retold := by
  funext b
  simp only [retold, bindingValue, satisfied_congr stores, taking_congr stores,
    portrait_congr objects, sizes_congr objects]

theorem heard_congr (stores : net'.stores = net.stores) (objects : net'.objects = net.objects)
    (bindings : net'.bindings = net.bindings) : net'.heard = net.heard := by
  funext callback
  cases callback with
  | report | recalculate => rfl
  | refresh id => simp only [heard, bindings, retold_congr stores objects]

theorem refresh_of_none (missing : net.bindings.find? id = none) : net.refresh id = (net, []) := by
  simp only [refresh, missing]

theorem refresh_of_satisfied (found : net.bindings.find? id = some b)
    (satisfied : net.satisfied b = true) : net.refresh id = (net, []) := by
  simp only [refresh, found]
  exact if_pos satisfied

theorem refresh_of_unsatisfied (found : net.bindings.find? id = some b)
    (unsatisfied : net.satisfied b = false) : net.refresh id =
      (net.modifyBinding id fun b' => { b' with value := net.visible b.store b.key },
        b.observers.current.map (.deliver · (net.bindingValue (net.taking b)))) := by
  simp only [refresh, found]
  exact if_neg (Bool.eq_false_iff.mp unsatisfied)

theorem record_nil (net : Network) : net.record [] = net := by
  simp only [record, List.append_nil]

theorem record_report (net : Network) (event : Event) (events : List Event) :
    (net.report event).record events = net.record (event :: events) := by
  simp only [record, report, List.append_assoc, List.singleton_append]

/-- Of all that bindings read and show, a call changes what the binding has that is called. -/
structure Calls (callback : Callback) (net net' : Network) : Prop where
  stores : net'.stores = net.stores
  objects : net'.objects = net.objects
  names : net'.bindingNames = net.bindingNames
  bindings : ∀ id, net'.bindings.find? id = (net.bindings.find? id).map fun b =>
    if callback.wakes? = some (.binding id) ∧ net.satisfied b = false then net.taking b else b

theorem Calls.of_eq (stores : net'.stores = net.stores) (objects : net'.objects = net.objects)
    (names : net'.bindingNames = net.bindingNames) (bindings : net'.bindings = net.bindings)
    (content : ∀ id b, callback.wakes? = some (.binding id) → net.bindings.find? id = some b →
      net.satisfied b = true) : Calls callback net net' := by
  refine ⟨stores, objects, names, fun id => ?_⟩
  rw [bindings]
  cases found : net.bindings.find? id with
  | none => rfl
  | some b =>
      rw [Option.map_some, if_neg]
      rintro ⟨wakes, unsatisfied⟩
      cases (content id b wakes found).symm.trans unsatisfied

theorem Calls.of_other (other : ∀ id, callback.wakes? ≠ some (.binding id))
    (stores : net'.stores = net.stores) (objects : net'.objects = net.objects)
    (names : net'.bindingNames = net.bindingNames) (bindings : net'.bindings = net.bindings) :
    Calls callback net net' :=
  .of_eq stores objects names bindings fun id _ wakes => (other id wakes).elim

theorem called_of_unsatisfied (found : net.bindings.find? id = some b)
    (unsatisfied : net.satisfied b = false) : net.called (.refresh id) =
      (net.modifyBinding id fun b' => { b' with value := net.visible b.store b.key }).record
        (b.observers.current.map fun o =>
          .next o.label (net.portrait (net.bindingValue (net.taking b)))) := by
  have told : net.notify (.refresh id) = _ := refresh_of_unsatisfied found unsatisfied
  have heard : net.heard (.refresh id) = b.observers.current.map fun o =>
      .next o.label (net.portrait (net.bindingValue (net.taking b))) := by
    simp [Network.heard, found, retold, unsatisfied]
  rw [called, told, heard]
  rfl

theorem calls_refresh (net : Network) (id : BindingId) :
    Calls (.refresh id) net (net.refresh id).1 := by
  cases found : net.bindings.find? id with
  | none =>
      rw [refresh_of_none found]
      refine .of_eq rfl rfl rfl rfl fun k b wakes there => ?_
      cases wakes
      cases found.symm.trans there
  | some b =>
      cases satisfied : net.satisfied b with
      | true =>
          rw [refresh_of_satisfied found satisfied]
          refine .of_eq rfl rfl rfl rfl fun k b' wakes there => ?_
          cases wakes
          cases found.symm.trans there
          exact satisfied
      | false =>
          rw [refresh_of_unsatisfied found satisfied]
          refine ⟨rfl, rfl, rfl, fun k => (Table.find?_adjust _ _ _ _).trans ?_⟩
          by_cases own : k = id
          · subst own
            simp [found, satisfied, Callback.wakes?, taking]
          · simp [own, Ne.symm own, Callback.wakes?]

theorem calls_called (net : Network) (callback : Callback) :
    Calls callback net (net.called callback) := by
  have notified : Calls callback net (net.notify callback).1 := by
    cases callback with
    | report label action =>
        have other (k : BindingId) : (Callback.report label action).wakes? ≠ some (.binding k) := by
          simp [Callback.wakes?]
        show Calls _ net ((net.report (.changed label)).act label .null action).1
        exact act_cases (fun _ => .of_other other rfl rfl rfl rfl)
          (fun _ _ _ => .of_other other rfl rfl rfl rfl)
          fun _ _ _ => .of_other other rfl rfl rfl rfl
    | recalculate k =>
        have other (id : BindingId) : (Callback.recalculate k).wakes? ≠ some (.binding id) := by
          simp [Callback.wakes?]
        show Calls _ net (net.recalculate k).1
        exact recalculate_cases (fun _ => .of_other other rfl rfl rfl rfl)
          fun _ _ _ _ => .of_other other rfl rfl rfl rfl
    | refresh id => exact calls_refresh net id
  exact ⟨notified.stores, notified.objects, notified.names, notified.bindings⟩

/-- However many are called, what they find stays as it is. -/
theorem foldl_called_keeps (callbacks : List Callback) (net : Network) :
    (callbacks.foldl called net).stores = net.stores ∧
      (callbacks.foldl called net).objects = net.objects ∧
      (callbacks.foldl called net).bindingNames = net.bindingNames := by
  induction callbacks generalizing net with
  | nil => exact ⟨rfl, rfl, rfl⟩
  | cons callback callbacks ih =>
      have calls := calls_called net callback
      obtain ⟨stores, objects, names⟩ := ih (net.called callback)
      exact ⟨stores.trans calls.stores, objects.trans calls.objects, names.trans calls.names⟩

/-- A binding that is not called stays as it is. -/
theorem find?_foldl_called (net : Network)
    (others : ∀ callback ∈ callbacks, callback.wakes? ≠ some (.binding id)) :
    (callbacks.foldl called net).bindings.find? id = net.bindings.find? id := by
  induction callbacks generalizing net with
  | nil => rfl
  | cons callback callbacks ih =>
      obtain ⟨other, others⟩ := List.forall_mem_cons.mp others
      refine (ih (net.called callback) others).trans ?_
      simp [(calls_called net callback).bindings, other]

/-- A call does not change what is heard from those who are called later. -/
theorem heard_called {later : Callback} (apart : ∀ id, callback.wakes? = some (.binding id) →
    later.wakes? ≠ some (.binding id)) : (net.called callback).heard later = net.heard later := by
  have calls := calls_called net callback
  cases later with
  | report | recalculate => rfl
  | refresh id =>
      have other : callback.wakes? ≠ some (.binding id) := fun wakes => apart id wakes rfl
      simp [heard, calls.bindings, other, retold_congr calls.stores calls.objects]

/-- Where no binding is called twice, everything that is heard is decided beforehand. -/
theorem events_foldl_called (net : Network)
    (once : ∀ id, callbacks.countP (·.wakes? = some (.binding id)) ≤ 1) :
    (callbacks.foldl called net).events = net.events ++ callbacks.flatMap net.heard := by
  induction callbacks generalizing net with
  | nil => exact (List.append_nil _).symm
  | cons callback callbacks ih =>
      have fewer (id : BindingId) : callbacks.countP (·.wakes? = some (.binding id)) ≤ 1 :=
        Nat.le_trans (List.sublist_cons_self callback callbacks).countP_le (once id)
      -- Nobody who is called later is the binding that is called now.
      have same : callbacks.flatMap (net.called callback).heard = callbacks.flatMap net.heard := by
        refine List.flatMap_congr fun later member => heard_called fun id wakes again => ?_
        have twice := once id
        have there : 0 < callbacks.countP (·.wakes? = some (.binding id)) :=
          List.countP_pos_iff.mpr ⟨later, member, decide_eq_true again⟩
        rw [List.countP_cons_of_pos (by simpa using wakes)] at twice
        omega
      rw [List.foldl_cons, ih (net.called callback) fewer, same, List.flatMap_cons]
      exact List.append_assoc _ _ _

end Network

theorem Propagation.Subdued.step_deliver {observer : Observer}
    (h : Propagation.Subdued ⟨net, .deliver observer v :: rest⟩) :
    Propagation.step ⟨net, .deliver observer v :: rest⟩ =
      ⟨net.report (.next observer.label (net.portrait v)), rest⟩ := by
  have performed := perform_deliver (h.agenda _ (.head _)) net v
  rw [h.step_eq (performed ▸ h.named), performed]
  rfl

theorem Propagation.Subdued.leads_deliveries {observers : List Observer} {shown : Portrait}
    (h : Propagation.Subdued ⟨net, observers.map (.deliver · v) ++ rest⟩)
    (shows : net.portrait v = shown) :
    Propagation.Leads ⟨net, observers.map (.deliver · v) ++ rest⟩
      ⟨net.record (observers.map fun o => .next o.label shown), rest⟩ := by
  induction observers generalizing net with
  | nil =>
      rw [List.map_nil, List.map_nil, record_nil]
      exact .here _
  | cons observer observers ih =>
      have first : Propagation.Subdued
          ⟨net, .deliver observer v :: (observers.map (.deliver · v) ++ rest)⟩ := h
      have others := first.step
      rw [first.step_deliver, shows] at others
      have later := ih others ((portrait_congr (by rfl) v).trans shows)
      rw [record_report] at later
      refine .step ?_
      rw [List.map_cons, List.cons_append, first.step_deliver, shows]
      exact later

theorem Network.Named.called (named : net.Named) (callback : Callback) :
    (net.called callback).Named := by
  have calls := calls_called net callback
  intro id member
  rw [calls.names]
  refine named id (Table.mem_keys fun missing => Table.find?_ne_none member ?_)
  rw [calls.bindings, missing, Option.map_none]

/-- Whoever is called is told, before anyone else is. -/
theorem Propagation.Subdued.leads_notify
    (h : Propagation.Subdued ⟨net, .notify callback :: rest⟩) :
    Propagation.Leads ⟨net, .notify callback :: rest⟩ ⟨net.called callback, rest⟩ := by
  have step := h.step_eq (h.named.called callback)
  have next := h.step
  rw [step] at next
  refine .step ?_
  rw [step]
  -- Most that can happen is nothing: no code is observed, and a binding may have nothing to take.
  have quiet (silent : net.notify callback = (net, [])) (unheard : net.heard callback = []) :
      Propagation.Leads ⟨(net.notify callback).1, (net.notify callback).2 ++ rest⟩
        ⟨net.called callback, rest⟩ := by
    rw [called, silent, unheard, List.append_nil]
    exact .here _
  cases callback with
  | report label action =>
      obtain rfl : action = none := h.agenda _ (.head _)
      exact .here _
  | recalculate id => exact quiet (by simp only [notify, recalculate, h.net.unobserved]) rfl
  | refresh id =>
      cases found : net.bindings.find? id with
      | none => exact quiet (refresh_of_none found) (by simp only [heard, found]; rfl)
      | some b =>
          cases satisfied : net.satisfied b with
          | true =>
              refine quiet (refresh_of_satisfied found satisfied) ?_
              simp [heard, found, retold, satisfied]
          | false =>
              have told : (Task.notify (.refresh id)).perform net = _ :=
                refresh_of_unsatisfied found satisfied
              rw [told] at next ⊢
              rw [called_of_unsatisfied found satisfied]
              exact next.leads_deliveries (portrait_congr (by rfl) _)

/-- Those whom a change concerns are told one after the other. -/
theorem Propagation.Subdued.leads_callbacks
    (h : Propagation.Subdued ⟨net, callbacks.map .notify ++ rest⟩) :
    Propagation.Leads ⟨net, callbacks.map .notify ++ rest⟩ ⟨callbacks.foldl called net, rest⟩ := by
  induction callbacks generalizing net with
  | nil => exact .here _
  | cons callback callbacks ih =>
      have first := h.leads_notify
      exact first.trans (ih (h.leads first))

/-- A binding that is called once takes over what its store finds then. -/
theorem Network.find?_foldl_called_self (found : net.bindings.find? id = some b)
    (unsatisfied : net.satisfied b = false)
    (once : callbacks.countP (·.wakes? = some (.binding id)) = 1) :
    (callbacks.foldl called net).bindings.find? id = some (net.taking b) := by
  induction callbacks generalizing net with
  | nil => cases once
  | cons callback callbacks ih =>
      have calls := calls_called net callback
      have bindings := calls.bindings id
      rw [found, Option.map_some] at bindings
      rw [List.foldl_cons]
      by_cases wakes : callback.wakes? = some (.binding id)
      · rw [List.countP_cons_of_pos (by simpa using wakes), Nat.add_eq_right] at once
        rw [find?_foldl_called _ fun later member again =>
          List.countP_eq_zero.mp once later member (decide_eq_true again)]
        rw [bindings, if_pos ⟨wakes, unsatisfied⟩]
      · rw [List.countP_cons_of_neg (by simpa using wakes)] at once
        rw [if_neg fun called => wakes called.1] at bindings
        rw [ih bindings (satisfied_congr calls.stores ▸ unsatisfied) once,
          taking_congr calls.stores]

namespace Propagation.Subdued

variable {delivered : Value}

theorem step_letGo {held : List Holding} (h : Propagation.Subdued ⟨net, .letGo held :: rest⟩) :
    Propagation.step ⟨net, .letGo held :: rest⟩ = ⟨net, rest⟩ :=
  h.step_eq h.named

/-- A binding that does not let pass what is pushed changes nothing. -/
theorem step_push (h : Propagation.Subdued ⟨net, [.operate (.push name v) delivered none]⟩)
    (named : net.bindingNames.find? name = some id) (found : net.bindings.find? id = some b)
    (stops : (b.disposed || (net.incoming b v).identical b.value) = true) :
    Propagation.step ⟨net, [.operate (.push name v) delivered none]⟩ = ⟨net, []⟩ := by
  have performed : (Task.operate (.push name v) delivered none).perform net = (net, []) := by
    simp only [Task.perform, operate, withBinding, named, pushBinding, found]
    exact if_pos stops
  rw [h.step_eq (performed ▸ h.named), performed]
  rfl

/-- A binding that lets pass what is pushed writes it, and everyone who watches is told. -/
theorem leads_push (h : Propagation.Subdued ⟨net, [.operate (.push name v) delivered none]⟩)
    (named : net.bindingNames.find? name = some id) (found : net.bindings.find? id = some b)
    (passes : (b.disposed || (net.incoming b v).identical b.value) = false) :
    Propagation.Leads ⟨net, [.operate (.push name v) delivered none]⟩
      ⟨(net.callbacksFor (net.definer b.store b.key) (some b.key)).foldl called
        (net.assign b.store b.key (net.incoming b v)).1, []⟩ := by
  have performed : (Task.operate (.push name v) delivered none).perform net =
      (net.assign b.store b.key (net.incoming b v)).followed.holding (Holding.ofValue v) := by
    simp only [Task.perform, operate, withBinding, named, pushBinding, found]
    exact if_neg (Bool.eq_false_iff.mp passes)
  have step := h.step_eq (performed ▸ h.named)
  have next := h.step
  rw [step] at next
  rw [performed] at step next
  refine .step ?_
  rw [step]
  simp only [Followed.holding, Changed.followed, List.append_assoc] at next ⊢
  have told := next.leads_callbacks
  exact told.trans (.step ((next.leads told).step_letGo ▸ .here _))

end Propagation.Subdued

/-- What is written for a live binding arrives, and the binding takes it over. -/
theorem Network.Registered.pushed (h : net.Registered) (unreported : net.events = [])
    (alive : net.liveBinding? id = some b) (exist : (net.stores[b.store]?).isSome)
    (new : w.identical b.value = false) :
    net.Pushed id b w ((net.callbacksFor (net.definer b.store b.key) (some b.key)).foldl called
      (net.assign b.store b.key w).1) := by
  obtain ⟨found, active⟩ := liveBinding?_eq_some_iff.mp alive
  have defined := h.forest.exist exist (net.definer_mem_chain b.store b.key)
  obtain ⟨st, there⟩ := Option.isSome_iff_exists.mp defined
  -- The binding finds the key in the very scope that was written, whichever that is.
  have visible : (net.assign b.store b.key w).1.visible b.store b.key = w := by
    have bound := (List.getElem?_eq_some_iff.mp (Option.get_mem exist)).1
    rw [Network.visible, lookup?_assign_self bound, Option.getD_some]
  have taking : (net.assign b.store b.key w).1.taking b = { b with value := w } := by
    rw [Network.taking, visible]
  -- It compares the other way round than what was pushed was compared before.
  have unsatisfied : (net.assign b.store b.key w).1.satisfied b = false := by
    rw [satisfied, visible, active, Value.identical_comm, new, Bool.or_self]
  have told : (net.assign b.store b.key w).1.heard (.refresh id) = b.observers.current.map fun o =>
      .next o.label (net.portrait (Converter.convert b.target net.sizes w)) := by
    have found : (net.assign b.store b.key w).1.bindings.find? id = some b := found
    have shown : (net.assign b.store b.key w).1.portrait
        ((net.assign b.store b.key w).1.bindingValue { b with value := w }) =
        net.portrait (Converter.convert b.target net.sizes w) := portrait_congr (by rfl) _
    simp [heard, found, retold, unsatisfied, taking, shown]
  have once : (net.callbacksFor (net.definer b.store b.key) (some b.key)).countP
      (·.wakes? = some (.binding id)) = 1 := by
    rw [h.count_calls there, alive, Option.any_some, if_pos]
    simpa using net.definer_mem_chain b.store b.key
  have atMostOnce (k : BindingId) :
      (net.callbacksFor (net.definer b.store b.key) (some b.key)).countP
        (·.wakes? = some (.binding k)) ≤ 1 := by
    rw [h.count_calls there]
    split <;> decide
  obtain ⟨stores, objects, names⟩ := foldl_called_keeps
    (net.callbacksFor (net.definer b.store b.key) (some b.key)) (net.assign b.store b.key w).1
  refine ⟨fun s key => ?_, objects, names, ?_, ?_, ?_, once, told⟩
  · rw [slot?_congr stores, assign, slot?_set]
    by_cases own : net.definer b.store b.key = s ∧ key = b.key
    · obtain ⟨rfl, rfl⟩ := own
      simp [there]
    · rw [if_neg own, if_neg fun own' => own ⟨own'.1.symm, own'.2⟩]
  · rw [find?_foldl_called_self (by exact found) unsatisfied once, taking]
  · rw [bindingValue, sizes_congr objects]
    rfl
  · rw [events_foldl_called _ atMostOnce]
    have start : (net.assign b.store b.key w).1.events = [] := unreported
    rw [start, List.nil_append]

/-- It does not matter what was reported before. -/
theorem Network.Pushed.of_anew (h : net.anew.Pushed id b w net') : net.Pushed id b w net' := by
  have heard : (net.anew.assign b.store b.key w).1.heard = (net.assign b.store b.key w).1.heard :=
    heard_congr rfl rfl rfl
  have shown : net.anew.portrait (Converter.convert b.target net.sizes w) =
      net.portrait (Converter.convert b.target net.sizes w) := portrait_congr (by rfl) _
  refine ⟨h.slots, h.objects, h.names, h.taken, h.shows, heard ▸ h.told, h.once, ?_⟩
  rw [← heard, ← shown]
  exact h.heard

/-- Nothing comes of pushing what a binding stops. -/
theorem Propagation.Subdued.becomes_anew (h : Propagation.Subdued ⟨net, []⟩)
    (named : net.bindingNames.find? name = some id) (found : net.bindings.find? id = some b)
    (stops : (b.disposed || (net.incoming b v).identical b.value) = true) :
    net.Becomes (.push name v) net.anew := by
  have asked : (net.ask (.push name v)).Subdued := h.next (.ask net (.push name v)) rfl
  have step : (net.ask (.push name v)).step = ⟨net.anew, []⟩ := asked.step_push named found stops
  have leads : (net.ask (.push name v)).Leads ⟨net.anew, []⟩ := .step (step ▸ .here _)
  exact leads.drive rfl

/-- What a binding lets pass arrives. -/
theorem Propagation.WellKept.becomes_pushed (kept : Propagation.WellKept ⟨net, []⟩)
    (h : Propagation.Subdued ⟨net, []⟩) (named : net.bindingNames.find? name = some id)
    (alive : net.liveBinding? id = some b) (exist : (net.stores[b.store]?).isSome)
    (new : (net.incoming b v).identical b.value = false) :
    ∃ net', (net.ask (.push name v)).Leads ⟨net', []⟩ ∧
      net.Pushed id b (net.incoming b v) net' := by
  have asked : (net.ask (.push name v)).Subdued := h.next (.ask net (.push name v)) rfl
  obtain ⟨found, active⟩ := liveBinding?_eq_some_iff.mp alive
  have leads := asked.leads_push named found (by rw [active]; exact new)
  exact ⟨_, leads, ((kept.ask (.push name v)).net.pushed rfl alive exist new).of_anew⟩

/-- In a session in which everyone only records, what is pushed through a binding arrives in the
nearest scope that defines its key, and the binding takes it over from there, once. What it has
already goes nowhere, and nothing passes a binding that was disposed of. So it makes no difference
if the same is pushed again, unless it is an undefined number.

The store of the binding is one of those that there are. -/
theorem Session.push_arrives {start : Network} (untouched : start.Untouched)
    (forest : start.Forest) (unheard : ∀ st ∈ start.stores, st.listeners = [])
    (session : Session Propagation.Modest ⟨start, []⟩ p) (idle : p.agenda = [])
    (named : p.net.bindingNames.find? name = some id) (found : p.net.bindings.find? id = some b)
    (exist : (p.net.stores[b.store]?).isSome) (v : Value) :
    ∃ net', p.net.Becomes (.push name v) net' ∧
      (b.disposed = true ∨ (p.net.incoming b v).identical b.value = true → net' = p.net.anew) ∧
      (b.disposed = false ∧ (p.net.incoming b v).identical b.value = false →
        p.net.Pushed id b (p.net.incoming b v) net') ∧
      (b.disposed = true ∨ (p.net.incoming b v).isNaN = false →
        net'.Becomes (.push name v) net'.anew) := by
  obtain ⟨net, agenda⟩ := p
  obtain rfl : agenda = [] := idle
  have subdued := session.subdued untouched unheard
  cases stops : b.disposed || (net.incoming b v).identical b.value with
  | true =>
      have first := subdued.becomes_anew named found stops
      refine ⟨net.anew, first, fun _ => rfl, ?_, fun _ => ?_⟩
      · rintro ⟨active, new⟩
        rw [active, new] at stops
        cases stops
      · exact first
  | false =>
      obtain ⟨active, new⟩ := Bool.or_eq_false_iff.mp stops
      have alive := liveBinding?_eq_some_iff.mpr ⟨found, active⟩
      have kept : Propagation.WellKept ⟨net, []⟩ :=
        (session.preserves (Q := Propagation.WellKept) (.of_untouched untouched forest unheard)
          fun _ h next _ => h.next next).1
      obtain ⟨net', leads, pushed⟩ := kept.becomes_pushed subdued named alive exist new
      refine ⟨net', leads.drive rfl, ?_, fun _ => pushed, fun defined => ?_⟩
      · rintro (disposed | same)
        · cases disposed.symm.trans active
        · cases same.symm.trans new
      -- Pushed again, it is compared with itself.
      · have defined : (net.incoming b v).isNaN = false :=
          defined.resolve_left (Bool.eq_false_iff.mp active)
        have asked : (net.ask (.push name v)).Subdued := subdued.next (.ask net (.push name v)) rfl
        have later : Propagation.Subdued ⟨net', []⟩ := asked.leads leads
        refine later.becomes_anew (pushed.names ▸ named) pushed.taken ?_
        have same : net'.incoming { b with value := net.incoming b v } v = net.incoming b v := by
          simp only [incoming, sizes_congr pushed.objects]
        rw [same, Value.identical_self, defined]
        exact Bool.or_true _

/-- `$a` is watched in the outer scope. -/
def watchedA : Propagation := twoScopes.ask (.watch 0 "$a" "w" none)

/-- It is bound in the inner one. -/
def boundA : Propagation := (watchedA.skip 1).net.ask (.bind "x" 1 "$a")

/-- What is pushed is replaced by the name of its kind. -/
def namingKindsA : Propagation := (boundA.skip 2).net.ask (.setSource "x" (some .kind))

/-- What is shown gets a number sign. -/
def showingHashesA : Propagation := (namingKindsA.skip 1).net.ask (.setTarget "x" (some .hash))

/-- `B` observes the binding. -/
def observedA : Propagation :=
  (showingHashesA.skip 1).net.ask (.subscribeBinding "x" "B" false none)

/-- The binding as it is then. -/
def bindingOfA : Binding where
  store := 1
  key := "$a"
  value := .int32 1
  target := some .hash
  source := some .kind
  observers := ⟨[(0, ⟨"B", false, none⟩)], 1⟩
  watching := [.listener 1 0, .listener 0 1]

theorem Session.push_arrives_observedA : ∃ net',
    (observedA.skip 3).net.Becomes (.push "x" (.int32 7)) net' ∧
    net'.slot? 0 "$a" = some (.string "int32") ∧ net'.slot? 1 "$a" = none ∧
    net'.events = [.changed "w", .next "B" (.scalar (.string "#int32"))] ∧
    net'.Becomes (.push "x" (.int32 7)) net'.anew := by
  have untouched : twoScopes.Untouched := ⟨rfl, rfl, rfl⟩
  have unheard : ∀ st ∈ twoScopes.stores, st.listeners = [] := by decide
  have watched : Lasts Propagation.Modest ⟨twoScopes, []⟩ _ (watchedA.skip 1) :=
    (Lasts.ask (.start (by decide)) rfl (by decide)).walk 1 (by decide +kernel) (by decide +kernel)
  have bound : Lasts Propagation.Modest ⟨twoScopes, []⟩ _ (boundA.skip 2) :=
    (watched.ask (by decide +kernel) (by decide +kernel)).walk 2 (by decide +kernel)
      (by decide +kernel)
  have naming : Lasts Propagation.Modest ⟨twoScopes, []⟩ _ (namingKindsA.skip 1) :=
    (bound.ask (by decide +kernel) (by decide +kernel)).walk 1 (by decide +kernel)
      (by decide +kernel)
  have showing : Lasts Propagation.Modest ⟨twoScopes, []⟩ _ (showingHashesA.skip 1) :=
    (naming.ask (by decide +kernel) (by decide +kernel)).walk 1 (by decide +kernel)
      (by decide +kernel)
  have observed : Lasts Propagation.Modest ⟨twoScopes, []⟩ _ (observedA.skip 3) :=
    (showing.ask (by decide +kernel) (by decide +kernel)).walk 3 (by decide +kernel)
      (by decide +kernel)
  have named : (observedA.skip 3).net.bindingNames.find? "x" = some 0 := rfl
  have found : (observedA.skip 3).net.bindings.find? 0 = some bindingOfA := rfl
  have exist : ((observedA.skip 3).net.stores[bindingOfA.store]?).isSome := by decide +kernel
  obtain ⟨net', becomes, -, arrives, again⟩ := Session.push_arrives untouched forest_twoScopes
    unheard observed.session (by decide +kernel) named found exist (.int32 7)
  have pushed := arrives ⟨rfl, rfl⟩
  exact ⟨net', becomes, (pushed.slots 0 "$a").trans rfl, (pushed.slots 1 "$a").trans rfl,
    pushed.told.trans rfl, again (.inr rfl)⟩

end SlotScript
