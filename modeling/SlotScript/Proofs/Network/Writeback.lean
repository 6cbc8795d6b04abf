import SlotScript.Proofs.Network.Elements
import SlotScript.Proofs.Network.Notification
import SlotScript.Proofs.Network.Shadowing

/-! # Collections put back

Code finds a collection under a key, changes an element of it in place and puts the collection back
where it was found, so that those who watch the key are told. Two searches have to agree on the
slot. They do, so no slot changes, and what changes is the one element.
-/

namespace SlotScript

/-- Where a run goes on: at the next instruction, or within the one it is at. -/
def Run.onward (r : Run) : Script Frame → Task
  | .done f => .run (r.standingAt f)
  | script => .proceed r script

/-- Where a run is left by its next instruction: behind it with a stack, or at an error. -/
def Run.after (r : Run) : Except RuntimeError Stack → Task
  | .ok stack => .run (r.standingAt ⟨r.activation.frame.next + 1, stack⟩)
  | .error e => .proceed r (.fail e)

namespace Network

variable {net net' : Network} {store place : StoreId} {fallback : List StoreId} {key : String}
  {collection index v : Value}

/-- Whoever watches only reports what it is told, and nothing is observed or bound. -/
structure Recorded (net : Network) : Prop where
  observables : net.observables = .empty
  bindings : net.bindings = .empty
  listeners : ∀ st ∈ net.stores, ∀ l ∈ st.listeners, ∃ label, l.callback = .report label none

/-- The labels of those who are told when a key of a store is written, each as often as it is
registered. -/
def hearers (net : Network) (store : StoreId) (key : String) : List String :=
  (net.callbacksFor store (some key)).filterMap fun
    | .report label _ => some label
    | _ => none

/-- The network after a change was reported under some labels. -/
def told (net : Network) (labels : List String) : Network :=
  { net with events := net.events ++ labels.map .changed }

theorem told_nil (net : Network) : net.told [] = net := by
  simp only [told, List.map_nil, List.append_nil]

namespace Recorded

theorem callbacksFor (recorded : net.Recorded) (store : StoreId) (key : String) :
    net.callbacksFor store (some key) =
      (net.hearers store key).map fun label => .report label none := by
  have reports : ∀ callback ∈ net.callbacksFor store (some key),
      ∃ label, callback = .report label none := by
    unfold Network.callbacksFor
    split
    case h_2 => exact List.forall_mem_nil _
    case h_1 st found =>
      intro callback member
      obtain ⟨l, listens, rfl⟩ := List.mem_map.mp member
      exact recorded.listeners st (List.mem_of_getElem? found) l (List.mem_of_mem_filter listens)
  unfold hearers
  generalize net.callbacksFor store (some key) = callbacks at reports
  induction callbacks with
  | nil => rfl
  | cons callback callbacks ih =>
      obtain ⟨⟨label, rfl⟩, others⟩ := List.forall_mem_cons.mp reports
      simp only [List.filterMap_cons, List.map_cons, ← ih others]

theorem set (recorded : net.Recorded) (store : StoreId) (key : String) (v : Value) :
    (net.set store key v).1.Recorded := by
  refine ⟨recorded.observables, recorded.bindings, fun st' member => ?_⟩
  obtain ⟨s, found⟩ := List.mem_iff_getElem?.mp member
  obtain ⟨st, before, ⟨-, rfl⟩ | ⟨-, rfl⟩⟩ := mem_modifyStore found
  · exact recorded.listeners st (List.mem_of_getElem? before)
  · exact recorded.listeners st' (List.mem_of_getElem? before)

theorem setObject (recorded : net.Recorded) (collection : Value) (object : Object) :
    (net.setObject collection object).Recorded := by
  cases collection <;> exact ⟨recorded.observables, recorded.bindings, recorded.listeners⟩

theorem told (recorded : net.Recorded) (labels : List String) : (net.told labels).Recorded :=
  ⟨recorded.observables, recorded.bindings, recorded.listeners⟩

/-- Nothing is released after a task. -/
theorem step {task : Task} (later : (task.perform net).1.Recorded) (behind : List Task) :
    Propagation.step ⟨net, task :: behind⟩ =
      ⟨(task.perform net).1, (task.perform net).2 ++ behind⟩ := by
  simp only [Propagation.step]
  rw [release_of_empty later.observables later.bindings]

end Recorded

/-- An instruction on a key, met with some stack by code on a store, has a result and leads to a
network. This is so for every run that meets it, whatever is to be done behind that. -/
def Does (net : Network) (store : StoreId) (fallback : List StoreId) (op : Opcode) (key : String)
    (stack : Stack) (result : Except RuntimeError Stack) (net' : Network) : Prop :=
  ∀ (r : Run) (behind : List Task),
    r.activation.store = store → r.activation.fallback = fallback →
    r.activation.code[r.activation.frame.next]? = some (.keyed op key) →
    r.activation.frame.stack = stack →
    Propagation.Leads ⟨net, .run r :: behind⟩ ⟨net', r.after result :: behind⟩

namespace Recorded

/-- A request is answered, those whom it concerns report, and the run goes on. -/
theorem leads_ask {r : Run} {request : Request} {answer : request.Answer} {labels : List String}
    (answered : net.answer r.activation.store r.activation.fallback request =
      some (answer, net', labels.map fun label => .report label none)) (later : net'.Recorded)
    (rest : request.Answer → Script Frame) (behind : List Task) :
    Propagation.Leads ⟨net, .proceed r (.ask request rest) :: behind⟩
      ⟨net'.told labels, r.onward (rest answer) :: behind⟩ := by
  have reports (tasks : List Task) :=
    leads_reports later.observables later.bindings labels (tasks ++ behind)
  have performed : (Task.proceed r (.ask request rest)).perform net =
      (net', labels.map (fun label => .notify (.report label none)) ++
        r.resume request (rest answer)) := by
    have proceeds : net.proceed r (.ask request rest) = _ := proceed_answered answered
    rwa [List.map_map] at proceeds
  apply Propagation.Leads.step
  rw [Recorded.step (by rw [performed]; exact later), performed, List.append_assoc]
  -- An instruction that is complete lets go of what it had at hand before the run goes on.
  cases rest answer with
  | done frame =>
      apply (reports _).trans
      apply Propagation.Leads.step
      have still := later.told labels
      rw [Run.resume, List.cons_append, step_letGo (by exact still.observables)
        (by exact still.bindings)]
      exact .here _
  | _ => exact reports _

theorem leads_silent {r : Run} {request : Request} {answer : request.Answer}
    (recorded : net.Recorded)
    (answered : net.answer r.activation.store r.activation.fallback request =
      some (answer, net, []))
    (rest : request.Answer → Script Frame) (behind : List Task) :
    Propagation.Leads ⟨net, .proceed r (.ask request rest) :: behind⟩
      ⟨net, r.onward (rest answer) :: behind⟩ := by
  have leads : Propagation.Leads _ ⟨net.told [], _⟩ := leads_ask answered recorded rest behind
  rwa [told_nil] at leads

/-- A run takes up its next instruction. -/
theorem leads_run (recorded : net.Recorded) {r : Run} {i : Instruction}
    (next : r.activation.code[r.activation.frame.next]? = some i) (behind : List Task) :
    Propagation.Leads ⟨net, .run r :: behind⟩
      ⟨net, .proceed r (i.perform r.activation.context r.activation.code.length
        { r.activation.frame with next := r.activation.frame.next + 1 }) :: behind⟩ := by
  have performed := perform_run_next next net
  apply Propagation.Leads.step
  rw [Recorded.step (by rw [performed]; exact recorded), performed]
  exact .here _

end Recorded

/-- The network with a collection changed and put back into its slot, of which those who watch the
slot have been told. -/
def putBack (net : Network) (place : StoreId) (key : String) (collection : Value)
    (object : Object) : Network :=
  ((net.setObject collection object).set place key collection).1.told (net.hearers place key)

theorem push_of_room {below : Stack} (room : below.length < Stack.maxDepth) (next : Nat)
    (v : Value) : Frame.push ⟨next, below⟩ v = .ok ⟨next, v :: below⟩ := by
  unfold Frame.push Stack.push
  rw [if_neg (Nat.not_le.mpr room)]
  rfl

theorem answer_fetch (resolves : net.Resolves store fallback key place v) :
    net.answer store fallback (.fetch key .null) = some (v, net, []) := by
  simp only [answer, fetch, resolves.found]

theorem answer_fetch_absent (recorded : net.Recorded)
    (absent : ∀ scope ∈ store :: fallback, net.lookup? scope key = none) :
    net.answer store fallback (.fetch key .null) = some (.null, (net.set store key .null).1,
      (net.hearers store key).map fun label => .report label none) := by
  rw [← recorded.callbacksFor]
  simp only [answer, fetch, List.findSome?_eq_none_iff.mpr absent]
  rfl

/-- An instruction does what its script does. -/
theorem Does.of_script {op : Opcode} {stack : Stack} {result : Except RuntimeError Stack}
    (recorded : net.Recorded) {script : Nat → Script Frame}
    (performed : ∀ context length next,
      (Instruction.keyed op key).perform context length ⟨next, stack⟩ = script next)
    (leads : ∀ (r : Run) (behind : List Task),
      r.activation.store = store → r.activation.fallback = fallback →
      Propagation.Leads ⟨net, .proceed r (script (r.activation.frame.next + 1)) :: behind⟩
        ⟨net', r.after result :: behind⟩) :
    net.Does store fallback op key stack result net' := by
  rintro r behind here falls next rfl
  apply (recorded.leads_run next behind).trans
  rw [performed]
  exact leads r behind here falls

/-- Reading an element of a collection changes nothing. -/
theorem does_indexGet (recorded : net.Recorded)
    (resolves : net.Resolves store fallback key place collection) (index : Value) {below : Stack}
    (room : below.length < Stack.maxDepth) :
    net.Does store fallback .indexGet key (index :: below)
      ((net.element key collection index).map (· :: below)) net := by
  have script (context : Context) (length next : Nat) :
      (Instruction.keyed .indexGet key).perform context length ⟨next, index :: below⟩ =
        .ask (.fetch key .null) fun c => .ask (.element key c index) fun read =>
          (Script.ofExcept read).bind fun w => Script.ofExcept (Frame.push ⟨next, below⟩ w) := rfl
  apply Does.of_script recorded script
  rintro r behind rfl rfl
  apply (recorded.leads_silent (answer_fetch resolves) _ behind).trans
  apply (recorded.leads_silent rfl _ behind).trans
  cases net.element key collection index with
  | error e => exact .here _
  | ok w =>
      simp only [Except.map, Script.ofExcept, Script.bind, push_of_room room]
      exact .here _

theorem perform_indexSet (context : Context) (length next : Nat) (key : String)
    (index v : Value) (below : Stack) :
    (Instruction.keyed .indexSet key).perform context length ⟨next, index :: v :: below⟩ =
      .ask (.fetch key .null) fun c => .ask (.replace key c index v) fun changed =>
        (Script.ofExcept changed).bind fun _ => Script.ofExcept (Frame.push ⟨next, below⟩ v) :=
  rfl

/-- A changed collection is put back into its slot, where those who watch the key are told. -/
theorem does_indexSet (recorded : net.Recorded)
    (resolves : net.Resolves store fallback key place collection) {object : Object}
    (changed : net.changeElement key collection index v = some (.ok object)) {below : Stack}
    (room : below.length < Stack.maxDepth) :
    net.Does store fallback .indexSet key (index :: v :: below) (.ok (v :: below))
      (net.putBack place key collection object) := by
  apply Does.of_script recorded fun _ _ _ => perform_indexSet _ _ _ key index v below
  rintro r behind rfl rfl
  have recorded' := recorded.setObject collection object
  have still := resolves.congr (.setObject net collection object) fun s =>
    slot?_setObject net collection object s key
  have hearers : (net.setObject collection object).hearers place key = net.hearers place key := by
    cases collection <;> rfl
  have answered : net.answer r.activation.store r.activation.fallback
      (.replace key collection index v) =
        some (.ok (), ((net.setObject collection object).set place key collection).1,
          (net.hearers place key).map fun label => .report label none) := by
    rw [← hearers, ← recorded'.callbacksFor]
    simp only [answer, replace, changed, assign, still.seat]
    rfl
  apply (recorded.leads_silent (answer_fetch resolves) _ behind).trans
  apply (Recorded.leads_ask answered (recorded'.set place key collection) _ behind).trans
  simp only [Script.ofExcept, Script.bind, push_of_room room]
  exact .here _

/-- A change that is refused leaves everything as it was. -/
theorem does_indexSet_error (recorded : net.Recorded)
    (resolves : net.Resolves store fallback key place collection) {e : RuntimeError}
    (refused : net.changeElement key collection index v = some (.error e)) (below : Stack) :
    net.Does store fallback .indexSet key (index :: v :: below) (.error e) net := by
  apply Does.of_script recorded fun _ _ _ => perform_indexSet _ _ _ key index v below
  rintro r behind rfl rfl
  have answered : net.answer r.activation.store r.activation.fallback
      (.replace key collection index v) = some (.error e, net, []) := by
    simp only [answer, replace, refused]
  apply (recorded.leads_silent (answer_fetch resolves) _ behind).trans
  exact recorded.leads_silent answered _ behind

/-- Looking for a collection under a key that nobody shows creates the key, and that is no
collection. -/
theorem does_indexSet_absent (recorded : net.Recorded)
    (absent : ∀ scope ∈ store :: fallback, net.lookup? scope key = none) (below : Stack) :
    net.Does store fallback .indexSet key (index :: v :: below) (.error (.notIndexable key))
      ((net.set store key .null).1.told (net.hearers store key)) := by
  apply Does.of_script recorded fun _ _ _ => perform_indexSet _ _ _ key index v below
  rintro r behind rfl rfl
  have created := recorded.set r.activation.store key .null
  apply (Recorded.leads_ask (answer_fetch_absent recorded absent) created _ behind).trans
  have refused (m : Network) : m.answer r.activation.store r.activation.fallback
      (.replace key .null index v) = some (.error (.notIndexable key), m, []) := rfl
  exact (created.told _).leads_silent (refused _) _ behind

/-- An element was written to a collection, which stayed in the slot that the key means. -/
structure ElementWritten (net net' : Network) (store : StoreId) (fallback : List StoreId)
    (key : String) (place : StoreId) (collection index v : Value) : Prop where
  slots : ∀ s k, net'.slot? s k = net.slot? s k
  /-- No other object has changed. -/
  objects : ∀ w : Value, ¬ w.Aliases collection → net'.object? w = net.object? w
  resolves : net'.Resolves store fallback key place collection
  /-- Those who watch the key at its slot are told once, and nobody else. -/
  events : net'.events = net.events ++ (net.hearers place key).map .changed
  length : ∀ items, net.object? collection = some (.list items) →
    ∃ items', net'.object? collection = some (.list items') ∧ items'.length = items.length
  reads : ∀ below : Stack, below.length < Stack.maxDepth →
    net'.Does store fallback .indexGet key (index :: below) (.ok (v :: below)) net'
  others : ∀ other, net.Elsewhere collection index other →
    ∀ below : Stack, below.length < Stack.maxDepth →
      ∃ result, net.Does store fallback .indexGet key (other :: below) result net ∧
        net'.Does store fallback .indexGet key (other :: below) result net'

/-- An assignment to an element failed. All it may have done is to create the key. -/
structure ElementRefused (net net' : Network) (store : StoreId) (fallback : List StoreId)
    (key : String) : Prop where
  objects : net'.objects = net.objects
  known : (∃ place v, net.Resolves store fallback key place v) → net' = net
  absent : (∀ scope ∈ store :: fallback, net.lookup? scope key = none) →
    net.Puts net' store key .null

theorem sameScopes_putBack (net : Network) (place : StoreId) (key : String) (collection : Value)
    (object : Object) : SameScopes net (net.putBack place key collection object) := by
  have changed := SameScopes.setObject net collection object
  exact changed.trans (.set (net.setObject collection object) place key collection)

/-- What is put back is what the slot holds already. -/
theorem slot?_putBack (resolves : net.Resolves store fallback key place collection)
    (object : Object) (s : StoreId) (k : String) :
    (net.putBack place key collection object).slot? s k = net.slot? s k := by
  have holds : (net.setObject collection object).slot? place key = some collection :=
    (slot?_setObject net collection object place key).trans resolves.holds
  exact (slot?_set_same holds s k).trans (slot?_setObject net collection object s k)

theorem ElementWritten.of_change (recorded : net.Recorded)
    (resolves : net.Resolves store fallback key place collection)
    (has : net.HasElement collection index) (apart : ¬ index.Aliases collection)
    {object : Object} (changed : net.changeElement key collection index v = some (.ok object)) :
    net.ElementWritten (net.putBack place key collection object) store fallback key place
      collection index v := by
  have later : (net.putBack place key collection object).Recorded :=
    ((recorded.setObject collection object).set place key collection).told _
  have slots := slot?_putBack resolves object
  have scopes := sameScopes_putBack net place key collection object
  have still := resolves.congr scopes fun s => slots s key
  have reads (i : Value) : (net.putBack place key collection object).element key collection i =
      (net.setObject collection object).element key collection i :=
    element_congr rfl key collection i
  constructor
  case slots => exact slots
  case objects => exact fun w other => object?_setObject_other other object
  case resolves => exact still
  case events => cases collection <;> rfl
  case length =>
    intro items found
    cases has with
    | map other =>
        rw [found] at other
        cases other
    | @list items' p found' denotes inside =>
        obtain rfl : items' = items := by
          rw [found] at found'
          cases found'
          rfl
        rw [changeElement_list found denotes inside] at changed
        cases changed
        exact ⟨_, object?_setObject found _, List.length_set⟩
  -- The instruction reads what the changed collection has, for the slot still holds it.
  case reads =>
    intro below room
    have read := does_indexGet later still index room
    rwa [reads, element_changed has apart changed] at read
  case others =>
    intro other elsewhere below room
    refine ⟨_, does_indexGet recorded resolves other room, ?_⟩
    have read := does_indexGet later still other room
    rwa [reads, element_elsewhere elsewhere apart changed] at read

/-- Code assigns to an element of what it finds under a key, along its chain of scopes and then in
fallback stores. If that is a collection that has the element, the element is written; otherwise
nothing is, and at most the key has come up as null. An index that is the collection itself is left
out, for then the change waits for the text of the index and this waits for the change, so that
neither comes to an end. -/
theorem Recorded.assigns_element (recorded : net.Recorded) (exist : store < net.stores.length)
    (fallback : List StoreId) (key : String) (index v : Value) {below : Stack}
    (room : (index :: v :: below).length ≤ Stack.maxDepth)
    (apart : ∀ place collection, net.Resolves store fallback key place collection →
      ¬ index.Aliases collection) :
    (∀ place collection, net.Resolves store fallback key place collection →
      net.HasElement collection index → ∃ net',
        net.Does store fallback .indexSet key (index :: v :: below) (.ok (v :: below)) net' ∧
          net.ElementWritten net' store fallback key place collection index v) ∧
    ((∀ place collection, net.Resolves store fallback key place collection →
      ¬ net.HasElement collection index) → ∃ e net',
        net.Does store fallback .indexSet key (index :: v :: below) (.error e) net' ∧
          net.ElementRefused net' store fallback key) := by
  have space : below.length < Stack.maxDepth := by
    rw [List.length_cons, List.length_cons] at room
    omega
  constructor
  · intro place collection resolves has
    obtain ⟨object, changed⟩ := changeElement_ok has (apart place collection resolves) key v
    exact ⟨_, does_indexSet recorded resolves changed space,
      .of_change recorded resolves has (apart place collection resolves) changed⟩
  · intro lacks
    -- A key that nobody shows comes up as null, and null is no collection.
    obtain ⟨place, collection, resolves⟩ | absent := net.resolves_or_absent store fallback key
    · obtain ⟨e, refused⟩ := changeElement_error (lacks place collection resolves)
        (apart place collection resolves) key v
      refine ⟨e, net, does_indexSet_error recorded resolves refused below, rfl, fun _ => rfl, ?_⟩
      intro absent
      cases (List.findSome?_eq_none_iff.mpr absent).symm.trans resolves.found
    · refine ⟨_, _, does_indexSet_absent recorded absent below, rfl, ?_, fun _ => ?_⟩
      · rintro ⟨place, collection, resolves⟩
        cases (List.findSome?_eq_none_iff.mpr absent).symm.trans resolves.found
      · exact puts_set exist key .null

/-- An inner and an outer scope, with a map in a store behind both. Somebody watches the map from
there, and others watch its key elsewhere and another key. -/
def mapBehind : Network where
  stores := [
    { ancestors := [], owner := .null, slots := .ofList [("$n", .null)],
      listeners := [⟨0, some "$m", .report "outer" none⟩], nextListener := 1 },
    { ancestors := [0], owner := .null },
    { ancestors := [], owner := .null, slots := .ofList [("$m", .object ⟨.map, 0⟩)],
      listeners := [⟨0, some "$n", .report "other" none⟩, ⟨1, some "$m", .report "there" none⟩],
      nextListener := 2 }]
  objects := [.map (.ofList [("a", .int32 1)])]

theorem recorded_mapBehind : mapBehind.Recorded := by
  refine ⟨rfl, rfl, ?_⟩
  simp only [mapBehind, List.forall_mem_cons, List.not_mem_nil, false_imp_iff, implies_true]
  exact ⟨⟨⟨_, rfl⟩, trivial⟩, trivial, ⟨⟨_, rfl⟩, ⟨_, rfl⟩, trivial⟩, trivial⟩

/-- `$m["b"] = 5` reaches the map, and `$m["a"]` is what it was. -/
theorem Recorded.assigns_element_behind : mapBehind.Recorded ∧ 1 < mapBehind.stores.length ∧
    mapBehind.Resolves 1 [2] "$m" 2 (.object ⟨.map, 0⟩) ∧
    ∃ net', mapBehind.Does 1 [2] .indexSet "$m" [.string "b", .int32 5] (.ok [.int32 5]) net' ∧
      mapBehind.ElementWritten net' 1 [2] "$m" 2 (.object ⟨.map, 0⟩) (.string "b") (.int32 5) ∧
      net'.events = [.changed "there"] := by
  have resolves : mapBehind.Resolves 1 [2] "$m" 2 (.object ⟨.map, 0⟩) := by
    refine ⟨[1], 2, [], rfl, List.forall_mem_singleton.mpr rfl, ⟨[], [], rfl, ?_, rfl⟩, rfl⟩
    exact List.forall_mem_nil _
  have apart (place : StoreId) (collection : Value)
      (_ : mapBehind.Resolves 1 [2] "$m" place collection) :
      ¬ (Value.string "b").Aliases collection := by
    rintro ⟨ref, ref', named, -⟩
    cases named
  have room : [Value.string "b", .int32 5].length ≤ Stack.maxDepth := by decide
  obtain ⟨written, -⟩ := recorded_mapBehind.assigns_element (by decide) [2] "$m" (.string "b")
    (.int32 5) room apart
  obtain ⟨net', does, written⟩ := written 2 _ resolves (.map rfl)
  exact ⟨recorded_mapBehind, by decide, resolves, net', does, written, written.events⟩

/-- `$m` is a map with a single element, under the text it will have once it has two. -/
def mapOfItself : Network where
  stores := [{ ancestors := [], owner := .null, slots := .ofList [("$m", .object ⟨.map, 0⟩)] }]
  objects := [.map (.ofList [("[map of 2]", .int32 7)])]

/-- The code of `$m[$m]`. -/
def readOwn : Operation :=
  .execute (.code [.keyed .getResource "$m", .keyed .indexGet "$m"]) 0 none none

/-- The code of `$m["a"] = 1`. -/
def addElement : Operation :=
  .execute (.code [.push (.int32 1), .push (.string "a"), .keyed .indexSet "$m"]) 0 none none

/-- The text of the map is another one than that of the index that is written, before and after.
Yet the map, as an index of itself, reads an element afterwards that it did not read before. -/
theorem reads_another_after_growth : ∃ before written after,
    (mapOfItself.ask readOwn).drive 16 = some before ∧
    before.returned = some (.ok (.value .null)) ∧
    (Value.object ⟨.map, 0⟩).concatText before.sizes = "[map of 1]" ∧
    (before.ask addElement).drive 16 = some written ∧
    written.returned = some (.ok (.value (.int32 1))) ∧
    (Value.object ⟨.map, 0⟩).concatText written.sizes = "[map of 2]" ∧
    (written.ask readOwn).drive 16 = some after ∧
    after.returned = some (.ok (.value (.int32 7))) := by
  refine ⟨_, _, _, rfl, rfl, ?_, rfl, rfl, ?_, rfl, rfl⟩
  · decide
  · decide

end Network

end SlotScript
