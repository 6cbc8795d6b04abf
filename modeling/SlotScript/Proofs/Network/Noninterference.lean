import SlotScript.Proofs.Network.Freshness
import SlotScript.Proofs.Network.Lookup
import SlotScript.Proofs.Network.Progress

/-! # The keys that code reads decide what it returns

Two runs of the same code are followed side by side, on stores that may have nothing in common but
what the code reads there. Assignments may go to different scopes, and what one run finds the other
may have to create, but what is read under the keys of the code stays the same, and so neither run
does what the other does not.
-/

namespace SlotScript

/-- Where code is run: on a store of a network, for a host. -/
structure Place where
  net : Network
  store : StoreId
  host : Option Host

namespace Place

def fallback (p : Place) : List StoreId := (p.host.map Host.fallback).getD []

/-- What code reads here under a key. A key that is missing reads as null. -/
def read (p : Place) (key : String) : Value := p.net.read p.store p.fallback key

/-- The identity code runs for here. -/
def self (p : Place) : Value := p.net.selfValue p.store p.host

/-- A run of the code, asked for here, ends this way. -/
def Returns (p : Place) (code : Code) (parameter : Value) (result : Except Failure Outcome) :
    Prop :=
  p.net.WouldReturn (.execute (.code code) p.store p.host (some parameter)) result

end Place

/-- Nobody watches a store. -/
def Network.Unwatched (net : Network) : Prop := ∀ st ∈ net.stores, st.listeners = []

/-- A question of code that writes without looking, as long as it only reads these keys. -/
def Request.Writes (keys : List String) : Request → Prop
  | .fetch key seed => key ∈ keys ∧ seed = .null
  | .assign .. | .define .. | .concatText _ | .element .. => True
  | .replace .. => False

/-- No instruction counts, changes an element or runs a command. -/
def Code.Plain (code : Code) : Prop :=
  ∀ i ∈ code, i.op.updatesResource = false ∧ i.op ≠ .invokeResource

theorem Code.Plain.perform_asks {code : Code} (plain : code.Plain) (context : Context)
    {i : Instruction} (member : i ∈ code) (f : Frame) :
    (i.perform context code.length f).Asks (Request.Writes code.readKeys) := by
  obtain ⟨silent, commandless⟩ := plain i member
  refine (Instruction.perform_asks commandless f).mono ?_
  intro r asked
  cases r with
  | fetch key seed =>
      obtain ⟨own, ⟨reads, null⟩ | updates⟩ := asked
      · exact ⟨mem_readKeys member reads own, null⟩
      · rw [silent] at updates
        cases updates
  | replace =>
      rw [asked] at silent
      cases silent
  | assign | define | concatText | element => trivial

namespace Network

variable {net net' : Network}

theorem Unwatched.callbacksFor (unwatched : net.Unwatched) (store : StoreId)
    (key : Option String) : net.callbacksFor store key = [] := by
  unfold Network.callbacksFor
  split
  · rename_i st found
    simp [unwatched st (List.mem_of_getElem? found)]
  · rfl

theorem Unwatched.modifyStore (unwatched : net.Unwatched) (store : StoreId) {f : Store → Store}
    (kept : ∀ st, (f st).listeners = st.listeners) : (net.modifyStore store f).Unwatched := by
  intro st' member
  obtain ⟨s, found⟩ := List.mem_iff_getElem?.mp member
  obtain ⟨st, before, ⟨-, rfl⟩ | ⟨-, rfl⟩⟩ := mem_modifyStore found
  · rw [kept]
    exact unwatched st (List.mem_of_getElem? before)
  · exact unwatched st' (List.mem_of_getElem? before)

theorem Unwatched.set (unwatched : net.Unwatched) (store : StoreId) (key : String) (v : Value) :
    (net.set store key v).1.Unwatched ∧ (net.set store key v).2 = [] :=
  ⟨unwatched.modifyStore store fun _ => rfl, unwatched.callbacksFor store (some key)⟩

theorem Unwatched.answer (unwatched : net.Unwatched) {store : StoreId} {fallback : List StoreId}
    {r : Request} {x : r.Answer × Changed} (answered : net.answer store fallback r = some x) :
    x.2.1.Unwatched ∧ x.2.2 = [] := by
  refine answer_cases answered ⟨unwatched, rfl⟩ unwatched.set ?_
  intro key collection index v object scope _ _
  have changed : (net.setObject collection object).Unwatched := by
    cases collection <;> exact unwatched
  exact changed.set scope key collection

/-- There is nothing to take back from stores that nobody watches. -/
theorem Unwatched.unregister (unwatched : net.Unwatched) (reg : Registration) :
    (net.unregister reg).stores = net.stores ∧ (net.unregister reg).objects = net.objects := by
  cases reg with
  | observer | bindingObserver => exact ⟨rfl, rfl⟩
  | listener store id =>
      refine ⟨List.ext_getElem? fun s => ?_, rfl⟩
      show (net.modifyStore store _).stores[s]? = _
      rw [stores_modifyStore]
      split
      · cases found : net.stores[s]? with
        | none => rfl
        | some st =>
            have none_there := unwatched st (List.mem_of_getElem? found)
            obtain ⟨ancestors, owner, slots, listeners, next⟩ := st
            cases none_there
            rfl
      · rfl

/-- The stores and objects of a network without watchers are left alone. -/
def LeavesStores (net net' : Network) : Prop :=
  net'.stores = net.stores ∧ net'.objects = net.objects

theorem LeavesStores.unwatched (left : LeavesStores net net') (unwatched : net.Unwatched) :
    net'.Unwatched := by
  unfold Network.Unwatched
  rw [left.1]
  exact unwatched

theorem LeavesStores.refl (net : Network) : LeavesStores net net := ⟨rfl, rfl⟩

theorem LeavesStores.trans {net'' : Network} (first : LeavesStores net net')
    (second : LeavesStores net' net'') : LeavesStores net net'' :=
  ⟨second.1.trans first.1, second.2.trans first.2⟩

theorem Unwatched.drop (unwatched : net.Unwatched) (sub : Subscription) :
    LeavesStores net (net.drop sub) :=
  List.foldlRecOn _ _ (LeavesStores.refl net) fun _ left reg _ =>
    left.trans ((left.unwatched unwatched).unregister reg)

theorem Unwatched.release (unwatched : net.Unwatched) (agenda : List Task) :
    LeavesStores net (net.release agenda) := by
  refine release_induction (.refl net) (fun m id left => ?_) (fun m id left => ?_) agenda
  · refine releaseBinding_cases (fun _ => left) fun b _ => ?_
    have erased : LeavesStores net { m with bindings := m.bindings.erase id } := left
    exact erased.trans ((erased.unwatched unwatched).drop b.watching)
  · refine releaseObservable_cases (fun _ => left) fun o _ => ?_
    have erased : LeavesStores net { m with observables := m.observables.erase id } := left
    exact erased.trans ((erased.unwatched unwatched).drop o.watching)

theorem carries_unwatched : Carries Unwatched where
  release agenda unwatched := (unwatched.release agenda).unwatched unwatched
  answer unwatched answered := by
    obtain ⟨still, nobody⟩ := unwatched.answer answered
    refine ⟨still, ?_⟩
    rw [nobody]
    exact List.forall_mem_nil _

end Network

open Network

/-- Code that reads these keys cannot tell one network from the other, seen from these stores. -/
structure Network.Agree (keys : List String) (store : StoreId) (fallback : List StoreId)
    (store' : StoreId) (fallback' : List StoreId) (net net' : Network) : Prop where
  unwatched : net.Unwatched
  unwatched' : net'.Unwatched
  existing : store < net.stores.length
  existing' : store' < net'.stores.length
  objects : net'.objects = net.objects
  read : ∀ key ∈ keys, net'.read store' fallback' key = net.read store fallback key

namespace Network.Agree

variable {keys : List String} {store store' : StoreId} {fallback fallback' : List StoreId}
  {net net' : Network}

theorem symm (h : Agree keys store fallback store' fallback' net net') :
    Agree keys store' fallback' store fallback net' net :=
  ⟨h.unwatched', h.unwatched, h.existing', h.existing, h.objects.symm,
    fun key member => (h.read key member).symm⟩

theorem of_left {net'' : Network} (h : Agree keys store fallback store' fallback' net net')
    (left : LeavesStores net net'') : Agree keys store fallback store' fallback' net'' net' := by
  refine ⟨left.unwatched h.unwatched, h.unwatched', left.1 ▸ h.existing, h.existing',
    h.objects.trans left.2.symm, fun key member => (h.read key member).trans ?_⟩
  simp only [Network.read, lookup?, chain, slot?, left.1]

/-- Something is left alone on both sides. -/
theorem leaves {m m' : Network} (h : Agree keys store fallback store' fallback' net net')
    (left : LeavesStores net m) (left' : LeavesStores net' m') :
    Agree keys store fallback store' fallback' m m' :=
  ((h.of_left left).symm.of_left left').symm

theorem sizes (h : Agree keys store fallback store' fallback' net net') :
    net'.sizes = net.sizes := by
  unfold Network.sizes
  rw [h.objects]

/-- Both write the same value under a key, each where it has to. -/
theorem write {scope scope' : StoreId} {key : String} {v : Value}
    (h : Agree keys store fallback store' fallback' net net')
    (reads : ∀ k, (net.set scope key v).1.read store fallback k =
      if k = key then v else net.read store fallback k)
    (reads' : ∀ k, (net'.set scope' key v).1.read store' fallback' k =
      if k = key then v else net'.read store' fallback' k) :
    Agree keys store fallback store' fallback' (net.set scope key v).1
      (net'.set scope' key v).1 := by
  refine ⟨(h.unwatched.set scope key v).1, (h.unwatched'.set scope' key v).1, ?_, ?_, h.objects,
    ?_⟩
  · rw [length_stores_set]
    exact h.existing
  · rw [length_stores_set]
    exact h.existing'
  · intro k member
    rw [reads, reads', h.read k member]

/-- Both are told the same, and after that cannot be told apart. -/
theorem answer (h : Agree keys store fallback store' fallback' net net') {r : Request}
    (asked : r.Writes keys) : ∃ answer changed changed',
      net.answer store fallback r = some (answer, changed) ∧
      net'.answer store' fallback' r = some (answer, changed') ∧
      Agree keys store fallback store' fallback' changed.1 changed'.1 := by
  cases r with
  | fetch key seed =>
      obtain ⟨member, rfl⟩ := asked
      obtain ⟨value, same⟩ := fetch_null h.existing fallback key
      obtain ⟨value', same'⟩ := fetch_null h.existing' fallback' key
      have told : (net'.fetch store' fallback' key .null).1 = (net.fetch store fallback key .null).1 :=
        (value'.trans (h.read key member)).trans value.symm
      have answered : net.answer store fallback (.fetch key .null) =
          some ((net.fetch store fallback key .null).1, (net.fetch store fallback key .null).2) :=
        rfl
      have answered' : net'.answer store' fallback' (.fetch key .null) =
          some ((net.fetch store fallback key .null).1,
            (net'.fetch store' fallback' key .null).2) := by
        rw [← told]
        rfl
      refine ⟨_, _, _, answered, answered', (h.unwatched.answer answered).1,
        (h.unwatched'.answer answered').1, ?_, ?_, ?_,
        fun k member => (same' k).trans ((h.read k member).trans (same k).symm)⟩
      · simpa only [length_stores_fetch] using h.existing
      · simpa only [length_stores_fetch] using h.existing'
      · simpa only [objects_fetch] using h.objects
  | assign key v =>
      refine ⟨_, _, _, rfl, rfl, ?_⟩
      exact h.write (fun k => read_assign h.existing fallback v)
        fun k => read_assign h.existing' fallback' v
  | define key v =>
      refine ⟨_, _, _, rfl, rfl, ?_⟩
      exact h.write (fun k => read_set h.existing fallback v)
        fun k => read_set h.existing' fallback' v
  | concatText v => exact ⟨_, (net, []), (net', []), rfl, by rw [Network.answer, h.sizes], h⟩
  | element key collection index =>
      have same : net'.object? collection = net.object? collection := by
        unfold object?
        rw [h.objects]
      refine ⟨_, (net, []), (net', []), rfl, ?_, h⟩
      simp only [Network.answer, Network.element, same, h.sizes, invalidIndex]
  | replace => exact asked.elim

end Network.Agree

/-- Two runs of the same code for the same values, asked for from outside. -/
structure Run.Twins (r r' : Run) : Prop where
  code : r'.activation.code = r.activation.code
  context : r'.activation.context = r.activation.context
  alone : r.callers = []
  alone' : r'.callers = []
  asked : r.completion = .answer
  asked' : r'.completion = .answer

/-- Two runs stand at the same point. -/
inductive Run.Abreast (keys : List String) (r r' : Run) : List Task → List Task → Prop where
  | between (f : Frame) : Abreast keys r r' [.run (r.standingAt f)] [.run (r'.standingAt f)]
  | released (held : List Holding) (f : Frame) :
      Abreast keys r r' [.letGo held, .run (r.standingAt f)] [.letGo held, .run (r'.standingAt f)]
  | within (f : Frame) {script : Script Frame} : script.Asks (Request.Writes keys) →
      Abreast keys r r' [.proceed (r.standingAt f) script] [.proceed (r'.standingAt f) script]

/-- Two runs side by side: still on their way, or at the end with the same result. -/
inductive Run.SideBySide (keys : List String) (r r' : Run) (p p' : Propagation) : Prop where
  | underway : Agree keys r.activation.store r.activation.fallback r'.activation.store
      r'.activation.fallback p.net p'.net → r.Abreast keys r' p.agenda p'.agenda →
      SideBySide keys r r' p p'
  | ended : p.agenda = [] → p'.agenda = [] → p'.net.returned = p.net.returned →
      SideBySide keys r r' p p'

namespace Run

variable {keys : List String} {r r' : Run}

/-- What two tasks do side by side, a step does that begins with them. -/
theorem SideBySide.of_perform {net net' : Network} {task task' : Task} {rest rest' : List Task}
    (agree : Agree keys r.activation.store r.activation.fallback r'.activation.store
      r'.activation.fallback (task.perform net).1 (task'.perform net').1)
    (abreast : r.Abreast keys r' ((task.perform net).2 ++ rest) ((task'.perform net').2 ++ rest')) :
    r.SideBySide keys r' (Propagation.step ⟨net, task :: rest⟩)
      (Propagation.step ⟨net', task' :: rest'⟩) :=
  .underway (agree.leaves (agree.unwatched.release _) (agree.unwatched'.release _)) abreast

/-- When both runs end, they end with the same result. -/
theorem SideBySide.of_conclude (twins : r.Twins r') {net net' : Network} {task task' : Task}
    {result : Except Failure Outcome}
    (performed : task.perform net = net.conclude result r.completion)
    (performed' : task'.perform net' = net'.conclude result r'.completion) :
    r.SideBySide keys r' (Propagation.step ⟨net, [task]⟩) (Propagation.step ⟨net', [task']⟩) := by
  rw [twins.asked] at performed
  rw [twins.asked'] at performed'
  refine .ended ?_ ?_ ?_
  · simp only [Propagation.step, performed]
    rfl
  · simp only [Propagation.step, performed']
    rfl
  · simp only [Propagation.step, performed, performed', returned_release]
    rfl

/-- Two runs that stand at the same point take the same step. -/
theorem Abreast.step (twins : r.Twins r') (plain : r.activation.code.Plain)
    (own : keys = r.activation.code.readKeys) {p p' : Propagation}
    (agree : Agree keys r.activation.store r.activation.fallback r'.activation.store
      r'.activation.fallback p.net p'.net)
    (abreast : r.Abreast keys r' p.agenda p'.agenda) : r.SideBySide keys r' p.step p'.step := by
  obtain ⟨net, agenda⟩ := p
  obtain ⟨net', agenda'⟩ := p'
  cases abreast with
  | released held f => exact .of_perform agree (.between f)
  | between f =>
      cases at_f : r.activation.code[f.next]? with
      | none =>
          have at_f' : r'.activation.code[f.next]? = none := twins.code ▸ at_f
          have performed : (Task.run (r.standingAt f)).perform net =
              net.conclude (.ok f.outcome) r.completion :=
            perform_run_last (r := r.standingAt f) at_f twins.alone net
          have performed' : (Task.run (r'.standingAt f)).perform net' =
              net'.conclude (.ok f.outcome) r'.completion :=
            perform_run_last (r := r'.standingAt f) at_f' twins.alone' net'
          exact .of_conclude twins performed performed'
      | some i =>
          have at_f' : r'.activation.code[f.next]? = some i := twins.code ▸ at_f
          have length : r'.activation.code.length = r.activation.code.length :=
            congrArg List.length twins.code
          have performed : (Task.run (r.standingAt f)).perform net =
              (net, [.proceed (r.standingAt f) (i.perform r.activation.context
                r.activation.code.length { f with next := f.next + 1 })]) :=
            perform_run_next (r := r.standingAt f) at_f net
          have performed' : (Task.run (r'.standingAt f)).perform net' =
              (net', [.proceed (r'.standingAt f) (i.perform r.activation.context
                r.activation.code.length { f with next := f.next + 1 })]) := by
            rw [← length, ← twins.context]
            exact perform_run_next (r := r'.standingAt f) at_f' net'
          refine .of_perform ?_ ?_
          · rw [performed, performed']
            exact agree
          · rw [performed, performed']
            refine .within f ?_
            exact own ▸ plain.perform_asks _ (List.mem_of_getElem? at_f) _
  | @within f script asks =>
      cases script with
      | done f' => exact .of_perform agree (.between f')
      | fail e => exact .of_conclude twins rfl rfl
      | invoke => exact asks.elim
      | ask request next =>
          obtain ⟨answer, ⟨m, callbacks⟩, ⟨m', callbacks'⟩, answered, answered', agree'⟩ :=
            agree.answer asks.1
          obtain rfl : callbacks = [] := (agree.unwatched.answer answered).2
          obtain rfl : callbacks' = [] := (agree.unwatched'.answer answered').2
          have performed : (Task.proceed (r.standingAt f) (.ask request next)).perform net =
              (m, (r.standingAt f).resume request (next answer)) :=
            proceed_answered (r := r.standingAt f) answered
          have performed' : (Task.proceed (r'.standingAt f) (.ask request next)).perform net' =
              (m', (r'.standingAt f).resume request (next answer)) :=
            proceed_answered (r := r'.standingAt f) answered'
          refine .of_perform ?_ ?_
          · rw [performed, performed']
            exact agree'
          · rw [performed, performed', List.append_nil, List.append_nil]
            have later := asks.2 answer
            cases left : next answer with
            | done f' => exact .released _ f'
            | _ =>
                rw [left] at later
                exact .within f later

theorem Abreast.busy {agenda agenda' : List Task} (abreast : r.Abreast keys r' agenda agenda') :
    agenda.isEmpty = false ∧ agenda'.isEmpty = false := by
  cases abreast <;> exact ⟨rfl, rfl⟩

theorem SideBySide.leads (twins : r.Twins r') (plain : r.activation.code.Plain)
    (own : keys = r.activation.code.readKeys) {p p' q : Propagation}
    (h : r.SideBySide keys r' p p') (leads : p.Leads q) : ∃ q', r.SideBySide keys r' q q' := by
  induction leads generalizing p' with
  | here => exact ⟨p', h⟩
  | @step p q _ ih =>
      cases h with
      | underway agree abreast => exact ih (abreast.step twins plain own agree)
      | ended done done' same =>
          have still : p.step = p := by simp only [Propagation.step, done]
          rw [still] at ih
          exact ih (.ended done done' same)

/-- What the runs ask for is answered. -/
theorem SideBySide.not_waits {p p' : Propagation} (h : r.SideBySide keys r' p p') : ¬ p.Waits := by
  obtain ⟨net, agenda⟩ := p
  obtain ⟨net', agenda'⟩ := p'
  rintro ⟨task, top, request, asked, waits⟩
  cases h with
  | underway _ abreast =>
      cases abreast with
      | between | released =>
          cases top
          cases asked
      | @within f script asks =>
          cases top
          cases script with
          | ask request' next =>
              cases asked
              cases request with
              | replace => exact asks.1
              | _ => exact waits
          | _ => cases asked
  | ended done =>
      cases done
      cases top

/-- In as many steps as one run takes to its end, the other one comes to the same end. -/
theorem SideBySide.drive (twins : r.Twins r') (plain : r.activation.code.Plain)
    (own : keys = r.activation.code.readKeys) (steps : Nat) {p p' : Propagation} {net : Network}
    (h : r.SideBySide keys r' p p') (driven : p.drive steps = some net) :
    ∃ net', p'.drive steps = some net' ∧ net'.returned = net.returned := by
  induction steps generalizing p p' with
  | zero =>
      cases h with
      | underway _ abreast =>
          have busy : p.agenda.isEmpty = false := abreast.busy.1
          simp [Propagation.drive, busy] at driven
      | ended done done' same =>
          simp only [Propagation.drive, done, done', List.isEmpty_nil, if_true] at driven ⊢
          cases driven
          exact ⟨p'.net, rfl, same⟩
  | succ steps ih =>
      cases h with
      | underway agree abreast =>
          obtain ⟨busy, busy'⟩ := abreast.busy
          simp only [Propagation.drive, busy, busy'] at driven ⊢
          exact ih (abreast.step twins plain own agree) driven
      | ended done done' same =>
          simp only [Propagation.drive, done, done', List.isEmpty_nil, if_true] at driven ⊢
          cases driven
          exact ⟨p'.net, rfl, same⟩

end Run

theorem Network.WouldReturn.unique {net : Network} {op : Operation}
    {result other : Except Failure Outcome} (first : net.WouldReturn op result)
    (second : net.WouldReturn op other) : result = other := by
  obtain ⟨steps, last, driven, returned⟩ := first
  obtain ⟨steps', last', driven', returned'⟩ := second
  obtain rfl := Propagation.drive_unique driven driven'
  exact Option.some.inj (returned.symm.trans returned')

namespace Place

variable {p q : Place} {code : Code} {parameter : Value} {result : Except Failure Outcome}

/-- The run of code that is asked for here. -/
def run (p : Place) (code : Code) (parameter : Value) : Run :=
  ⟨p.net.activate code p.store p.host parameter, [], .answer⟩

/-- The network once the run is asked for and nothing of it is done yet. -/
def start (p : Place) (code : Code) (parameter : Value) : Network :=
  { p.net with events := [], returned := none }.release [.run (p.run code parameter)]

/-- The run is all that a run asked for from outside brings up. -/
theorem returns_iff : p.Returns code parameter result ↔ ∃ steps net',
    Propagation.drive steps ⟨p.start code parameter, [.run (p.run code parameter)]⟩ = some net' ∧
      net'.returned = some result := by
  constructor
  · rintro ⟨steps, net', driven, returned⟩
    cases steps with
    | zero => cases driven
    | succ steps => exact ⟨steps, net', driven, returned⟩
  · rintro ⟨steps, net', driven, returned⟩
    exact ⟨steps + 1, net', driven, returned⟩

/-- Where nobody watches, compiled code returns unless it comes to wait for itself. -/
theorem settles_run (unwatched : p.net.Unwatched) (compiled : code.Compiled) (parameter : Value) :
    Settles (fun net => ∃ result, net.returned = some result) (p.start code parameter)
      [.run (p.run code parameter)] := by
  have asked : LeavesStores p.net { p.net with events := [], returned := none } := ⟨rfl, rfl⟩
  have started := asked.unwatched unwatched
  have ends : EndsWell Unwatched (fun net => ∃ result, net.returned = some result) .answer := by
    intro net result _ agenda
    refine .nil ⟨result, ?_⟩
    rw [returned_release]
    rfl
  exact Run.settles (r := p.run code parameter) carries_unwatched ends rfl compiled rfl
    (carries_unwatched.release [.run (p.run code parameter)] started)

/-- Code that reads these keys finds the same in two places where nobody watches, and runs for the
same identity. -/
structure Indistinct (keys : List String) (p q : Place) : Prop where
  unwatched : p.net.Unwatched
  unwatched' : q.net.Unwatched
  existing : p.store < p.net.stores.length
  existing' : q.store < q.net.stores.length
  self : q.self = p.self
  /-- Collections have the same contents. -/
  objects : q.net.objects = p.net.objects
  read : ∀ key ∈ keys, q.read key = p.read key

theorem Indistinct.symm {keys : List String} (h : Indistinct keys p q) : Indistinct keys q p :=
  ⟨h.unwatched', h.unwatched, h.existing', h.existing, h.self.symm, h.objects.symm,
    fun key member => (h.read key member).symm⟩

theorem Indistinct.agree {keys : List String} (h : Indistinct keys p q) (code : Code)
    (parameter : Value) : Agree keys p.store p.fallback q.store q.fallback
      (p.start code parameter) (q.start code parameter) := by
  have before : Agree keys p.store p.fallback q.store q.fallback p.net q.net :=
    ⟨h.unwatched, h.unwatched', h.existing, h.existing', h.objects, h.read⟩
  have asked (net : Network) : LeavesStores net { net with events := [], returned := none } :=
    ⟨rfl, rfl⟩
  have started := before.leaves (asked p.net) (asked q.net)
  exact started.leaves (started.unwatched.release _) (started.unwatched'.release _)

theorem Indistinct.twins {keys : List String} (h : Indistinct keys p q) (code : Code)
    (parameter : Value) : (p.run code parameter).Twins (q.run code parameter) :=
  ⟨rfl, congrArg (Context.mk parameter) h.self, rfl, rfl, rfl, rfl⟩

theorem Indistinct.sideBySide (h : Indistinct code.readKeys p q) (parameter : Value) :
    (p.run code parameter).SideBySide code.readKeys (q.run code parameter)
      ⟨p.start code parameter, [.run (p.run code parameter)]⟩
      ⟨q.start code parameter, [.run (q.run code parameter)]⟩ :=
  .underway (h.agree code parameter) (.between .start)

/-- Code that writes without looking does not wait. -/
theorem Indistinct.exists_returns (h : Indistinct code.readKeys p q) (compiled : code.Compiled)
    (plain : code.Plain) (parameter : Value) : ∃ result, p.Returns code parameter result := by
  have answered (p' : Propagation)
      (leads : Propagation.Leads ⟨p.start code parameter, [.run (p.run code parameter)]⟩ p') :
      ¬ p'.Waits := by
    obtain ⟨q', together⟩ := (h.sideBySide parameter).leads (h.twins code parameter) plain rfl leads
    exact together.not_waits
  obtain ⟨steps, net', driven, result, returned⟩ :=
    (settles_run h.unwatched compiled parameter).returns answered
  exact ⟨result, returns_iff.mpr ⟨steps, net', driven, returned⟩⟩

/-- What code that writes without looking returns in one place, it returns in the other. -/
theorem Indistinct.returns (h : Indistinct code.readKeys p q) (plain : code.Plain)
    (returns : p.Returns code parameter result) : q.Returns code parameter result := by
  obtain ⟨steps, net', driven, returned⟩ := returns_iff.mp returns
  obtain ⟨last, driven', same⟩ :=
    (h.sideBySide parameter).drive (h.twins code parameter) plain rfl steps driven
  exact returns_iff.mpr ⟨steps, last, driven', same.trans returned⟩

end Place

/-- Compiled code that neither counts nor changes elements returns the same wherever the keys it may
read have the same values, whatever else is there and in whichever scopes. -/
theorem Code.decided_by_readKeys {mode : AssignMode} {tokens : List Token} {code : Code}
    (compiled : Code.ofTokens mode tokens = .ok code)
    (plain : ∀ i ∈ code, i.op.updatesResource = false) {p q : Place}
    (alike : p.Indistinct code.readKeys q) (parameter : Value) :
    ∃ result, ∀ other, (p.Returns code parameter other ↔ other = result) ∧
      (q.Returns code parameter other ↔ other = result) := by
  obtain ⟨depth, keeps, -⟩ := Compiled.keeps ⟨mode, tokens, compiled⟩
  have plain : code.Plain := fun i member => ⟨plain i member, keeps.commandless i member⟩
  obtain ⟨result, returns⟩ := alike.exists_returns ⟨mode, tokens, compiled⟩ plain parameter
  refine ⟨result, fun other => ⟨⟨fun h => h.unique returns, ?_⟩, fun h => ?_, ?_⟩⟩
  · rintro rfl
    exact returns
  · exact (alike.symm.returns plain h).unique returns
  · rintro rfl
    exact alike.returns plain returns

/-- `$a ??= $b` -/
def fillFromB : List Token :=
  [.ofKind .dollar, .identifier "a", .ofKind .questionQuestionEquals, .ofKind .dollar,
    .identifier "b"]

/-- An inner scope without slots, with `$b` in the outer one. -/
def inheritingB : Place where
  net := { stores := [
    { ancestors := [], owner := .null, slots := Table.empty.insert "$b" (.int32 1) },
    { ancestors := [0], owner := .null }] }
  store := 1
  host := none

/-- A store where `$a` is null and `$c` is something, with `$b` in a fallback store. -/
def fallingBackToB : Place where
  net := { stores := [
    { ancestors := [], owner := .null,
      slots := (Table.empty.insert "$a" .null).insert "$c" (.int32 7) },
    { ancestors := [], owner := .null, slots := Table.empty.insert "$b" (.int32 1) }] }
  store := 0
  host := some { current := some .null, fallback := [1] }

theorem Code.decided_fillFromB : ∃ code, Code.ofTokens .nearest fillFromB = .ok code ∧
    inheritingB.Indistinct code.readKeys fallingBackToB ∧
    ∃ result, ∀ other, (inheritingB.Returns code .null other ↔ other = result) ∧
      (fallingBackToB.Returns code .null other ↔ other = result) := by
  have alike : inheritingB.Indistinct ["$a", "$b"] fallingBackToB := by
    refine ⟨?_, ?_, by decide, by decide, rfl, rfl, ?_⟩
    · exact List.forall_mem_cons.mpr ⟨rfl, List.forall_mem_singleton.mpr rfl⟩
    · exact List.forall_mem_cons.mpr ⟨rfl, List.forall_mem_singleton.mpr rfl⟩
    · exact List.forall_mem_cons.mpr ⟨rfl, List.forall_mem_singleton.mpr rfl⟩
  have compiled : Code.ofTokens .nearest fillFromB = .ok _ := rfl
  exact ⟨_, compiled, alike, Code.decided_by_readKeys compiled (by decide) alike .null⟩

end SlotScript
