import SlotScript.Proofs.Compiler.Correctness
import SlotScript.Proofs.Network.Consequence

/-! # Observables are up to date

An observable whose code only reads runs without anything else happening in between, so its value is
what its code gave at some moment. From then on either nothing that the code can see has changed, or
the observable is still to be told. When nothing is left to be done, it is not.
-/

namespace SlotScript

namespace Network

variable {w : Watcher} {net net' : Network}

theorem RootDefines.defines {store : StoreId} {keys : List String}
    (h : net.RootDefines store keys) : net.Defines store keys := by
  intro key member
  refine List.findSome?_isSome_iff.mpr ⟨net.root store, ?_, h key member⟩
  exact List.getLast_mem _

/-- The value is what reading gives now, if that succeeds. -/
def Fresh (net : Network) (o : Observable) : Prop :=
  ∀ f, net.Evaluates (net.activate o.code o.store none o.parameter) (.ok f) →
    o.value = f.outcome.toValue ∨ o.value.identical f.outcome.toValue

theorem Fresh.congr {o o' : Observable} (readOnly : o.code.ReadOnly)
    (alike : Alike o.store o.code.readKeys net net') (continues : o.Continues o')
    (fresh : net.Fresh o) : net'.Fresh o' := by
  intro f evaluates
  rw [continues.code, continues.store, continues.parameter, activate_congr alike] at evaluates
  rw [continues.value]
  exact fresh f (evaluates.congr readOnly alike.symm)

end Network

open Network

variable {w : Watcher} {net net' : Network} {agenda : List Task}

/-- The watcher is not running. It is up to date or still to be told. -/
structure Watcher.Idle (w : Watcher) (net : Network) (agenda : List Task) : Prop where
  settled : ∀ t ∈ agenda, t.Settled (some w) net
  current : ∀ o, net.live? w.id = some o → o.evaluating = false ∧
    (net.Fresh o ∨ .notify (.recalculate w.id) ∈ agenda)

/-- The watcher is running, on what can be seen at this moment. -/
structure Watcher.Running (w : Watcher) (net : Network) (agenda : List Task) (r : Run)
    (rest : List Task) : Prop where
  quiet : r.Quiet
  reading : r.Reading rest ⟨net, agenda⟩
  completion : r.completion = .recalculation w.id
  code : r.activation.code = w.code
  store : r.activation.store = w.store
  settled : ∀ t ∈ rest, t.Settled (some w) net
  current : ∀ o, net.live? w.id = some o →
    r.activation = net.activate o.code o.store none o.parameter

/-- What holds of an observable and its network from its creation on. -/
structure Watcher.Served (w : Watcher) (p : Propagation) : Prop where
  hostless : w.host = none
  sound : Sound (some w) p.net
  phase : w.Idle p.net p.agenda ∨ ∃ r rest, w.Running p.net p.agenda r rest

namespace Watcher

theorem settled_keeps (keeps : Keeps (some w) net net') {t : Task} (h : t.Settled (some w) net) :
    t.Settled (some w) net' :=
  h.mono keeps.next fun _ member => keeps.dead member

theorem record (sound : Sound (some w) net) {o : Observable} (alive : net.live? w.id = some o) :
    o.code = w.code ∧ o.store = w.store ∧ o.host = w.host :=
  (sound.minds w rfl).record o alive

theorem Idle.keeps (readOnly : w.code.ReadOnly) (sound : Sound (some w) net)
    (keeps : Keeps (some w) net net') (h : w.Idle net agenda) : w.Idle net' agenda := by
  refine ⟨fun t member => settled_keeps keeps (h.settled t member), ?_⟩
  intro o' alive
  obtain ⟨o, alive, continues⟩ := keeps.live w rfl o' alive
  obtain ⟨stopped, current⟩ := h.current o alive
  refine ⟨continues.evaluating.trans stopped, current.imp_left fun fresh => ?_⟩
  exact fresh.congr ((record sound alive).1 ▸ readOnly) (keeps.alike _ _) continues

theorem Running.keeps {r : Run} {rest : List Task} (keeps : Keeps (some w) net net')
    (h : w.Running net agenda r rest) : w.Running net' agenda r rest := by
  refine ⟨h.quiet, h.reading.congr h.quiet (keeps.alike _ _), h.completion, h.code, h.store,
    fun t member => settled_keeps keeps (h.settled t member), ?_⟩
  intro o' alive
  obtain ⟨o, alive, continues⟩ := keeps.live w rfl o' alive
  rw [continues.code, continues.store, continues.parameter,
    activate_congr (keeps.alike o.store [])]
  exact h.current o alive

/-- What is released in between is no concern of the watcher. -/
theorem Served.release (readOnly : w.code.ReadOnly) {p : Propagation} (h : w.Served p)
    (tasks : List Task) : w.Served ⟨p.net.release tasks, p.agenda⟩ := by
  have keeps := Keeps.release h.sound tasks
  refine ⟨h.hostless, keeps.sound, ?_⟩
  obtain idle | ⟨r, rest, running⟩ := h.phase
  · exact .inl (idle.keeps readOnly h.sound keeps)
  · exact .inr ⟨r, rest, running.keeps keeps⟩

theorem Idle.perform (readOnly : w.code.ReadOnly) (hostless : w.host = none)
    (sound : Sound (some w) net) {task : Task} {rest : List Task}
    (h : w.Idle net (task :: rest)) (unchanged : ¬ task.Replaces)
    (other : task = .notify (.recalculate w.id) → net.live? w.id = none) :
    w.Served ⟨(task.perform net).1, (task.perform net).2 ++ rest⟩ := by
  have follows : Follows (some w) net (task.perform net) := by
    refine follows_perform sound (h.settled task (.head _)) ?_ ?_
    · rintro w' ⟨⟩
      exact other
    · exact fun _ _ => unchanged
  refine ⟨hostless, follows.sound,
    .inl ⟨follows.settled_append fun t member => h.settled t (.tail _ member), ?_⟩⟩
  · intro o' alive
    obtain ⟨o, before, same, told⟩ := follows.informs w rfl o' alive
    obtain ⟨stopped, current⟩ := h.current o before
    refine ⟨same.trans stopped, ?_⟩
    obtain told | ⟨continues, alike⟩ := told
    · exact .inr (List.mem_append_left _ told)
    · obtain ⟨code, store, -⟩ := record sound before
      obtain fresh | pending := current
      · rw [← code, ← store] at alike
        exact .inl (fresh.congr (code ▸ readOnly) alike continues)
      · cases pending with
        | head =>
            rw [other rfl] at before
            cases before
        | tail _ pending => exact .inr (List.mem_append_right _ pending)

/-- An observable that is alive and not running starts to run when it is told. -/
theorem Idle.recalculate (readOnly : w.code.ReadOnly) (hostless : w.host = none)
    (sound : Sound (some w) net) {rest : List Task}
    (h : w.Idle net (.notify (.recalculate w.id) :: rest)) {o : Observable}
    (alive : net.live? w.id = some o) :
    w.Served ⟨(net.recalculate w.id).1, (net.recalculate w.id).2 ++ rest⟩ := by
  obtain ⟨found, active⟩ := live?_eq_some_iff.mp alive
  obtain ⟨code, store, host⟩ := record sound alive
  have stopped := (h.current o alive).1
  have started : net.recalculate w.id =
      (net.modifyObservable w.id fun o => { o with evaluating := true },
        [.run ⟨net.activate o.code o.store none o.parameter, [], .recalculation w.id⟩]) := by
    simp [Network.recalculate, found, active, stopped, host, hostless]
  have own : o.code.ReadOnly := code ▸ readOnly
  rw [started]
  refine ⟨hostless, sound.modifyObservable (fun _ _ member => member)
    fun _ _ _ o _ active => ⟨active, ⟨rfl, rfl, rfl⟩⟩, .inr ⟨⟨net.activate o.code o.store none
      o.parameter, [], .recalculation w.id⟩, rest, ⟨own, rfl, rfl⟩, .start rfl _, rfl, code, store,
      ?_, ?_⟩⟩
  · intro t member
    refine (h.settled t (.tail _ member)).mono (Nat.le_refl _) ?_
    rintro w' ⟨⟩ dead
    rw [alive] at dead
    cases dead
  · intro o' alive'
    obtain ⟨o'', before, rfl⟩ := live?_modifyObservable_self
      (f := fun o => { o with evaluating := true }) (fun _ => rfl) alive'
    cases before.symm.trans alive
    rfl

/-- What the end of a run of its own means for an observable. -/
structure Concluded (w : Watcher) (net : Network) (result : Except Failure Outcome)
    (followed : Followed) : Prop where
  sound : Sound (some w) followed.1
  next : followed.1.nextObservable = net.nextObservable
  alike : Alike w.store w.code.readKeys net followed.1
  settled : ∀ t ∈ followed.2, t.Settled (some w) followed.1
  current : ∀ o', followed.1.live? w.id = some o' → ∃ o, net.live? w.id = some o ∧
    o.Resembles o' ∧ o'.parameter = o.parameter ∧ o'.evaluating = false ∧
      ∀ outcome, result = .ok outcome →
        o'.value = outcome.toValue ∨ o'.value.identical outcome.toValue

theorem sound_stop (sound : Sound (some w) net) :
    Sound (some w) (net.modifyObservable w.id fun o => { o with evaluating := false }) :=
  sound.modifyObservable (fun _ _ member => member)
    fun _ _ _ _ _ active => ⟨active, ⟨rfl, rfl, rfl⟩⟩

/-- The value stays what it was. -/
theorem Concluded.kept (sound : Sound (some w) net) {result : Except Failure Outcome}
    (same : ∀ o, net.live? w.id = some o → ∀ outcome, result = .ok outcome →
      o.value.identical outcome.toValue) :
    w.Concluded net result
      (net.modifyObservable w.id fun o => { o with evaluating := false }, []) := by
  refine ⟨sound_stop sound, rfl, alike_of_stores rfl rfl, List.forall_mem_nil _, ?_⟩
  intro o' later
  obtain ⟨o, alive, rfl⟩ := live?_modifyObservable_self
    (f := fun o => { o with evaluating := false }) (fun _ => rfl) later
  refine ⟨o, alive, ⟨rfl, rfl, rfl⟩, rfl, rfl, ?_⟩
  exact fun outcome ended => .inr (same o alive outcome ended)

/-- The value becomes the result, and the observers are told. -/
theorem Concluded.published (sound : Sound (some w) net) (outcome : Outcome)
    (observers : List Observer) (shown : Value) (held : List Holding) :
    w.Concluded net (.ok outcome)
      ((net.modifyObservable w.id fun o => { o with evaluating := false }).modifyObservable w.id
        fun o => { o with value := outcome.toValue },
        observers.map (Task.deliver · shown) ++ [.letGo held]) := by
  refine ⟨(sound_stop sound).modifyObservable (fun _ _ member => member) ?_, rfl,
    alike_of_stores rfl rfl, settled_deliveries _ _ _, ?_⟩
  · exact fun _ _ _ o _ active => ⟨active, ⟨rfl, rfl, rfl⟩⟩
  · intro o'' later
    obtain ⟨o', stopped, rfl⟩ := live?_modifyObservable_self
      (f := fun o => { o with value := outcome.toValue }) (fun _ => rfl) later
    obtain ⟨o, alive, rfl⟩ := live?_modifyObservable_self
      (f := fun o => { o with evaluating := false }) (fun _ => rfl) stopped
    refine ⟨o, alive, ⟨rfl, rfl, rfl⟩, rfl, rfl, ?_⟩
    rintro outcome' ⟨⟩
    exact .inl rfl

theorem concluded (sound : Sound (some w) net) (result : Except Failure Outcome) :
    w.Concluded net result (net.conclude result (.recalculation w.id)) := by
  cases result with
  | error failure => exact .kept sound fun _ _ => nofun
  | ok outcome =>
      simp only [conclude, publish, find?_modifyObservable_self]
      split
      case h_1 o' found' =>
        obtain ⟨o, found, rfl⟩ := Option.map_eq_some_iff.mp found'
        split
        case isTrue same =>
          refine .kept sound ?_
          rintro o₁ alive outcome' ⟨⟩
          obtain ⟨found₁, active⟩ := live?_eq_some_iff.mp alive
          cases found.symm.trans found₁
          rwa [active, Bool.false_or] at same
        case isFalse => exact .published sound outcome _ _ _
      case h_2 absent =>
        refine .kept sound fun o alive => ?_
        obtain ⟨found, -⟩ := live?_eq_some_iff.mp alive
        rw [found] at absent
        cases absent

/-- A run of its own goes on or comes to its end. -/
theorem Running.perform (readOnly : w.code.ReadOnly) (hostless : w.host = none)
    (sound : Sound (some w) net) {r : Run} {rest : List Task} (h : w.Running net agenda r rest)
    (defines : net.Defines w.store w.code.readKeys) : ∃ task behind, agenda = task :: behind ∧
      w.Served ⟨(task.perform net).1, (task.perform net).2 ++ behind⟩ := by
  have sees : net.Defines r.activation.store r.activation.code.readKeys := by
    rw [h.code, h.store]
    exact defines
  obtain ⟨task, behind, rfl, ⟨-, same, reading⟩ | ⟨result, -, rfl, evaluates, performed⟩⟩ :=
    h.reading.perform h.quiet sees
  · refine ⟨task, behind, rfl, ?_⟩
    rw [same]
    exact ⟨hostless, sound, .inr ⟨r, rest, h.quiet, reading, h.completion, h.code, h.store,
      h.settled, h.current⟩⟩
  · refine ⟨task, behind, rfl, ?_⟩
    rw [performed, h.completion]
    have ended := concluded sound ((result.map Frame.outcome).mapError .runtime)
    refine ⟨hostless, ended.sound, .inl ⟨?_, ?_⟩⟩
    · intro t member
      obtain member | member := List.mem_append.mp member
      · exact ended.settled t member
      · refine (h.settled t member).mono (Nat.le_of_eq ended.next.symm) ?_
        rintro w' ⟨⟩ dead
        exact dead_of_live ended.current dead
    · intro o' alive
      obtain ⟨o, alive, same, parameter, stopped, value⟩ := ended.current o' alive
      refine ⟨stopped, .inl ?_⟩
      obtain ⟨code, store, -⟩ := record sound alive
      intro f now
      rw [same.code, same.store, parameter, code, store, activate_congr ended.alike] at now
      have own := h.current o alive
      rw [code, store] at own
      have before := now.congr readOnly ended.alike.symm
      rw [← own] at before
      cases evaluates.unique before
      exact value _ rfl

theorem Served.step (readOnly : w.code.ReadOnly) {p : Propagation} (h : w.Served p)
    (calm : p.Calm w.store w.code.readKeys) (busy : p.agenda ≠ []) : w.Served p.step := by
  obtain ⟨task, rest, agenda⟩ := List.exists_cons_of_ne_nil busy
  have performed : w.Served ⟨(task.perform p.net).1, (task.perform p.net).2 ++ rest⟩ := by
    obtain idle | ⟨r, own_rest, running⟩ := h.phase
    · rw [agenda] at idle
      have unchanged : ¬ task.Replaces := calm.unchanged task (by rw [agenda]; rfl)
      by_cases own : task = .notify (.recalculate w.id)
      · cases alive : p.net.live? w.id with
        | none => exact idle.perform readOnly h.hostless h.sound unchanged fun _ => alive
        | some o =>
            subst own
            exact idle.recalculate readOnly h.hostless h.sound alive
      · exact idle.perform readOnly h.hostless h.sound unchanged fun same => (own same).elim
    · obtain ⟨task', behind, agenda', served⟩ :=
        running.perform readOnly h.hostless h.sound calm.defines.defines
      obtain ⟨rfl, rfl⟩ := List.cons.inj (agenda.symm.trans agenda')
      exact served
  have released := performed.release readOnly ((task.perform p.net).2 ++ rest)
  simpa only [Propagation.step, agenda] using released

theorem Served.next (readOnly : w.code.ReadOnly) {p q : Propagation} (h : w.Served p)
    (calm : p.Calm w.store w.code.readKeys) (next : p.Next q) : w.Served q := by
  cases next with
  | task busy => exact h.step readOnly calm busy
  | ask net op =>
      have asked : Keeps (some w) net (net.ask op).net := .inert h.sound rfl rfl rfl rfl rfl rfl
      refine ⟨h.hostless, asked.sound, .inl ⟨List.forall_mem_singleton.mpr trivial, ?_⟩⟩
      obtain idle | ⟨r, rest, running⟩ := h.phase
      · intro o alive
        obtain ⟨stopped, current⟩ := (idle.keeps readOnly h.sound asked).current o alive
        exact ⟨stopped, current.imp_right fun pending => nomatch pending⟩
      · obtain ⟨above, own, -, -, agenda, -⟩ := running.reading
        simp at agenda

theorem Served.record {p : Propagation} (h : w.Served p) {o : Observable}
    (alive : p.net.live? w.id = some o) :
    o.code = w.code ∧ o.store = w.store ∧ o.host = none :=
  h.hostless ▸ Watcher.record h.sound alive

/-- When nothing is left to be done, a live observable is up to date. -/
theorem Served.fresh {p : Propagation} (h : w.Served p) (done : p.agenda = []) {o : Observable}
    (alive : p.net.live? w.id = some o) : p.net.Fresh o := by
  obtain idle | ⟨r, rest, running⟩ := h.phase
  · obtain ⟨-, fresh | pending⟩ := idle.current o alive
    · exact fresh
    · rw [done] at pending
      cases pending
  · obtain ⟨above, own, -, -, agenda, -⟩ := running.reading
    rw [done] at agenda
    simp at agenda

end Watcher

/-- A network in which no observable is looked at in particular, with what is still to be done. -/
structure Propagation.Sound (p : Propagation) : Prop where
  net : Network.Sound none p.net
  settled : ∀ t ∈ p.agenda, t.Settled none p.net

theorem Propagation.Sound.next {p q : Propagation} (h : p.Sound) (next : p.Next q) : q.Sound := by
  cases next with
  | ask net op =>
      have asked : Keeps none net (net.ask op).net := .inert h.net rfl rfl rfl rfl rfl rfl
      exact ⟨asked.sound, List.forall_mem_singleton.mpr trivial⟩
  | task busy =>
      obtain ⟨task, rest, agenda⟩ := List.exists_cons_of_ne_nil busy
      have settled := agenda ▸ h.settled
      have follows := follows_perform h.net (settled task (.head _))
        (fun w member => by cases member) fun w member => by cases member
      have keeps := Keeps.release follows.sound ((task.perform p.net).2 ++ rest)
      have stepped : p.step = ⟨(task.perform p.net).1.release ((task.perform p.net).2 ++ rest),
          (task.perform p.net).2 ++ rest⟩ := by
        simp only [Propagation.step, agenda]
      rw [stepped]
      refine ⟨keeps.sound, fun t member => Task.Settled.mono ?_ keeps.next
        fun w member => by cases member⟩
      exact follows.settled_append (fun t member => settled t (.tail _ member)) t member

theorem Network.Untouched.sound {net : Network} (h : net.Untouched) :
    Propagation.Sound ⟨net, []⟩ := by
  obtain ⟨subscriptions, observables, bindings⟩ := h
  refine ⟨⟨?_, ?_, ?_, ?_, nofun⟩, List.forall_mem_nil _⟩
  · intro label sub found
    rw [subscriptions] at found
    cases found
  · intro id o found
    rw [observables] at found
    cases found
  · intro id o found
    rw [observables] at found
    cases found
  · intro id b found
    rw [bindings] at found
    cases found

/-- A step of a run that only reads, short of its end. -/
theorem Run.Reading.step {w? : Option Watcher} {r : Run} {rest : List Task} {q : Propagation}
    (quiet : r.Quiet) (sound : Network.Sound w? q.net)
    (defines : q.net.Defines r.activation.store r.activation.code.readKeys)
    (h : r.Reading rest q)
    (unfinished : ∀ task result, q.agenda = task :: rest → task.ending? ≠ some result) :
    r.Reading rest q.step ∧ Keeps w? q.net q.step.net := by
  obtain ⟨task, behind, agenda, ⟨-, same, reading⟩ | ⟨result, ended, rfl, -, -⟩⟩ :=
    h.perform quiet defines
  · have stepped : q.step = ⟨q.net.release ((task.perform q.net).2 ++ behind),
        (task.perform q.net).2 ++ behind⟩ := by
      simp only [Propagation.step, agenda, same]
    have keeps := Keeps.release sound ((task.perform q.net).2 ++ behind)
    rw [stepped]
    exact ⟨reading.congr quiet (keeps.alike _ _), keeps⟩
  · exact (unfinished task result agenda ended).elim

/-- The last step of a run that only reads. -/
theorem Run.Reading.concludes {r : Run} {rest : List Task} {q : Propagation} (quiet : r.Quiet)
    (defines : q.net.Defines r.activation.store r.activation.code.readKeys)
    (h : r.Reading rest q) {task : Task} {result : Except RuntimeError Frame}
    (at_top : q.agenda = task :: rest) (ended : task.ending? = some result) :
    q.net.Evaluates r.activation result ∧ task.perform q.net =
      q.net.conclude ((result.map Frame.outcome).mapError .runtime) r.completion := by
  obtain ⟨task', behind, agenda, ⟨going, -⟩ | ⟨result', ended', -, evaluates, performed⟩⟩ :=
    h.perform quiet defines
  · obtain ⟨rfl, -⟩ := List.cons.inj (at_top.symm.trans agenda)
    rw [going] at ended
    cases ended
  · obtain ⟨rfl, -⟩ := List.cons.inj (at_top.symm.trans agenda)
    cases ended.symm.trans ended'
    exact ⟨evaluates, performed⟩

/-- Up to its end, the course of a run that only reads is nothing but the run. -/
theorem Course.reading {r : Run} {rest : List Task} {net : Network} {log : List (Network × Task)}
    {q : Propagation} (quiet : r.Quiet) (fresh : r.activation.frame = .start)
    (sound : Network.Sound none net)
    (defines : net.Defines r.activation.store r.activation.code.readKeys)
    (course : Course rest ⟨net, .run r :: rest⟩ log q) :
    r.Reading rest q ∧ Keeps none net q.net := by
  induction course with
  | start => exact ⟨.start fresh net, .refl sound⟩
  | own _ agenda going ih =>
      obtain ⟨reading, keeps⟩ := ih
      obtain ⟨later, kept⟩ := reading.step quiet keeps.sound ((keeps.alike _ _).defines defines)
        fun task' result agenda' ended => by
          obtain ⟨rfl, -⟩ := List.cons.inj (agenda.symm.trans agenda')
          rw [going] at ended
          cases ended
      exact ⟨later, keeps.trans kept⟩
  | other _ agenda ih =>
      obtain ⟨reading, keeps⟩ := ih
      obtain ⟨later, kept⟩ := reading.step quiet keeps.sound ((keeps.alike _ _).defines defines)
        fun task' result agenda' _ => by
          have lengths := congrArg List.length (agenda.symm.trans agenda')
          simp only [List.length_cons, List.length_append] at lengths
          omega
      exact ⟨later, keeps.trans kept⟩

/-- An observable that is made with the value that its code gives. -/
theorem Watcher.served_addObservable {net : Network} {rest : List Task}
    (sound : Network.Sound none net) (settled : ∀ t ∈ rest, t.Settled none net) (name : String)
    {o : Observable} (hostless : o.host = none) (stopped : o.evaluating = false)
    (readOnly : o.code.ReadOnly) (fresh : net.Fresh o) :
    (net.watcherOf o).Served ⟨net.addObservable name o, rest⟩ := by
  refine ⟨hostless, sound.addObservable name o, .inl ⟨?_, ?_⟩⟩
  · intro t member
    have before := settled t member
    cases t with
    | adopt => exact before
    | run | proceed =>
        intro id completes
        obtain ⟨older, -⟩ := before id completes
        refine ⟨Nat.lt_succ_of_lt older, ?_⟩
        rintro w ⟨⟩ same
        exact (Nat.ne_of_lt older same).elim
    | _ => trivial
  · intro o' alive
    obtain ⟨added, -⟩ := live?_eq_some_iff.mp alive
    obtain ⟨-, rfl⟩ | ⟨other, -⟩ := find?_addObservable added
    · have keeps := Keeps.addObservable sound name o
      refine ⟨stopped, .inl (fresh.congr readOnly (keeps.alike _ _) ?_)⟩
      exact ⟨⟨rfl, rfl, rfl⟩, rfl, rfl, rfl⟩
    · exact (other rfl).elim

/-- An observable is made with what its code gave by reading. -/
theorem Watcher.served_creation {net net' : Network} {rest : List Task}
    (keeps : Keeps none net net') (settled : ∀ t ∈ rest, t.Settled none net) (name : String)
    {code : Code} {store : StoreId} {parameter : Value} {f : Frame} (readOnly : code.ReadOnly)
    (evaluates : net'.Evaluates (net.activate code store none parameter) (.ok f)) :
    ∃ w : Watcher, w.id = net'.nextObservable ∧ w.code = code ∧ w.store = store ∧
      w.Served ⟨(net'.conclude (.ok f.outcome)
        (.creation name { store, host := none, code, parameter })).1, rest⟩ := by
  have returned : Keeps none net' { net' with returned := some (.ok f.outcome) } :=
    .inert keeps.sound rfl rfl rfl rfl rfl rfl
  have before := keeps.trans returned
  have fresh : Fresh { net' with returned := some (.ok f.outcome) }
      { store, host := none, code, parameter, value := f.outcome.toValue } := by
    intro f' now
    rw [activate_congr (before.alike store [])] at now
    cases evaluates.unique (now.congr readOnly (returned.alike _ _).symm)
    exact .inl rfl
  have still (t : Task) (member : t ∈ rest) :
      t.Settled none { net' with returned := some (.ok f.outcome) } :=
    (settled t member).mono before.next nofun
  exact ⟨_, rfl, rfl, rfl, served_addObservable returned.sound still name rfl rfl readOnly fresh⟩

/-- The run by which an observable without a host is made. -/
def Network.creationRun (net : Network) (name : String) (code : Code) (store : StoreId)
    (parameter : Value) : Run :=
  ⟨net.activate code store none parameter, [],
    .creation name { store, host := none, code, parameter }⟩

theorem Propagation.step_observe {net : Network} {name : String} {source : Source} {code : Code}
    {store : StoreId} {parameter delivered : Value} {label : Option String} {rest : List Task}
    (compiled : source.compile = .ok code) :
    Propagation.step
        ⟨net, .operate (.observe name source store none parameter) delivered label :: rest⟩ =
      ⟨net.release (.run (net.creationRun name code store parameter) :: rest),
        .run (net.creationRun name code store parameter) :: rest⟩ := by
  simp [Propagation.step, Task.perform, operate, start, compiled, creationRun]

/-- An observable that is made is served from then on. -/
theorem Creation.served {code : Code} {store : StoreId} {id : ObservableId} {p q : Propagation}
    (created : Creation code store id p q) (readOnly : code.ReadOnly) (sound : p.Sound)
    (defines : p.net.Defines store code.readKeys) :
    ∃ w : Watcher, w.id = id ∧ w.code = code ∧ w.store = store ∧ w.Served q := by
  cases created with
  | @made net name source parameter delivered label rest log q task f compiled course at_top ended
      numbered =>
      rw [Propagation.step_observe compiled] at course
      have quiet : (net.creationRun name code store parameter).Quiet := ⟨readOnly, rfl, rfl⟩
      have released := Keeps.release sound.net
        (.run (net.creationRun name code store parameter) :: rest)
      obtain ⟨reading, kept⟩ := course.reading quiet rfl released.sound
        ((released.alike _ _).defines defines)
      have keeps := released.trans kept
      obtain ⟨evaluates, performed⟩ := reading.concludes quiet
        ((keeps.alike store code.readKeys).defines defines) at_top ended
      obtain ⟨w, made, same_code, same_store, served⟩ := Watcher.served_creation keeps
        (fun t member => sound.settled t (.tail _ member)) name readOnly evaluates
      have stepped : q.step = ⟨(q.net.conclude (.ok f.outcome) (net.creationRun name code store
          parameter).completion).1.release rest, rest⟩ := by
        simp only [Propagation.step, at_top, performed]
        rfl
      rw [stepped]
      exact ⟨w, made.trans numbered, same_code, same_store,
        served.release (same_code ▸ readOnly) rest⟩

namespace Network

theorem returned_release (net : Network) (agenda : List Task) :
    (net.release agenda).returned = net.returned :=
  release_keeps Network.returned (fun _ reg => by cases reg <;> rfl) (fun _ _ => rfl)
    (fun _ _ => rfl) net agenda

end Network

/-- A run that only reads returns what reading gives. -/
theorem Run.Reading.drive {w? : Option Watcher} {r : Run} (quiet : r.Quiet)
    (asked : r.completion = .answer) (steps : Nat) {q : Propagation} {net : Network}
    (h : r.Reading [] q) (sound : Network.Sound w? q.net)
    (defines : q.net.Defines r.activation.store r.activation.code.readKeys)
    (driven : q.drive steps = some net) :
    ∃ result, q.net.Evaluates r.activation result ∧
      net.returned = some ((result.map Frame.outcome).mapError .runtime) := by
  induction steps generalizing q with
  | zero =>
      obtain ⟨task, behind, agenda, -⟩ := h.perform quiet defines
      simp [Propagation.drive, agenda] at driven
  | succ steps ih =>
      obtain ⟨task, behind, agenda, ⟨going, -⟩ | ⟨result, ended, rfl, evaluates, performed⟩⟩ :=
        h.perform quiet defines
      · simp only [Propagation.drive, agenda] at driven
        obtain ⟨reading, keeps⟩ := h.step quiet sound defines fun task' result agenda' ended => by
          obtain ⟨rfl, -⟩ := List.cons.inj (agenda.symm.trans agenda')
          rw [going] at ended
          cases ended
        obtain ⟨result, evaluates, returned⟩ :=
          ih reading keeps.sound ((keeps.alike _ _).defines defines) driven
        exact ⟨result, evaluates.congr quiet.readOnly (keeps.alike _ _).symm, returned⟩
      · have stepped : q.step = ⟨Network.release { q.net with
            returned := some ((result.map Frame.outcome).mapError .runtime) } [], []⟩ := by
          simp only [Propagation.step, agenda, performed, asked]
          rfl
        simp only [Propagation.drive, agenda] at driven
        rw [if_neg (by simp), stepped, Propagation.drive_done] at driven
        cases driven
        exact ⟨result, evaluates, returned_release _ []⟩

/-- Running code on a store returns what reading gives, if the code only reads. -/
theorem Network.WouldReturn.evaluates {w? : Option Watcher} {net : Network} {code : Code}
    {store : StoreId} {parameter : Value} {result : Except Failure Outcome}
    (sound : Network.Sound w? net) (readOnly : code.ReadOnly)
    (defines : net.Defines store code.readKeys)
    (h : net.WouldReturn (.execute (.code code) store none (some parameter)) result) :
    ∃ end?, net.Evaluates (net.activate code store none parameter) end? ∧
      result = (end?.map Frame.outcome).mapError .runtime := by
  obtain ⟨steps, net', driven, returned⟩ := h
  cases steps with
  | zero => cases driven
  | succ steps =>
      let r : Run := ⟨net.activate code store none parameter, [], .answer⟩
      have quiet : r.Quiet := ⟨readOnly, rfl, rfl⟩
      have asked : Keeps w? net (net.ask
          (.execute (.code code) store none (some parameter))).net :=
        .inert sound rfl rfl rfl rfl rfl rfl
      have keeps := asked.trans (.release asked.sound [.run r])
      have begun : r.Reading [] ⟨net, [.run r]⟩ := .start rfl net
      have reading := begun.congr quiet (keeps.alike _ _)
      obtain ⟨end?, evaluates, returned'⟩ := reading.drive quiet rfl steps keeps.sound
        ((keeps.alike _ _).defines defines) driven
      refine ⟨end?, evaluates.congr readOnly (keeps.alike _ _).symm, ?_⟩
      exact Option.some.inj (returned.symm.trans returned')

/-- An observable whose code only reads, on a store whose outermost scope has all keys it may read
from its creation on, is up to date whenever nothing is left to be done, whatever else happened. -/
theorem Creation.upToDate {mode : AssignMode} {tokens : List Token} {code : Code}
    {store : StoreId} {id : ObservableId} {start : Network} {p q last : Propagation}
    {o : Observable} (compiled : Code.ofTokens mode tokens = .ok code)
    (silent : ∀ i ∈ code, i.op.writesResource = false) (untouched : start.Untouched)
    (before : Session (fun _ => True) ⟨start, []⟩ p)
    (defined : p.net.RootDefines store code.readKeys) (created : Creation code store id p q)
    (after : Session (Propagation.Calm store code.readKeys) q last) (done : last.agenda = [])
    (alive : last.net.live? id = some o) :
    o.code = code ∧ o.store = store ∧ o.host = none ∧ last.net.UpToDate o := by
  obtain ⟨program, -, emitted⟩ := Code.eq_emit_of_ofTokens compiled
  have readOnly : code.ReadOnly := fun i member =>
    ⟨silent i member, (emitted ▸ program.keeps_emit mode).commandless i member⟩
  obtain ⟨sound, -⟩ := before.preserves untouched.sound fun _ sound next _ => sound.next next
  obtain ⟨w, rfl, rfl, rfl, served⟩ := created.served readOnly sound defined.defines
  obtain ⟨served, calm⟩ := after.preserves served fun calm served next _ =>
    served.next readOnly calm next
  obtain ⟨code, store, host⟩ := served.record alive
  refine ⟨code, store, host, ?_⟩
  intro outcome returned
  have defines := calm.defines.defines
  rw [host, code, store] at returned
  obtain ⟨end?, evaluates, same⟩ := returned.evaluates served.sound readOnly defines
  cases end? with
  | error => cases same
  | ok f =>
      cases same
      have fresh := served.fresh done alive
      rw [← code, ← store] at evaluates
      exact fresh f evaluates

/-- Two scopes, with `$a` in the outer one. -/
def twoScopes : Network where
  stores := [
    { ancestors := [], owner := .null, slots := Table.empty.insert "$a" (.int32 1) },
    { ancestors := [0], owner := .null }]

/-- `$a` is observed in the inner scope. -/
def observingA : Propagation :=
  twoScopes.ask (.observe "x" (.code [.keyed .getResource "$a"]) 1 none .null)

/-- The inner scope gets an `$a` of its own. -/
def shadowingA : Propagation :=
  observingA.step.step.step.step.step.net.ask (.set 1 "$a" (.int32 2))

theorem creation_observingA : Creation [.keyed .getResource "$a"] 1 0 observingA
    observingA.step.step.step.step.step :=
  .made rfl (@Course.other _ _ _ _ _ _ [] (.own (.own .start rfl rfl) rfl rfl) rfl) rfl rfl rfl

theorem session_shadowingA : Session (Propagation.Calm 1 ["$a"])
    observingA.step.step.step.step.step shadowingA.step.step.step.step.step.step.step := by
  refine .task ?_ rfl (.of_nil rfl (by decide))
  iterate 6 refine .task ?_ rfl (.of_cons rfl (by decide) id)
  exact .next (.start (.of_nil rfl (by decide))) (.ask _ _) (.of_cons rfl (by decide) id)

theorem Creation.upToDate_shadowingA : ∃ last : Propagation, ∃ o : Observable,
    Session (Propagation.Calm 1 ["$a"]) observingA.step.step.step.step.step last ∧
      last.net.live? 0 = some o ∧ o.value = .int32 2 ∧ last.net.UpToDate o := by
  have compiled : Code.ofTokens .nearest [.ofKind .dollar, .identifier "a"] =
      .ok [.keyed .getResource "$a"] := rfl
  have before : Session (fun _ => True) ⟨twoScopes, []⟩ observingA :=
    .next (.start trivial) (.ask _ _) trivial
  have fresh := Creation.upToDate compiled (by decide) ⟨rfl, rfl, rfl⟩ before (by decide)
    creation_observingA session_shadowingA rfl rfl
  exact ⟨_, _, session_shadowingA, rfl, rfl, fresh.2.2.2⟩

end SlotScript
