import SlotScript.Proofs.Network.Attention

/-! # Changes while nothing runs

While an observable is running it takes no notice of what it is told. That is meant for what its own
code writes, but whatever others do in the meantime is passed over as well. It is marked as running
only as long as a run of its own is under way, though, and a change that is made at any other time
is not lost: the observable is run from the beginning before whoever made the change goes on.
-/

namespace SlotScript

open Network

variable {P : Propagation → Prop} {p q : Propagation} {past : List Propagation} {task : Task}
  {rest : List Task} {id : ObservableId} {o o' : Observable} {w : Watcher}

namespace Propagation

/-- Told at this moment, the observable is about to run its code from the beginning. -/
def Wakes (id : ObservableId) (p : Propagation) : Prop :=
  ∃ o, p.net.live? id = some o ∧ p.agenda.head? = some (.notify (.recalculate id)) ∧
    p.step.agenda = .run ⟨p.net.activate o.code o.store o.host o.parameter, [],
      .recalculation id⟩ :: p.agenda.tail

/-- Another parameter is given to an observable, or its scopes get something else under a key that
its code may read. -/
def Concerns (id : ObservableId) (o : Observable) (p : Propagation) : Prop :=
  (∃ name v delivered label,
    p.agenda.head? = some (.operate (.setParameter name v) delivered label) ∧
      p.net.observableNames.find? name = some id) ∨
  ∃ key ∈ o.code.readKeys, p.step.net.lookup? o.store key ≠ p.net.lookup? o.store key

/-- An observable that is marked as running has a run under way. -/
def Marked (p : Propagation) : Prop :=
  ∀ id o, p.net.live? id = some o → o.evaluating = true → ∃ t ∈ p.agenda, t.Evaluates id

theorem wakes_iff : p.Wakes id ↔ ∃ task ∈ p.agenda.head?, p.net.Starts id task := by
  constructor
  · rintro ⟨o, alive, told, begins⟩
    refine ⟨_, told, rfl, ?_⟩
    obtain ⟨rest, agenda⟩ := List.head?_eq_some_iff.mp told
    obtain ⟨found, active⟩ := live?_eq_some_iff.mp alive
    rw [agenda_step agenda] at begins
    cases running : o.evaluating with
    | false => simp [alive, running]
    | true => simp [agenda, Task.perform, notify, recalculate, found, running] at begins
  · rintro ⟨task, told, starts⟩
    obtain ⟨rest, agenda⟩ := List.head?_eq_some_iff.mp told
    obtain ⟨o, alive, performed⟩ := starts.performed
    refine ⟨o, alive, Task.eq_of_telling starts.1 ▸ told, ?_⟩
    rw [agenda_step agenda, performed, agenda]
    rfl

instance (id : ObservableId) (p : Propagation) : Decidable (p.Wakes id) :=
  decidable_of_iff _ wakes_iff.symm

/-- A watcher stays one. -/
theorem Sound.watcher (h : p.Sound) (sound : Network.Sound (some w) p.net) (next : p.Next q) :
    Network.Sound (some w) q.net := by
  cases next with
  | ask net op =>
      have asked : Keeps (some w) net (net.ask op).net := .inert sound rfl rfl rfl rfl rfl rfl
      exact asked.sound
  | task busy =>
      obtain ⟨task, rest, agenda⟩ := List.exists_cons_of_ne_nil busy
      have performed := sound_perform sound (h.settled task (agenda ▸ .head _))
      have released := Keeps.release performed ((task.perform p.net).2 ++ rest)
      simpa only [Propagation.step, agenda] using released.sound

/-- Whoever does not start at this moment was alive before, and goes on running if at all. -/
theorem Sound.running (h : p.Sound) (sound : Network.Sound (some w) p.net)
    (agenda : p.agenda = task :: rest) (other : ¬ p.net.Starts w.id task)
    (alive : p.step.net.live? w.id = some o') : ∃ o, p.net.live? w.id = some o ∧
      (o'.evaluating = true → o.evaluating = true ∧
        (task.Evaluates w.id → ∃ t ∈ (task.perform p.net).2, t.Evaluates w.id)) := by
  have settled := h.settled task (agenda ▸ .head _)
  have released := Keeps.release (sound_perform sound settled) ((task.perform p.net).2 ++ rest)
  simp only [Propagation.step, agenda] at alive
  obtain ⟨o, between, continues⟩ := released.live w rfl o' alive
  rw [continues.evaluating]
  exact (attends_perform sound settled other).live o between

/-- Whoever has come to an end does not come back. -/
theorem Sound.ended (h : p.Sound) (sound : Network.Sound (some w) p.net) (next : p.Next q)
    (dead : p.net.live? w.id = none) : q.net.live? w.id = none := by
  cases next with
  | ask net op => exact dead
  | task busy =>
      obtain ⟨task, rest, agenda⟩ := List.exists_cons_of_ne_nil busy
      have other : ¬ p.net.Starts w.id task := by
        rintro ⟨-, alive⟩
        rw [dead] at alive
        cases alive
      refine Option.eq_none_iff_forall_ne_some.mpr fun o' alive => ?_
      obtain ⟨o, before, -⟩ := h.running sound agenda other alive
      cases dead.symm.trans before

/-- Nobody starts to run without waking. -/
theorem Sound.stopped (h : p.Sound) (sound : Network.Sound (some w) p.net) (next : p.Next q)
    (asleep : ¬ p.Wakes w.id) (stopped : ∀ o, p.net.live? w.id = some o → o.evaluating = false)
    (alive : q.net.live? w.id = some o') : o'.evaluating = false := by
  cases next with
  | ask net op => exact stopped o' alive
  | task busy =>
      obtain ⟨task, rest, agenda⟩ := List.exists_cons_of_ne_nil busy
      have other : ¬ p.net.Starts w.id task := fun starts =>
        asleep (wakes_iff.mpr ⟨task, agenda ▸ rfl, starts⟩)
      obtain ⟨o, before, running⟩ := h.running sound agenda other alive
      refine Bool.eq_false_iff.mpr fun still => ?_
      exact nomatch (stopped o before).symm.trans (running still).1

/-- What is made is not marked as running. -/
theorem Orderly.stopped_new (orderly : p.Orderly) (attended : p.Attended)
    (agenda : p.agenda = task :: rest) (new : ¬ id < p.net.nextObservable)
    (alive : p.step.net.live? id = some o') : o'.evaluating = false := by
  have stepped : p.step.net = (task.perform p.net).1.release ((task.perform p.net).2 ++ rest) := by
    simp only [Propagation.step, agenda]
  have later := attended.next (.task (agenda ▸ List.cons_ne_nil task rest))
  have made : id < (task.perform p.net).1.nextObservable := by
    obtain ⟨found, -⟩ := live?_eq_some_iff.mp alive
    rw [← nextObservable_release _ ((task.perform p.net).2 ++ rest), ← stepped]
    exact later.sound.net.numbered id o' found
  have settled := attended.sound.settled task (agenda ▸ .head _)
  obtain ⟨w, rfl, sound⟩ := attended.watched.perform attended.sound.net settled id made
  rw [stepped] at alive
  obtain ⟨o, between, continues⟩ := (Keeps.release sound _).live w rfl o' alive
  rw [continues.evaluating]
  obtain ⟨found, -⟩ := live?_eq_some_iff.mp between
  obtain same | ⟨r, name, draft, result, v, rfl, completes, creates⟩ :=
    nextObservable_perform p.net task
  · exact (new (same ▸ made)).elim
  · have blank : r.completion.Blank := orderly.blank (.run r) (agenda ▸ .head _)
    rw [completes] at blank
    rw [creates] at found
    obtain ⟨-, rfl⟩ | ⟨-, found⟩ := find?_addObservable found
    · exact blank.2
    · exact (new (attended.sound.net.numbered w.id o found)).elim

theorem Marked.next (h : p.Marked) (attended : p.Attended) (orderly : p.Orderly)
    (next : p.Next q) : q.Marked := by
  intro id o' alive running
  cases next with
  | ask net op =>
      obtain ⟨t, member, -⟩ := h id o' alive running
      cases member
  | task busy =>
      obtain ⟨task, rest, agenda⟩ := List.exists_cons_of_ne_nil busy
      rw [agenda_step agenda]
      by_cases older : id < p.net.nextObservable
      · obtain ⟨w, rfl, sound⟩ := attended.watched id older
        by_cases starts : p.net.Starts w.id task
        · obtain ⟨o, -, performed⟩ := starts.performed
          rw [performed]
          exact ⟨_, .head _, rfl⟩
        · obtain ⟨o, before, running'⟩ := attended.sound.running sound agenda starts alive
          obtain ⟨still, onward⟩ := running' running
          obtain ⟨t, member, evaluates⟩ := h w.id o before still
          rw [agenda] at member
          cases member with
          | head =>
              obtain ⟨t, member, evaluates⟩ := onward evaluates
              exact ⟨t, List.mem_append_left _ member, evaluates⟩
          | tail _ member => exact ⟨t, List.mem_append_right _ member, evaluates⟩
      · exact nomatch (orderly.stopped_new attended agenda older alive).symm.trans running

/-- In every session, whoever is marked as running has a run under way. -/
theorem marked_of_untouched {start : Network} (untouched : start.Untouched)
    (before : Session (fun _ => True) ⟨start, []⟩ p) : p.Attended ∧ p.Marked := by
  have none : Marked ⟨start, []⟩ := by
    intro id o alive
    simp [live?, untouched.observables, Table.find?_empty] at alive
  have begun : Attended ⟨start, []⟩ := attended_of_untouched untouched (.start trivial)
  have kept : (p.Attended ∧ p.Orderly ∧ p.Marked) ∧ True := by
    refine before.preserves (Q := fun p => p.Attended ∧ p.Orderly ∧ p.Marked)
      ⟨begun, orderly_of_untouched untouched, none⟩ ?_
    rintro q q' - ⟨attended, orderly, marked⟩ next -
    exact ⟨attended.next next, orderly.next next, marked.next attended orderly next⟩
  exact ⟨kept.1.1, kept.1.2.2⟩

/-- What concerns an observable brings up the task that tells it. -/
theorem Concerns.tells (concerns : p.Concerns id o) (attended : p.Attended)
    (agenda : p.agenda = task :: rest) (alive : p.net.live? id = some o)
    (still : (p.step.net.live? id).isSome) :
    ¬ p.Wakes id ∧ .notify (.recalculate id) ∈ (task.perform p.net).2 := by
  obtain ⟨name, v, delivered, label, top, named⟩ | ⟨key, reads, changed⟩ := concerns
  · rw [agenda] at top
    cases top
    refine ⟨?_, ?_⟩
    · rintro ⟨-, -, told, -⟩
      rw [agenda] at told
      cases told
    · simp [Task.perform, operate, withObservable, named]
  · have told := attended.tells agenda alive still reads changed
    refine ⟨fun wakes => ?_, told⟩
    obtain ⟨task', top, starts⟩ := wakes_iff.mp wakes
    rw [agenda] at top
    cases top
    obtain ⟨o, -, performed⟩ := starts.performed
    rw [performed] at told
    simp at told

end Propagation

/-- From a moment at which the watcher does not run to another such moment, or it has woken. -/
theorem Lasts.woken (lasts : Lasts P p past q) (sound : p.Sound)
    (watcher : Network.Sound (some w) p.net)
    (stopped : ∀ o, p.net.live? w.id = some o → o.evaluating = false) :
    (∃ m ∈ past, m.Wakes w.id) ∨ ∀ o, q.net.live? w.id = some o → o.evaluating = false := by
  obtain ⟨⟨-, -, woken⟩, -⟩ := lasts.preserves
    (Q := fun past m => m.Sound ∧ Network.Sound (some w) m.net ∧ ((∃ m ∈ past, m.Wakes w.id) ∨
      ∀ o, m.net.live? w.id = some o → o.evaluating = false)) ⟨sound, watcher, .inr stopped⟩
    fun {past m m'} _ ⟨sound, watcher, woken⟩ next _ => by
      refine ⟨sound.next next, sound.watcher watcher next, ?_⟩
      obtain ⟨earlier, member, wakes⟩ | stopped := woken
      · exact .inl ⟨earlier, List.mem_append_left _ member, wakes⟩
      · by_cases wakes : m.Wakes w.id
        · exact .inl ⟨m, List.mem_append_right _ (.head _), wakes⟩
        · exact .inr fun o' alive => sound.stopped watcher next wakes stopped alive
  exact woken

/-- Whoever has come to an end by some moment of a session has done so when it ends. -/
theorem Lasts.ended (lasts : Lasts P p past q) (sound : p.Sound)
    (watcher : Network.Sound (some w) p.net) :
    ∀ m ∈ past ++ [q], m.net.live? w.id = none → q.net.live? w.id = none := by
  have kept : (q.Sound ∧ Network.Sound (some w) q.net ∧
      ∀ m ∈ past ++ [q], m.net.live? w.id = none → q.net.live? w.id = none) ∧ P q := by
    refine lasts.preserves (Q := fun past q => q.Sound ∧ Network.Sound (some w) q.net ∧
      ∀ m ∈ past ++ [q], m.net.live? w.id = none → q.net.live? w.id = none)
      ⟨sound, watcher, List.forall_mem_singleton.mpr id⟩ ?_
    rintro past q q' - ⟨sound, watcher, ended⟩ next -
    refine ⟨sound.next next, sound.watcher watcher next,
      List.forall_mem_append.mpr ⟨fun m member dead => ?_, List.forall_mem_singleton.mpr id⟩⟩
    exact sound.ended watcher next (ended m member dead)
  exact kept.1.2.2

theorem Lasts.mem_first (lasts : Lasts P p past q) : p ∈ past ++ [q] := by
  obtain ⟨-, rfl⟩ | ⟨p', past', rfl, -⟩ := lasts.head
  · exact List.mem_append_right _ (.head _)
  · exact .head _

/-- Whatever concerns an observable while no run of its own is under way wakes it before whoever did
it goes on, unless it has come to its end by then. -/
theorem Lasts.wakes_of_concerns {start : Network} (untouched : start.Untouched)
    (before : Session (fun _ => True) ⟨start, []⟩ p) (agenda : p.agenda = task :: rest)
    (alive : p.net.live? id = some o) (idle : ∀ t ∈ p.agenda, ¬ t.Evaluates id)
    (concerns : p.Concerns id o) (since : Lasts (fun _ => True) p.step past q)
    (done : q.agenda.length ≤ rest.length) :
    (∃ m ∈ past, m.Wakes id) ∨ q.net.live? id = none := by
  obtain ⟨attended, marked⟩ := Propagation.marked_of_untouched untouched before
  obtain ⟨w, rfl, -, -, watcher⟩ := attended.watcher alive
  have next : p.Next p.step := .task (agenda ▸ List.cons_ne_nil task rest)
  have ended := since.ended (attended.sound.next next) (attended.sound.watcher watcher next)
  by_cases still : p.step.net.live? w.id = none
  · exact .inr (ended p.step since.mem_first still)
  have alive_on := Option.isSome_iff_ne_none.mpr still
  obtain ⟨asleep, told⟩ := concerns.tells attended agenda alive alive_on
  have stopped (o' : Observable) (alive' : p.net.live? w.id = some o') : o'.evaluating = false := by
    refine Bool.eq_false_iff.mpr fun running => ?_
    obtain ⟨t, member, evaluates⟩ := marked w.id o' alive' running
    exact idle t member evaluates
  obtain ⟨earlier, m, later, rfl, until_told, now⟩ := since.comes_of_mem agenda told done
  obtain ⟨woken, member, wakes⟩ | stopped := until_told.woken (attended.sound.next next)
    (attended.sound.watcher watcher next)
    fun o' alive' => attended.sound.stopped watcher next asleep stopped alive'
  · exact .inl ⟨woken, List.mem_append_left _ member, wakes⟩
  · have here : m ∈ earlier ++ m :: later := List.mem_append_right _ (.head _)
    cases alive' : m.net.live? w.id with
    | none => exact .inr (ended m (List.mem_append_left _ here) alive')
    | some o' =>
        refine .inl ⟨m, here, Propagation.wakes_iff.mpr ⟨_, now, rfl, ?_⟩⟩
        simp [alive', stopped o' alive']

/-- A store with `$x`. -/
def oneNumber : Network where
  stores := [{ ancestors := [], owner := .null, slots := Table.empty.insert "$x" (.int32 1) }]

/-- The code of `$b = $x`. -/
def copyX : Code :=
  [.keyed .getResource "$x", .keyedWith .setResource "$b" (.sentinel .last),
    .keyed .getResource "$b"]

/-- An observable that keeps `$b` what `$x` is. -/
def copying : Propagation := oneNumber.ask (.observe "e" (.code copyX) 0 none .null)

/-- Somebody writes `$x` whenever `$b` is written. -/
def answering : Propagation :=
  (copying.skip 11).net.ask (.watch 0 "$b" "W" (some (.set 0 "$x" (.int32 10))))

/-- `$x` is written from outside. -/
def writingX : Propagation := (answering.skip 1).net.ask (.set 0 "$x" (.int32 5))

theorem writingX_asked : ∃ past, Lasts (fun _ => True) ⟨oneNumber, []⟩ past writingX := by
  have made : Lasts (fun _ => True) ⟨oneNumber, []⟩ _ (copying.skip 11) :=
    (Lasts.ask (.start trivial) rfl trivial).walk 11 (by decide +kernel) fun _ _ => trivial
  have watched : Lasts (fun _ => True) ⟨oneNumber, []⟩ _ (answering.skip 1) :=
    (made.ask (by decide +kernel) trivial).walk 1 (by decide +kernel) fun _ _ => trivial
  exact ⟨_, watched.ask (by decide +kernel) trivial⟩

/-- What somebody else writes while the observable is running does not wake it, and the value stays
what it was made from. -/
theorem Lasts.asleep_writingX : ∃ (past later : List Propagation) (o o' : Observable),
    Lasts (fun _ => True) ⟨oneNumber, []⟩ past (writingX.skip 9) ∧
      Lasts (fun _ => True) (writingX.skip 9) later (writingX.skip 18) ∧
      (writingX.skip 9).agenda.head? = some (.operate (.set 0 "$x" (.int32 10)) .null (some "W")) ∧
      (writingX.skip 9).net.live? 0 = some o ∧ (writingX.skip 9).Concerns 0 o ∧
      (writingX.skip 18).agenda = [] ∧ (∀ m ∈ later, ¬ m.Wakes 0) ∧
      (writingX.skip 18).net.live? 0 = some o' ∧ o'.value = .int32 5 ∧
      (writingX.skip 18).net.lookup? 0 "$x" = some (.int32 10) := by
  obtain ⟨past, asked⟩ := writingX_asked
  have begun : Lasts (fun _ => True) ⟨oneNumber, []⟩ _ (writingX.skip 9) :=
    asked.walk 9 (by decide +kernel) fun _ _ => trivial
  have onward : Lasts (fun _ => True) (writingX.skip 9) _ (writingX.skip 18) :=
    (Lasts.start trivial).walk 9 (by decide +kernel) fun _ _ => trivial
  have changed : (writingX.skip 9).step.net.lookup? 0 "$x" ≠
      (writingX.skip 9).net.lookup? 0 "$x" :=
    fun same => nomatch (same : some (Value.int32 10) = some (.int32 5))
  exact ⟨_, _, _, _, begun, onward, rfl, rfl, .inr ⟨"$x", by decide, changed⟩, rfl,
    by decide +kernel, rfl, rfl, rfl⟩

/-- What is written from outside wakes it. -/
theorem Lasts.wakes_writingX : ∃ past : List Propagation,
    Lasts (fun _ => True) writingX.step past (writingX.skip 18) ∧
      (writingX.skip 18).agenda = [] ∧ ∃ m ∈ past, m.Wakes 0 := by
  have untouched : oneNumber.Untouched := ⟨rfl, rfl, rfl⟩
  obtain ⟨_, before⟩ := writingX_asked
  have since : Lasts (fun _ => True) writingX.step _ (writingX.skip 18) :=
    (Lasts.start trivial).walk 17 (by decide +kernel) fun _ _ => trivial
  have idle : ∀ t ∈ writingX.agenda, ¬ t.Evaluates 0 := List.forall_mem_singleton.mpr id
  have changed : writingX.step.net.lookup? 0 "$x" ≠ writingX.net.lookup? 0 "$x" :=
    fun same => nomatch (same : some (Value.int32 5) = some (.int32 1))
  obtain woken | dead := Lasts.wakes_of_concerns untouched before.session rfl rfl idle
    (.inr ⟨"$x", by decide, changed⟩) since (by decide +kernel)
  · exact ⟨_, since, rfl, woken⟩
  · cases dead

end SlotScript
