import SlotScript.Proofs.Network.Freshness
import SlotScript.Proofs.Network.Numbering
import SlotScript.Proofs.Network.Seat

/-! # Who hears of a change

An observable is registered with every scope of its store from its creation to its end. So whoever
changes what the store finds under a key that the code may read has it told before going on, in
whatever way the change is made and however many others are told before. Nobody is registered with
the stores that are searched after the scopes: what only they have may change without a word.
-/

namespace SlotScript

/-- Runs the code of an observable for a new value. -/
def Task.Evaluates (id : ObservableId) : Task → Prop
  | .run r | .proceed r _ => r.completion = .recalculation id
  | _ => False

/-- The observable that a task tells of a change. -/
def Task.telling? : Task → Option ObservableId
  | .notify (.recalculate id) => some id
  | _ => none

theorem Task.eq_of_telling {id : ObservableId} {task : Task} (tells : task.telling? = some id) :
    task = .notify (.recalculate id) := by
  unfold telling? at tells
  split at tells
  · cases tells
    rfl
  · cases tells

namespace Network

/-- The observable is told, and as it is alive and not running, it starts to run. -/
def Starts (net : Network) (id : ObservableId) (task : Task) : Prop :=
  task.telling? = some id ∧ (net.live? id).any (!·.evaluating) = true

instance (net : Network) (id : ObservableId) (task : Task) : Decidable (net.Starts id task) :=
  inferInstanceAs (Decidable (_ ∧ _))

/-- What is left of a watcher after a task that does not start it. It is not running unless it was
before, and if the task was part of its own run, something goes on with that or it has stopped. If
its store finds something else under a key that it reads, it is told. -/
structure Attends (w : Watcher) (own : Prop) (net : Network) (followed : Followed) : Prop where
  sound : Sound (some w) followed.1
  live : ∀ o', followed.1.live? w.id = some o' → ∃ o, net.live? w.id = some o ∧
    (o'.evaluating = true → o.evaluating = true ∧ (own → ∃ t ∈ followed.2, t.Evaluates w.id))
  heeds : (followed.1.live? w.id).isSome → .notify (.recalculate w.id) ∈ followed.2 ∨
    ∀ key ∈ w.code.readKeys, followed.1.lookup? w.store key = net.lookup? w.store key

variable {w : Watcher} {net net' : Network} {own : Prop} {r : Run} {task : Task}

/-- A task of somebody else. -/
theorem Follows.attends {followed : Followed} (h : Follows (some w) net followed) :
    Attends w False net followed := by
  refine ⟨h.sound, fun o' alive => ?_, fun alive => ?_⟩
  · obtain ⟨o, before, same, -⟩ := h.informs w rfl o' alive
    exact ⟨o, before, fun running => ⟨same ▸ running, False.elim⟩⟩
  · obtain ⟨o', alive⟩ := Option.isSome_iff_exists.mp alive
    obtain ⟨o, -, -, told⟩ := h.informs w rfl o' alive
    exact told.imp_right fun ⟨_, alike⟩ => alike.lookup

/-- The run that brought something up goes on after it. -/
theorem Attends.append {followed : Followed} (h : Attends w False net followed) {more : List Task}
    (onward : own → ∃ t ∈ more, t.Evaluates w.id) :
    Attends w own net (followed.1, followed.2 ++ more) := by
  refine ⟨h.sound, fun o' alive => ?_, fun alive => ?_⟩
  · obtain ⟨o, before, running⟩ := h.live o' alive
    refine ⟨o, before, fun still => ⟨(running still).1, fun mine => ?_⟩⟩
    obtain ⟨t, member, evaluates⟩ := onward mine
    exact ⟨t, List.mem_append_right _ member, evaluates⟩
  · exact (h.heeds alive).imp_left (List.mem_append_left _)

theorem Keeps.attends (keeps : Keeps (some w) net net') {tasks : List Task}
    (onward : own → ∃ t ∈ tasks, t.Evaluates w.id) : Attends w own net (net', tasks) :=
  keeps.ends.attends.append onward

/-- The run itself goes on. -/
theorem attends_onward (sound : Sound (some w) net) {t : Task}
    (onward : own → t.Evaluates w.id) : Attends w own net (net, [t]) :=
  (Keeps.refl sound).attends fun mine => ⟨t, .head _, onward mine⟩

theorem Foreign.of_other {completion : Completion} (settled : net.Foreign none completion)
    (other : completion ≠ .recalculation w.id) : net.Foreign (some w) completion := by
  rintro id rfl
  refine ⟨(settled id rfl).1, ?_⟩
  rintro w' ⟨⟩ rfl
  exact (other rfl).elim

theorem attends_conclude (sound : Sound (some w) net) (result : Except Failure Outcome)
    {completion : Completion} (settled : net.Foreign none completion) :
    Attends w (completion = .recalculation w.id) net (net.conclude result completion) := by
  by_cases mine : completion = .recalculation w.id
  · subst mine
    have ended := Watcher.concluded sound result
    refine ⟨ended.sound, fun o' alive => ?_, fun _ => .inr ended.alike.lookup⟩
    obtain ⟨o, before, -, -, stopped, -⟩ := ended.current o' alive
    exact ⟨o, before, fun running => nomatch stopped.symm.trans running⟩
  · have follows := follows_conclude sound result (settled.of_other mine)
    obtain ⟨sound, live, heeds⟩ := follows.attends
    refine ⟨sound, fun o' alive => ?_, heeds⟩
    obtain ⟨o, before, running⟩ := live o' alive
    exact ⟨o, before, fun still => ⟨(running still).1, fun own => (mine own).elim⟩⟩

theorem attends_advance (sound : Sound (some w) net) (settled : net.Foreign none r.completion) :
    Attends w (r.completion = .recalculation w.id) net (net.advance r) :=
  advance_cases (fun _ _ => attends_onward sound id) (fun _ _ _ _ => attends_onward sound id)
    fun _ _ => attends_conclude sound _ settled

/-- What a run brings about by a request, also if that changes an element of a collection. -/
theorem attends_answer (sound : Sound (some w) net) {store : StoreId} {fallback : List StoreId}
    {request : Request} {x : request.Answer × Changed}
    (answered : net.answer store fallback request = some x) :
    Attends w False net (Changed.followed x.2) := by
  refine answer_cases answered (Follows.nothing sound).attends
    (fun scope key v => (follows_set sound scope key v).attends) ?_
  intro key collection index v object scope _ _
  have same : (net.setObject collection object).observables = net.observables ∧
      (net.setObject collection object).stores = net.stores := by
    cases collection <;> exact ⟨rfl, rfl⟩
  have alive (id : ObservableId) : (net.setObject collection object).live? id = net.live? id := by
    simp only [live?, same.1]
  have found (store : StoreId) (key : String) :
      (net.setObject collection object).lookup? store key = net.lookup? store key := by
    simp only [lookup?, chain, slot?, same.2]
  have written := follows_set (sound_setObject sound collection object) scope key collection
  obtain ⟨sound, live, heeds⟩ := written.attends
  refine ⟨sound, fun o' later => ?_, fun later => ?_⟩
  · exact alive w.id ▸ live o' later
  · simpa only [found] using heeds later

theorem attends_proceed (sound : Sound (some w) net) (settled : net.Foreign none r.completion)
    (script : Script Frame) :
    Attends w (r.completion = .recalculation w.id) net (net.proceed r script) := by
  cases script with
  | done f => exact attends_onward sound id
  | fail e => exact attends_conclude sound _ settled
  | ask request next =>
      refine ask_cases (fun _ => attends_onward sound id) (fun _ _ _ _ answered _ => ?_)
        fun _ _ _ answered _ => ?_
      · exact (attends_answer sound answered).append fun own => ⟨_, .tail _ (.head _), own⟩
      · exact (attends_answer sound answered).append fun own => ⟨_, .head _, own⟩
  | invoke command argument next =>
      show Attends w (r.completion = .recalculation w.id) net (net.invoke r command argument next)
      refine invoke_cases (fun label _ => ?reports) (fun _ _ => attends_conclude sound _ settled)
        (fun _ _ => attends_onward sound id) fun _ => attends_onward sound id
      case reports =>
        refine Keeps.attends ?_ fun own => ⟨_, .head _, own⟩
        exact .inert sound rfl rfl rfl rfl rfl rfl

/-- Whoever is told while it is running takes no notice. -/
theorem attends_recalculate (sound : Sound (some w) net) (id : ObservableId)
    (busy : id = w.id → ∀ o, net.live? id = some o → o.evaluating = true) :
    Attends w False net (net.recalculate id) := by
  by_cases other : net.Other (some w) id
  · exact (follows_recalculate sound other).attends
  · obtain ⟨rfl, o, alive⟩ : id = w.id ∧ ∃ o, net.live? id = some o := by
      by_cases same : id = w.id
      · refine ⟨same, Option.ne_none_iff_exists'.mp fun dead => other ?_⟩
        rintro w' ⟨⟩ rfl
        exact dead
      · refine (other ?_).elim
        rintro w' ⟨⟩ rfl
        exact (same rfl).elim
    have running := busy rfl o alive
    obtain ⟨found, -⟩ := live?_eq_some_iff.mp alive
    have nothing : net.recalculate w.id = (net, []) := by
      simp [recalculate, found, running]
    exact nothing ▸ (Follows.nothing sound).attends

/-- Every task but one that starts the watcher. -/
theorem attends_perform (sound : Sound (some w) net) (settled : task.Settled none net)
    (other : ¬ net.Starts w.id task) : Attends w (task.Evaluates w.id) net (task.perform net) := by
  cases task with
  | run r => exact attends_advance sound settled
  | proceed r script => exact attends_proceed sound settled script
  | notify callback =>
      cases callback with
      | recalculate id =>
          refine attends_recalculate sound id fun same o alive => ?_
          subst same
          cases running : o.evaluating with
          | true => rfl
          | false => exact (other ⟨rfl, by simp [alive, running]⟩).elim
      | report label action => exact (follows_report sound _ label .null action).attends
      | refresh id => exact (follows_refresh sound id).attends
  | adopt label sub =>
      refine Follows.attends (follows_perform sound ?_ ?_ fun _ _ => id)
      · exact settled
      · exact fun _ _ => nofun
  | _ =>
      refine Follows.attends (follows_perform sound ?_ ?_ fun _ _ => id)
      · trivial
      · exact fun _ _ => nofun

/-- An observable that starts to run. -/
theorem Starts.performed {id : ObservableId} (starts : net.Starts id task) : ∃ o,
    net.live? id = some o ∧ task.perform net =
      (net.modifyObservable id fun o => { o with evaluating := true },
        [.run ⟨net.activate o.code o.store o.host o.parameter, [], .recalculation id⟩]) := by
  obtain ⟨tells, stopped⟩ := starts
  obtain ⟨o, alive, stopped⟩ := (Option.any_eq_true _ _).mp stopped
  obtain ⟨found, active⟩ := live?_eq_some_iff.mp alive
  refine ⟨o, alive, ?_⟩
  rw [Task.eq_of_telling tells]
  simp only [Bool.not_eq_true'] at stopped
  simp [Task.perform, notify, recalculate, found, active, stopped]

theorem Starts.sound (starts : net.Starts w.id task) (sound : Sound (some w) net) :
    Sound (some w) (task.perform net).1 := by
  obtain ⟨o, -, performed⟩ := starts.performed
  rw [performed]
  exact sound.modifyObservable (fun _ _ member => member)
    fun _ _ _ _ _ active => ⟨active, ⟨rfl, rfl, rfl⟩⟩

theorem sound_perform (sound : Sound (some w) net) (settled : task.Settled none net) :
    Sound (some w) (task.perform net).1 := by
  by_cases starts : net.Starts w.id task
  · exact starts.sound sound
  · exact (attends_perform sound settled starts).sound

/-- Every observable there has been is a watcher. -/
def Watched (net : Network) : Prop :=
  ∀ id < net.nextObservable, ∃ w : Watcher, w.id = id ∧ Sound (some w) net

/-- What is not alive watches nothing. -/
theorem Sound.dead {id : ObservableId} (sound : Sound none net) (made : id < net.nextObservable)
    (dead : net.live? id = none) :
    Sound (some ⟨id, [], 0, none, fun _ _ => False⟩) net := by
  have free {reg : Registration} (h : net.Free none reg) :
      net.Free (some ⟨id, [], 0, none, fun _ _ => False⟩) reg := by
    cases reg with
    | listener store k =>
        refine ⟨h.1, ?_⟩
        rintro w ⟨⟩ owns
        exact owns
    | observer | bindingObserver => trivial
  refine ⟨?_, sound.numbered, ?_, ?_, ?_⟩
  · exact fun label sub found reg member => free (sound.labels label sub found reg member)
  · exact fun k o found _ reg member => free (sound.observables k o found nofun reg member)
  · exact fun k b found reg member => free (sound.bindings k b found reg member)
  rintro w ⟨⟩
  refine ⟨made, fun _ _ => False.elim, fun o alive => ?_, fun alive => ?_⟩
  · cases dead.symm.trans alive
  · rw [dead] at alive
    cases alive

theorem Watched.perform (h : net.Watched) (sound : Sound none net)
    (settled : task.Settled none net) : (task.perform net).1.Watched := by
  have older (id : ObservableId) (made : id < net.nextObservable) :
      ∃ w : Watcher, w.id = id ∧ Sound (some w) (task.perform net).1 := by
    obtain ⟨w, same, sound⟩ := h id made
    exact ⟨w, same, sound_perform sound settled⟩
  obtain same | ⟨r, name, draft, result, v, -, -, made⟩ := nextObservable_perform net task
  · exact fun id below => older id (same ▸ below)
  · have returned : Keeps none net { net with returned := some result } :=
      .inert sound rfl rfl rfl rfl rfl rfl
    intro id below
    obtain below | rfl : id < net.nextObservable ∨ id = net.nextObservable := by
      rw [made] at below
      exact Nat.lt_succ_iff_lt_or_eq.mp below
    · exact older id below
    · exact ⟨_, rfl, made ▸ returned.sound.addObservable name _⟩

theorem Watched.release (h : net.Watched) (agenda : List Task) : (net.release agenda).Watched := by
  intro id below
  rw [nextObservable_release] at below
  obtain ⟨w, same, sound⟩ := h id below
  exact ⟨w, same, (Keeps.release sound agenda).sound⟩

end Network

open Network

variable {P : Propagation → Prop} {p q : Propagation} {past : List Propagation} {task : Task}
  {above below rest : List Task} {id : ObservableId} {o : Observable} {key : String}

namespace Propagation

/-- Everybody holds what is theirs, and every observable there has been is a watcher. -/
structure Attended (p : Propagation) : Prop where
  sound : p.Sound
  watched : p.net.Watched

theorem Attended.next (h : p.Attended) (next : p.Next q) : q.Attended := by
  refine ⟨h.sound.next next, ?_⟩
  cases next with
  | ask net op =>
      intro id below
      obtain ⟨w, same, sound⟩ := h.watched id below
      have asked : Keeps (some w) net (net.ask op).net := .inert sound rfl rfl rfl rfl rfl rfl
      exact ⟨w, same, asked.sound⟩
  | task busy =>
      obtain ⟨task, rest, agenda⟩ := List.exists_cons_of_ne_nil busy
      have performed := h.watched.perform h.sound.net (h.sound.settled task (agenda ▸ .head _))
      have released := performed.release ((task.perform p.net).2 ++ rest)
      simpa only [step, agenda] using released

theorem attended_of_untouched {start : Network} (untouched : start.Untouched)
    (before : Session (fun _ => True) ⟨start, []⟩ p) : p.Attended := by
  refine (before.preserves ⟨untouched.sound, fun id made => ?_⟩ fun _ h next _ => h.next next).1
  refine ⟨_, rfl, untouched.sound.net.dead made ?_⟩
  simp [live?, untouched.observables, Table.find?_empty]

theorem Attended.watcher (h : p.Attended) (alive : p.net.live? id = some o) :
    ∃ w : Watcher, w.id = id ∧ w.code = o.code ∧ w.store = o.store ∧
      Network.Sound (some w) p.net := by
  obtain ⟨found, -⟩ := live?_eq_some_iff.mp alive
  obtain ⟨w, rfl, sound⟩ := h.watched id (h.sound.net.numbered id o found)
  obtain ⟨code, store, -⟩ := Watcher.record sound alive
  exact ⟨w, rfl, code.symm, store.symm, sound⟩

/-- A change of what the scopes have brings up the task that tells the observable. -/
theorem Attended.tells (h : p.Attended) (agenda : p.agenda = task :: rest)
    (alive : p.net.live? id = some o) (still : (p.step.net.live? id).isSome)
    (reads : key ∈ o.code.readKeys)
    (changed : p.step.net.lookup? o.store key ≠ p.net.lookup? o.store key) :
    .notify (.recalculate id) ∈ (task.perform p.net).2 := by
  obtain ⟨w, rfl, code, store, sound⟩ := h.watcher alive
  have settled := h.sound.settled task (agenda ▸ .head _)
  have released := Keeps.release (sound_perform sound settled) ((task.perform p.net).2 ++ rest)
  have stepped : p.step.net = (task.perform p.net).1.release ((task.perform p.net).2 ++ rest) := by
    simp only [step, agenda]
  rw [stepped] at still changed
  rw [(released.alike o.store [key]).lookup key (.head _)] at changed
  by_cases starts : p.net.Starts w.id task
  · obtain ⟨o', -, performed⟩ := starts.performed
    rw [performed] at changed
    exact (changed rfl).elim
  · obtain ⟨o', alive'⟩ := Option.isSome_iff_exists.mp still
    obtain ⟨o'', before, -⟩ := released.live w rfl o' alive'
    have attends := attends_perform sound settled starts
    obtain told | same := attends.heeds (by rw [before]; rfl)
    · exact told
    · rw [code, store] at same
      exact (changed (same key reads)).elim

end Propagation

/-- What is to be done is done at some moment, or is still to be done. -/
theorem Lasts.turn (lasts : Lasts P p past q) (agenda : p.agenda = above ++ task :: below) :
    (∃ earlier m later, past = earlier ++ m :: later ∧ Lasts P p earlier m ∧
      m.agenda = task :: below) ∨ ∃ above, q.agenda = above ++ task :: below := by
  induction lasts with
  | start => exact .inr ⟨above, agenda⟩
  | @next past q q' lasts next _ ih =>
      obtain ⟨earlier, m, later, rfl, until_then, now⟩ | ⟨above, agenda⟩ := ih
      · refine .inl ⟨earlier, m, later ++ [q], ?_, until_then, now⟩
        rw [List.append_assoc, List.cons_append]
      · cases above with
        | nil => exact .inl ⟨past, q, [], rfl, lasts, agenda⟩
        | cons first above =>
            cases next with
            | ask => cases agenda
            | task =>
                refine .inr ⟨(first.perform q.net).2 ++ above, ?_⟩
                rw [Propagation.agenda_step agenda, List.append_assoc]
                rfl

/-- When no more is left to be done than what stands behind it, it has been done. -/
theorem Lasts.comes (lasts : Lasts P p past q) (agenda : p.agenda = above ++ task :: below)
    (done : q.agenda.length ≤ below.length) : ∃ earlier m later,
      past = earlier ++ m :: later ∧ Lasts P p earlier m ∧ m.agenda = task :: below := by
  refine (lasts.turn agenda).resolve_right ?_
  rintro ⟨above, agenda⟩
  simp only [agenda, List.length_append, List.length_cons] at done
  omega

/-- What is brought up by a task has been done when the task has been done with all that follows. -/
theorem Lasts.comes_of_mem (lasts : Lasts P p.step past q) (agenda : p.agenda = task :: rest)
    {t : Task} (member : t ∈ (task.perform p.net).2) (done : q.agenda.length ≤ rest.length) :
    ∃ earlier m later, past = earlier ++ m :: later ∧ Lasts P p.step earlier m ∧
      m.agenda.head? = some t := by
  obtain ⟨above, below, split⟩ := List.append_of_mem member
  have stepped : p.step.agenda = above ++ t :: (below ++ rest) := by
    rw [Propagation.agenda_step agenda, split, List.append_assoc, List.cons_append]
  obtain ⟨earlier, m, later, parts, until_then, now⟩ := lasts.comes stepped (by
    rw [List.length_append]
    omega)
  exact ⟨earlier, m, later, parts, until_then, now ▸ rfl⟩

/-- The stores that are searched after the scopes. -/
def Observable.fallback (o : Observable) : List StoreId :=
  (o.host.map Host.fallback).getD []

theorem Network.fetch_of_lookup {net : Network} {store : StoreId} {v : Value}
    (found : net.lookup? store key = some v) (fallback : List StoreId) (seed : Value) :
    (net.fetch store fallback key seed).1 = v := by
  simp [fetch, found]

/-- Whenever a task changes what the code of an observable would find under a key that it may read,
the observable is told before the task has been done with all that follows, unless the scopes of its
store had nothing under the key and still have nothing. -/
theorem Lasts.told_of_change {start : Network} {seed : Value} (untouched : start.Untouched)
    (before : Session (fun _ => True) ⟨start, []⟩ p) (agenda : p.agenda = task :: rest)
    (alive : p.net.live? id = some o) (still : (p.step.net.live? id).isSome)
    (reads : key ∈ o.code.readKeys)
    (changed : (p.step.net.fetch o.store o.fallback key seed).1 ≠
      (p.net.fetch o.store o.fallback key seed).1)
    (since : Lasts (fun _ => True) p.step past q) (done : q.agenda.length ≤ rest.length) :
    (∃ m ∈ past, m.agenda.head? = some (.notify (.recalculate id))) ∨
      p.net.lookup? o.store key = none ∧ p.step.net.lookup? o.store key = none := by
  by_cases same : p.step.net.lookup? o.store key = p.net.lookup? o.store key
  · refine .inr (same ▸ and_self_iff.mpr ?_)
    refine Option.eq_none_iff_forall_ne_some.mpr fun v found => changed ?_
    rw [fetch_of_lookup found, fetch_of_lookup (same.symm.trans found)]
  · have attended := Propagation.attended_of_untouched untouched before
    obtain ⟨earlier, m, later, rfl, -, told⟩ :=
      since.comes_of_mem agenda (attended.tells agenda alive still reads same) done
    exact .inl ⟨m, by simp, told⟩

/-- Two stores that do not know of each other, with `$k` in the first. -/
def twoStores : Network where
  stores := [
    { ancestors := [], owner := .null, slots := Table.empty.insert "$k" (.int32 1) },
    { ancestors := [], owner := .null }]

/-- `$k` is observed in the second store, which has the first to fall back on. -/
def fallingBack : Propagation :=
  twoStores.ask (.observe "x" (.code [.keyed .getResource "$k"]) 1 (some { fallback := [0] }) .null)

/-- Once that is done, anything can be asked for. -/
theorem fallingBack_asked (op : Operation) : ∃ past,
    Lasts (fun _ => True) ⟨twoStores, []⟩ past ((fallingBack.skip 5).net.ask op) := by
  have made : Lasts (fun _ => True) ⟨twoStores, []⟩ _ (fallingBack.skip 5) :=
    (Lasts.ask (.start trivial) rfl trivial).walk 5 (by decide +kernel) fun _ _ => trivial
  exact ⟨_, made.ask (by decide +kernel) trivial⟩

/-- `$k` is written where it is found. -/
def writingBehind : Propagation := (fallingBack.skip 5).net.ask (.set 0 "$k" (.int32 2))

/-- `$k` is written in front of where it is found. -/
def writingAhead : Propagation := (fallingBack.skip 5).net.ask (.set 1 "$k" (.int32 3))

/-- Nobody is told of what is written to a store that is only fallen back on. -/
theorem Lasts.untold_writingBehind : ∃ (past : List Propagation) (o : Observable),
    Lasts (fun _ => True) ⟨twoStores, []⟩ past writingBehind ∧ writingBehind.step.agenda = [] ∧
      writingBehind.net.live? 0 = some o ∧ writingBehind.step.net.live? 0 = some o ∧
      "$k" ∈ o.code.readKeys ∧ o.value = .int32 1 ∧
      (writingBehind.net.fetch o.store o.fallback "$k" .null).1 = .int32 1 ∧
      (writingBehind.step.net.fetch o.store o.fallback "$k" .null).1 = .int32 2 := by
  obtain ⟨past, asked⟩ := fallingBack_asked (.set 0 "$k" (.int32 2))
  exact ⟨past, _, asked, rfl, rfl, rfl, by decide, rfl, rfl, rfl⟩

/-- What is written in front of it makes the observable recalculate. -/
theorem Lasts.told_writingAhead : ∃ past : List Propagation,
    Lasts (fun _ => True) writingAhead.step past (writingAhead.skip 7) ∧
      (writingAhead.skip 7).agenda = [] ∧
      ∃ m ∈ past, m.agenda.head? = some (.notify (.recalculate 0)) := by
  have untouched : twoStores.Untouched := ⟨rfl, rfl, rfl⟩
  obtain ⟨_, before⟩ := fallingBack_asked (.set 1 "$k" (.int32 3))
  have since : Lasts (fun _ => True) writingAhead.step _ (writingAhead.skip 7) :=
    (Lasts.start trivial).walk 6 (by decide +kernel) fun _ _ => trivial
  have alive : writingAhead.net.live? 0 = some {
      store := 1, host := some { fallback := [0] }, code := [.keyed .getResource "$k"],
      parameter := .null, value := .int32 1, watching := [.listener 1 0, .listener 1 1] } := rfl
  have changed : (writingAhead.step.net.fetch 1 [0] "$k" .null).1 ≠
      (writingAhead.net.fetch 1 [0] "$k" .null).1 :=
    fun same => nomatch (same : Value.int32 3 = Value.int32 1)
  obtain told | ⟨-, none⟩ := Lasts.told_of_change untouched before.session rfl alive rfl
    (by decide) changed since (by decide +kernel)
  · exact ⟨_, since, rfl, told⟩
  · cases none

end SlotScript
