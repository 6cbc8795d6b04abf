import SlotScript.Proofs.Network.Effect

/-! # What a step does to publishers and seats

Whatever a step is to those who observe, it can be said publisher by publisher: what is stored, who
takes a seat and whose seat is given up. Registrations are counted, whether they have a label or are
about to get one; a step moves them, gives some up and gives out at most one.
-/

namespace SlotScript

namespace Propagation

/-- What is news of a publisher in what is done now. -/
def news? (s : Publisher) (p : Propagation) : Option News :=
  p.agenda.head?.bind fun task => p.net.news? task s

/-- A publisher is disposed of now. -/
def disposes (s : Publisher) (p : Propagation) : Bool :=
  p.agenda.head?.any fun task => p.net.disposes task s

/-- Who is subscribed now, and to what. -/
def subscribing? (p : Propagation) : Option (Publisher × Observer) :=
  p.agenda.head?.bind (Task.subscribing? p.net)

/-- What the observer of a label receives now. -/
def signal? (label : String) (p : Propagation) : Option Signal :=
  p.agenda.head?.bind (Task.signal? label)

/-- What is on its way to the observer of a label. -/
def coming (label : String) (p : Propagation) : List Signal :=
  p.agenda.filterMap (Task.signal? label)

/-- A registration is kept under a label or is about to come under one. -/
def Kept (reg : Registration) (p : Propagation) : Prop :=
  p.net.Kept reg ∨ ∃ label sub, .adopt label sub ∈ p.agenda ∧ reg ∈ sub

/-- Nobody is subscribed under a label. -/
def Spares (label : String) (p : Propagation) : Prop :=
  ∀ comer ∈ p.subscribing?, comer.2.label ≠ label

instance (label : String) (p : Propagation) : Decidable (p.Spares label) :=
  inferInstanceAs (Decidable (∀ comer ∈ p.subscribing?, comer.2.label ≠ label))

/-- How often a registration is kept. -/
def copies (reg : Registration) (p : Propagation) : Nat :=
  p.net.copies reg + (p.agenda.flatMap Task.keeping).count reg

theorem kept_iff {reg : Registration} {p : Propagation} : p.Kept reg ↔ 0 < p.copies reg := by
  have pending : (∃ label sub, Task.adopt label sub ∈ p.agenda ∧ reg ∈ sub) ↔
      0 < (p.agenda.flatMap Task.keeping).count reg := by
    rw [List.count_pos_iff, List.mem_flatMap]
    constructor
    · rintro ⟨label, sub, member, keeps⟩
      exact ⟨_, member, keeps⟩
    · rintro ⟨task, member, keeps⟩
      cases task with
      | adopt label sub => exact ⟨label, sub, member, keeps⟩
      | _ => cases keeps
  rw [Kept, Network.kept_iff, pending, copies]
  omega

end Propagation

namespace Network

/-- Those who take a seat with a publisher. -/
def arrivals (net : Network) (task : Task) (k : Publisher) : List (Nat × Observer) :=
  match net.arriving? task with
  | some (s, n, observer) => if s = k then [(n, observer)] else []
  | none => []

/-- The seat that is given out, if someone is seated. -/
def newSeats (net : Network) (task : Task) : Subscription :=
  match net.arriving? task with
  | some (s, n, _) => [s.seat n]
  | none => []

/-- A publisher before a task and after it, while seats are given up. -/
structure Turns (net : Network) (task : Task) (gone : Subscription) (k : Publisher)
    (b b' : Publication) : Prop where
  value : b'.value = ((net.news? task k).map News.stored).getD b.value
  disposed : b'.disposed = (b.disposed || net.disposes task k)
  converter : b'.converter = b.converter ∨ task.converts = true
  watching : b'.watching = b.watching ∨ b'.watching = []
  next : b.observers.next ≤ b'.observers.next
  new : ∀ entry ∈ net.arrivals task k, entry.1 = b.observers.next ∧ entry.1 < b'.observers.next
  list : b'.observers.list = if net.disposes task k then [] else
    (b.without k gone).observers.list ++ net.arrivals task k

/-- A publisher that has just been made. -/
structure IsNew (net : Network) (k : Publisher) (b : Publication) : Prop where
  fresh : ¬ net.Made k
  blank : b.Blank
  listens : b.watching.Listens

end Network

/-- One step, in which a task is done and seats are given up. -/
structure Shift (task : Task) (gone : Subscription) (p q : Propagation) : Prop where
  made : ∀ k, p.net.Made k → q.net.Made k
  copies : ∀ s n, q.copies (Publisher.seat s n) + gone.count (s.seat n) =
    p.copies (s.seat n) + (p.net.newSeats task).count (s.seat n)
  given : ∀ s n, gone.count (Publisher.seat s n) ≤ p.copies (s.seat n)
  publication : ∀ k b', q.net.publication? k = some b' → q.net.Made k ∧
    (p.net.IsNew k b' ∨ ∃ b, p.net.publication? k = some b ∧ p.net.Turns task gone k b b')

namespace Network

variable {net net' : Network} {task : Task} {k s : Publisher} {b : Publication}

theorem Uneventful.arrivals (h : net.Uneventful task) (k : Publisher) :
    net.arrivals task k = [] := by
  simp only [Network.arrivals, h.nobody]

theorem Uneventful.newSeats (h : net.Uneventful task) : net.newSeats task = [] := by
  simp only [Network.newSeats, h.nobody]

theorem Uneventful.turns (h : net.Uneventful task) (gone : Subscription) (k : Publisher)
    (b : Publication) : Turns net task gone k b (b.without k gone) := by
  refine ⟨?_, ?_, .inl rfl, .inl rfl, Nat.le_refl _, ?_, ?_⟩
  · rw [h.news]
    rfl
  · rw [h.stays, Bool.or_false]
    rfl
  · rw [h.arrivals]
    exact List.forall_mem_nil _
  · rw [h.stays, h.arrivals, List.append_nil]
    rfl

theorem Uneventful.turns_same (h : net.Uneventful task) (k : Publisher) (b : Publication) :
    Turns net task [] k b b := by
  have turns := h.turns [] k b
  rwa [b.without_nil] at turns

/-- What is found is news to its publisher only. -/
theorem news?_of_finding {v : Value} (finding : task.finding? net = some (s, v))
    (found : net.publication? s = some b) (active : b.disposed = false)
    (new : b.value.identical v = false) (k : Publisher) : net.news? task k =
      if k = s then some ⟨v, Publication.shown { b with value := v } net.sizes⟩ else none := by
  by_cases same : k = s
  · subst same
    simp [news?, finding, found, active, new]
  · simp only [news?, finding, same, if_false]
    split
    · rename_i here there
      obtain ⟨rfl, rfl⟩ := Prod.mk.inj (Option.some.inj here)
      exact if_neg fun h => same h.1.symm
    · rfl

theorem disposes_of_disposing (disposing : task.disposing? net = some s)
    (found : net.publication? s = some b) (active : b.disposed = false) (k : Publisher) :
    net.disposes task k = decide (k = s) := by
  by_cases same : k = s
  · subst same
    simp [disposes, disposing, found, active]
  · simp [disposes, disposing, same, Ne.symm same]

theorem arriving?_of_subscribing {observer : Observer}
    (subscribing : task.subscribing? net = some (s, observer))
    (found : net.publication? s = some b) (active : b.disposed = false) :
    net.arriving? task = some (s, b.observers.next, observer) := by
  simp [arriving?, subscribing, found, Option.filter, active]

variable {followed : Followed} {rest : List Task}

theorem keeping_of_silent {tasks : List Task} (silent : ∀ t ∈ tasks, t.Silent) :
    tasks.flatMap Task.keeping = [] :=
  List.flatMap_eq_nil_iff.mpr fun t member => (silent t member).keeping

theorem keeping_of_tells {tasks : List Task} (tells : ∀ t ∈ tasks, t.Tells) :
    tasks.flatMap Task.keeping = [] := by
  refine List.flatMap_eq_nil_iff.mpr fun t member => ?_
  have := tells t member
  cases t with
  | adopt => exact this.elim
  | _ => rfl

/-- What is kept is counted in the network and in the agenda. -/
theorem copies_eq (reg : Registration) (net : Network) (tasks rest : List Task) :
    Propagation.copies reg ⟨net, tasks ++ rest⟩ = net.copies reg +
      (tasks.flatMap Task.keeping).count reg + (rest.flatMap Task.keeping).count reg := by
  simp only [Propagation.copies, List.flatMap_append, List.count_append, Nat.add_assoc]

/-- Nothing is done to publishers but that seats are given up. -/
theorem shift_of_moves (made : ∀ k b, net.publication? k = some b → net.Made k)
    {taken gone : Subscription} (uneventful : net.Uneventful task)
    (moves : Moves taken gone net followed.1)
    (kept : ∀ s n, taken.count (Publisher.seat s n) = task.keeping.count (s.seat n))
    (keeping : followed.2.flatMap Task.keeping = []) :
    Shift task gone ⟨net, task :: rest⟩ ⟨followed.1, followed.2 ++ rest⟩ := by
  have counted (k : Publisher) (n : Nat) :
      Propagation.copies (k.seat n) ⟨followed.1, followed.2 ++ rest⟩ + gone.count (k.seat n) =
        Propagation.copies (k.seat n) ⟨net, task :: rest⟩ := by
    have before := copies_eq (k.seat n) net [task] rest
    have after := copies_eq (k.seat n) followed.1 followed.2 rest
    have moved := moves.copies (k.seat n)
    rw [kept k n] at moved
    simp only [List.flatMap_cons, List.flatMap_nil, keeping, List.append_nil, List.cons_append,
      List.nil_append, List.count_nil] at before after
    omega
  refine ⟨fun k => (moves.made k).mpr, fun k n => ?_, fun k n => ?_, fun k b' later => ?_⟩
  · rw [counted, uneventful.newSeats]
    rfl
  · rw [← counted]
    exact Nat.le_add_left _ _
  · rw [moves.publication] at later
    obtain ⟨b, found, rfl⟩ := Option.map_eq_some_iff.mp later
    exact ⟨(moves.made k).mpr (made k b found), .inr ⟨b, found, uneventful.turns gone k b⟩⟩

/-- One publisher changes. -/
theorem shift_of_updates {f : Publication → Publication}
    (made : ∀ k b, net.publication? k = some b → net.Made k)
    (updates : Updates s f net followed.1) (own : task.keeping = [])
    (keeping : followed.2.flatMap Task.keeping = net.newSeats task)
    (turns : ∀ b, net.publication? s = some b → Turns net task [] s b (f b))
    (others : ∀ k b, k ≠ s → Turns net task [] k b b) :
    Shift task [] ⟨net, task :: rest⟩ ⟨followed.1, followed.2 ++ rest⟩ := by
  refine ⟨fun k => (updates.made k).mpr, fun k n => ?_, fun _ _ => Nat.zero_le _,
    fun k b' later => ?_⟩
  · have before := copies_eq (k.seat n) net [task] rest
    have after := copies_eq (k.seat n) followed.1 followed.2 rest
    simp only [List.flatMap_cons, List.flatMap_nil, own, keeping, updates.copies,
      List.cons_append, List.nil_append, List.count_nil] at before after ⊢
    omega
  · rw [updates.publication] at later
    split at later
    · rename_i same
      subst same
      obtain ⟨b, found, rfl⟩ := Option.map_eq_some_iff.mp later
      exact ⟨(updates.made k).mpr (made k b found), .inr ⟨b, found, turns b found⟩⟩
    · rename_i other
      exact ⟨(updates.made k).mpr (made k b' later), .inr ⟨b', later, others k b' other⟩⟩

theorem shift_of_makes (made : ∀ k b, net.publication? k = some b → net.Made k)
    (uneventful : net.Uneventful task) (makes : Makes s b net followed.1) (blank : b.Blank)
    (listens : b.watching.Listens) (own : task.keeping = [])
    (keeping : followed.2.flatMap Task.keeping = []) :
    Shift task [] ⟨net, task :: rest⟩ ⟨followed.1, followed.2 ++ rest⟩ := by
  refine ⟨fun k older => (makes.made k).mpr (.inr older), fun k n => ?_,
    fun _ _ => Nat.zero_le _, fun k b' later => ?_⟩
  · have before := copies_eq (k.seat n) net [task] rest
    have after := copies_eq (k.seat n) followed.1 followed.2 rest
    simp only [List.flatMap_cons, List.flatMap_nil, own, keeping, makes.copies, List.cons_append,
      List.nil_append, List.count_nil, uneventful.newSeats] at before after ⊢
    rw [before, after]
  · rw [makes.publication] at later
    split at later
    · rename_i same
      subst same
      obtain rfl := Option.some.inj later
      exact ⟨(makes.made k).mpr (.inl rfl), .inl ⟨makes.fresh, blank, listens⟩⟩
    · exact ⟨(makes.made k).mpr (.inr (made k b' later)),
        .inr ⟨b', later, uneventful.turns_same k b'⟩⟩

/-- At most the value is new. -/
theorem turns_of_value {c : Publication} {v : Value} (stays : net.disposes task k = false)
    (nobody : net.arriving? task = none)
    (value : ((net.news? task k).map News.stored).getD c.value = v) :
    Turns net task [] k c { c with value := v } := by
  refine ⟨value.symm, ?_, .inl rfl, .inl rfl, Nat.le_refl _, ?_, ?_⟩
  · rw [stays, Bool.or_false]
  · simp only [arrivals, nobody]
    exact List.forall_mem_nil _
  · rw [stays, c.without_nil]
    simp [arrivals, nobody]

theorem shift_of_stores (made : ∀ k b, net.publication? k = some b → net.Made k) {v : Value}
    (finding : task.finding? net = some (s, v)) (found : net.publication? s = some b)
    (active : b.disposed = false) (new : b.value.identical v = false)
    (updates : Updates s (fun b => { b with value := v }) net followed.1)
    (keeping : followed.2.flatMap Task.keeping = []) :
    Shift task [] ⟨net, task :: rest⟩ ⟨followed.1, followed.2 ++ rest⟩ := by
  obtain ⟨disposing, subscribing⟩ := disposing?_of_finding finding
  have nobody := arriving?_of_none subscribing
  have news := news?_of_finding finding found active new
  have own : task.keeping = [] := by
    cases task with
    | adopt => cases finding
    | _ => rfl
  refine shift_of_updates made updates own ?_ (fun c _ => ?_) fun k c other => ?_
  · simp only [keeping, newSeats, nobody]
  · exact turns_of_value (disposes_of_none disposing s) nobody (by simp [news])
  · exact turns_of_value (disposes_of_none disposing k) nobody (by simp [news, other])

theorem shift_of_seats (made : ∀ k b, net.publication? k = some b → net.Made k)
    {observer : Observer} (subscribing : task.subscribing? net = some (s, observer))
    (found : net.publication? s = some b) (active : b.disposed = false)
    (updates : Updates s (fun b => { b with observers := b.observers.add observer }) net followed.1)
    (keeping : followed.2.flatMap Task.keeping = [s.seat b.observers.next]) :
    Shift task [] ⟨net, task :: rest⟩ ⟨followed.1, followed.2 ++ rest⟩ := by
  obtain ⟨finding, disposing⟩ := finding?_of_subscribing subscribing
  have arriving := arriving?_of_subscribing subscribing found active
  have news (k : Publisher) : net.news? task k = none := news?_of_none finding k
  have stays := disposes_of_none disposing
  have own : task.keeping = [] := by
    cases task with
    | adopt => cases subscribing
    | _ => rfl
  refine shift_of_updates made updates own ?_ (fun c here => ?_) fun k c other => ?_
  · simp only [keeping, newSeats, arriving]
  · obtain rfl := Option.some.inj (found.symm.trans here)
    refine ⟨?_, ?_, .inl rfl, .inl rfl, Nat.le_succ _, ?_, ?_⟩
    · simp [news]
    · simp [stays]
    · simp [arrivals, arriving, Observers.add]
    · simp [stays, arrivals, arriving, Observers.add, b.without_nil]
  · refine ⟨?_, ?_, .inl rfl, .inl rfl, Nat.le_refl _, ?_, ?_⟩
    · simp [news]
    · simp [stays]
    · simp [arrivals, arriving, Ne.symm other]
    · simp [stays, arrivals, arriving, Ne.symm other, c.without_nil]

theorem shift_of_closes (made : ∀ k b, net.publication? k = some b → net.Made k)
    (disposing : task.disposing? net = some s) (found : net.publication? s = some b)
    (active : b.disposed = false)
    (updates : Updates s (fun b => { b with
      disposed := true, observers := b.observers.cleared, watching := [] }) net followed.1)
    (keeping : followed.2.flatMap Task.keeping = []) :
    Shift task [] ⟨net, task :: rest⟩ ⟨followed.1, followed.2 ++ rest⟩ := by
  obtain ⟨finding, subscribing⟩ := finding?_of_disposing disposing
  have nobody : net.arriving? task = none := arriving?_of_none subscribing
  have news (k : Publisher) : net.news? task k = none := news?_of_none finding k
  have disposes := disposes_of_disposing disposing found active
  have own : task.keeping = [] := by
    cases task with
    | adopt => cases disposing
    | _ => rfl
  refine shift_of_updates made updates own ?_ (fun c here => ?_) fun k c other => ?_
  · simp only [keeping, newSeats, nobody]
  · refine ⟨?_, ?_, .inl rfl, .inr rfl, Nat.le_refl _, ?_, ?_⟩
    · simp [news]
    · simp [disposes]
    · simp [arrivals, nobody]
    · simp [disposes, Observers.cleared]
  · exact turns_of_value (by simp [disposes, other]) nobody (by simp [news])

theorem Effect.shift (made : ∀ k b, net.publication? k = some b → net.Made k)
    (effect : Effect net task followed) :
    ∃ gone, Shift task gone ⟨net, task :: rest⟩ ⟨followed.1, followed.2 ++ rest⟩ := by
  cases effect with
  | moves uneventful moves kept silent =>
      exact ⟨_, shift_of_moves made uneventful moves kept (keeping_of_silent silent)⟩
  | @converts s _ uneventful changes updates silent =>
      have own : task.keeping = [] := by
        cases task with
        | adopt => cases changes
        | _ => rfl
      refine ⟨[], shift_of_updates made updates own ?_ (fun b _ => ?_)
        fun k b _ => uneventful.turns_same k b⟩
      · rw [keeping_of_silent silent, uneventful.newSeats]
      · have turns := uneventful.turns_same s b
        exact ⟨turns.value, turns.disposed, .inr changes, turns.watching, turns.next, turns.new,
          turns.list⟩
  | makes uneventful own makes blank listens silent =>
      exact ⟨[], shift_of_makes made uneventful makes blank listens own.keeping
        (keeping_of_silent silent)⟩
  | stores finding found active new updates follows silent =>
      refine ⟨[], shift_of_stores made finding found active new updates ?_⟩
      rw [follows, List.flatMap_append, keeping_of_silent silent, List.append_nil]
      exact keeping_of_tells (List.forall_mem_map.mpr fun _ _ => trivial)
  | seats subscribing found active updates follows =>
      refine ⟨[], shift_of_seats made subscribing found active updates ?_⟩
      rw [follows]
      rfl
  | late uneventful subscribing _ _ inert follows =>
      refine ⟨[], shift_of_moves made uneventful inert (fun _ _ => ?_) ?_⟩
      · cases task with
        | adopt => cases subscribing
        | _ => rfl
      · rw [follows]
        rfl
  | closes disposing found active updates follows =>
      refine ⟨[], shift_of_closes made disposing found active updates ?_⟩
      rw [follows]
      exact keeping_of_tells (List.forall_mem_map.mpr fun _ _ => trivial)

theorem Effect.blank (effect : Effect net task followed) : ∀ t ∈ followed.2, t.Blank := by
  cases effect with
  | moves _ _ _ silent | converts _ _ _ silent | makes _ _ _ _ _ silent =>
      exact fun t member => (silent t member).blank
  | stores _ _ _ _ _ follows silent =>
      rw [follows]
      exact List.forall_mem_append.mpr
        ⟨List.forall_mem_map.mpr fun _ _ => trivial, fun t member => (silent t member).blank⟩
  | seats _ _ _ _ follows | late _ _ _ _ _ follows =>
      rw [follows]
      exact List.forall_mem_cons.mpr ⟨trivial, List.forall_mem_singleton.mpr trivial⟩
  | closes _ _ _ _ follows =>
      rw [follows]
      exact List.forall_mem_map.mpr fun _ _ => trivial

end Network

/-- What watches stores is no seat, what is yet to be made is blank, and seats have been given out
by publishers that have been made. -/
structure Propagation.Orderly (p : Propagation) : Prop where
  upstream : p.net.Upstream
  blank : ∀ t ∈ p.agenda, t.Blank
  made : ∀ k b, p.net.publication? k = some b → p.net.Made k
  numbered : ∀ s n, 0 < p.copies (Publisher.seat s n) → p.net.Made s ∧
    ∀ b, p.net.publication? s = some b → n < b.observers.next

variable {p q : Propagation} {task : Task} {gone : Subscription} {rest : List Task}

/-- The number of a new seat is the next one of its publisher. -/
theorem Network.mem_newSeats {net : Network} {s : Publisher} {n : Nat}
    (member : s.seat n ∈ net.newSeats task) : ∃ b observer, net.publication? s = some b ∧
      b.disposed = false ∧ n = b.observers.next ∧ net.arrivals task s = [(n, observer)] := by
  unfold newSeats at member
  split at member
  · rename_i k m observer arriving
    obtain ⟨rfl, rfl⟩ := Publisher.seat_inj.mp (List.mem_singleton.mp member)
    have seated := arriving
    simp only [arriving?, Option.bind_eq_some_iff, Option.map_eq_some_iff] at arriving
    obtain ⟨⟨k, o⟩, subscribing, b, there, here⟩ := arriving
    cases here
    obtain ⟨found, active⟩ := Option.filter_eq_some_iff.mp there
    refine ⟨b, o, found, by simpa using active, rfl, ?_⟩
    simp [arrivals, seated]
  · cases member

namespace Shift

theorem upstream (shift : Shift task gone p q) (upstream : p.net.Upstream) : q.net.Upstream := by
  intro k b' found
  obtain ⟨-, new | ⟨b, before, turns⟩⟩ := shift.publication k b' found
  · exact new.listens
  · obtain same | none := turns.watching
    · exact same ▸ upstream k b before
    · exact none ▸ fun _ _ => List.not_mem_nil

/-- Some publishers are released afterwards. -/
theorem sheds {net' : Network} (shift : Shift task gone p q) (sheds : q.net.Sheds net') :
    Shift task gone p ⟨net', q.agenda⟩ := by
  refine ⟨fun k made => (sheds.made k).mpr (shift.made k made), fun s n => ?_, shift.given,
    fun k b' found => ?_⟩
  · have copies := shift.copies s n
    simp only [Propagation.copies, sheds.copies] at copies ⊢
    exact copies
  · obtain none | same := sheds.publication k
    · cases none.symm.trans found
    · obtain ⟨made, rest⟩ := shift.publication k b' (same ▸ found)
      exact ⟨(sheds.made k).mpr made, rest⟩

theorem orderly (shift : Shift task gone p q) (h : p.Orderly) (blank : ∀ t ∈ q.agenda, t.Blank) :
    q.Orderly := by
  refine ⟨shift.upstream h.upstream, blank, fun k b found => (shift.publication k b found).1,
    fun s n kept => ?_⟩
  have copies := shift.copies s n
  by_cases new : s.seat n ∈ p.net.newSeats task
  · obtain ⟨b, observer, there, -, rfl, arrival⟩ := Network.mem_newSeats new
    refine ⟨shift.made s (h.made s b there), fun b' found => ?_⟩
    obtain ⟨-, new | ⟨b, before, turns⟩⟩ := shift.publication s b' found
    · exact (new.fresh (h.made s b there)).elim
    · exact (turns.new (_, observer) (arrival ▸ List.mem_singleton_self _)).2
  · rw [List.count_eq_zero.mpr new] at copies
    obtain ⟨made, numbered⟩ := h.numbered s n (by omega)
    refine ⟨shift.made s made, fun b' found => ?_⟩
    obtain ⟨-, new | ⟨b, before, turns⟩⟩ := shift.publication s b' found
    · exact (new.fresh made).elim
    · exact Nat.lt_of_lt_of_le (numbered b before) turns.next

end Shift

namespace Propagation

/-- What is released after a task is nothing to those who observe. -/
theorem Orderly.shift (h : p.Orderly) (agenda : p.agenda = task :: rest)
    (shift : Shift task gone ⟨p.net, task :: rest⟩
      ⟨(task.perform p.net).1, (task.perform p.net).2 ++ rest⟩) : Shift task gone p p.step := by
  obtain ⟨net, _⟩ := p
  cases agenda
  exact shift.sheds (.release (shift.upstream h.upstream) _)

/-- What watches stores is no seat after a task either. -/
theorem Orderly.upstream_perform (h : p.Orderly) (agenda : p.agenda = task :: rest) :
    (task.perform p.net).1.Upstream := by
  have effect := Network.effect_perform h.upstream (h.blank task (agenda ▸ .head _))
  obtain ⟨gone, shift⟩ : ∃ gone, Shift task gone ⟨p.net, task :: rest⟩
      ⟨(task.perform p.net).1, (task.perform p.net).2 ++ rest⟩ := effect.shift h.made
  exact shift.upstream h.upstream

/-- Every step is a shift, and keeps everything in order. -/
theorem Orderly.step (h : p.Orderly) (agenda : p.agenda = task :: rest) :
    (∃ gone, Shift task gone p p.step) ∧ p.step.Orderly := by
  have effect := Network.effect_perform h.upstream (h.blank task (agenda ▸ .head _))
  obtain ⟨gone, shift⟩ : ∃ gone, Shift task gone ⟨p.net, task :: rest⟩
      ⟨(task.perform p.net).1, (task.perform p.net).2 ++ rest⟩ := effect.shift h.made
  have shift := h.shift agenda shift
  refine ⟨⟨gone, shift⟩, shift.orderly h ?_⟩
  rw [agenda_step agenda]
  exact List.forall_mem_append.mpr
    ⟨effect.blank, fun t member => h.blank t (agenda ▸ .tail _ member)⟩

theorem Orderly.ask {net : Network} (h : Orderly ⟨net, []⟩) (op : Operation) :
    (net.ask op).Orderly := by
  have sheds : net.Sheds (net.ask op).net := .inert rfl rfl rfl rfl rfl
  have before {k : Publisher} {b : Publication} (found : (net.ask op).net.publication? k = some b) :
      net.publication? k = some b := by
    obtain none | same := sheds.publication k
    · cases none.symm.trans found
    · exact same ▸ found
  refine ⟨sheds.upstream h.upstream, List.forall_mem_singleton.mpr trivial, fun k b found => ?_,
    fun s n kept => ?_⟩
  · exact (sheds.made k).mpr (h.made k b (before found))
  · obtain ⟨made, numbered⟩ := h.numbered s n kept
    exact ⟨(sheds.made s).mpr made, fun b found => numbered b (before found)⟩

theorem Orderly.next (h : p.Orderly) (next : p.Next q) : q.Orderly := by
  cases next with
  | task busy =>
      obtain ⟨task, rest, agenda⟩ := List.exists_cons_of_ne_nil busy
      exact (h.step agenda).2
  | ask net op => exact h.ask op

end Propagation

/-- At first there is nothing to be observed. -/
theorem Network.Untouched.publication {net : Network} (untouched : net.Untouched) (k : Publisher) :
    net.publication? k = none := by
  cases k with
  | observable id =>
      simp only [Network.publication?, untouched.observables, Table.find?_empty, Option.map_none]
  | binding id =>
      simp only [Network.publication?, untouched.bindings, Table.find?_empty, Option.map_none]

namespace Propagation

/-- Everything is in order from the start on. -/
theorem orderly_of_untouched {net : Network} (untouched : net.Untouched) : Orderly ⟨net, []⟩ := by
  have nothing {k : Publisher} {b : Publication} (found : net.publication? k = some b) : False :=
    nomatch (untouched.publication k).symm.trans found
  refine ⟨fun k b found => (nothing found).elim, List.forall_mem_nil _,
    fun k b found => (nothing found).elim, fun s n kept => ?_⟩
  simp only [copies, Network.copies, untouched.subscriptions] at kept
  exact absurd kept (Nat.lt_irrefl 0)

end Propagation

end SlotScript
