import SlotScript.Proofs.Network.Seat

/-! # Observers that act

An observer may write when it is told, and then its publisher may tell everybody of a newer value
before the others have heard of the older one, which is delivered to them all the same. Whoever sits
behind an observer that acts may therefore end up with a value that is out of date. Whoever sits
behind observers that do not act never does, even if it acts itself and others act behind it.
-/

namespace SlotScript

/-- A delivery to an observer of another label that does not act. -/
def Task.Passes (label : String) : Task → Prop
  | .deliver observer _ => observer.label ≠ label ∧ observer.action = none
  | _ => False

namespace Propagation

/-- Values are shown as they are, and observers sit in the order of their seats. -/
structure Regular (p : Propagation) : Prop where
  plain : ∀ k b, p.net.publication? k = some b → b.converter = none
  sorted : ∀ k b, p.net.publication? k = some b →
    b.observers.list.Pairwise (fun entry later => entry.1 < later.1) ∧
      ∀ entry ∈ b.observers.list, entry.1 < b.observers.next

/-- No converter is changed now. -/
def Steady (p : Propagation) : Prop :=
  p.agenda.head?.any Task.converts = false

instance (p : Propagation) : Decidable p.Steady :=
  inferInstanceAs (Decidable (p.agenda.head?.any Task.converts = false))

/-- Observers that sit before a seat do not act. -/
def PassiveAhead (s : Publisher) (n : Nat) (p : Propagation) : Prop :=
  ∀ b, p.net.publication? s = some b → ∀ entry ∈ b.observers.list, entry.1 < n →
    entry.2.action = none

end Propagation

open Network Propagation

variable {p q : Propagation} {task : Task} {gone : Subscription} {rest : List Task}
  {s k : Publisher} {n : Nat} {observer : Observer} {label : String}

theorem Publication.mem_without {b : Publication} {entry : Nat × Observer}
    (member : entry ∈ (b.without k gone).observers.list) : entry ∈ b.observers.list :=
  (List.mem_filter.mp member).1

/-- Who sits with a publisher after a step sat there before, or has come just now. -/
theorem Network.Turns.mem {net : Network} {b b' : Publication} (turns : net.Turns task gone k b b')
    {entry : Nat × Observer} (member : entry ∈ b'.observers.list) :
    entry ∈ b.observers.list ∨ entry ∈ net.arrivals task k := by
  rw [turns.list] at member
  split at member
  · cases member
  · exact (List.mem_append.mp member).imp Publication.mem_without id

theorem Network.Turns.sorted {net : Network} {b b' : Publication}
    (turns : net.Turns task gone k b b')
    (h : b.observers.list.Pairwise (fun entry later => entry.1 < later.1) ∧
      ∀ entry ∈ b.observers.list, entry.1 < b.observers.next) :
    b'.observers.list.Pairwise (fun entry later => entry.1 < later.1) ∧
      ∀ entry ∈ b'.observers.list, entry.1 < b'.observers.next := by
  refine ⟨?_, fun entry member => ?_⟩
  · rw [turns.list]
    split
    · exact .nil
    · refine List.pairwise_append.mpr ⟨h.1.filter _, ?_, fun older old newer new => ?_⟩
      · unfold arrivals
        split
        · split
          · exact List.pairwise_singleton _ _
          · exact .nil
        · exact .nil
      · rw [(turns.new newer new).1]
        exact h.2 older (Publication.mem_without old)
  · obtain old | new := turns.mem member
    · exact Nat.lt_of_lt_of_le (h.2 entry old) turns.next
    · exact (turns.new entry new).2

namespace Propagation

theorem Regular.shift (h : p.Regular) (steady : p.Steady) (agenda : p.agenda = task :: rest)
    (shift : Shift task gone p q) : q.Regular := by
  refine ⟨fun k b' found => ?_, fun k b' found => ?_⟩
  · obtain ⟨-, new | ⟨b, before, turns⟩⟩ := shift.publication k b' found
    · exact new.blank.plain
    · obtain same | converts := turns.converter
      · rw [same, h.plain k b before]
      · simp [Steady, agenda, converts] at steady
  · obtain ⟨-, new | ⟨b, before, turns⟩⟩ := shift.publication k b' found
    · rw [new.blank.empty]
      exact ⟨.nil, List.forall_mem_nil _⟩
    · exact turns.sorted (h.sorted k b before)

theorem Regular.next (h : p.Regular) (orderly : p.Orderly) (steady : p.Steady)
    (next : p.Next q) : q.Regular := by
  cases next with
  | ask net op =>
      have same (k : Publisher) : (net.ask op).net.publication? k = net.publication? k :=
        publication?_of_eq rfl rfl k
      exact ⟨fun k b found => h.plain k b (same k ▸ found),
        fun k b found => h.sorted k b (same k ▸ found)⟩
  | task busy =>
      obtain ⟨task, rest, agenda⟩ := List.exists_cons_of_ne_nil busy
      obtain ⟨⟨gone, shift⟩, -⟩ := orderly.step agenda
      exact h.shift steady agenda shift

theorem PassiveAhead.shift (h : p.PassiveAhead s n) (seated : p.Seated s n observer)
    (shift : Shift task gone p q) : q.PassiveAhead s n := by
  intro b' found entry member before
  obtain ⟨-, new | ⟨b, found, turns⟩⟩ := shift.publication s b' found
  · exact (new.fresh seated.made).elim
  · obtain old | new := turns.mem member
    · exact h b found entry old before
    · obtain ⟨-, c, here, active⟩ := mem_arrivals new
      obtain rfl := Option.some.inj (found.symm.trans here)
      obtain ended | lt := seated.numbered b found
      · cases active.symm.trans ended
      · rw [(turns.new entry new).1] at before
        exact (Nat.lt_asymm lt before).elim

theorem PassiveAhead.next (h : p.PassiveAhead s n) (seated : p.Seated s n observer)
    (orderly : p.Orderly) (next : p.Next q) : q.PassiveAhead s n := by
  cases next with
  | ask net op => exact fun b found => h b ((publication?_of_eq rfl rfl s).symm.trans found)
  | task busy =>
      obtain ⟨task, rest, agenda⟩ := List.exists_cons_of_ne_nil busy
      obtain ⟨⟨gone, shift⟩, -⟩ := orderly.step agenda
      exact h.shift seated shift

/-- What is news of a publisher is stored and delivered to those who sit with it. -/
theorem delivers (orderly : p.Orderly) (agenda : p.agenda = task :: rest) {news : News}
    (found : p.news? s = some news) : ∃ b others, p.net.publication? s = some b ∧
      b.disposed = false ∧
      news.shown = Publication.shown { b with value := news.stored } p.net.sizes ∧
      p.step.agenda = b.observers.current.map (.deliver · news.shown) ++ (others ++ rest) ∧
      ∀ t ∈ others, t.Silent := by
  have blank := orderly.blank task (agenda ▸ .head _)
  rw [news?_eq agenda] at found
  cases effect_perform orderly.upstream blank with
  | moves uneventful | converts uneventful | makes uneventful | late uneventful =>
      exact nomatch (uneventful.news s).symm.trans found
  | seats subscribing =>
      exact nomatch (news?_of_none (finding?_of_subscribing subscribing).1 s).symm.trans found
  | closes disposing =>
      exact nomatch (news?_of_none (finding?_of_disposing disposing).1 s).symm.trans found
  | @stores k b v others finding there active new updates follows silent =>
      rw [news?_of_finding finding there active new] at found
      split at found
      · rename_i same
        cases found
        refine ⟨b, others, same ▸ there, active, rfl, ?_, silent⟩
        rw [agenda_step agenda, follows, List.append_assoc]
      · cases found

/-- Whoever sits behind observers that do not act is told before anyone acts. -/
theorem Seated.delivered (h : p.Seated s n observer) (regular : p.Regular)
    (ahead : p.PassiveAhead s n) {b : Publication} (found : p.net.publication? s = some b)
    (active : b.disposed = false) (kept : 0 < p.copies (s.seat n)) (v : Value) : ∃ before behind,
      b.observers.current.map (Task.deliver · v) = before ++ .deliver observer v :: behind ∧
        (∀ t ∈ before, t.Passes observer.label) ∧
        behind.filterMap (Task.signal? observer.label) = [] := by
  have mine := h.here b found
  rw [if_pos ⟨active, kept⟩] at mine
  have member : (n, observer) ∈ b.observers.list := by
    have : (n, observer) ∈ b.under observer.label := mine ▸ List.mem_singleton_self _
    exact (List.mem_filter.mp this).1
  obtain ⟨before, behind, split⟩ := List.append_of_mem member
  have alone : before.filter (fun entry => entry.2.label = observer.label) = [] ∧
      behind.filter (fun entry => entry.2.label = observer.label) = [] := by
    have lengths := congrArg List.length mine
    rw [Publication.under, split] at lengths
    simp only [List.filter_append, List.filter_cons, decide_true, if_true, List.length_append,
      List.length_cons, List.length_nil] at lengths
    exact ⟨List.eq_nil_of_length_eq_zero (by omega), List.eq_nil_of_length_eq_zero (by omega)⟩
  have sorted := (regular.sorted s b found).1
  rw [split] at sorted
  refine ⟨before.map fun entry => .deliver entry.2 v, behind.map fun entry => .deliver entry.2 v,
    ?_, List.forall_mem_map.mpr fun entry first => ⟨?_, ?_⟩, ?_⟩
  · simp [Observers.current, split, Function.comp_def]
  · simpa using List.filter_eq_nil_iff.mp alone.1 entry first
  · have lt := (List.pairwise_append.mp sorted).2.2 entry first (n, observer) (.head _)
    exact ahead b found entry (split ▸ List.mem_append_left _ first) lt
  · refine List.filterMap_eq_nil_iff.mpr (List.forall_mem_map.mpr fun entry last => ?_)
    have other := List.filter_eq_nil_iff.mp alone.2 entry last
    simp only [decide_eq_true_eq] at other
    simp [Task.signal?, other]

/-- Nothing is news of a publisher while something is on its way to the observer of a label. -/
def Settled (s : Publisher) (label : String) (p : Propagation) : Prop :=
  p.news? s ≠ none → p.coming label = []

instance (s : Publisher) (label : String) (p : Propagation) : Decidable (p.Settled s label) :=
  decidable_of_iff ((p.news? s).isNone ∨ (p.coming label).isEmpty)
    (by cases h : p.news? s <;> simp [Settled, h])

/-- How far the latest value has come to an observer: it has been told, or is about to be told,
unless it has left or there is nothing left to be told. -/
inductive Hearing (s : Publisher) (n : Nat) (observer : Observer) (past : List Propagation)
    (q : Propagation) : Prop where
  | finished : q.copies (s.seat n) = 0 ∨ (∀ b, q.net.publication? s = some b → b.disposed = true) →
      Hearing s n observer past q
  | told : q.coming observer.label = [] → (∀ b, q.net.publication? s = some b →
      (past.filterMap (signal? observer.label)).getLast? = some (.next b.value)) →
      Hearing s n observer past q
  | pending {v : Value} : q.coming observer.label = [.next v] →
      (∀ b, q.net.publication? s = some b → v = b.value) → Hearing s n observer past q

namespace Hearing

variable {past : List Propagation}

/-- What is finished stays so. -/
theorem next_finished (seated : q.Seated s n observer) (orderly : q.Orderly) {q' : Propagation}
    (next : q.Next q') (finished : q.copies (s.seat n) = 0 ∨
      ∀ b, q.net.publication? s = some b → b.disposed = true) (past : List Propagation) :
    Hearing s n observer past q' := by
  refine .finished (finished.imp (fun none => ?_) fun ended b' found => ?_)
  · have copies := seated.next_copies orderly next
    omega
  · obtain ⟨b, before, -, disposed⟩ := seated.next_publication orderly next found
    rw [disposed, ended b before, Bool.true_or]

/-- When nothing is news, an observer that waits for the latest value goes on waiting, or is
told. -/
theorem next_pending (seated : q.Seated s n observer) (orderly : q.Orderly)
    (spares : q.Spares observer.label) (agenda : q.agenda = task :: rest) (news : q.news? s = none)
    {v : Value} (coming : q.coming observer.label = [.next v])
    (latest : ∀ b, q.net.publication? s = some b → v = b.value) :
    Hearing s n observer (past ++ [q]) q.step := by
  have next : q.Next q.step := .task (agenda ▸ List.cons_ne_nil task rest)
  have same (b' : Publication) (found : q.step.net.publication? s = some b') : v = b'.value := by
    obtain ⟨b, before, value, -⟩ := seated.next_publication orderly next found
    rw [news] at value
    exact (latest b before).trans value.symm
  cases disposed : q.disposes s with
  | true =>
      refine .finished (.inr fun b' later => ?_)
      obtain ⟨b, -, -, ended⟩ := seated.next_publication orderly next later
      rw [ended, disposed, Bool.or_true]
  | false =>
      have due : q.due? s n = none := by simp [due?, news, disposed]
      have later := seated.coming_step orderly agenda spares
      rw [due, Option.toList, List.nil_append] at later
      rw [coming_eq agenda] at coming
      cases now : q.signal? observer.label with
      | none =>
          rw [now, Option.toList, List.nil_append] at coming
          exact .pending (later.trans coming) same
      | some signal =>
          rw [now] at coming
          obtain ⟨rfl, none⟩ := List.cons.inj coming
          refine .told (later.trans none) fun b' found => ?_
          rw [filterMap_concat, now, ← same b' found]
          simp

/-- When something is news, it is on its way; else nothing is. -/
theorem next_told (seated : q.Seated s n observer) (orderly : q.Orderly)
    (plain : ∀ b, q.net.publication? s = some b → b.converter = none)
    (spares : q.Spares observer.label) (agenda : q.agenda = task :: rest)
    (told : q.coming observer.label = []) (latest : ∀ b, q.net.publication? s = some b →
      (past.filterMap (signal? observer.label)).getLast? = some (.next b.value)) :
    Hearing s n observer (past ++ [q]) q.step := by
  have next : q.Next q.step := .task (agenda ▸ List.cons_ne_nil task rest)
  rw [coming_eq agenda] at told
  obtain ⟨now, none⟩ := List.append_eq_nil_iff.mp told
  have later := seated.coming_step orderly agenda spares
  rw [none, List.append_nil] at later
  by_cases kept : 0 < q.copies (s.seat n)
  · cases news : q.news? s with
    | some fresh =>
        rw [due?, if_pos kept, news] at later
        refine .pending later fun b' found => ?_
        obtain ⟨b, before, value, -⟩ := seated.next_publication orderly next found
        obtain ⟨c, -, here, -, shown, -⟩ := delivers orderly agenda news
        cases here.symm.trans before
        rw [value, news, shown, Publication.shown, plain b before]
        rfl
    | none =>
        cases disposed : q.disposes s with
        | true =>
            refine .finished (.inr fun b' found => ?_)
            obtain ⟨b, -, -, ended⟩ := seated.next_publication orderly next found
            rw [ended, disposed, Bool.or_true]
        | false =>
            rw [due?, if_pos kept, news, disposed] at later
            refine .told later fun b' found => ?_
            obtain ⟨b, before, value, -⟩ := seated.next_publication orderly next found
            rw [news] at value
            rw [filterMap_concat, now, List.append_nil, latest b before, value]
            rfl
  · exact next_finished seated orderly next (.inl (Nat.eq_zero_of_not_pos kept)) _

theorem next (h : Hearing s n observer past q) (seated : q.Seated s n observer)
    (orderly : q.Orderly) (plain : ∀ b, q.net.publication? s = some b → b.converter = none)
    (spares : q.Spares observer.label) (settled : q.Settled s observer.label) {q' : Propagation}
    (next : q.Next q') : Hearing s n observer (past ++ [q]) q' := by
  cases next with
  | ask net op =>
      have same : (net.ask op).net.publication? s = net.publication? s :=
        publication?_of_eq rfl rfl s
      cases h with
      | finished finished => exact next_finished seated orderly (.ask net op) finished _
      | told told latest =>
          refine .told rfl fun b found => ?_
          have nothing : signal? observer.label ⟨net, []⟩ = none := rfl
          rw [filterMap_concat, nothing, Option.toList, List.append_nil]
          exact latest b (same ▸ found)
      | pending coming => cases coming
  | task busy =>
      obtain ⟨task, rest, agenda⟩ := List.exists_cons_of_ne_nil busy
      cases h with
      | finished finished => exact next_finished seated orderly (.task busy) finished _
      | told told latest => exact next_told seated orderly plain spares agenda told latest
      | pending coming latest =>
          have news : q.news? s = none := Classical.byContradiction fun some => by
            cases coming.symm.trans (settled some)
          exact next_pending seated orderly spares agenda news coming latest

/-- An observer that has just been subscribed is about to be told of what is stored. -/
theorem start (orderly : p.Orderly) (agenda : p.agenda = task :: rest)
    (silent : p.coming observer.label = []) {b : Publication}
    (plain : ∀ b, p.net.publication? s = some b → b.converter = none)
    (subscribing : task.subscribing? p.net = some (s, observer))
    (there : p.net.publication? s = some b) (active : b.disposed = false) :
    Hearing s b.observers.next observer [] p.step := by
  rw [coming_eq agenda] at silent
  have coming := orderly.coming_greeted agenda (List.append_eq_nil_iff.mp silent).2 subscribing
    there active
  refine .pending coming fun b' later => ?_
  rw [orderly.same_value agenda subscribing there later, Publication.shown, plain b there]
  rfl

end Hearing

/-- What is on its way to an observer comes before anyone acts, unless nothing is left to be
told. -/
inductive Served (s : Publisher) (observer : Observer) (q : Propagation) : Prop where
  | finished : (∀ b, q.net.publication? s = some b → b.disposed = true) → Served s observer q
  | idle : q.coming observer.label = [] → Served s observer q
  | fronted {before rest : List Task} {v : Value} :
      q.agenda = before ++ .deliver observer v :: rest →
      (∀ t ∈ before, t.Passes observer.label) →
      rest.filterMap (Task.signal? observer.label) = [] → Served s observer q

namespace Served

theorem settled (h : Served s observer q) : q.Settled s observer.label := by
  intro news
  obtain ⟨fresh, news⟩ := Option.ne_none_iff_exists'.mp news
  cases h with
  | finished ended =>
      obtain ⟨b, found, active, -⟩ := news?_eq_some news
      cases active.symm.trans (ended b found)
  | idle idle => exact idle
  | @fronted before rest v agenda passing =>
      cases before with
      | nil =>
          rw [news?_eq agenda, news?_of_none rfl] at news
          cases news
      | cons task before =>
          have passes := passing task (.head _)
          cases task with
          | deliver o w =>
              rw [news?_eq agenda, news?_of_none rfl] at news
              cases news
          | _ => exact passes.elim

/-- Before an observer is told of what is on its way, nobody acts. -/
theorem step_fronted {before rest : List Task} {v : Value}
    (agenda : q.agenda = before ++ .deliver observer v :: rest)
    (passing : ∀ t ∈ before, t.Passes observer.label)
    (silent : rest.filterMap (Task.signal? observer.label) = []) : Served s observer q.step := by
  cases before with
  | cons task before =>
      have passes := passing task (.head _)
      cases task with
      | deliver o w =>
          have onward : q.step.agenda = before ++ .deliver observer v :: rest := by
            rw [agenda_step agenda]
            simp only [Task.perform, act, passes.2]
            rfl
          exact .fronted onward (fun t member => passing t (.tail _ member)) silent
      | _ => exact passes.elim
  | nil =>
      obtain ⟨-, quiet⟩ := act_nothing (q.net.report (.next observer.label (q.net.portrait v)))
        observer.label v observer.action
      refine .idle ?_
      rw [coming, agenda_step agenda, List.filterMap_append, silent, List.append_nil]
      exact signals_of_silent quiet observer.label

/-- What is news is delivered at once, to those in front first. -/
theorem step_idle (seated : q.Seated s n observer) (orderly : q.Orderly) (regular : q.Regular)
    (ahead : q.PassiveAhead s n) (spares : q.Spares observer.label)
    (agenda : q.agenda = task :: rest) (idle : q.coming observer.label = []) :
    Served s observer q.step := by
  rw [coming_eq agenda] at idle
  obtain ⟨-, silent⟩ := List.append_eq_nil_iff.mp idle
  have later := seated.coming_step orderly agenda spares
  rw [silent, List.append_nil] at later
  by_cases kept : 0 < q.copies (s.seat n)
  · cases news : q.news? s with
    | some fresh =>
        obtain ⟨b, others, found, active, shown, follows, quiet⟩ := delivers orderly agenda news
        obtain ⟨before, behind, split, passing, clear⟩ :=
          seated.delivered regular ahead found active kept fresh.shown
        rw [split, List.append_assoc, List.cons_append] at follows
        refine .fronted follows passing ?_
        rw [List.filterMap_append, clear, List.filterMap_append, silent, signals_of_silent quiet]
        rfl
    | none =>
        cases disposed : q.disposes s with
        | true =>
            refine .finished fun b' found => ?_
            obtain ⟨b, -, -, ended⟩ :=
              seated.next_publication orderly (.task (agenda ▸ List.cons_ne_nil task rest)) found
            rw [ended, disposed, Bool.or_true]
        | false =>
            rw [due?, if_pos kept, news, disposed] at later
            exact .idle later
  · rw [due?, if_neg kept] at later
    exact .idle later

theorem next (h : Served s observer q) (seated : q.Seated s n observer) (orderly : q.Orderly)
    (regular : q.Regular) (ahead : q.PassiveAhead s n) (spares : q.Spares observer.label)
    {q' : Propagation} (next : q.Next q') : Served s observer q' := by
  cases h with
  | finished ended =>
      refine .finished fun b' found => ?_
      obtain ⟨b, before, -, disposed⟩ := seated.next_publication orderly next found
      rw [disposed, ended b before, Bool.true_or]
  | idle idle =>
      cases next with
      | ask net op => exact .idle rfl
      | task busy =>
          obtain ⟨task, rest, agenda⟩ := List.exists_cons_of_ne_nil busy
          exact step_idle seated orderly regular ahead spares agenda idle
  | fronted agenda passing silent =>
      cases next with
      | ask net op =>
          exact (List.append_ne_nil_of_right_ne_nil _ (List.cons_ne_nil _ _) agenda.symm).elim
      | task => exact step_fronted agenda passing silent

/-- An observer that has just been subscribed is greeted before anyone acts. -/
theorem start (orderly : p.Orderly) (agenda : p.agenda = task :: rest)
    (silent : p.coming observer.label = []) {b : Publication}
    (subscribing : task.subscribing? p.net = some (s, observer))
    (there : p.net.publication? s = some b) (active : b.disposed = false) :
    Served s observer p.step := by
  rw [coming_eq agenda] at silent
  have greeted : p.step.agenda = [] ++ .deliver observer (b.shown p.net.sizes) ::
      .adopt observer.label [s.seat b.observers.next] :: rest :=
    orderly.greeted agenda subscribing there active
  exact .fronted greeted (List.forall_mem_nil _) (List.append_eq_nil_iff.mp silent).2

end Served

/-- An observer in its seat, with everything in order. -/
structure Situated (s : Publisher) (n : Nat) (observer : Observer) (p : Propagation) : Prop where
  orderly : p.Orderly
  regular : p.Regular
  seated : p.Seated s n observer

theorem Situated.next (h : p.Situated s n observer) (steady : p.Steady)
    (spares : p.Spares observer.label) (next : p.Next q) : q.Situated s n observer :=
  ⟨h.orderly.next next, h.regular.next h.orderly steady next, h.seated.next h.orderly spares next⟩

/-- Whoever is subscribed under a new label sits and is about to be told, or came too late. -/
theorem Situated.start (orderly : p.Orderly) (regular : p.Regular) (steady : p.Steady)
    (agenda : p.agenda = task :: rest) (subscribing : task.subscribing? p.net = some (s, observer))
    {b : Publication} (there : p.net.publication? s = some b) (unheard : p.Unheard observer.label)
    (silent : p.coming observer.label = []) :
    p.step.Situated s b.observers.next observer ∧
      Hearing s b.observers.next observer [] p.step := by
  have next : p.Next p.step := .task (agenda ▸ List.cons_ne_nil task rest)
  have plain := regular.plain s
  cases ended : b.disposed with
  | false =>
      exact ⟨⟨orderly.next next, regular.next orderly steady next,
        .start orderly agenda unheard subscribing there ended⟩,
        .start orderly agenda silent plain subscribing there ended⟩
  | true =>
      obtain ⟨seated, none⟩ := Seated.start_late orderly agenda unheard subscribing there ended
      exact ⟨⟨orderly.next next, regular.next orderly steady next, seated⟩, .finished (.inl none)⟩

/-- Whoever is subscribed behind observers that do not act is served before anyone acts. -/
theorem PassiveAhead.start (orderly : p.Orderly) (agenda : p.agenda = task :: rest)
    (subscribing : task.subscribing? p.net = some (s, observer)) {b : Publication}
    (there : p.net.publication? s = some b) (silent : p.coming observer.label = [])
    (passive : ∀ x ∈ b.observers.current, x.action = none) :
    p.step.PassiveAhead s b.observers.next ∧ Served s observer p.step := by
  have made := orderly.made s b there
  obtain ⟨⟨gone, shift⟩, -⟩ := orderly.step agenda
  refine ⟨fun b' found entry member before => ?_, ?_⟩
  · obtain ⟨-, new | ⟨c, found, turns⟩⟩ := shift.publication s b' found
    · exact (new.fresh made).elim
    · obtain rfl := Option.some.inj (there.symm.trans found)
      obtain old | new := turns.mem member
      · exact passive entry.2 (List.mem_map_of_mem old)
      · rw [(turns.new entry new).1] at before
        exact (Nat.lt_irrefl _ before).elim
  · cases ended : b.disposed with
    | false => exact .start orderly agenda silent subscribing there ended
    | true =>
        refine .finished fun b' found => ?_
        obtain ⟨-, new | ⟨c, found, turns⟩⟩ := shift.publication s b' found
        · exact (new.fresh made).elim
        · obtain rfl := Option.some.inj (there.symm.trans found)
          rw [turns.disposed, ended, Bool.true_or]

/-- Behind observers that do not act, nothing is ever news while something is on its way. -/
theorem Situated.settled {past : List Propagation} (h : p.Situated s n observer)
    (ahead : p.PassiveAhead s n) (served : Served s observer p)
    (lasts : Lasts (fun m => m.Steady ∧ m.Spares observer.label) p past q) :
    ∀ m ∈ past, m.Settled s observer.label := by
  obtain ⟨⟨-, -, -, settled⟩, -⟩ := lasts.preserves
    (Q := fun past m => m.Situated s n observer ∧ m.PassiveAhead s n ∧ Served s observer m ∧
      ∀ m ∈ past, m.Settled s observer.label)
    ⟨h, ahead, served, List.forall_mem_nil _⟩
    fun ⟨steady, spares⟩ ⟨h, ahead, served, settled⟩ next _ =>
      ⟨h.next steady spares next, ahead.next h.seated h.orderly next,
        served.next h.seated h.orderly h.regular ahead spares next,
        List.forall_mem_append.mpr ⟨settled, List.forall_mem_singleton.mpr served.settled⟩⟩
  exact settled

/-- If nothing is ever news while something is on its way to an observer, it hears the latest. -/
theorem Situated.hearing {past : List Propagation} (h : p.Situated s n observer)
    (hearing : Hearing s n observer [] p)
    (lasts : Lasts (fun m => m.Steady ∧ m.Spares observer.label) p past q)
    (settled : ∀ m ∈ past, m.Settled s observer.label) :
    q.Situated s n observer ∧ Hearing s n observer past q := by
  obtain ⟨reached, -⟩ := lasts.preserves
    (Q := fun past m => (∀ m ∈ past, m.Settled s observer.label) →
      m.Situated s n observer ∧ Hearing s n observer past m)
    (fun _ => ⟨h, hearing⟩)
    fun ⟨steady, spares⟩ reached next _ settled => by
      obtain ⟨before, now⟩ := List.forall_mem_append.mp settled
      obtain ⟨h, hearing⟩ := reached before
      exact ⟨h.next steady spares next, hearing.next h.seated h.orderly (h.regular.plain s) spares
        (now _ (.head _)) next⟩
  exact reached settled

theorem regular_of_untouched {net : Network} (untouched : net.Untouched) : Regular ⟨net, []⟩ := by
  have nothing {k : Publisher} {b : Publication} (found : net.publication? k = some b) : False :=
    nomatch (untouched.publication k).symm.trans found
  exact ⟨fun k b found => (nothing found).elim, fun k b found => (nothing found).elim⟩

end Propagation

/-- `A` writes whenever it is told. -/
def writerFirst : Propagation :=
  (binding.skip 2).net.ask (.subscribeBinding "x" "A" false (some (.set 0 "$a" (.int32 5))))

/-- `B` sits behind `A`. -/
def recorderBehind : Propagation :=
  (writerFirst.skip 10).net.ask (.subscribeBinding "x" "B" false none)

/-- The slot is written, and `A` writes it again before `B` is told. -/
def overtaken : Propagation := (recorderBehind.skip 3).net.ask (.set 0 "$a" (.int32 1))

/-- Whoever sits behind an observer that acts may be told of the older value last. -/
theorem Lasts.outdated_overtaken : ∃ past,
    Lasts Propagation.Steady ⟨oneSlot, []⟩ past (overtaken.skip 12) ∧
    (overtaken.skip 12).agenda = [] ∧
    ∃ b, (overtaken.skip 12).net.publication? (.binding 0) = some b ∧ b.disposed = false ∧
      ⟨"B", false, none⟩ ∈ b.observers.current ∧
      b.shown (overtaken.skip 12).net.sizes = .int32 5 ∧
      (past.filterMap (Propagation.signal? "B")).getLast? = some (.next (.int32 1)) := by
  have made : Lasts Propagation.Steady ⟨oneSlot, []⟩ _ (binding.skip 2) :=
    (Lasts.ask (.start (by decide)) rfl (by decide)).walk 2 (by decide +kernel) (by decide +kernel)
  have first : Lasts Propagation.Steady ⟨oneSlot, []⟩ _ (writerFirst.skip 10) :=
    (made.ask (by decide +kernel) (by decide)).walk 10 (by decide +kernel) (by decide +kernel)
  have second : Lasts Propagation.Steady ⟨oneSlot, []⟩ _ (recorderBehind.skip 3) :=
    (first.ask (by decide +kernel) (by decide)).walk 3 (by decide +kernel) (by decide +kernel)
  have last : Lasts Propagation.Steady ⟨oneSlot, []⟩ _ (overtaken.skip 12) :=
    (second.ask (by decide +kernel) (by decide)).walk 12 (by decide +kernel) (by decide +kernel)
  exact ⟨_, last, rfl, _, rfl, rfl, .tail _ (.head _), rfl, rfl⟩

/-- No converter is changed, and either none of those who were subscribed to a publisher before an
observer acts, or nothing ever becomes news of the publisher while something older is on its way to
the observer. Then whenever nothing is left to be done, what the observer was last told is what the
publisher has, as long as both last. -/
theorem Lasts.hears_latest {start : Network} {past : List Propagation} {b b' : Publication}
    (untouched : start.Untouched) (before : Session Propagation.Steady ⟨start, []⟩ p)
    (subscribing : p.subscribing? = some (s, observer)) (there : p.net.publication? s = some b)
    (unheard : p.Unheard observer.label) (silent : p.coming observer.label = [])
    (after : Lasts (fun m => m.Steady ∧ m.Spares observer.label) p.step past q)
    (served : (∀ x ∈ b.observers.current, x.action = none) ∨
      ∀ m ∈ past, m.Settled s observer.label)
    (done : q.agenda = []) (found : q.net.publication? s = some b')
    (subscribed : observer ∈ b'.observers.current) :
    (past.filterMap (Propagation.signal? observer.label)).getLast? =
      some (.next (b'.shown q.net.sizes)) := by
  obtain ⟨⟨orderly, regular⟩, steady⟩ := before.preserves
    (Q := fun m => m.Orderly ∧ m.Regular)
    ⟨orderly_of_untouched untouched, regular_of_untouched untouched⟩
    fun steady ⟨orderly, regular⟩ next _ => ⟨orderly.next next, regular.next orderly steady next⟩
  obtain ⟨task, top, subscribing⟩ := Option.bind_eq_some_iff.mp subscribing
  obtain ⟨rest, agenda⟩ := List.head?_eq_some_iff.mp top
  obtain ⟨situated, hearing⟩ :=
    Situated.start orderly regular steady agenda subscribing there unheard silent
  have settled : ∀ m ∈ past, m.Settled s observer.label := by
    refine served.elim (fun passive => ?_) id
    obtain ⟨ahead, served⟩ := PassiveAhead.start orderly agenda subscribing there silent passive
    exact situated.settled ahead served after
  obtain ⟨⟨-, regular, seated⟩, hearing⟩ := situated.hearing hearing after settled
  obtain ⟨entry, member, rfl⟩ := List.mem_map.mp subscribed
  have mine : entry ∈ b'.under entry.2.label :=
    List.mem_filter.mpr ⟨member, decide_eq_true rfl⟩
  rw [seated.here b' found] at mine
  split at mine
  · rename_i sits
    rw [Publication.shown, regular.plain s b' found]
    cases hearing with
    | finished finished =>
        obtain none | ended := finished
        · exact absurd sits.2 (by omega)
        · exact nomatch sits.1.symm.trans (ended b' found)
    | told _ latest => exact latest b' found
    | pending coming =>
        rw [Propagation.coming, done] at coming
        cases coming
  · cases mine

/-- `A` sits behind `B` and writes whenever it is told. -/
def writerBehind : Propagation :=
  (recorderFirst.skip 3).net.ask
    (.subscribeBinding "x" "A" false (some (.set 0 "$a" (.int32 5))))

/-- The slot is written, and `A` writes it again when `B` has been told. -/
def followed : Propagation := (writerBehind.skip 11).net.ask (.set 0 "$a" (.int32 1))

theorem Lasts.hears_latest_followed : ∃ (past : List Propagation) (b : Publication),
    Lasts (fun m => m.Steady ∧ m.Spares "B") recorderFirst.step past (followed.skip 12) ∧
    (followed.skip 12).net.publication? (.binding 0) = some b ∧
    ⟨"B", false, none⟩ ∈ b.observers.current ∧
    (past.filterMap (Propagation.signal? "B")).getLast? =
      some (.next (b.shown (followed.skip 12).net.sizes)) := by
  have made : Lasts Propagation.Steady ⟨oneSlot, []⟩ _ (binding.skip 2) :=
    (Lasts.ask (.start (by decide)) rfl (by decide)).walk 2 (by decide +kernel) (by decide +kernel)
  have first : Lasts Propagation.Steady ⟨oneSlot, []⟩ _ recorderFirst :=
    made.ask (by decide +kernel) (by decide)
  have alone : Lasts (fun m => m.Steady ∧ m.Spares "B") recorderFirst.step _
      (recorderFirst.step.skip 2) :=
    (Lasts.start (by decide +kernel)).walk 2 (by decide +kernel) (by decide +kernel)
  have second : Lasts (fun m => m.Steady ∧ m.Spares "B") recorderFirst.step _
      (writerBehind.skip 11) :=
    (alone.ask (by decide +kernel) (by decide +kernel)).walk 11 (by decide +kernel)
      (by decide +kernel)
  have last : Lasts (fun m => m.Steady ∧ m.Spares "B") recorderFirst.step _ (followed.skip 12) :=
    (second.ask (by decide +kernel) (by decide +kernel)).walk 12 (by decide +kernel)
      (by decide +kernel)
  refine ⟨_, _, last, rfl, .head _, ?_⟩
  exact Lasts.hears_latest ⟨rfl, rfl, rfl⟩ first.session rfl rfl
    (unheard_of_values (by decide +kernel) (by decide +kernel)) rfl last
    (.inl (by decide +kernel)) rfl rfl (.head _)

end SlotScript
