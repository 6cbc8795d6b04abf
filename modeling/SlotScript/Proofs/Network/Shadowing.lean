import SlotScript.Proofs.Network.Lookup
import SlotScript.Proofs.Network.Scopes

/-! # Scopes as one map

A store shows its own slots and, behind them, those that its parent shows. So seen from the store a
chain of scopes is one map: a write through it changes what it shows under one key and nothing else,
whichever scope holds the slot, and taking a slot away brings up what the parent shows.

A slot that holds null is a slot. What counts is which scopes have the key, not what they have.

Code also has fallback stores, which are asked one after the other when the chain does not show a
key. There, too, reading and writing back come to the same slot.
-/

namespace SlotScript

namespace Network

variable {net net' : Network} {store s scope : StoreId} {key k : String} {v : Value}

/-- The scope right behind a store. -/
def parent? (net : Network) (store : StoreId) : Option StoreId :=
  (net.stores[store]?).bind fun st => st.ancestors.head?

/-- The first scope of a store that has a key. -/
def Nearest (net : Network) (store : StoreId) (key : String) (scope : StoreId) : Prop :=
  ∃ before behind, net.chain store = before ++ scope :: behind ∧
    (∀ s ∈ before, net.slot? s key = none) ∧ (net.slot? scope key).isSome

/-- One slot of one scope holds a value now, and every other slot is as it was. -/
def Puts (net net' : Network) (scope : StoreId) (key : String) (v : Value) : Prop :=
  ∀ s k, net'.slot? s k = if s = scope ∧ k = key then some v else net.slot? s k

/-- The scopes behind one of the scopes of a store are that scope's own. -/
theorem Forest.chain_of_split (forest : net.Forest) {before behind : List StoreId}
    (split : net.chain store = before ++ scope :: behind) : net.chain scope = scope :: behind := by
  induction store using Nat.strongRecOn generalizing before with
  | ind store ih =>
      cases before with
      | nil =>
          have own : store = scope := (List.cons.inj split).1
          rwa [own] at split
      | cons first before =>
          have ancestors := (List.cons.inj split).2
          cases found : net.stores[store]? with
          | none => simp [found] at ancestors
          | some st =>
              rw [found, Option.map_some, Option.getD_some] at ancestors
              obtain none | ⟨parent, older, same⟩ := forest store st found
              · simp [none] at ancestors
              · exact ih parent older (same.symm.trans ancestors)

theorem Forest.chain_eq (forest : net.Forest) (store : StoreId) :
    net.chain store = store :: ((net.parent? store).map net.chain).getD [] := by
  unfold parent?
  cases found : net.stores[store]? with
  | none => simp [chain, found]
  | some st =>
      have here : net.chain store = store :: st.ancestors := by simp [chain, found]
      obtain none | ⟨parent, -, same⟩ := forest store st found
      · rw [here, Option.bind_some, none]
        rfl
      · rw [here, Option.bind_some, same]
        rfl

/-- The parent of a store is not behind itself, and neither is the store. -/
theorem Forest.store_not_behind (forest : net.Forest) {parent : StoreId}
    (behind : net.parent? store = some parent) : store ∉ net.chain parent := by
  have sorted := (forest.chain_le store).1
  rw [forest.chain_eq, behind, Option.map_some, Option.getD_some] at sorted
  intro member
  exact Nat.lt_irrefl store ((List.pairwise_cons.mp sorted).1 store member)

/-- A store shows its own slot, or else what its parent shows. -/
theorem Forest.lookup?_eq (forest : net.Forest) (store : StoreId) (key : String) :
    net.lookup? store key =
      (net.slot? store key).or ((net.parent? store).bind fun parent => net.lookup? parent key) := by
  unfold lookup?
  rw [forest.chain_eq, List.findSome?_cons]
  cases net.slot? store key with
  | some => rfl
  | none => cases net.parent? store <;> rfl

theorem lookup?_eq_none_iff :
    net.lookup? store key = none ↔ ∀ scope ∈ net.chain store, net.slot? scope key = none :=
  List.findSome?_eq_none_iff

/-- What a store shows depends on the slots of its own scopes. -/
theorem lookup?_congr (scopes : SameScopes net net')
    (slots : ∀ scope ∈ net.chain store, net'.slot? scope key = net.slot? scope key) :
    net'.lookup? store key = net.lookup? store key := by
  unfold lookup?
  rw [scopes.chain]
  exact findSome?_congr slots

theorem nearest_definer (has : ∃ scope ∈ net.chain store, (net.slot? scope key).isSome) :
    net.Nearest store key (net.definer store key) := by
  obtain ⟨-, nowhere⟩ | ⟨here, before, behind, split, clear⟩ := net.definer_eq store key
  · obtain ⟨scope, member, has⟩ := has
    rw [nowhere scope member] at has
    cases has
  · exact ⟨before, behind, split, clear, here⟩

theorem Nearest.lookup? (nearest : net.Nearest store key scope) :
    net.lookup? store key = net.slot? scope key := by
  obtain ⟨before, behind, split, clear, has⟩ := nearest
  obtain ⟨v, found⟩ := Option.isSome_iff_exists.mp has
  unfold Network.lookup?
  rw [split, findSome?_append_cons clear found, found]

theorem Nearest.definer (nearest : net.Nearest store key scope) :
    net.definer store key = scope := by
  obtain ⟨before, behind, split, clear, has⟩ := nearest
  have found : (net.chain store).find? (fun s => (net.slot? s key).isSome) = some scope := by
    rw [split]
    refine List.find?_eq_some_iff_append.mpr ⟨has, before, behind, rfl, fun s member => ?_⟩
    simp [clear s member]
  unfold Network.definer
  rw [found, Option.getD_some]

theorem definer_of_nowhere (nowhere : ∀ scope ∈ net.chain store, net.slot? scope key = none) :
    net.definer store key = store := by
  obtain ⟨own, -⟩ | ⟨has, -⟩ := net.definer_eq store key
  · exact own
  · rw [nowhere _ (net.definer_mem_chain store key)] at has
    cases has

theorem puts_set (exist : scope < net.stores.length) (key : String) (v : Value) :
    net.Puts (net.set scope key v).1 scope key v := by
  intro s k
  rw [slot?_set]
  by_cases written : scope = s ∧ k = key
  · obtain ⟨rfl, rfl⟩ := written
    simp [List.getElem?_eq_getElem exist]
  · rw [if_neg written, if_neg fun same => written ⟨same.1.symm, same.2⟩]

/-- Writing to a slot that is there leaves the scopes with the keys they had. -/
theorem Puts.isSome_slot? (puts : net.Puts net' scope key v) (has : (net.slot? scope key).isSome)
    (s : StoreId) (k : String) : (net'.slot? s k).isSome = (net.slot? s k).isSome := by
  rw [puts]
  split
  case isTrue written =>
    obtain ⟨rfl, rfl⟩ := written
    exact has.symm
  case isFalse => rfl

/-- A store that finds no slot for a key makes one of its own. -/
theorem puts_assign_new (exist : store < net.stores.length)
    (nowhere : ∀ scope ∈ net.chain store, net.slot? scope key = none) (v : Value) :
    net.Puts (net.assign store key v).1 store key v := by
  unfold assign
  rw [definer_of_nowhere nowhere]
  exact puts_set exist key v

/-- If there are slots for a key, a write goes to the nearest one. -/
theorem puts_assign (has : ∃ scope ∈ net.chain store, (net.slot? scope key).isSome) (v : Value) :
    ∃ scope, net.Nearest store key scope ∧ net.Puts (net.assign store key v).1 scope key v := by
  have nearest := nearest_definer has
  have ⟨_, _, _, _, here⟩ := nearest
  exact ⟨_, nearest, puts_set (exist_of_slot? here) key v⟩

theorem lookup?_assign (exist : store < net.stores.length) (key k : String) (v : Value) :
    (net.assign store key v).1.lookup? store k =
      if k = key then some v else net.lookup? store k := by
  split
  case isTrue same =>
    subst same
    exact lookup?_assign_self exist v
  case isFalse other => exact lookup?_set_other other v

section Fallback

variable {fallback : List StoreId} {place : StoreId}

/-- Code on a store means a slot by a key: the nearest one for the first of the store and its
fallback stores that shows the key at all. -/
def Resolves (net : Network) (store : StoreId) (fallback : List StoreId) (key : String)
    (place : StoreId) (v : Value) : Prop :=
  ∃ before scope behind, store :: fallback = before ++ scope :: behind ∧
    (∀ s ∈ before, net.lookup? s key = none) ∧ net.Nearest scope key place ∧
    net.slot? place key = some v

namespace Resolves

/-- What is read is what the slot holds. -/
theorem found (resolves : net.Resolves store fallback key place v) :
    (store :: fallback).findSome? (fun scope => net.lookup? scope key) = some v := by
  obtain ⟨before, scope, behind, split, clear, nearest, holds⟩ := resolves
  rw [split]
  exact findSome?_append_cons clear (nearest.lookup?.trans holds)

theorem holds (resolves : net.Resolves store fallback key place v) :
    net.slot? place key = some v := by
  obtain ⟨-, -, -, -, -, -, holds⟩ := resolves
  exact holds

/-- What is put back under the key goes to the slot from which it was read. -/
theorem seat (resolves : net.Resolves store fallback key place v) :
    net.definer (net.holder store fallback key) key = place := by
  obtain ⟨before, scope, behind, split, clear, nearest, holds⟩ := resolves
  have visible : (store :: fallback).find? (fun s => (net.lookup? s key).isSome) = some scope := by
    rw [split]
    refine List.find?_eq_some_iff_append.mpr ⟨?_, before, behind, rfl, fun s member => ?_⟩
    · rw [nearest.lookup?, holds]
      rfl
    · simp [clear s member]
  unfold holder
  rw [visible, Option.getD_some]
  exact nearest.definer

theorem congr (resolves : net.Resolves store fallback key place v) (scopes : SameScopes net net')
    (slots : ∀ s, net'.slot? s key = net.slot? s key) :
    net'.Resolves store fallback key place v := by
  obtain ⟨before, scope, behind, split, clear, ⟨front, back, parts, none, has⟩, holds⟩ := resolves
  have nearest : net'.Nearest scope key place := by
    refine ⟨front, back, (scopes.chain scope).trans parts, fun s member => ?_, ?_⟩
    · exact (slots s).trans (none s member)
    · rwa [slots]
  refine ⟨before, scope, behind, split, fun s member => ?_, nearest, (slots place).trans holds⟩
  exact (lookup?_congr scopes fun t _ => slots t).trans (clear s member)

end Resolves

/-- What is read is in some slot. -/
theorem exists_resolves
    (found : (store :: fallback).findSome? (fun scope => net.lookup? scope key) = some v) :
    ∃ place, net.Resolves store fallback key place v := by
  obtain ⟨before, scope, behind, split, shows, clear⟩ := List.findSome?_eq_some_iff.mp found
  obtain ⟨front, place, back, parts, holds, none⟩ := List.findSome?_eq_some_iff.mp shows
  have nearest : net.Nearest scope key place := ⟨front, back, parts, none, by rw [holds]; rfl⟩
  exact ⟨place, before, scope, behind, split, clear, nearest, holds⟩

/-- A key means a slot, or none of the stores shows it. -/
theorem resolves_or_absent (net : Network) (store : StoreId) (fallback : List StoreId)
    (key : String) : (∃ place v, net.Resolves store fallback key place v) ∨
      ∀ scope ∈ store :: fallback, net.lookup? scope key = none := by
  cases found : (store :: fallback).findSome? fun scope => net.lookup? scope key with
  | none => exact .inr (List.findSome?_eq_none_iff.mp found)
  | some v =>
      obtain ⟨place, resolves⟩ := exists_resolves found
      exact .inl ⟨place, v, resolves⟩

end Fallback

theorem fetch_local (net : Network) (store : StoreId) (key : String) (seed : Value) :
    net.fetch store [] key seed =
      match net.lookup? store key with
      | some v => (v, net, [])
      | none => (seed, net.set store key seed) := by
  cases found : net.lookup? store key <;>
    simp only [fetch, List.findSome?_singleton, found]

theorem fetch_of_lookup? (found : net.lookup? store key = some v) (seed : Value) :
    net.fetch store [] key seed = (v, net, []) := by
  rw [fetch_local, found]

theorem fetch_fst (net : Network) (store : StoreId) (key : String) (seed : Value) :
    (net.fetch store [] key seed).1 = (net.lookup? store key).getD seed := by
  rw [fetch_local]
  cases net.lookup? store key <;> rfl

/-- A store shows a key as it was given it. -/
theorem lookup?_fetch (exist : store < net.stores.length) (key : String) (seed : Value) :
    (net.fetch store [] key seed).2.1.lookup? store key =
      some (net.fetch store [] key seed).1 := by
  rw [fetch_local]
  cases found : net.lookup? store key with
  | some v => exact found
  | none => exact lookup?_set_self exist seed

/-- A request of code on a store, with the stores that it falls back on. -/
structure Question where
  store : StoreId
  fallback : List StoreId
  request : Request

/-- A request that does not write a key. It may read the key, and even ask to have it created. -/
def Question.Spares (key : String) (q : Question) : Prop :=
  match q.request with
  | .assign k _ | .define k _ | .replace k .. => k ≠ key
  | .fetch .. | .concatText _ | .element .. => True

/-- A network after some questions, asked one after the other. One that is never answered changes
nothing. -/
def asked (net : Network) (questions : List Question) : Network :=
  questions.foldl
    (fun net q => ((net.answer q.store q.fallback q.request).map fun x => x.2.1).getD net) net

/-- A key that comes up where it was not seen is behind the slot that is seen from a store, or
beside its scopes. -/
theorem Forest.lookup?_set_unseen (forest : net.Forest) (seen : net.lookup? store key = some v)
    (unseen : net.lookup? s key = none) (seed : Value) :
    (net.set s key seed).1.lookup? store key = some v := by
  obtain ⟨before, scope, behind, split, has, clear⟩ := List.findSome?_eq_some_iff.mp seen
  have nowhere := lookup?_eq_none_iff.mp unseen
  unfold lookup?
  rw [chain_set, split]
  apply findSome?_append_cons
  · intro other member
    -- A scope before the slot has the slot's scope behind it, and so sees the key.
    by_cases same : s = other
    · subst same
      obtain ⟨first, rest, parts⟩ := List.append_of_mem member
      rw [parts, List.append_assoc, List.cons_append] at split
      have member : scope ∈ net.chain s := by simp [forest.chain_of_split split]
      rw [nowhere scope member] at has
      cases has
    · rw [slot?_set_other (.inl same)]
      exact clear other member
  · have other : s ≠ scope := by
      rintro rfl
      rw [nowhere s (.head _)] at has
      cases has
    rw [slot?_set_other (.inl other), has]

theorem slot?_setObject (net : Network) (collection : Value) (object : Object) (s : StoreId)
    (key : String) : (net.setObject collection object).slot? s key = net.slot? s key := by
  unfold setObject
  split <;> rfl

/-- What a store shows stays as it is while nobody writes the key. -/
theorem Forest.lookup?_answer (forest : net.Forest) (seen : net.lookup? store key = some v)
    {q : Question} (spares : q.Spares key) {x : q.request.Answer × Changed}
    (answered : net.answer q.store q.fallback q.request = some x) :
    x.2.1.lookup? store key = some v := by
  obtain ⟨s, fallback, request⟩ := q
  cases request with
  | fetch k seed =>
      cases answered
      refine fetch_cases (fun _ _ => seen) fun missing => ?_
      by_cases same : k = key
      · subst same
        exact forest.lookup?_set_unseen seen
          (List.findSome?_eq_none_iff.mp missing s (.head _)) seed
      · exact (lookup?_set_other (Ne.symm same) seed).trans seen
  | assign k w | define k w =>
      cases answered
      exact (lookup?_set_other (Ne.symm spares) w).trans seen
  | concatText | element =>
      cases answered
      exact seen
  | replace k collection index w =>
      obtain ⟨object, -, rfl⟩ | ⟨e, -, rfl⟩ := replace_eq_some answered
      · have unchanged : (net.setObject collection object).lookup? store key = some v := by
          apply (lookup?_congr (.setObject net collection object) _).trans seen
          intro scope _
          exact slot?_setObject net collection object scope key
        exact (lookup?_set_other (Ne.symm spares) collection).trans unchanged
      · exact seen

theorem Forest.lookup?_asked (forest : net.Forest) (seen : net.lookup? store key = some v)
    {questions : List Question} (spares : ∀ q ∈ questions, q.Spares key) :
    (net.asked questions).lookup? store key = some v := by
  unfold asked
  induction questions generalizing net with
  | nil => exact seen
  | cons q questions ih =>
      rw [List.foldl_cons]
      obtain ⟨first, others⟩ := List.forall_mem_cons.mp spares
      cases answered : net.answer q.store q.fallback q.request with
      | none => exact ih forest seen others
      | some x =>
          exact ih ((SameScopes.answer answered).forest forest)
            (forest.lookup?_answer seen first answered) others

/-- What a store was given for a key once it is given again, whatever seed it comes with. -/
theorem Forest.fetch_asked (forest : net.Forest) (exist : store < net.stores.length) (key : String)
    (seed : Value) {questions : List Question} (spares : ∀ q ∈ questions, q.Spares key)
    (seed' : Value) :
    (((net.fetch store [] key seed).2.1.asked questions).fetch store [] key seed').1 =
      (net.fetch store [] key seed).1 := by
  have shown := lookup?_fetch exist key seed
  have still := ((SameScopes.fetch net store [] key seed).forest forest).lookup?_asked shown spares
  rw [fetch_of_lookup? still]

theorem slot?_remove (net : Network) (store s : StoreId) (key k : String) :
    (net.remove store key).1.slot? s k =
      if s = store ∧ k = key then none else net.slot? s k := by
  refine remove_cases (fun missing => ?absent) fun _ => ?erases
  case erases =>
    rw [slot?_modifyStore (fun slots => slots.erase key) store s k]
    by_cases here : store = s
    · subst here
      unfold slot?
      cases net.stores[store]? with
      | none => simp
      | some st => simp [Table.find?_erase]
    · rw [if_neg here, if_neg fun same => here same.1.symm]
  case absent =>
    split
    case isTrue here =>
      obtain ⟨rfl, rfl⟩ := here
      exact missing
    case isFalse => rfl

/-- Without its own slot a store shows what its parent shows. -/
theorem Forest.lookup?_remove (forest : net.Forest) (store : StoreId) (key : String) :
    (net.remove store key).1.lookup? store key =
      (net.parent? store).bind fun parent => net.lookup? parent key := by
  have scopes := SameScopes.remove net store key
  have same : (net.remove store key).1.parent? store = net.parent? store := by
    have ancestors := congrArg (Option.bind · List.head?) (scopes store)
    rwa [Option.bind_map, Option.bind_map] at ancestors
  rw [(scopes.forest forest).lookup?_eq, slot?_remove, if_pos ⟨rfl, rfl⟩, Option.none_or, same]
  cases behind : net.parent? store with
  | none => rfl
  | some parent =>
      apply lookup?_congr scopes
      intro scope member
      rw [slot?_remove, if_neg]
      rintro ⟨rfl, -⟩
      exact forest.store_not_behind behind member

/-- Nobody has registered a callback with a scope of a store. -/
def Unheard (net : Network) (store : StoreId) : Prop :=
  ∀ scope ∈ net.chain store, ∀ changed, net.callbacksFor scope changed = []

/-- A store and its scopes are one map. A write changes what is shown under one key, in the slot
that was shown or in a new one of the store; what is created on a miss stays; what is removed
uncovers what the parent shows. Nobody is called for any of it. -/
theorem Forest.chain_is_one_map (forest : net.Forest) (exist : store < net.stores.length)
    (unheard : net.Unheard store) (key : String) (v : Value) :
    ((net.assign store key v).2 = [] ∧
      (∀ k, (net.assign store key v).1.lookup? store k =
        if k = key then some v else net.lookup? store k) ∧
      ((∃ scope ∈ net.chain store, (net.slot? scope key).isSome) →
        (∃ scope, net.Nearest store key scope ∧
          net.Puts (net.assign store key v).1 scope key v) ∧
        ∀ s, ((net.assign store key v).1.slot? s key).isSome = (net.slot? s key).isSome) ∧
      ((∀ scope ∈ net.chain store, net.slot? scope key = none) →
        net.Puts (net.assign store key v).1 store key v)) ∧
    (∀ seed,
      (net.fetch store [] key seed).1 = (net.lookup? store key).getD seed ∧
      (net.fetch store [] key seed).2.2 = [] ∧
      ((net.lookup? store key).isSome → (net.fetch store [] key seed).2.1 = net) ∧
      ∀ questions : List Question, (∀ q ∈ questions, q.Spares key) → ∀ seed',
        (((net.fetch store [] key seed).2.1.asked questions).fetch store [] key seed').1 =
          (net.fetch store [] key seed).1) ∧
    ((net.remove store key).2 = [] ∧
      (net.remove store key).1.lookup? store key =
        (net.parent? store).bind fun parent => net.lookup? parent key) := by
  have silent : net.callbacksFor store (some key) = [] := unheard store (.head _) (some key)
  constructor
  · refine ⟨?_, fun k => lookup?_assign exist key k v, ?_, ?_⟩
    · exact unheard _ (net.definer_mem_chain store key) (some key)
    · intro has
      obtain ⟨scope, nearest, puts⟩ := puts_assign has v
      have ⟨_, _, _, _, here⟩ := nearest
      exact ⟨⟨scope, nearest, puts⟩, fun s => puts.isSome_slot? here s key⟩
    · intro nowhere
      exact puts_assign_new exist nowhere v
  constructor
  · intro seed
    refine ⟨fetch_fst net store key seed, ?_, ?_, ?_⟩
    · rw [fetch_local]
      split
      · rfl
      · exact silent
    · intro defined
      obtain ⟨w, found⟩ := Option.isSome_iff_exists.mp defined
      rw [fetch_of_lookup? found]
    · intro questions spares seed'
      exact forest.fetch_asked exist key seed spares seed'
  constructor
  · exact remove_cases (fun _ => rfl) fun _ => silent
  · exact forest.lookup?_remove store key

/-- Three scopes, of which the middle one hides a number behind null. -/
def hidingOne : Network where
  stores := [
    { ancestors := [], owner := .null, slots := .ofList [("$a", .int32 1), ("$b", .int32 2)] },
    { ancestors := [0], owner := .null, slots := .ofList [("$a", .null)] },
    { ancestors := [1, 0], owner := .null }]

theorem forest_hidingOne : hidingOne.Forest := by
  intro store st found
  match store with
  | 0 =>
      cases found
      exact .inl rfl
  | 1 =>
      cases found
      exact .inr ⟨0, Nat.zero_lt_one, rfl⟩
  | 2 =>
      cases found
      exact .inr ⟨1, Nat.one_lt_two, rfl⟩
  | _ + 3 => cases found

/-- The slot with null is what the innermost scope shows, what it writes to and what it is given. -/
theorem Forest.chain_is_one_map_null :
    hidingOne.Forest ∧ 2 < hidingOne.stores.length ∧ hidingOne.Unheard 2 ∧
      (∃ scope, hidingOne.Nearest 2 "$a" scope ∧
        hidingOne.Puts (hidingOne.assign 2 "$a" (.int32 5)).1 scope "$a" (.int32 5)) ∧
      (hidingOne.fetch 2 [] "$a" (.int32 9)).2.1 = hidingOne ∧
      (hidingOne.remove 2 "$a").1.lookup? 2 "$a" = some .null := by
  have unheard : hidingOne.Unheard 2 := by
    intro scope _ changed
    match scope with
    | 0 | 1 | 2 => rfl
    | _ + 3 => rfl
  obtain ⟨⟨-, -, writes, -⟩, fetches, -, uncovers⟩ :=
    forest_hidingOne.chain_is_one_map (by decide) unheard "$a" (.int32 5)
  obtain ⟨-, -, unchanged, -⟩ := fetches (.int32 9)
  refine ⟨forest_hidingOne, by decide, unheard, (writes ?_).1, unchanged rfl, uncovers.trans rfl⟩
  exact ⟨1, .tail _ (.head _), rfl⟩

end Network

end SlotScript
