import SlotScript.Proofs.Network.Consequence

/-! # What is found after a write

A write changes one key of one store. The store itself finds what was written, through whichever
scope the write went, and every other key is found where it was.
-/

namespace SlotScript

namespace Network

variable {net : Network} {store s : StoreId} {key k : String}

/-- What code on a store reads under a key: what its scopes have, or else the fallback stores, and
null if nobody has it. -/
def read (net : Network) (store : StoreId) (fallback : List StoreId) (key : String) : Value :=
  ((store :: fallback).findSome? fun scope => net.lookup? scope key).getD .null

theorem chain_set (v : Value) (s : StoreId) : (net.set store key v).1.chain s = net.chain s := by
  refine chain_modifyStore ?_ s
  exact fun _ => rfl

theorem slot?_set (net : Network) (store scope : StoreId) (key k : String) (v : Value) :
    (net.set store key v).1.slot? scope k =
      if store = scope ∧ k = key then (net.stores[scope]?).map fun _ => v
      else net.slot? scope k := by
  refine (slot?_modifyStore (fun slots => slots.insert key v) store scope k).trans ?_
  by_cases here : store = scope
  · simp only [here, if_true, true_and, slot?, Table.find?_insert]
    split
    · cases net.stores[scope]? <;> rfl
    · rfl
  · simp [here]

/-- A write to a store that exists is there. -/
theorem slot?_set_self (exist : store < net.stores.length) (v : Value) :
    (net.set store key v).1.slot? store key = some v := by
  simp [slot?_set, List.getElem?_eq_getElem exist]

theorem slot?_set_other (other : store ≠ s ∨ k ≠ key) (v : Value) :
    (net.set store key v).1.slot? s k = net.slot? s k := by
  rw [slot?_set, if_neg]
  rintro ⟨rfl, rfl⟩
  exact other.elim (· rfl) (· rfl)

/-- Writing what is there changes nothing. -/
theorem slot?_set_same {target : StoreId} {v : Value} (there : net.slot? target key = some v)
    (s : StoreId) (k : String) : (net.set target key v).1.slot? s k = net.slot? s k := by
  rw [slot?_set]
  split
  case isTrue written =>
    obtain ⟨rfl, rfl⟩ := written
    rw [there]
    unfold slot? at there
    cases found : net.stores[target]? with
    | none => simp [found] at there
    | some st => rfl
  case isFalse => rfl

/-- Only a store that exists has slots. -/
theorem exist_of_slot? (has : (net.slot? store key).isSome) : store < net.stores.length := by
  cases found : net.stores[store]? with
  | none => simp [slot?, found] at has
  | some st => exact (List.getElem?_eq_some_iff.mp found).1

theorem lookup?_set_other (other : k ≠ key) (v : Value) :
    (net.set store key v).1.lookup? s k = net.lookup? s k := by
  unfold lookup?
  rw [chain_set]
  exact findSome?_congr fun scope _ => slot?_set_other (.inr other) v

/-- A store finds what is written to itself. -/
theorem lookup?_set_self (exist : store < net.stores.length) (v : Value) :
    (net.set store key v).1.lookup? store key = some v := by
  unfold lookup?
  rw [chain_set]
  simp [chain, slot?_set_self exist]

/-- The scope that is written to is one of the store's own, and none before it has the key. -/
theorem definer_eq (net : Network) (store : StoreId) (key : String) :
    (net.definer store key = store ∧ ∀ scope ∈ net.chain store, net.slot? scope key = none) ∨
      (net.slot? (net.definer store key) key).isSome ∧
        ∃ before behind, net.chain store = before ++ net.definer store key :: behind ∧
          ∀ scope ∈ before, net.slot? scope key = none := by
  unfold definer
  cases found : (net.chain store).find? fun scope => (net.slot? scope key).isSome with
  | none =>
      refine .inl ⟨rfl, fun scope member => ?_⟩
      simpa using List.find?_eq_none.mp found scope member
  | some scope =>
      obtain ⟨has, before, behind, split, clear⟩ := List.find?_eq_some_iff_append.mp found
      exact .inr ⟨has, before, behind, split, fun other member => by simpa using clear other member⟩

theorem definer_mem_chain (net : Network) (store : StoreId) (key : String) :
    net.definer store key ∈ net.chain store := by
  obtain ⟨own, -⟩ | ⟨-, before, behind, split, -⟩ := net.definer_eq store key
  · rw [own]
    exact .head _
  · simp [split]

theorem findSome?_append_cons {α β : Type} {f : α → Option β} {before behind : List α} {a : α}
    {b : β} (clear : ∀ a ∈ before, f a = none) (found : f a = some b) :
    (before ++ a :: behind).findSome? f = some b := by
  rw [List.findSome?_append, List.findSome?_eq_none_iff.mpr clear, Option.none_or,
    List.findSome?_cons, found]

/-- A store finds what is written to the nearest scope that defines the key. -/
theorem lookup?_assign_self (exist : store < net.stores.length) (v : Value) :
    (net.assign store key v).1.lookup? store key = some v := by
  unfold assign
  obtain ⟨own, -⟩ | ⟨has, before, behind, split, clear⟩ := net.definer_eq store key
  · rw [own]
    exact lookup?_set_self exist v
  · generalize net.definer store key = scope at has split
    have there := exist_of_slot? has
    unfold lookup?
    rw [chain_set, split]
    refine findSome?_append_cons ?_ (slot?_set_self there v)
    intro other member
    by_cases same : scope = other
    · rw [same, clear other member] at has
      cases has
    · rw [slot?_set_other (.inl same), clear other member]

variable {fallback : List StoreId}

/-- What one store finds for itself comes before all fallback stores. -/
theorem read_of_lookup {v : Value} (found : net.lookup? store key = some v) :
    net.read store fallback key = v := by
  simp [read, found]

theorem read_set_other (other : k ≠ key) (target : StoreId) (v : Value) :
    (net.set target key v).1.read store fallback k = net.read store fallback k := by
  unfold read
  congr 1
  exact findSome?_congr fun scope _ => lookup?_set_other other v

/-- After a write of a key through a store, this store reads the new value, and other keys as
before. -/
theorem read_assign (exist : store < net.stores.length) (fallback : List StoreId) (v : Value) :
    (net.assign store key v).1.read store fallback k =
      if k = key then v else net.read store fallback k := by
  split
  case isTrue same =>
    subst same
    exact read_of_lookup (lookup?_assign_self exist v)
  case isFalse other => exact read_set_other other _ v

theorem read_set (exist : store < net.stores.length) (fallback : List StoreId) (v : Value) :
    (net.set store key v).1.read store fallback k =
      if k = key then v else net.read store fallback k := by
  split
  case isTrue same =>
    subst same
    exact read_of_lookup (lookup?_set_self exist v)
  case isFalse other => exact read_set_other other _ v

/-- Fetching a key with null as its seed yields what is read, and changes nothing of what is
read. -/
theorem fetch_null (exist : store < net.stores.length) (fallback : List StoreId) (key : String) :
    (net.fetch store fallback key .null).1 = net.read store fallback key ∧
      ∀ k, (net.fetch store fallback key .null).2.1.read store fallback k =
        net.read store fallback k := by
  refine fetch_cases (fun v found => ?finds) fun missing => ?seeds
  case finds =>
    refine ⟨?_, fun _ => rfl⟩
    unfold read
    rw [found]
    rfl
  case seeds =>
    have absent : net.read store fallback key = .null := by
      unfold read
      rw [missing]
      rfl
    refine ⟨absent.symm, fun k => ?_⟩
    rw [read_set exist]
    split
    case isTrue same => rw [same, absent]
    case isFalse => rfl

theorem length_stores_set (net : Network) (store : StoreId) (key : String) (v : Value) :
    (net.set store key v).1.stores.length = net.stores.length := by
  simp [set, modifyStore]

theorem length_stores_fetch (net : Network) (store : StoreId) (fallback : List StoreId)
    (key : String) (seed : Value) :
    (net.fetch store fallback key seed).2.1.stores.length = net.stores.length :=
  fetch_cases (fun _ _ => rfl) fun _ => length_stores_set net store key seed

theorem objects_fetch (net : Network) (store : StoreId) (fallback : List StoreId) (key : String)
    (seed : Value) : (net.fetch store fallback key seed).2.1.objects = net.objects :=
  fetch_cases (fun _ _ => rfl) fun _ => rfl

end Network

end SlotScript
