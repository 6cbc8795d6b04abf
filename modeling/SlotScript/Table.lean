/-!
# Tables

Finite maps as lists of entries with different keys, in the order in which the keys were first
inserted. What a table holds is said by `find?`; the lemmas say what each operation does to it.
-/

namespace SlotScript

structure Table (κ α : Type) where
  entries : List (κ × α)
  nodup : (entries.map Prod.fst).Nodup

namespace Table

variable {κ α : Type} [DecidableEq κ]

/-- Entries with the value of a key replaced, or added at the end if the key is new. -/
def put (key : κ) (a : α) : List (κ × α) → List (κ × α)
  | [] => [(key, a)]
  | entry :: rest => if entry.1 = key then (key, a) :: rest else entry :: put key a rest

/-- The value at a key in a list of entries. -/
def look? (key : κ) : List (κ × α) → Option α
  | [] => none
  | entry :: rest => if entry.1 = key then some entry.2 else look? key rest

theorem mem_keys_put {key k : κ} {a : α} {entries : List (κ × α)} :
    k ∈ (put key a entries).map Prod.fst ↔ k = key ∨ k ∈ entries.map Prod.fst := by
  induction entries with
  | nil => simp [put]
  | cons entry rest ih =>
    by_cases h : entry.1 = key
    · simp [put, h]
    · simp only [put, h, if_false, List.map_cons, List.mem_cons, ih]
      grind

theorem nodup_put {key : κ} {a : α} {entries : List (κ × α)}
    (h : (entries.map Prod.fst).Nodup) : ((put key a entries).map Prod.fst).Nodup := by
  induction entries with
  | nil => simp [put]
  | cons entry rest ih =>
    simp only [List.map_cons, List.nodup_cons] at h
    by_cases hk : entry.1 = key
    · simp only [put, hk, if_true, List.map_cons, List.nodup_cons]
      exact ⟨hk ▸ h.1, h.2⟩
    · simp only [put, hk, if_false, List.map_cons, List.nodup_cons, mem_keys_put]
      exact ⟨by grind, ih h.2⟩

def empty : Table κ α := ⟨[], List.nodup_nil⟩

instance : Inhabited (Table κ α) := ⟨⟨[], List.nodup_nil⟩⟩

def insert (t : Table κ α) (key : κ) (a : α) : Table κ α :=
  ⟨put key a t.entries, nodup_put t.nodup⟩

/-- The table with only the entries whose keys are kept. -/
def filterKeys (t : Table κ α) (keep : κ → Bool) : Table κ α :=
  ⟨t.entries.filter fun entry => keep entry.1, by
    have h := t.nodup.filter keep
    rwa [List.filter_map] at h⟩

def erase (t : Table κ α) (key : κ) : Table κ α :=
  t.filterKeys fun k => k ≠ key

def find? (t : Table κ α) (key : κ) : Option α :=
  look? key t.entries

def contains (t : Table κ α) (key : κ) : Bool :=
  (t.find? key).isSome

/-- The value of a key that is present replaced by its image; nothing is added. -/
def adjust (t : Table κ α) (key : κ) (f : α → α) : Table κ α :=
  match t.find? key with
  | some a => t.insert key (f a)
  | none => t

def keys (t : Table κ α) : List κ := t.entries.map Prod.fst

def values (t : Table κ α) : List α := t.entries.map Prod.snd

def size (t : Table κ α) : Nat := t.entries.length

/-- The table of a list of entries; of two with one key the later counts. -/
def ofList (entries : List (κ × α)) : Table κ α :=
  entries.foldl (fun t entry => t.insert entry.1 entry.2) empty

theorem find?_empty (key : κ) : (empty : Table κ α).find? key = none := rfl

theorem look?_put (key k : κ) (a : α) (entries : List (κ × α)) :
    look? k (put key a entries) = if k = key then some a else look? k entries := by
  induction entries with
  | nil => grind [put, look?]
  | cons entry rest ih => grind [put, look?]

theorem find?_insert (t : Table κ α) (key k : κ) (a : α) :
    (t.insert key a).find? k = if k = key then some a else t.find? k :=
  look?_put key k a t.entries

theorem length_put {key : κ} {entries : List (κ × α)} (present : (look? key entries).isSome)
    (a : α) : (put key a entries).length = entries.length := by
  induction entries with
  | nil => cases present
  | cons entry rest ih => grind [put, look?]

/-- A table that has a key does not grow when the key is given another value. -/
theorem size_insert (t : Table κ α) {key : κ} (present : (t.find? key).isSome) (a : α) :
    (t.insert key a).size = t.size :=
  length_put present a

theorem look?_filter (keep : κ → Bool) (k : κ) (entries : List (κ × α)) :
    look? k (entries.filter fun entry => keep entry.1) =
      if keep k then look? k entries else none := by
  induction entries with
  | nil => simp [look?]
  | cons entry rest ih => grind [look?]

theorem find?_filterKeys (t : Table κ α) (keep : κ → Bool) (k : κ) :
    (t.filterKeys keep).find? k = if keep k then t.find? k else none :=
  look?_filter keep k t.entries

theorem find?_erase (t : Table κ α) (key k : κ) :
    (t.erase key).find? k = if k = key then none else t.find? k := by
  rw [erase, find?_filterKeys]
  by_cases h : k = key <;> simp [h]

theorem find?_adjust (t : Table κ α) (key k : κ) (f : α → α) :
    (t.adjust key f).find? k = if k = key then (t.find? k).map f else t.find? k := by
  unfold adjust
  cases h : t.find? key with
  | none => by_cases hk : k = key <;> simp [hk, h]
  | some a => by_cases hk : k = key <;> simp [find?_insert, hk, h]

variable {t : Table κ α} {key k : κ} {a b : α}

/-- A key that is found is one of the keys. -/
theorem mem_keys (h : t.find? k ≠ none) : k ∈ t.keys := by
  obtain ⟨entries, nodup⟩ := t
  simp only [find?, keys] at h ⊢
  clear nodup
  induction entries with
  | nil => exact (h rfl).elim
  | cons entry rest ih =>
    unfold look? at h
    split at h
    case isTrue same => exact same ▸ .head _
    case isFalse => exact .tail _ (ih h)

theorem find?_of_insert (h : (t.insert key a).find? k = some b) :
    k = key ∧ b = a ∨ k ≠ key ∧ t.find? k = some b := by
  rw [find?_insert] at h
  split at h
  case isTrue same =>
    cases h
    exact .inl ⟨same, rfl⟩
  case isFalse other => exact .inr ⟨other, h⟩

theorem find?_of_erase (h : (t.erase key).find? k = some b) : t.find? k = some b := by
  rw [find?_erase] at h
  split at h
  · cases h
  · exact h

theorem find?_of_adjust {f : α → α} (h : (t.adjust key f).find? k = some b) :
    ∃ a, t.find? k = some a ∧ (k = key ∧ b = f a ∨ k ≠ key ∧ b = a) := by
  rw [find?_adjust] at h
  split at h
  case isTrue same =>
    obtain ⟨a, found, rfl⟩ := Option.map_eq_some_iff.mp h
    exact ⟨a, found, .inl ⟨same, rfl⟩⟩
  case isFalse other => exact ⟨b, h, .inr ⟨other, rfl⟩⟩

end Table

end SlotScript
