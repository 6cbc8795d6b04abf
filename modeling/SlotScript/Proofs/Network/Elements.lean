import SlotScript.Network.Scope

/-! # Elements of collections

A map has an element for any index, a list for an integer in range. Changing one element leaves the
others as they are, so long as their indexes still mean them: a map is indexed by text, and the text
of a collection shows how long it is. A map that is an index of itself is therefore looked up under
another text once it has become longer. No other index is. To change a collection at an index that
is this very collection takes forever.
-/

namespace SlotScript

/-- An integer of any kind denotes a place of a list. -/
def Value.Denotes (place : Nat) : Value → Prop
  | .int32 n => n.toInt = place
  | .int64 n => n.toInt = place
  | .uint32 n => n.toNat = place
  | .uint64 n => n.toNat = place
  | _ => False

/-- Two values name one object. -/
def Value.Aliases (a b : Value) : Prop :=
  ∃ ref ref' : ObjectRef, a = .object ref ∧ b = .object ref' ∧ ref.id = ref'.id

theorem Value.sameObject_iff {a b : Value} : a.sameObject b = true ↔ a.Aliases b := by
  cases a <;> cases b <;> simp [sameObject, Aliases]

theorem Value.concatText_congr {sizes sizes' : Sizes} {i : Value}
    (same : ∀ ref, i = .object ref → sizes' ref.id = sizes ref.id) :
    i.concatText sizes' = i.concatText sizes := by
  cases i with
  | object ref =>
      simp only [concatText, text, ObjectRef.text, same ref rfl]
  | _ => rfl

namespace Network

variable {net net' : Network} {key : String} {collection index other i v : Value}
  {object old : Object}

theorem listIndex?_eq_some_iff {length : Nat} {p : Nat} :
    listIndex? index length = some p ↔ index.Denotes p ∧ p < length := by
  have range (n : Int) : (if 0 ≤ n ∧ n < length then some n.toNat else none) = some p ↔
      n = p ∧ p < length := by
    split <;> simp only [Option.some.injEq, reduceCtorEq, false_iff] <;> omega
  unfold listIndex? Value.Denotes
  cases index <;> simp only [range, Int.ofNat_inj, reduceCtorEq, false_and]

/-- A collection has an element for an index: a map for any, a list for an integer in range. -/
inductive HasElement (net : Network) (collection index : Value) : Prop where
  | map {entries : Table String Value} : net.object? collection = some (.map entries) →
      HasElement net collection index
  | list {items : List Value} {p : Nat} : net.object? collection = some (.list items) →
      index.Denotes p → p < items.length → HasElement net collection index

/-- An index of a map or a list that is this very collection. -/
def OwnIndex (net : Network) (collection index : Value) : Prop :=
  index.Aliases collection ∧ ((∃ entries, net.object? collection = some (.map entries)) ∨
    ∃ items, net.object? collection = some (.list items))

/-- One index means another element than another one. In a map it has another text, and it is not
the map itself if the map is about to gain an element. -/
inductive Elsewhere (net : Network) (collection index other : Value) : Prop where
  | map {entries : Table String Value} : net.object? collection = some (.map entries) →
      other.concatText net.sizes ≠ index.concatText net.sizes →
      (other.Aliases collection → (entries.find? (index.concatText net.sizes)).isSome) →
      Elsewhere net collection index other
  | list {items : List Value} : net.object? collection = some (.list items) →
      (∀ p, index.Denotes p → ¬ other.Denotes p) → Elsewhere net collection index other

theorem object?_setObject (found : net.object? collection = some old) (object : Object) :
    (net.setObject collection object).object? collection = some object := by
  cases collection with
  | object ref =>
      have inside : ref.id < net.objects.length := (List.getElem?_eq_some_iff.mp found).1
      exact List.getElem?_set_self inside
  | _ => cases found

theorem object?_setObject_other (apart : ¬ i.Aliases collection) (object : Object) :
    (net.setObject collection object).object? i = net.object? i := by
  cases collection with
  | object ref =>
      cases i with
      | object ref' =>
          have other : ref.id ≠ ref'.id := fun same => apart ⟨ref', ref, rfl, rfl, same.symm⟩
          exact List.getElem?_set_ne other
      | _ => rfl
  | _ => rfl

theorem sizes_setObject_other {ref : ObjectRef} {id : ObjectId} (apart : id ≠ ref.id)
    (net : Network) (object : Object) :
    (net.setObject (.object ref) object).sizes id = net.sizes id := by
  simp only [sizes, setObject, List.getElem?_set_ne apart.symm]

/-- Only the text of a collection that changed can have become another one. -/
theorem concatText_setObject (apart : ¬ i.Aliases collection) (object : Object) :
    i.concatText (net.setObject collection object).sizes = i.concatText net.sizes := by
  cases collection with
  | object ref =>
      refine Value.concatText_congr fun ref' same => sizes_setObject_other ?_ net object
      rintro id
      exact apart ⟨ref', ref, same, rfl, id⟩
  | _ => rfl

/-- A collection that keeps its length keeps its text. -/
theorem sizes_setObject_same (found : net.object? collection = some old)
    (same : object.size = old.size) : (net.setObject collection object).sizes = net.sizes := by
  cases collection with
  | object ref =>
      funext id
      by_cases here : id = ref.id
      · subst here
        have changed : (net.objects.set ref.id object)[ref.id]? = some object :=
          object?_setObject found object
        have before : net.objects[ref.id]? = some old := found
        simp only [sizes, setObject, changed, before, same]
      · exact sizes_setObject_other here net object
  | _ => rfl

theorem changeElement_map {entries : Table String Value}
    (found : net.object? collection = some (.map entries)) (apart : ¬ index.Aliases collection)
    (key : String) (v : Value) : net.changeElement key collection index v =
      some (.ok (.map (entries.insert (index.concatText net.sizes) v))) := by
  simp only [changeElement, found, Value.sameObject_iff, apart, if_false]

theorem changeElement_list {items : List Value} {p : Nat}
    (found : net.object? collection = some (.list items)) (denotes : index.Denotes p)
    (inside : p < items.length) (key : String) (v : Value) :
    net.changeElement key collection index v = some (.ok (.list (items.set p v))) := by
  simp only [changeElement, found, listIndex?_eq_some_iff.mpr ⟨denotes, inside⟩]

theorem changeElement_ok (has : net.HasElement collection index)
    (apart : ¬ index.Aliases collection) (key : String) (v : Value) :
    ∃ object, net.changeElement key collection index v = some (.ok object) := by
  cases has with
  | map found => exact ⟨_, changeElement_map found apart key v⟩
  | list found denotes inside => exact ⟨_, changeElement_list found denotes inside key v⟩

/-- What has no element for an index cannot be changed there. -/
theorem changeElement_error (lacks : ¬ net.HasElement collection index)
    (apart : ¬ index.Aliases collection) (key : String) (v : Value) :
    ∃ e, net.changeElement key collection index v = some (.error e) := by
  have other : index.sameObject collection = false := by
    simpa [← Value.sameObject_iff] using apart
  unfold changeElement
  split
  case h_1 found => exact (lacks (.map found)).elim
  case h_2 items found =>
    split
    case h_1 p place =>
      obtain ⟨denotes, inside⟩ := listIndex?_eq_some_iff.mp place
      exact (lacks (.list found denotes inside)).elim
    case h_2 => simp [other]
  case h_3 => exact ⟨_, rfl⟩

theorem changeElement_fails {e : RuntimeError}
    (failed : net.changeElement key collection index v = some (.error e)) :
    e = .notIndexable key ∨ ∃ text, e = .invalidIndex key text := by
  unfold changeElement at failed
  split at failed
  case h_1 => split at failed <;> cases failed
  case h_2 =>
    split at failed
    case h_1 => cases failed
    case h_2 =>
      split at failed <;> cases failed
      exact .inr ⟨_, rfl⟩
  case h_3 =>
    cases failed
    exact .inl rfl

/-- It is only for a map or a list that is an index of itself that there is no result. -/
theorem changeElement_eq_none_iff :
    net.changeElement key collection index v = none ↔ net.OwnIndex collection index := by
  unfold changeElement OwnIndex
  split
  case h_1 entries found => simp [found, Value.sameObject_iff]
  case h_2 items found =>
    split
    case h_1 p place =>
      obtain ⟨denotes, -⟩ := listIndex?_eq_some_iff.mp place
      refine iff_of_false nofun ?_
      rintro ⟨⟨ref, ref', rfl, -⟩, -⟩
      exact denotes
    case h_2 => simp [found, Value.sameObject_iff]
  case h_3 noMap noList =>
    refine iff_of_false nofun ?_
    rintro ⟨-, ⟨entries, found⟩ | ⟨items, found⟩⟩
    · exact noMap entries found
    · exact noList items found

instance (net : Network) (collection index : Value) : Decidable (net.OwnIndex collection index) :=
  decidable_of_iff ((net.changeElement "" collection index .null).isNone = true) <| by
    rw [Option.isNone_iff_eq_none, changeElement_eq_none_iff]

theorem element_map {entries : Table String Value}
    (found : net.object? collection = some (.map entries)) (key : String) (index : Value) :
    net.element key collection index =
      .ok ((entries.find? (index.concatText net.sizes)).getD .null) := by
  simp only [element, found]

theorem element_list {items : List Value} (found : net.object? collection = some (.list items))
    (key : String) (index : Value) : net.element key collection index =
      ((listIndex? index items.length).bind (items[·]?)).elim
        (.error (net.invalidIndex key index)) .ok := by
  simp only [element, found]
  cases (listIndex? index items.length).bind (items[·]?) <;> rfl

/-- What elements a collection has is a matter of the objects alone. -/
theorem element_congr (objects : net'.objects = net.objects) (key : String)
    (collection index : Value) :
    net'.element key collection index = net.element key collection index := by
  have sizes : net'.sizes = net.sizes := by
    unfold sizes
    rw [objects]
  have object : net'.object? collection = net.object? collection := by
    unfold object?
    rw [objects]
  simp only [element, object, invalidIndex, sizes]

/-- What was written is there. -/
theorem element_changed (has : net.HasElement collection index)
    (apart : ¬ index.Aliases collection)
    (changed : net.changeElement key collection index v = some (.ok object)) :
    (net.setObject collection object).element key collection index = .ok v := by
  cases has with
  | map found =>
      rw [changeElement_map found apart] at changed
      cases changed
      rw [element_map (object?_setObject found _), concatText_setObject apart, Table.find?_insert,
        if_pos rfl, Option.getD_some]
  | @list items p found denotes inside =>
      rw [changeElement_list found denotes inside] at changed
      cases changed
      have place : listIndex? index (items.set p v).length = some p := by
        rw [List.length_set]
        exact listIndex?_eq_some_iff.mpr ⟨denotes, inside⟩
      rw [element_list (object?_setObject found _), place, Option.bind_some,
        List.getElem?_set_self inside, Option.elim_some]

/-- The other elements are what they were. -/
theorem element_elsewhere (elsewhere : net.Elsewhere collection index other)
    (apart : ¬ index.Aliases collection)
    (changed : net.changeElement key collection index v = some (.ok object)) :
    (net.setObject collection object).element key collection other =
      net.element key collection other := by
  cases elsewhere with
  | @map entries found differs grows =>
      rw [changeElement_map found apart] at changed
      cases changed
      have text : other.concatText (net.setObject collection (.map (entries.insert
          (index.concatText net.sizes) v))).sizes = other.concatText net.sizes := by
        by_cases own : other.Aliases collection
        · have size : (Object.map (entries.insert (index.concatText net.sizes) v)).size =
              (Object.map entries).size := entries.size_insert (grows own) v
          rw [sizes_setObject_same found size]
        · exact concatText_setObject own _
      rw [element_map (object?_setObject found _), element_map found, text, Table.find?_insert,
        if_neg differs]
  | @list items found differs =>
      simp only [changeElement, found] at changed
      cases place : listIndex? index items.length with
      | none =>
          simp only [place] at changed
          split at changed <;> cases changed
      | some p =>
          simp only [place] at changed
          cases changed
          obtain ⟨denotes, -⟩ := listIndex?_eq_some_iff.mp place
          have size : (Object.list (items.set p v)).size = (Object.list items).size :=
            List.length_set
          have sizes := sizes_setObject_same found size
          rw [element_list (object?_setObject found _), element_list found, List.length_set,
            invalidIndex, invalidIndex, sizes]
          cases place' : listIndex? other items.length with
          | none => rfl
          | some q =>
              obtain ⟨denotes', -⟩ := listIndex?_eq_some_iff.mp place'
              have apart : p ≠ q := by
                rintro rfl
                exact differs p denotes denotes'
              rw [Option.bind_some, Option.bind_some, List.getElem?_set_ne apart]

end Network

end SlotScript
