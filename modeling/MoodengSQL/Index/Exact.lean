import MoodengSQL.Core.Index

/-!
# Exact indexes

An index is exact for the rows of a table when every key leads to the ids of
the rows that have this key, each once. Inserting and removing a row's key keep
it exact, and a refused insertion means that two rows would share a key of a
unique index.
-/

namespace MoodengSQL

open Std

namespace BTreeIndex

/-- The row ids under a key. -/
def ids (index : BTreeIndex) (key : IndexKey) : List Nat := index.tree.getD key []

/-- What the catalog records of an index. -/
def definition (index : BTreeIndex) : IndexMeta :=
  { name := index.name, columns := index.columns, unique := index.unique }

/-- The key a row has in the index. -/
def keyOf (index : BTreeIndex) (columnNames : List String) (values : List Value) : IndexKey :=
  .ofValues (keyValues index.columns values columnNames)

theorem ids_eq_nil_iff (index : BTreeIndex) (key : IndexKey) :
    index.ids key = [] ↔ key ∉ index.tree := by
  rw [ids, ExtTreeMap.getD_eq_getD_getElem?]
  constructor
  · intro empty member
    obtain ⟨entry, found⟩ := Option.isSome_iff_exists.mp
      (ExtTreeMap.mem_iff_isSome_getElem?.mp member)
    rw [found, Option.getD_some] at empty
    exact index.nonempty key (empty ▸ found)
  · intro absent
    rw [ExtTreeMap.getElem?_eq_none absent, Option.getD_none]

theorem ids_length_le_one (index : BTreeIndex) (unique : index.unique) (key : IndexKey) :
    (index.ids key).length ≤ 1 := by
  rw [ids, ExtTreeMap.getD_eq_getD_getElem?]
  cases found : index.tree[key]? with
  | none => simp
  | some entry => exact index.single unique key entry found

@[simp] theorem ids_new (name : String) (columns : List String) (unique : Bool) (key : IndexKey) :
    (new name columns unique).ids key = [] := by
  simp [ids, new]

theorem ids_setEntry (index : BTreeIndex) (key other : IndexKey) (entry : List Nat)
    (present : entry ≠ []) (short : index.unique → entry.length ≤ 1) :
    (index.setEntry key entry present short).ids other =
      if other = key then entry else index.ids other := by
  simp only [ids, setEntry, ExtTreeMap.getD_insert, Std.compare_eq_iff_eq]
  split <;> split <;> simp_all

/-- What an accepted insertion does. -/
theorem insert_eq_ok {index index' : BTreeIndex} {values : List Value} {rowId : Nat}
    (inserted : index.insert values rowId = .ok index') :
    index'.definition = index.definition ∧
      (index.unique → index.ids (.ofValues values) = []) ∧
      ∀ key, index'.ids key =
        if key = .ofValues values then index.ids key ++ [rowId] else index.ids key := by
  dsimp only [insert] at inserted
  split at inserted
  · split at inserted
    · cases inserted
    · rename_i absent
      have empty := (index.ids_eq_nil_iff _).mpr absent
      cases inserted
      refine ⟨rfl, fun _ => empty, fun key => ?_⟩
      rw [ids_setEntry]
      split
      · subst_vars
        rw [empty, List.nil_append]
      · rfl
  · rename_i shared
    cases inserted
    refine ⟨rfl, fun unique => absurd unique shared, fun key => ?_⟩
    rw [ids_setEntry]
    split
    · subst_vars
      rfl
    · rfl

/-- An insertion is refused only when a unique index has the key. -/
theorem insert_accepts {index : BTreeIndex} {values : List Value} (rowId : Nat)
    (free : index.unique → index.ids (.ofValues values) = []) :
    ∃ index', index.insert values rowId = .ok index' := by
  dsimp only [insert]
  split
  · rename_i unique
    have absent := (index.ids_eq_nil_iff _).mp (free unique)
    simp [absent]
  · exact ⟨_, rfl⟩

theorem definition_remove (index : BTreeIndex) (values : List Value) (rowId : Nat) :
    (index.remove values rowId).definition = index.definition := by
  dsimp only [remove]
  split
  · rfl
  · split <;> rfl

/-- What a removal does. -/
theorem ids_remove (index : BTreeIndex) (values : List Value) (rowId : Nat) (key : IndexKey) :
    (index.remove values rowId).ids key =
      if key = .ofValues values then (index.ids key).filter (· ≠ rowId) else index.ids key := by
  dsimp only [remove]
  split
  · rename_i absent
    split
    · subst_vars
      simp [ids, ExtTreeMap.getD_eq_getD_getElem?, absent]
    · rfl
  · rename_i entry found
    have entryIds : index.ids (.ofValues values) = entry := by
      simp [ids, ExtTreeMap.getD_eq_getD_getElem?, found]
    split
    · rename_i empty
      simp only [ids, eraseEntry, ExtTreeMap.getD_erase, Std.compare_eq_iff_eq]
      by_cases same : key = .ofValues values
      · subst same
        have gone : (index.ids (.ofValues values)).filter (· ≠ rowId) = [] := entryIds ▸ empty
        simpa [ids] using gone.symm
      · simp [same, Ne.symm same]
    · rw [ids_setEntry]
      split
      · rename_i same
        rw [same, entryIds]
      · rfl

end BTreeIndex

/-- The index leads from every key to the rows with this key, each once. -/
structure IndexExact (index : BTreeIndex) (columnNames : List String)
    (rows : Nat → Option (List Value)) : Prop where
  nodup : ∀ key, (index.ids key).Nodup
  mem_ids : ∀ key rowId, rowId ∈ index.ids key ↔
    ∃ values, rows rowId = some values ∧ index.keyOf columnNames values = key

namespace IndexExact

variable {index index' : BTreeIndex} {columnNames : List String}
  {rows : Nat → Option (List Value)} {rowId : Nat} {values : List Value}

theorem new (name : String) (columns : List String) (unique : Bool) (columnNames : List String) :
    IndexExact (.new name columns unique) columnNames fun _ => none :=
  ⟨by simp, by simp⟩

theorem keyOf_eq_of_definition (same : index'.definition = index.definition) :
    index'.keyOf columnNames = index.keyOf columnNames := by
  have columns : index'.columns = index.columns := congrArg IndexMeta.columns same
  funext values
  rw [BTreeIndex.keyOf, BTreeIndex.keyOf, columns]

/-- Inserting the key of a new row keeps the index exact. -/
theorem insert (exact : IndexExact index columnNames rows) (absent : rows rowId = none)
    (inserted : index.insert (keyValues index.columns values columnNames) rowId = .ok index') :
    IndexExact index' columnNames (Function.update rows rowId (some values)) := by
  obtain ⟨same, -, entries⟩ := BTreeIndex.insert_eq_ok inserted
  have notListed : ∀ key, rowId ∉ index.ids key := by
    intro key member
    obtain ⟨old, present, -⟩ := (exact.mem_ids key rowId).mp member
    rw [absent] at present
    cases present
  constructor
  · intro key
    rw [entries]
    split
    · refine List.nodup_append'.mpr ⟨exact.nodup key, List.nodup_singleton _, ?_⟩
      exact List.disjoint_singleton.mpr (notListed key)
    · exact exact.nodup key
  · intro key other
    rw [entries, keyOf_eq_of_definition same]
    by_cases sameRow : other = rowId
    · subst sameRow
      rw [Function.update_self]
      have := notListed key
      constructor
      · intro member
        split at member
        · rename_i sameKey
          exact ⟨values, rfl, sameKey.symm⟩
        · exact absurd member this
      · rintro ⟨stored, same, rfl⟩
        cases same
        simp [BTreeIndex.keyOf]
    · rw [Function.update_of_ne sameRow, ← exact.mem_ids]
      split <;> simp [sameRow]

/-- Removing the key of a stored row keeps the index exact for the other rows.
Any values with the key of the row will do. -/
theorem remove_sameKey (exact : IndexExact index columnNames rows) {current : List Value}
    (present : rows rowId = some current)
    (same : index.keyOf columnNames current = index.keyOf columnNames values) :
    IndexExact (index.remove (keyValues index.columns values columnNames) rowId) columnNames
      (Function.update rows rowId none) := by
  constructor
  · intro key
    rw [BTreeIndex.ids_remove]
    split
    · exact (exact.nodup key).filter _
    · exact exact.nodup key
  · intro key other
    rw [BTreeIndex.ids_remove, keyOf_eq_of_definition (index.definition_remove _ _)]
    by_cases sameRow : other = rowId
    · subst sameRow
      rw [Function.update_self]
      simp only [reduceCtorEq, false_and, exists_false, iff_false]
      split
      · simp
      · rename_i otherKey
        intro member
        obtain ⟨stored, found, rfl⟩ := (exact.mem_ids key other).mp member
        rw [present] at found
        cases found
        exact otherKey same
    · rw [Function.update_of_ne sameRow, ← exact.mem_ids]
      split <;> simp [sameRow]

theorem remove (exact : IndexExact index columnNames rows) (present : rows rowId = some values) :
    IndexExact (index.remove (keyValues index.columns values columnNames) rowId) columnNames
      (Function.update rows rowId none) :=
  exact.remove_sameKey present rfl

/-- Removing a key that the row does not have changes nothing. -/
theorem remove_other (exact : IndexExact index columnNames rows)
    (other : ∀ current, rows rowId = some current →
      index.keyOf columnNames current ≠ index.keyOf columnNames values) :
    IndexExact (index.remove (keyValues index.columns values columnNames) rowId) columnNames
      rows := by
  have same : ∀ key, (index.remove (keyValues index.columns values columnNames) rowId).ids key =
      index.ids key := by
    intro key
    rw [BTreeIndex.ids_remove]
    split
    · rename_i here
      refine List.filter_eq_self.mpr fun id member => decide_eq_true fun sameRow => ?_
      subst sameRow
      obtain ⟨current, stored, sameKey⟩ := (exact.mem_ids key id).mp member
      exact other current stored (sameKey.trans here)
    · rfl
  refine ⟨fun key => same key ▸ exact.nodup key, fun key id => ?_⟩
  rw [same, keyOf_eq_of_definition (index.definition_remove _ _)]
  exact exact.mem_ids key id

/-- An index sees of the rows only their keys. -/
theorem congr_keys (exact : IndexExact index columnNames rows) {rows' : Nat → Option (List Value)}
    (same : ∀ id, (rows' id).map (index.keyOf columnNames) =
      (rows id).map (index.keyOf columnNames)) : IndexExact index columnNames rows' := by
  refine ⟨exact.nodup, fun key id => ?_⟩
  rw [exact.mem_ids, ← Option.map_eq_some_iff, ← Option.map_eq_some_iff, same]

/-- Rows of an exact unique index have different keys. -/
theorem eq_of_key_eq (exact : IndexExact index columnNames rows) (unique : index.unique)
    {left right : Nat} {leftValues rightValues : List Value}
    (leftRow : rows left = some leftValues) (rightRow : rows right = some rightValues)
    (sameKey : index.keyOf columnNames leftValues = index.keyOf columnNames rightValues) :
    left = right := by
  have leftMember := (exact.mem_ids _ left).mpr ⟨leftValues, leftRow, rfl⟩
  have rightMember := (exact.mem_ids _ right).mpr ⟨rightValues, rightRow, sameKey.symm⟩
  obtain ⟨only, entry⟩ : ∃ only, index.ids (index.keyOf columnNames leftValues) = [only] := by
    have length := index.ids_length_le_one unique (index.keyOf columnNames leftValues)
    match entry : index.ids (index.keyOf columnNames leftValues) with
    | [] => rw [entry] at leftMember; cases leftMember
    | [only] => exact ⟨only, rfl⟩
    | _ :: _ :: _ => rw [entry] at length; simp at length
  rw [entry, List.mem_singleton] at leftMember rightMember
  rw [leftMember, rightMember]

/-- An exact index accepts a row whose key no other row has. -/
theorem accepts (exact : IndexExact index columnNames rows)
    (free : index.unique → ∀ other stored, rows other = some stored →
      index.keyOf columnNames stored ≠ index.keyOf columnNames values) :
    ∃ index', index.insert (keyValues index.columns values columnNames) rowId = .ok index' := by
  refine BTreeIndex.insert_accepts rowId fun unique => ?_
  refine List.eq_nil_iff_forall_not_mem.mpr fun other member => ?_
  obtain ⟨stored, present, sameKey⟩ := (exact.mem_ids _ other).mp member
  exact free unique other stored present sameKey

end IndexExact

end MoodengSQL
