import Mathlib

/-!
# Partitions by a key

A list cut into classes of elements that have the same key, and when two keys cut a
list in the same way. A key that is several lists joined by a separator tells apart
what the lists, cut at the separator, tell apart.
-/

namespace Foundation

variable {α κ ν : Type}

/-- The classes of a list under a key: every element is in one class, those of a class
have the same key, and those of different classes do not. -/
structure PartitionedBy (key : α → κ) (elements : List α) (classes : List (List α)) : Prop where
  all : classes.flatten.Perm elements
  within : ∀ members ∈ classes, ∀ a ∈ members, ∀ b ∈ members, key a = key b
  across : classes.Pairwise fun members others => ∀ a ∈ members, ∀ b ∈ others, key a ≠ key b

namespace PartitionedBy

variable {key : α → κ} {elements : List α} {classes : List (List α)}

/-- Elements with the same key are in one class. -/
theorem same_class (parts : PartitionedBy key elements classes) {a b : α} (here : a ∈ elements)
    (here' : b ∈ elements) (same : key a = key b) :
    ∃ members ∈ classes, a ∈ members ∧ b ∈ members := by
  obtain ⟨members, listed, inside⟩ := List.mem_flatten.mp (parts.all.mem_iff.mpr here)
  obtain ⟨others, listed', inside'⟩ := List.mem_flatten.mp (parts.all.mem_iff.mpr here')
  obtain ⟨i, bound, rfl⟩ := List.getElem_of_mem listed
  obtain ⟨j, bound', rfl⟩ := List.getElem_of_mem listed'
  have apart := List.pairwise_iff_getElem.mp parts.across
  rcases Nat.lt_trichotomy i j with before | rfl | after
  · exact absurd same (apart i j bound bound' before a inside b inside')
  · exact ⟨_, listed, inside, inside'⟩
  · exact absurd same.symm (apart j i bound' bound after b inside' a inside)

/-- The order of the classes does not matter. -/
theorem perm {classes' : List (List α)} (parts : PartitionedBy key elements classes)
    (perm : classes.Perm classes') : PartitionedBy key elements classes' where
  all := perm.flatten.symm.trans parts.all
  within members listed := parts.within members (perm.mem_iff.mpr listed)
  across := by
    refine (perm.pairwise_iff fun {members others} apart => ?_).mp parts.across
    exact fun a inside b inside' same => apart b inside' a inside same.symm

/-- **Two keys cut a list in the same way exactly if they tell the same elements
apart.** -/
theorem iff_same_keys (parts : PartitionedBy key elements classes) (value : α → ν) :
    PartitionedBy value elements classes ↔
      ∀ a ∈ elements, ∀ b ∈ elements, key a = key b ↔ value a = value b := by
  constructor
  · intro parts' a here b here'
    constructor
    · intro same
      obtain ⟨members, listed, inside, inside'⟩ := parts.same_class here here' same
      exact parts'.within members listed a inside b inside'
    · intro same
      obtain ⟨members, listed, inside, inside'⟩ := parts'.same_class here here' same
      exact parts.within members listed a inside b inside'
  · intro agree
    have mem : ∀ members ∈ classes, ∀ a ∈ members, a ∈ elements :=
      fun members listed a inside =>
        parts.all.mem_iff.mp (List.mem_flatten.mpr ⟨members, listed, inside⟩)
    refine ⟨parts.all, fun members listed a inside b inside' => ?_, ?_⟩
    · apply (agree a (mem members listed a inside) b (mem members listed b inside')).mp
      exact parts.within members listed a inside b inside'
    · refine parts.across.imp_of_mem fun {members others} listed listed' apart a inside b inside' => ?_
      intro same
      exact apart a inside b inside'
        ((agree a (mem members listed a inside) b (mem others listed' b inside')).mpr same)

end PartitionedBy

/-- The classes of the keys of a list that has every key once. -/
theorem partitionedBy_of_keys [DecidableEq κ] (key : α → κ) {keys : List κ} {elements : List α}
    (distinct : keys.Nodup) (covered : ∀ a ∈ elements, key a ∈ keys) :
    PartitionedBy key elements (keys.map fun k => elements.filter (key · = k)) where
  all := by
    induction keys generalizing elements with
    | nil =>
        have empty : elements = [] :=
          List.eq_nil_iff_forall_not_mem.mpr fun a here => List.not_mem_nil (covered a here)
        rw [empty]
        exact .refl _
    | cons k rest ih =>
        obtain ⟨fresh, distinct⟩ := List.nodup_cons.mp distinct
        have others : (rest.map fun k' => elements.filter (key · = k')) =
            rest.map fun k' => (elements.filter fun a => !decide (key a = k)).filter (key · = k') := by
          refine List.map_congr_left fun k' member => ?_
          rw [List.filter_filter]
          refine List.filter_congr fun a _ => ?_
          by_cases same : key a = k'
          · have differ : key a ≠ k := fun equal => fresh (equal ▸ same ▸ member)
            simp [same, same ▸ differ]
          · simp [same]
        rw [List.map_cons, List.flatten_cons, others]
        refine ((ih distinct fun a here => ?_).append_left _).trans
          (List.filter_append_perm (fun a => decide (key a = k)) elements)
        obtain ⟨stored, differ⟩ := List.mem_filter.mp here
        rcases List.mem_cons.mp (covered a stored) with same | member
        · simp [same] at differ
        · exact member
  within members listed a inside b inside' := by
    obtain ⟨k, -, rfl⟩ := List.mem_map.mp listed
    exact (of_decide_eq_true (List.mem_filter.mp inside).2).trans
      (of_decide_eq_true (List.mem_filter.mp inside').2).symm
  across := by
    rw [List.pairwise_map]
    refine distinct.imp fun differ a inside b inside' same => differ ?_
    rw [← of_decide_eq_true (List.mem_filter.mp inside).2,
      ← of_decide_eq_true (List.mem_filter.mp inside').2, same]

section Joining

variable [BEq α] [LawfulBEq α] (separator : α)

/-- A joined list is cut into the pieces of its parts. -/
theorem splitOn_join {lists : List (List α)} (nonempty : lists ≠ []) :
    ([separator].intercalate lists).splitOn separator =
      lists.flatMap (List.splitOn separator) := by
  induction lists with
  | nil => exact absurd rfl nonempty
  | cons first rest ih =>
      cases rest with
      | nil => rw [List.intercalate_singleton, List.flatMap_singleton]
      | cons second rest =>
          rw [List.intercalate_cons_of_ne_nil (List.cons_ne_nil second rest), List.append_assoc,
            List.singleton_append, List.splitOn_append_cons_self, ih (List.cons_ne_nil second rest)]
          rfl

/-- **Joined lists are the same exactly if their pieces are.** -/
theorem join_eq_iff {lists lists' : List (List α)} (nonempty : lists ≠ [])
    (nonempty' : lists' ≠ []) :
    [separator].intercalate lists = [separator].intercalate lists' ↔
      lists.flatMap (List.splitOn separator) = lists'.flatMap (List.splitOn separator) := by
  rw [← splitOn_join separator nonempty, ← splitOn_join separator nonempty']
  constructor
  · exact congrArg _
  · intro same
    have rejoined : [separator].intercalate (([separator].intercalate lists).splitOn separator) =
        [separator].intercalate lists := List.intercalate_splitOn separator
    rw [← rejoined, same, List.intercalate_splitOn]

end Joining

end Foundation
