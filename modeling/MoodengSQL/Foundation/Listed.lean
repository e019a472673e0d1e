import Mathlib

/-!
# Finite maps as lists

A map from an ordered type with finitely many entries has one list of them in
ascending order. Writing at a key appends to this list, replaces in it or removes
from it.
-/

namespace Foundation

variable {κ α : Type} [LinearOrder κ]

/-- The entries of the map, in ascending order. -/
structure Lists (entries : List (κ × α)) (f : κ → Option α) : Prop where
  ascending : (entries.map Prod.fst).Pairwise (· < ·)
  mem_iff : ∀ k a, (k, a) ∈ entries ↔ f k = some a

namespace Lists

variable {entries entries' before after : List (κ × α)} {f : κ → Option α} {k : κ} {a old : α}

theorem nil : Lists ([] : List (κ × α)) fun _ => none :=
  ⟨.nil, by simp⟩

/-- The entries of a map are one list. -/
theorem unique (lists : Lists entries f) (lists' : Lists entries' f) : entries = entries' := by
  have sorted : ∀ {entries : List (κ × α)}, (entries.map Prod.fst).Pairwise (· < ·) →
      entries.Pairwise (fun e e' : κ × α => e.1 < e'.1) := List.pairwise_map.mp
  have nodup : ∀ {entries : List (κ × α)}, (entries.map Prod.fst).Pairwise (· < ·) →
      entries.Nodup := fun ascending => (sorted ascending).imp fun less same => by
    rw [same] at less
    exact lt_irrefl _ less
  have perm : entries.Perm entries' := by
    refine (List.perm_ext_iff_of_nodup (nodup lists.ascending) (nodup lists'.ascending)).mpr ?_
    rintro ⟨k, a⟩
    rw [lists.mem_iff, lists'.mem_iff]
  exact perm.eq_of_pairwise
    (fun e e' _ _ less greater => absurd (less.trans greater) (lt_irrefl _))
    (sorted lists.ascending) (sorted lists'.ascending)

theorem eq_none_iff (lists : Lists entries f) : f k = none ↔ ∀ entry ∈ entries, entry.1 ≠ k := by
  constructor
  · rintro none ⟨k', a⟩ member rfl
    rw [(lists.mem_iff _ _).mp member] at none
    cases none
  · intro apart
    cases found : f k with
    | none => rfl
    | some a => exact absurd rfl (apart (k, a) ((lists.mem_iff k a).mpr found))

/-- Writing behind the last key appends. -/
theorem append (lists : Lists entries f) (beyond : ∀ entry ∈ entries, entry.1 < k) :
    Lists (entries ++ [(k, a)]) (Function.update f k (some a)) := by
  constructor
  · rw [List.map_append, List.pairwise_append]
    refine ⟨lists.ascending, List.pairwise_singleton _ _, ?_⟩
    simpa using beyond
  · intro k' a'
    rw [List.mem_append, List.mem_singleton, lists.mem_iff, Function.update_apply, Prod.mk.injEq]
    split
    · rename_i same
      subst same
      have absent : f k' = none := lists.eq_none_iff.mpr fun entry member =>
        (beyond entry member).ne
      simp [absent, eq_comm]
    · simp_all

/-- Every key of a list in ascending order is apart from the others. -/
theorem apart (lists : Lists (before ++ (k, old) :: after) f) :
    ∀ entry ∈ before ++ after, entry.1 ≠ k := by
  have ascending := lists.ascending
  rw [List.map_append, List.map_cons, List.pairwise_append, List.pairwise_cons] at ascending
  obtain ⟨-, ⟨later, -⟩, earlier⟩ := ascending
  intro entry member
  rcases List.mem_append.mp member with member | member
  · exact (earlier _ (List.mem_map_of_mem member) k List.mem_cons_self).ne
  · exact (later _ (List.mem_map_of_mem member)).ne'

/-- Writing at a key that is there replaces. -/
theorem replace (lists : Lists (before ++ (k, old) :: after) f) :
    Lists (before ++ (k, a) :: after) (Function.update f k (some a)) := by
  have apart := lists.apart
  constructor
  · simpa using lists.ascending
  · intro k' a'
    have mem_iff := lists.mem_iff k' a'
    rw [Function.update_apply]
    simp only [List.mem_append, List.mem_cons, Prod.mk.injEq] at mem_iff apart ⊢
    split
    · rename_i same
      subst same
      have noBefore : (k', a') ∉ before := fun member => apart _ (.inl member) rfl
      have noAfter : (k', a') ∉ after := fun member => apart _ (.inr member) rfl
      simp [noBefore, noAfter, eq_comm]
    · rename_i differ
      simpa [differ] using mem_iff

/-- Erasing a key removes. -/
theorem remove (lists : Lists (before ++ (k, old) :: after) f) :
    Lists (before ++ after) (Function.update f k none) := by
  have apart := lists.apart
  constructor
  · refine lists.ascending.sublist (List.Sublist.map _ ?_)
    exact (List.sublist_cons_self _ _).append_left before
  · intro k' a'
    have mem_iff := lists.mem_iff k' a'
    rw [Function.update_apply]
    simp only [List.mem_append, List.mem_cons, Prod.mk.injEq] at mem_iff apart ⊢
    split
    · rename_i same
      subst same
      have noBefore : (k', a') ∉ before := fun member => apart _ (.inl member) rfl
      have noAfter : (k', a') ∉ after := fun member => apart _ (.inr member) rfl
      simp [noBefore, noAfter]
    · rename_i differ
      simpa [differ] using mem_iff

end Lists

end Foundation
