import Mathlib

/-!
# Recency

The values of a history in the order of their last use, and the most recent of
them: what a store of limited size keeps if it gives up the value that has not been
used for longest.
-/

namespace Foundation

variable {α : Type} [DecidableEq α]

/-- A value that is used again moves to the end. -/
theorem dedup_concat (uses : List α) (value : α) :
    (uses ++ [value]).dedup = uses.dedup.erase value ++ [value] := by
  induction uses with
  | nil => rfl
  | cons first rest ih =>
      rw [List.cons_append]
      by_cases later : first ∈ rest
      · rw [List.dedup_cons_of_mem (List.mem_append_left _ later), ih,
          List.dedup_cons_of_mem later]
      · rw [List.dedup_cons_of_notMem later]
        by_cases same : first = value
        · subst same
          have again : first ∈ rest ++ [first] :=
            List.mem_append_right _ (List.mem_singleton_self first)
          rw [List.dedup_cons_of_mem again, ih, List.erase_cons_head,
            List.erase_of_not_mem (mt List.mem_dedup.mp later)]
        · have new : first ∉ rest ++ [value] := by
            rw [List.mem_append, List.mem_singleton]
            exact not_or.mpr ⟨later, same⟩
          rw [List.dedup_cons_of_notMem new, ih, List.erase_cons_tail (by simpa using same),
            List.cons_append]

/-- The last distinct values of a history, at most `bound` of them, the latest one
at the end. -/
def recent (bound : Nat) (uses : List α) : List α := uses.dedup.rtake bound

omit [DecidableEq α] in
/-- An end of a list of the right length is what `rtake` takes. -/
theorem rtake_eq_of_suffix {values last : List α} {bound : Nat} (ends : last <:+ values)
    (length : last.length = min bound values.length) : values.rtake bound = last := by
  rw [List.suffix_iff_eq_drop.mp ends, List.rtake, length]
  congr 1
  omega

@[simp] theorem recent_nil (bound : Nat) : recent bound ([] : List α) = [] := by
  rw [recent, List.dedup_nil, List.rtake_nil]

theorem recent_suffix (bound : Nat) (uses : List α) : recent bound uses <:+ uses.dedup :=
  List.drop_suffix _ _

theorem recent_nodup (bound : Nat) (uses : List α) : (recent bound uses).Nodup :=
  (List.nodup_dedup uses).sublist (recent_suffix bound uses).sublist

theorem length_recent (bound : Nat) (uses : List α) :
    (recent bound uses).length = min bound uses.dedup.length := by
  rw [recent, List.rtake, List.length_drop]
  omega

theorem length_recent_le (bound : Nat) (uses : List α) : (recent bound uses).length ≤ bound := by
  rw [length_recent]
  exact Nat.min_le_left _ _

section Use

variable {bound : Nat} {uses : List α} {value : α}

/-- A recent value that is used becomes the latest. -/
theorem recent_concat_of_mem (used : value ∈ recent bound uses) :
    recent bound (uses ++ [value]) = (recent bound uses).erase value ++ [value] := by
  obtain ⟨older, parts⟩ := recent_suffix bound uses
  have distinct : (older ++ recent bound uses).Nodup := parts ▸ List.nodup_dedup uses
  have notOlder : value ∉ older := fun member =>
    (List.disjoint_of_nodup_append distinct) member used
  have length := length_recent bound uses
  have shorter := List.length_erase_of_mem used
  have positive := List.length_pos_of_mem used
  have member : value ∈ uses.dedup := (recent_suffix bound uses).subset used
  apply rtake_eq_of_suffix
  · refine ⟨older, ?_⟩
    rw [dedup_concat, ← parts, List.erase_append_right _ notOlder, List.append_assoc]
  · rw [dedup_concat, List.length_append, List.length_append, List.length_erase_of_mem member,
      shorter, List.length_singleton]
    omega

/-- The recent values stay at the end if another value is taken out. -/
theorem recent_suffix_erase (new : value ∉ recent bound uses) :
    recent bound uses <:+ uses.dedup.erase value := by
  obtain ⟨older, parts⟩ := recent_suffix bound uses
  refine ⟨older.erase value, ?_⟩
  rw [← parts]
  by_cases member : value ∈ older
  · rw [List.erase_append_left _ member]
  · rw [List.erase_append_right _ member, List.erase_of_not_mem member, List.erase_of_not_mem new]

/-- Below the bound, a new value joins the others. -/
theorem recent_concat_of_room (new : value ∉ recent bound uses)
    (room : (recent bound uses).length < bound) :
    recent bound (uses ++ [value]) = recent bound uses ++ [value] := by
  have ends := recent_suffix_erase new
  have length := length_recent bound uses
  have shorter := (List.erase_sublist (a := value) (l := uses.dedup)).length_le
  have longer := ends.length_le
  apply rtake_eq_of_suffix
  · rw [dedup_concat]
    obtain ⟨older, parts⟩ := ends
    exact ⟨older, by rw [← parts, List.append_assoc]⟩
  · rw [dedup_concat, List.length_append, List.length_append, List.length_singleton]
    omega

/-- At the bound, a new value replaces the one not used for longest. -/
theorem recent_concat_of_full {oldest : α} {others : List α} (new : value ∉ recent bound uses)
    (parts : recent bound uses = oldest :: others) (full : (recent bound uses).length = bound) :
    recent bound (uses ++ [value]) = others ++ [value] := by
  have ends := recent_suffix_erase new
  have longer := ends.length_le
  rw [parts] at ends full longer
  obtain ⟨older, whole⟩ := ends
  rw [List.length_cons] at full longer
  apply rtake_eq_of_suffix
  · refine ⟨older ++ [oldest], ?_⟩
    rw [dedup_concat, ← whole, List.append_assoc, List.append_assoc]
    rfl
  · rw [dedup_concat, List.length_append, List.length_append, List.length_singleton]
    omega

end Use

end Foundation
