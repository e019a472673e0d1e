import Mathlib.Data.List.Forall2
import Mathlib.Data.List.Flatten

/-!
# Choices from lists

One element from each list of a list of lists, in lexicographic order of their
positions. The order is the one of nested loops, whichever loop is run first.
-/

namespace Foundation

variable {α β : Type*}

/-- The ways to choose one element from each list, the last list varying fastest. -/
def choices : List (List α) → List (List α)
  | [] => [[]]
  | xs :: rest => xs.flatMap fun x => (choices rest).map (x :: ·)

@[simp] theorem choices_nil : choices ([] : List (List α)) = [[]] := rfl

@[simp] theorem choices_cons (xs : List α) (rest : List (List α)) :
    choices (xs :: rest) = xs.flatMap fun x => (choices rest).map (x :: ·) := rfl

/-- A choice takes its elements from the lists, one from each. -/
theorem mem_choices {lists : List (List α)} {pick : List α} :
    pick ∈ choices lists ↔ List.Forall₂ (· ∈ ·) pick lists := by
  induction lists generalizing pick with
  | nil => simp only [choices_nil, List.mem_singleton, List.forall₂_nil_right_iff]
  | cons xs rest ih =>
      rw [List.forall₂_cons_right_iff, choices_cons, List.mem_flatMap]
      constructor
      · rintro ⟨x, member, below⟩
        obtain ⟨tail, chosen, rfl⟩ := List.mem_map.mp below
        exact ⟨x, tail, member, ih.mp chosen, rfl⟩
      · rintro ⟨x, tail, member, chosen, rfl⟩
        exact ⟨x, member, List.mem_map.mpr ⟨tail, ih.mpr chosen, rfl⟩⟩

/-- A loop inside all the others is the last list. -/
theorem choices_concat (lists : List (List α)) (last : List α) :
    choices (lists ++ [last]) =
      (choices lists).flatMap fun pick => last.map fun x => pick ++ [x] := by
  induction lists with
  | nil => simp only [List.nil_append, choices_cons, choices_nil, List.flatMap_cons,
      List.flatMap_nil, List.append_nil, List.map_eq_flatMap]
  | cons xs rest ih =>
      simp only [List.cons_append, choices_cons, ih, List.flatMap_assoc, List.map_flatMap,
        List.flatMap_map, List.map_map, Function.comp_def]

/-- Choosing commutes with a map of the elements. -/
theorem choices_map (f : α → β) (lists : List (List α)) :
    choices (lists.map (List.map f)) = (choices lists).map (List.map f) := by
  induction lists with
  | nil => rfl
  | cons xs rest ih =>
      simp only [List.map_cons, choices_cons, ih, List.flatMap_map, List.map_flatMap,
        List.map_map, Function.comp_def]

/-- Filtering a loop is skipping its body. -/
theorem flatMap_filter (p : α → Bool) (f : α → List β) (xs : List α) :
    (xs.filter p).flatMap f = xs.flatMap fun x => if p x then f x else [] := by
  induction xs with
  | nil => rfl
  | cons x rest ih =>
      by_cases holds : p x
      · simp only [List.filter_cons_of_pos holds, List.flatMap_cons, ih, if_pos holds]
      · simp only [List.filter_cons_of_neg holds, List.flatMap_cons, ih, if_neg holds,
          List.nil_append]

/-- Choices from ordered lists come in lexicographic order. -/
theorem pairwise_choices {r : α → α → Prop} {lists : List (List α)}
    (ordered : ∀ xs ∈ lists, xs.Pairwise r) : (choices lists).Pairwise (List.Lex r) := by
  induction lists with
  | nil => exact List.pairwise_singleton _ _
  | cons xs rest ih =>
      have below := ih fun ys member => ordered ys (List.mem_cons_of_mem _ member)
      rw [choices_cons, List.pairwise_flatMap]
      refine ⟨fun x _ => ?_, ?_⟩
      · exact below.map _ fun _ _ first => .cons first
      · refine (ordered xs List.mem_cons_self).imp fun {x y} first => ?_
        intro left leftIn right rightIn
        obtain ⟨_, _, rfl⟩ := List.mem_map.mp leftIn
        obtain ⟨_, _, rfl⟩ := List.mem_map.mp rightIn
        exact .rel first

end Foundation
