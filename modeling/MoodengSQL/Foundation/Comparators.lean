import Mathlib

/-!
# Comparators

A sort needs a comparator that is a total preorder on the elements it sorts. One that
is oriented is transitive exactly if no three elements go round in a circle, and a
lexicographic one has a circle where its first part has one that the second does not
break, or where the first part ties and the second has one.
-/

namespace Foundation

variable {α : Type} {cmp : α → α → Ordering} {elements : List α} {p q r : α}

/-- Comparing in the other direction gives the other outcome. -/
def OrientedOn (cmp : α → α → Ordering) (elements : List α) : Prop :=
  ∀ a ∈ elements, ∀ b ∈ elements, cmp b a = (cmp a b).swap

/-- What is not greater than an element that is not greater than another is not greater
than the other. -/
def TransitiveOn (cmp : α → α → Ordering) (elements : List α) : Prop :=
  ∀ a ∈ elements, ∀ b ∈ elements, ∀ c ∈ elements,
    cmp a b ≠ .gt → cmp b c ≠ .gt → cmp a c ≠ .gt

/-- Three elements go round in a circle: each is at most the next, and they are not all
equal. -/
structure Cycle (cmp : α → α → Ordering) (p q r : α) : Prop where
  first : cmp p q ≠ .gt
  second : cmp q r ≠ .gt
  third : cmp r p ≠ .gt
  strict : ¬(cmp p q = .eq ∧ cmp q r = .eq ∧ cmp r p = .eq)

theorem Cycle.rotate (cycle : Cycle cmp p q r) : Cycle cmp q r p :=
  ⟨cycle.second, cycle.third, cycle.first,
    fun ⟨second, third, first⟩ => cycle.strict ⟨first, second, third⟩⟩

/-- A circle of the reversed comparator runs backwards. -/
theorem Cycle.of_swap (oriented : OrientedOn cmp [p, q, r])
    (cycle : Cycle (fun a b => (cmp a b).swap) p q r) : Cycle cmp r q p := by
  have swap : ∀ a ∈ [p, q, r], ∀ b ∈ [p, q, r], (cmp a b).swap = cmp b a :=
    fun a inside b inside' => (oriented a inside b inside').symm
  obtain ⟨first, second, third, strict⟩ := cycle
  rw [swap p (by simp) q (by simp)] at first strict
  rw [swap q (by simp) r (by simp)] at second strict
  rw [swap r (by simp) p (by simp)] at third strict
  exact ⟨second, first, third, fun ⟨second, first, third⟩ => strict ⟨first, second, third⟩⟩

namespace OrientedOn

theorem self (oriented : OrientedOn cmp elements) (inside : p ∈ elements) : cmp p p = .eq := by
  have same := oriented p inside p inside
  cases outcome : cmp p p with
  | eq => rfl
  | lt | gt =>
      rw [outcome] at same
      cases same

theorem eq_symm (oriented : OrientedOn cmp elements) (inside : p ∈ elements)
    (inside' : q ∈ elements) (same : cmp p q = .eq) : cmp q p = .eq := by
  rw [oriented p inside q inside', same]
  rfl

/-- Three elements that tie in a row all tie. -/
theorem all_eq (oriented : OrientedOn cmp [p, q, r]) (first : cmp p q = .eq)
    (second : cmp q r = .eq) (third : cmp r p = .eq) :
    ∀ a ∈ [p, q, r], ∀ b ∈ [p, q, r], cmp a b = .eq := by
  have self : ∀ a ∈ [p, q, r], cmp a a = .eq := fun a inside => oriented.self inside
  have back : ∀ a ∈ [p, q, r], ∀ b ∈ [p, q, r], cmp a b = .eq → cmp b a = .eq :=
    fun a inside b inside' => oriented.eq_symm inside inside'
  simp only [List.mem_cons, List.not_mem_nil, or_false, forall_eq_or_imp, forall_eq] at self back ⊢
  refine ⟨⟨self.1, first, back.2.2.1 third⟩, ⟨back.1.2.1 first, self.2.1, second⟩, third, ?_, self.2.2⟩
  exact back.2.1.2.2 second

/-- **An oriented comparator is transitive exactly if it has no circle.** -/
theorem transitiveOn_iff (oriented : OrientedOn cmp elements) :
    TransitiveOn cmp elements ↔
      ∀ p ∈ elements, ∀ q ∈ elements, ∀ r ∈ elements, ¬Cycle cmp p q r := by
  -- what is at most an element that is at most it is equal to it
  have antisymm : ∀ a ∈ elements, ∀ b ∈ elements, cmp a b ≠ .gt → cmp b a ≠ .gt →
      cmp a b = .eq := by
    intro a inside b inside' le ge
    rw [oriented a inside b inside'] at ge
    cases outcome : cmp a b with
    | lt =>
        rw [outcome] at ge
        exact absurd rfl ge
    | eq => rfl
    | gt => exact absurd outcome le
  constructor
  · intro transitive p inP q inQ r inR cycle
    apply cycle.strict
    refine ⟨antisymm p inP q inQ cycle.first ?_, antisymm q inQ r inR cycle.second ?_,
      antisymm r inR p inP cycle.third ?_⟩
    · exact transitive q inQ r inR p inP cycle.second cycle.third
    · exact transitive r inR p inP q inQ cycle.third cycle.first
    · exact transitive p inP q inQ r inR cycle.first cycle.second
  · intro none a inA b inB c inC first second greater
    have back : cmp c a = .lt := by
      rw [oriented a inA c inC, greater]
      rfl
    refine none a inA b inB c inC ⟨first, second, by rw [back]; simp, fun ties => ?_⟩
    rw [back] at ties
    cases ties.2.2

end OrientedOn

/-- **Sorting by a total preorder** gives a permutation in which no element is greater
than a later one. -/
theorem insertionSort_pairwise (oriented : OrientedOn cmp elements)
    (transitive : TransitiveOn cmp elements) :
    (elements.insertionSort fun a b => cmp a b ≠ .gt).Pairwise fun a b => cmp a b ≠ .gt := by
  let le : {a // a ∈ elements} → {a // a ∈ elements} → Prop := fun a b => cmp a.1 b.1 ≠ .gt
  have total : Std.Total le := ⟨fun a b => by
    by_cases greater : cmp a.1 b.1 = .gt
    · right
      change cmp b.1 a.1 ≠ .gt
      rw [oriented a.1 a.2 b.1 b.2, greater]
      simp
    · exact .inl greater⟩
  have trans : IsTrans _ le := ⟨fun a b c => transitive a.1 a.2 b.1 b.2 c.1 c.2⟩
  have sorted := List.pairwise_insertionSort le elements.attach
  have mapped := List.map_insertionSort le (fun a b => cmp a b ≠ .gt) Subtype.val elements.attach
    fun a _ b _ => Iff.rfl
  rw [List.attach_map_subtype_val] at mapped
  rw [← mapped, List.pairwise_map]
  exact sorted

section Lexicographic

variable {first second : α → α → Ordering}

/-- The second comparator decides where the first ties. -/
def lexicographic (first second : α → α → Ordering) (a b : α) : Ordering :=
  (first a b).then (second a b)

theorem lexicographic_ne_gt : lexicographic first second p q ≠ .gt ↔
    first p q ≠ .gt ∧ (first p q = .eq → second p q ≠ .gt) := by
  unfold lexicographic
  cases first p q <;> simp

theorem OrientedOn.lexicographic (oriented : OrientedOn first elements)
    (oriented' : OrientedOn second elements) :
    OrientedOn (lexicographic first second) elements := by
  intro a inside b inside'
  rw [Foundation.lexicographic, Foundation.lexicographic, oriented a inside b inside',
    oriented' a inside b inside', Ordering.swap_then]

/-- **Where a lexicographic comparator has a circle**: where the first has one and the
second does not break its ties, or where the first ties and the second has one. -/
theorem cycle_lexicographic_iff : Cycle (lexicographic first second) p q r ↔
    (Cycle first p q r ∧ (first p q = .eq → second p q ≠ .gt) ∧
      (first q r = .eq → second q r ≠ .gt) ∧ (first r p = .eq → second r p ≠ .gt)) ∨
    (first p q = .eq ∧ first q r = .eq ∧ first r p = .eq ∧ Cycle second p q r) := by
  have tie : ∀ a b, lexicographic first second a b = .eq ↔
      first a b = .eq ∧ second a b = .eq := fun a b => Ordering.then_eq_eq
  constructor
  · rintro ⟨pq, qr, rp, strict⟩
    rw [lexicographic_ne_gt] at pq qr rp
    rw [tie, tie, tie] at strict
    by_cases ties : first p q = .eq ∧ first q r = .eq ∧ first r p = .eq
    · obtain ⟨tie₁, tie₂, tie₃⟩ := ties
      refine .inr ⟨tie₁, tie₂, tie₃, pq.2 tie₁, qr.2 tie₂, rp.2 tie₃, fun equal => strict ?_⟩
      exact ⟨⟨tie₁, equal.1⟩, ⟨tie₂, equal.2.1⟩, tie₃, equal.2.2⟩
    · exact .inl ⟨⟨pq.1, qr.1, rp.1, ties⟩, pq.2, qr.2, rp.2⟩
  · rintro (⟨⟨pq, qr, rp, strict⟩, later⟩ | ⟨tie₁, tie₂, tie₃, cycle⟩)
    · refine ⟨lexicographic_ne_gt.mpr ⟨pq, later.1⟩, lexicographic_ne_gt.mpr ⟨qr, later.2.1⟩,
        lexicographic_ne_gt.mpr ⟨rp, later.2.2⟩, fun equal => strict ?_⟩
      rw [tie, tie, tie] at equal
      exact ⟨equal.1.1, equal.2.1.1, equal.2.2.1⟩
    · refine ⟨lexicographic_ne_gt.mpr ⟨by rw [tie₁]; simp, fun _ => cycle.first⟩,
        lexicographic_ne_gt.mpr ⟨by rw [tie₂]; simp, fun _ => cycle.second⟩,
        lexicographic_ne_gt.mpr ⟨by rw [tie₃]; simp, fun _ => cycle.third⟩, fun equal => ?_⟩
      rw [tie, tie, tie] at equal
      exact cycle.strict ⟨equal.1.2, equal.2.1.2, equal.2.2.2⟩

end Lexicographic

end Foundation
