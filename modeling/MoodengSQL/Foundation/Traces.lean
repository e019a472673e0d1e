import MoodengSQL.Foundation.Effect

/-!
# Traces

A state that carries the list of events so far. Computations only add events,
and what they may add is a predicate. An event of one kind may need another to
come before it.
-/

namespace Foundation

open Effect

variable {σ ε : Type}

/-- Only events of an allowed kind are added. -/
def Adds (trace : σ → List ε) (allowed : ε → Prop) (s s' : σ) : Prop :=
  ∃ events, trace s' = trace s ++ events ∧ ∀ event ∈ events, allowed event

namespace Adds

variable {trace : σ → List ε} {allowed : ε → Prop}

instance : IsPreorder σ (Adds trace allowed) where
  refl s := ⟨[], (List.append_nil _).symm, fun _ member => nomatch member⟩
  trans := by
    rintro s mid s' ⟨first, same, firstAllowed⟩ ⟨second, same', secondAllowed⟩
    refine ⟨first ++ second, by rw [same', same, List.append_assoc], fun event member => ?_⟩
    rcases List.mem_append.mp member with early | late
    · exact firstAllowed event early
    · exact secondAllowed event late

theorem of_eq {s s' : σ} (same : trace s' = trace s) : Adds trace allowed s s' :=
  ⟨[], by rw [same, List.append_nil], fun _ member => nomatch member⟩

theorem of_append {s s' : σ} {event : ε} (added : trace s' = trace s ++ [event])
    (allow : allowed event) : Adds trace allowed s s' :=
  ⟨[event], added, fun _ member => List.mem_singleton.mp member ▸ allow⟩

variable {s s' : σ} (adds : Adds trace allowed s s')

include adds

/-- What was there stays. -/
theorem mem {event : ε} (member : event ∈ trace s) : event ∈ trace s' := by
  obtain ⟨events, same, -⟩ := adds
  rw [same]
  exact List.mem_append_left _ member

/-- What is there now was there or is of an allowed kind. -/
theorem mem_or {event : ε} (member : event ∈ trace s') : event ∈ trace s ∨ allowed event := by
  obtain ⟨events, same, allow⟩ := adds
  rw [same] at member
  exact (List.mem_append.mp member).imp_right (allow event)

end Adds

/-- Every event of the kind has a cause before it. -/
def Preceded (cause kind : ε → Prop) (events : List ε) : Prop :=
  ∀ before event after, events = before ++ event :: after → kind event →
    ∃ earlier ∈ before, cause earlier

namespace Preceded

variable {cause kind : ε → Prop} {events : List ε}

theorem nil : Preceded cause kind ([] : List ε) := by
  intro before event after split
  cases before <;> cases split

/-- What comes after a cause is preceded by it. -/
theorem append (preceded : Preceded cause kind events) {more : List ε}
    (allow : ∀ event ∈ more, ¬kind event ∨ ∃ earlier ∈ events, cause earlier) :
    Preceded cause kind (events ++ more) := by
  intro before event after split isKind
  rcases List.append_eq_append_iff.mp split with ⟨between, rfl, rest⟩ | ⟨between, same, rest⟩
  · have member : event ∈ more := rest ▸ List.mem_append_right _ (List.mem_cons_self ..)
    obtain notKind | ⟨earlier, early, isCause⟩ := allow event member
    · exact absurd isKind notKind
    · exact ⟨earlier, List.mem_append_left _ early, isCause⟩
  · cases between with
    | nil =>
        rw [List.append_nil] at same
        have member : event ∈ more := by
          rw [List.nil_append] at rest
          exact rest ▸ List.mem_cons_self ..
        obtain notKind | caused := allow event member
        · exact absurd isKind notKind
        · exact same ▸ caused
    | cons first between =>
        simp only [List.cons_append, List.cons.injEq] at rest
        obtain ⟨rfl, -⟩ := rest
        exact preceded before event between same isKind

variable {trace : σ → List ε} {s s' : σ}

/-- Adding no event of the kind keeps the order. -/
theorem adds (preceded : Preceded cause kind (trace s))
    (adds : Adds trace (fun event => ¬kind event) s s') : Preceded cause kind (trace s') := by
  obtain ⟨events, same, allow⟩ := adds
  rw [same]
  exact preceded.append fun event member => .inl (allow event member)

/-- After a cause anything may be added. -/
theorem adds_of_cause (preceded : Preceded cause kind (trace s))
    (caused : ∃ earlier ∈ trace s, cause earlier) {allowed : ε → Prop}
    (adds : Adds trace allowed s s') : Preceded cause kind (trace s') := by
  obtain ⟨events, same, -⟩ := adds
  rw [same]
  exact preceded.append fun event _ => .inr caused

/-- A first part that adds no event of the kind leaves it to the second. -/
theorem seq {δ α β : Type} {m : EStateM δ σ α} {f : α → EStateM δ σ β}
    (preceded : Preceded cause kind (trace s))
    (first : Moves (Adds trace fun event => ¬kind event) m)
    (next : ∀ a mid, m s = .ok a mid → Preceded cause kind (trace mid) →
      Preceded cause kind (trace (finalState (f a) mid))) :
    Preceded cause kind (trace (finalState (m >>= f) s)) := by
  cases outcome : m s with
  | ok a mid =>
      rw [finalState_bind_of_ok outcome]
      exact next a mid outcome (preceded.adds (first.of_ok outcome))
  | error e mid =>
      rw [finalState_bind_of_error outcome]
      exact preceded.adds (first.of_error outcome)

end Preceded

end Foundation
