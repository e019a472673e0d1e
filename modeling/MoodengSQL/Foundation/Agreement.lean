import MoodengSQL.Foundation.Effect

/-!
# Computations against their specifications

A specification is a partial value: it refuses, or given what a computation gives.
A stateful computation that may fail ends as its specification if it fails
where the specification refuses and otherwise ends in a related result and state.
The rules follow the structure of the computation.
-/

namespace Foundation

open Effect

variable {ε σ α β γ δ : Type}

/-- The outcome is a failure where the specification refuses, and otherwise related
to what the specification gives. -/
def EndsAs (outcome : EStateM.Result ε σ α) (spec : Option β) (related : α → σ → β → Prop) :
    Prop :=
  (∀ e s, outcome = .error e s → spec = none) ∧
    ∀ a s, outcome = .ok a s → ∃ b, spec = some b ∧ related a s b

theorem toOption_bind {m : Except ε α} {f : α → Except ε β} :
    (m >>= f).toOption = m.toOption.bind fun a => (f a).toOption := by
  cases m <;> rfl

theorem toOption_eq_some {m : Except ε α} {a : α} : m.toOption = some a ↔ m = .ok a := by
  cases m <;> simp [Except.toOption]

namespace EndsAs

variable {related : α → σ → β → Prop} {related' : γ → σ → δ → Prop} {spec : Option β}
  {m : EStateM ε σ α} {s : σ}

theorem of_ok {a : α} {s' : σ} {b : β} (ran : m s = .ok a s') (given : spec = some b)
    (holds : related a s' b) : EndsAs (m s) spec related := by
  constructor
  · intro e s'' failed
    rw [ran] at failed
    cases failed
  · intro a' s'' ended
    rw [ran] at ended
    cases ended
    exact ⟨b, given, holds⟩

theorem of_error {e : ε} {s' : σ} (ran : m s = .error e s') (refuses : spec = none) :
    EndsAs (m s) spec related := by
  constructor
  · exact fun _ _ _ => refuses
  · intro a s'' ended
    rw [ran] at ended
    cases ended

/-- The specification refuses what never ends well. -/
theorem of_not_ok (never : ∀ a s', m s ≠ .ok a s') : EndsAs (m s) (none : Option β) related :=
  ⟨fun _ _ _ => rfl, fun a s' ran => absurd ran (never a s')⟩

/-- A computation that ends well ends as something the specification gives. -/
theorem ok (ends : EndsAs (m s) spec related) {a : α} {s' : σ} (ran : m s = .ok a s') :
    ∃ b, spec = some b ∧ related a s' b :=
  ends.2 a s' ran

theorem error (ends : EndsAs (m s) spec related) {e : ε} {s' : σ} (ran : m s = .error e s') :
    spec = none :=
  ends.1 e s' ran

theorem ret {a : α} {b : β} (holds : related a s b) :
    EndsAs ((pure a : EStateM ε σ α) s) (some b) related :=
  of_ok rfl rfl holds

theorem fail (e : ε) : EndsAs ((throw e : EStateM ε σ α) s) (none : Option β) related :=
  of_error rfl rfl

/-- A sequence ends as a sequence if both parts do. -/
theorem seq {f : α → EStateM ε σ γ} {g : β → Option δ} (first : EndsAs (m s) spec related)
    (then_ : ∀ a s' b, m s = .ok a s' → spec = some b → related a s' b →
      EndsAs (f a s') (g b) related') :
    EndsAs ((m >>= f) s) (spec.bind g) related' := by
  cases ran : m s with
  | error e s' =>
      rw [first.error ran]
      exact of_error (bind_eq_error.mpr (.inl ran)) rfl
  | ok a s' =>
      obtain ⟨b, given, holds⟩ := first.ok ran
      have rest := then_ a s' b ran given holds
      rw [given]
      constructor
      · intro e s'' failed
        rcases bind_eq_error.mp failed with failed | ⟨a', mid, ended, failed⟩
        · rw [ran] at failed
          cases failed
        · rw [ran] at ended
          cases ended
          exact rest.error failed
      · intro c s'' ended
        obtain ⟨a', mid, ended', last⟩ := bind_eq_ok.mp ended
        rw [ran] at ended'
        cases ended'
        exact rest.ok last

/-- A sequence whose second part is accepted. -/
theorem seqMap {f : α → EStateM ε σ γ} {g : β → δ} (first : EndsAs (m s) spec related)
    (accepts : ∀ a s' b, m s = .ok a s' → spec = some b → related a s' b →
      ∃ c s'', f a s' = .ok c s'' ∧ related' c s'' (g b)) :
    EndsAs ((m >>= f) s) (spec.map g) related' := by
  rw [Option.map_eq_bind]
  refine first.seq fun a s' b ran given holds => ?_
  obtain ⟨c, s'', ended, holds'⟩ := accepts a s' b ran given holds
  exact of_ok ended rfl holds'

/-- What the specification gives may be written in another form. -/
theorem of_map {f : β → δ} {related : α → σ → δ → Prop}
    (ends : EndsAs (m s) spec fun a s' b => related a s' (f b)) :
    EndsAs (m s) (spec.map f) related := by
  constructor
  · intro e s' ran
    rw [ends.1 e s' ran]
    rfl
  · intro a s' ran
    obtain ⟨b, given, holds⟩ := ends.2 a s' ran
    exact ⟨f b, by rw [given]; rfl, holds⟩

/-- A first step that the specification does not have. -/
theorem step {f : α → EStateM ε σ γ} {spec : Option δ} {a : α} {s' : σ}
    (ran : m s = .ok a s') (rest : EndsAs (f a s') spec related') :
    EndsAs ((m >>= f) s) spec related' := by
  have same : (m >>= f) s = f a s' := by
    simp only [bind, EStateM.bind, ran]
  rw [same]
  exact rest

/-- A first step that only reads. -/
theorem read {f : σ → EStateM ε σ γ} {spec : Option δ} (rest : EndsAs (f s s) spec related') :
    EndsAs ((get >>= f) s) spec related' :=
  rest

/-- A step that decides nothing. -/
theorem change {f : σ → σ} {g : PUnit → EStateM ε σ γ} {spec : Option δ}
    (rest : EndsAs (g ⟨⟩ (f s)) spec related') : EndsAs ((modify f >>= g) s) spec related' :=
  rest

theorem mono {weaker : α → σ → β → Prop} (ends : EndsAs (m s) spec related)
    (implies : ∀ a s' b, m s = .ok a s' → spec = some b → related a s' b → weaker a s' b) :
    EndsAs (m s) spec weaker := by
  refine ⟨ends.1, fun a s' ran => ?_⟩
  obtain ⟨b, given, holds⟩ := ends.2 a s' ran
  exact ⟨b, given, implies a s' b ran given holds⟩

/-- The same for a specification written in another way. -/
theorem congr {spec' : Option β} (ends : EndsAs (m s) spec related) (same : spec = spec') :
    EndsAs (m s) spec' related :=
  same ▸ ends

end EndsAs

end Foundation
