import Mathlib

/-!
# Stateful computations that may fail

Rules for `EStateM`: what a computation that ended well, or one that failed,
did step by step, and which steps a computation can take whatever its outcome.
-/

namespace Foundation

variable {ε σ α β : Type}

namespace Effect

/-- A sequence ends well exactly when both parts do. -/
theorem bind_eq_ok {m : EStateM ε σ α} {f : α → EStateM ε σ β} {s s' : σ} {b : β} :
    (m >>= f) s = .ok b s' ↔ ∃ a mid, m s = .ok a mid ∧ f a mid = .ok b s' := by
  simp only [bind, EStateM.bind]
  cases m s <;> simp

/-- A sequence fails in its first part or in its second. -/
theorem bind_eq_error {m : EStateM ε σ α} {f : α → EStateM ε σ β} {s s' : σ} {e : ε} :
    (m >>= f) s = .error e s' ↔
      m s = .error e s' ∨ ∃ a mid, m s = .ok a mid ∧ f a mid = .error e s' := by
  simp only [bind, EStateM.bind]
  cases m s <;> simp

theorem pure_eq_ok {a b : α} {s s' : σ} :
    (pure a : EStateM ε σ α) s = .ok b s' ↔ a = b ∧ s = s' := by
  simp [pure, EStateM.pure]

theorem pure_eq_error {a : α} {s s' : σ} {e : ε} :
    (pure a : EStateM ε σ α) s = .error e s' ↔ False := by
  simp [pure, EStateM.pure]

theorem throw_eq_ok {e : ε} {a : α} {s s' : σ} :
    (throw e : EStateM ε σ α) s = .ok a s' ↔ False := by
  simp [throw, throwThe, MonadExceptOf.throw, EStateM.throw]

theorem throw_eq_error {e e' : ε} {s s' : σ} :
    (throw e : EStateM ε σ α) s = .error e' s' ↔ e = e' ∧ s = s' := by
  simp [throw, throwThe, MonadExceptOf.throw, EStateM.throw]

theorem get_eq_ok {a s s' : σ} :
    (get : EStateM ε σ σ) s = .ok a s' ↔ s = a ∧ s = s' := by
  simp [get, getThe, MonadStateOf.get, EStateM.get]

theorem get_eq_error {s s' : σ} {e : ε} :
    (get : EStateM ε σ σ) s = .error e s' ↔ False := by
  simp [get, getThe, MonadStateOf.get, EStateM.get]

theorem modify_eq_ok {f : σ → σ} {s s' : σ} {u : PUnit} :
    (modify f : EStateM ε σ PUnit) s = .ok u s' ↔ s' = f s := by
  simp [modify, modifyGet, MonadStateOf.modifyGet, EStateM.modifyGet, eq_comm]

theorem modify_eq_error {f : σ → σ} {s s' : σ} {e : ε} :
    (modify f : EStateM ε σ PUnit) s = .error e s' ↔ False := by
  simp [modify, modifyGet, MonadStateOf.modifyGet, EStateM.modifyGet]

theorem get_bind (f : σ → EStateM ε σ α) (s : σ) : (get >>= f) s = f s s := rfl

theorem modify_bind (f : σ → σ) (g : PUnit → EStateM ε σ α) (s : σ) :
    (modify f >>= g) s = g ⟨⟩ (f s) := rfl

/-- The same without a state. -/
theorem except_bind_eq_ok {m : Except ε α} {f : α → Except ε β} {b : β} :
    (m >>= f) = .ok b ↔ ∃ a, m = .ok a ∧ f a = .ok b := by
  cases m <;> simp [bind, Except.bind]

/-- A traversal without a state ends well exactly when every step does. -/
theorem except_mapM_eq_ok {f : α → Except ε β} {as : List α} {bs : List β} :
    as.mapM f = .ok bs ↔ List.Forall₂ (fun a b => f a = .ok b) as bs := by
  induction as generalizing bs with
  | nil =>
      simp only [List.mapM_nil, List.forall₂_nil_left_iff, pure, Except.pure, Except.ok.injEq]
      exact eq_comm
  | cons a rest ih =>
      simp only [List.mapM_cons, except_bind_eq_ok, pure, Except.pure, Except.ok.injEq,
        List.forall₂_cons_left_iff, ih]
      constructor
      · rintro ⟨b, first, later, steps, rfl⟩
        exact ⟨b, later, first, steps, rfl⟩
      · rintro ⟨b, later, first, steps, rfl⟩
        exact ⟨b, first, later, steps, rfl⟩

/-- Every value the computation returns has a property. -/
def Returns (property : α → Prop) (m : EStateM ε σ α) : Prop :=
  ∀ ⦃s a s'⦄, m s = .ok a s' → property a

namespace Returns

variable {property : α → Prop}

theorem ret {a : α} (holds : property a) : Returns property (pure a : EStateM ε σ α) := by
  intro s a' s' ran
  obtain ⟨rfl, -⟩ := pure_eq_ok.mp ran
  exact holds

theorem fail (e : ε) : Returns property (throw e : EStateM ε σ α) := fun _ _ _ => nofun

theorem seq {m : EStateM ε σ β} {f : β → EStateM ε σ α} (returns : ∀ b, Returns property (f b)) :
    Returns property (m >>= f) := by
  intro s a s' ran
  obtain ⟨b, mid, -, ended⟩ := bind_eq_ok.mp ran
  exact returns b ended

end Returns

/-- The state a computation ends in, whatever its outcome. -/
def finalState (m : EStateM ε σ α) (s : σ) : σ :=
  match m s with
  | .ok _ s' => s'
  | .error _ s' => s'

theorem finalState_of_ok {m : EStateM ε σ α} {s s' : σ} {a : α} (ran : m s = .ok a s') :
    finalState m s = s' := by
  simp [finalState, ran]

theorem finalState_of_error {m : EStateM ε σ α} {s s' : σ} {e : ε} (ran : m s = .error e s') :
    finalState m s = s' := by
  simp [finalState, ran]

theorem finalState_bind_of_ok {m : EStateM ε σ α} {f : α → EStateM ε σ β} {s mid : σ} {a : α}
    (ran : m s = .ok a mid) : finalState (m >>= f) s = finalState (f a) mid := by
  simp only [finalState, Bind.bind, EStateM.bind, ran]

theorem finalState_bind_of_error {m : EStateM ε σ α} {f : α → EStateM ε σ β} {s mid : σ} {e : ε}
    (ran : m s = .error e mid) : finalState (m >>= f) s = mid := by
  simp only [finalState, Bind.bind, EStateM.bind, ran]

theorem finalState_modify_bind (f : σ → σ) (g : PUnit → EStateM ε σ β) (s : σ) :
    finalState (modify f >>= g) s = finalState (g ⟨⟩) (f s) := rfl

theorem finalState_bind_pure (m : EStateM ε σ α) (f : α → β) (s : σ) :
    finalState (m >>= fun a => pure (f a)) s = finalState m s := by
  simp only [finalState, Bind.bind, EStateM.bind]
  cases m s <;> rfl

theorem finalState_bind_congr {m : EStateM ε σ α} {f : α → EStateM ε σ β} {γ : Type}
    {g : α → EStateM ε σ γ} (same : ∀ a s, finalState (f a) s = finalState (g a) s) (s : σ) :
    finalState (m >>= f) s = finalState (m >>= g) s := by
  cases outcome : m s with
  | ok a mid => rw [finalState_bind_of_ok outcome, finalState_bind_of_ok outcome, same]
  | error e mid => rw [finalState_bind_of_error outcome, finalState_bind_of_error outcome]

/-- The computation fails. -/
def Fails (m : EStateM ε σ α) (s : σ) : Prop := ∃ e s', m s = .error e s'

theorem not_fails {m : EStateM ε σ α} {s : σ} : ¬Fails m s ↔ ∃ a s', m s = .ok a s' := by
  unfold Fails
  cases m s <;> simp

theorem fails_bind {m : EStateM ε σ α} {f : α → EStateM ε σ β} {s : σ} :
    Fails (m >>= f) s ↔ Fails m s ∨ ∃ a mid, m s = .ok a mid ∧ Fails (f a) mid := by
  simp only [Fails, bind_eq_error]
  constructor
  · rintro ⟨e, s', failed | ⟨a, mid, ran, failed⟩⟩
    · exact .inl ⟨e, s', failed⟩
    · exact .inr ⟨a, mid, ran, e, s', failed⟩
  · rintro (⟨e, s', failed⟩ | ⟨a, mid, ran, e, s', failed⟩)
    · exact ⟨e, s', .inl failed⟩
    · exact ⟨e, s', .inr ⟨a, mid, ran, failed⟩⟩

theorem bind_of_ok {m : EStateM ε σ α} {f : α → EStateM ε σ β} {s mid : σ}
    {a : α} (ran : m s = .ok a mid) : (m >>= f) s = f a mid := by
  simp only [Bind.bind, EStateM.bind, ran]

theorem fails_bind_of_ok {m : EStateM ε σ α} {f : α → EStateM ε σ β} {s mid : σ}
    {a : α} (ran : m s = .ok a mid) : Fails (m >>= f) s ↔ Fails (f a) mid := by
  simp only [Fails, Bind.bind, EStateM.bind, ran]

theorem fails_bind_of_error {m : EStateM ε σ α} {f : α → EStateM ε σ β}
    {s mid : σ} {e : ε} (ran : m s = .error e mid) : Fails (m >>= f) s := by
  simp only [Fails, Bind.bind, EStateM.bind, ran]
  exact ⟨e, mid, rfl⟩

theorem fails_modify_bind (f : σ → σ) (g : PUnit → EStateM ε σ β) (s : σ) :
    Fails (modify f >>= g) s ↔ Fails (g ⟨⟩) (f s) := Iff.rfl

theorem not_fails_pure (a : α) (s : σ) : ¬Fails (pure a : EStateM ε σ α) s := nofun

theorem not_fails_modify (f : σ → σ) (s : σ) : ¬Fails (modify f : EStateM ε σ PUnit) s := nofun

/-- From the state, the computation fails in accepted ways only. -/
def FailsOnly (accepted : ε → σ → Prop) (m : EStateM ε σ α) (s : σ) : Prop :=
  ∀ ⦃e s'⦄, m s = .error e s' → accepted e s'

namespace FailsOnly

variable {accepted : ε → σ → Prop}

theorem ret (a : α) (s : σ) : FailsOnly accepted (pure a : EStateM ε σ α) s := fun _ _ => nofun

theorem write (f : σ → σ) (s : σ) : FailsOnly accepted (modify f : EStateM ε σ PUnit) s :=
  fun _ _ => nofun

theorem fail {e : ε} {s : σ} (accept : accepted e s) :
    FailsOnly accepted (throw e : EStateM ε σ α) s := by
  intro e' s' failed
  obtain ⟨rfl, rfl⟩ := throw_eq_error.mp failed
  exact accept

/-- The second part is looked at from where the first has led to. -/
theorem seq {m : EStateM ε σ α} {f : α → EStateM ε σ β} {s : σ} (first : FailsOnly accepted m s)
    (next : ∀ a mid, m s = .ok a mid → FailsOnly accepted (f a) mid) :
    FailsOnly accepted (m >>= f) s := by
  intro e s' failed
  obtain early | ⟨a, mid, ran, late⟩ := bind_eq_error.mp failed
  · exact first early
  · exact next a mid ran late

end FailsOnly

section Loops

variable {ρ : Type} (loop : List ρ → β → EStateM ε σ β) (refused : σ → ρ → Prop)

/-- A loop over rows comes to a row that is refused in the state it finds. -/
def ComesToRefused (rows : List ρ) (b : β) (s : σ) : Prop :=
  ∃ before row after b' mid, rows = before ++ row :: after ∧ loop before b s = .ok b' mid ∧
    refused mid row

variable {loop refused}

/-- **A loop fails exactly when it comes to a row that is refused**, when a
refused row makes it fail and any other row lets it go on. -/
theorem fails_loop (done : ∀ b s, loop [] b s = .ok b s)
    (stops : ∀ row rest b s, refused s row → Fails (loop (row :: rest) b) s)
    (goesOn : ∀ row b s, ¬refused s row →
      ∃ b' mid, ∀ rest, loop (row :: rest) b s = loop rest b' mid)
    (rows : List ρ) (b : β) (s : σ) :
    Fails (loop rows b) s ↔ ComesToRefused loop refused rows b s := by
  induction rows generalizing b s with
  | nil =>
      refine iff_of_false ?_ ?_
      · rintro ⟨e, s', failed⟩
        rw [done] at failed
        cases failed
      · rintro ⟨before, row, after, b', mid, split, -⟩
        cases before <;> cases split
  | cons row rest ih =>
      by_cases stop : refused s row
      · exact iff_of_true (stops row rest b s stop) ⟨[], row, rest, b, s, rfl, done b s, stop⟩
      · obtain ⟨b', mid, next⟩ := goesOn row b s stop
        have later : Fails (loop (row :: rest) b) s ↔ Fails (loop rest b') mid := by
          unfold Fails
          rw [next rest]
        rw [later, ih]
        constructor
        · rintro ⟨before, other, after, b'', mid', rfl, ran, here⟩
          exact ⟨row :: before, other, after, b'', mid', rfl, (next before).trans ran, here⟩
        · rintro ⟨before, other, after, b'', mid', split, ran, here⟩
          cases before with
          | nil =>
              cases split
              rw [done] at ran
              cases ran
              exact absurd here stop
          | cons first before =>
              cases split
              exact ⟨before, other, after, b'', mid', rfl, (next before).symm.trans ran, here⟩

end Loops

end Effect

open Effect

/-- Whatever its outcome, the computation goes from a state to a related one. -/
def Moves (rel : σ → σ → Prop) (m : EStateM ε σ α) : Prop := ∀ s, rel s (finalState m s)

namespace Moves

variable {rel : σ → σ → Prop}

theorem of_ok {m : EStateM ε σ α} {s s' : σ} {a : α} (moves : Moves rel m)
    (ran : m s = .ok a s') : rel s s' := finalState_of_ok ran ▸ moves s

theorem of_error {m : EStateM ε σ α} {s s' : σ} {e : ε} (moves : Moves rel m)
    (ran : m s = .error e s') : rel s s' := finalState_of_error ran ▸ moves s

theorem write {f : σ → σ} (moves : ∀ s, rel s (f s)) :
    Moves rel (modify f : EStateM ε σ PUnit) := moves

variable [IsPreorder σ rel]

theorem ret (a : α) : Moves rel (pure a : EStateM ε σ α) := fun s => refl_of rel s

theorem fail (e : ε) : Moves rel (throw e : EStateM ε σ α) := fun s => refl_of rel s

theorem read : Moves rel (get : EStateM ε σ σ) := fun s => refl_of rel s

/-- The second part needs to move only from the values the first returns. -/
theorem seq_returns {property : α → Prop} {m : EStateM ε σ α} {f : α → EStateM ε σ β}
    (first : Moves rel m) (returns : Returns property m)
    (next : ∀ a, property a → Moves rel (f a)) : Moves rel (m >>= f) := by
  intro s
  cases outcome : m s with
  | ok a mid =>
      rw [finalState_bind_of_ok outcome]
      exact trans_of rel (first.of_ok outcome) (next a (returns outcome) mid)
  | error e mid =>
      rw [finalState_bind_of_error outcome]
      exact first.of_error outcome

theorem seq {m : EStateM ε σ α} {f : α → EStateM ε σ β} (first : Moves rel m)
    (next : ∀ a, Moves rel (f a)) : Moves rel (m >>= f) :=
  have any : Returns (fun _ => True) m := fun _ _ _ _ => trivial
  first.seq_returns any fun a _ => next a

end Moves

end Foundation
