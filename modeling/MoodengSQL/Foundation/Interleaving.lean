import Mathlib.Data.Finset.Card
import Mathlib.Logic.Function.Basic

/-!
# Interleavings

Threads over a shared state. A turn of one thread may change the shared state
and what the thread holds, and may add events to a common history; a schedule
names the threads that take their turns, in order. A thread that has nothing to
do, or that has to wait, leaves everything as it is. Runs are reasoned about
with one invariant of the shared state and one assertion for each thread, which
the turns of the other threads must not break.
-/

variable {ι σ τ ε : Type}

namespace Interleaving

/-- What the threads share, what each of them holds, and the events so far. -/
structure Configuration (ι σ τ ε : Type) where
  shared : σ
  threads : ι → τ
  history : List (ι × ε)

/-- What a turn leaves, with the events it adds. -/
structure Turn (σ τ ε : Type) where
  shared : σ
  thread : τ
  events : List ε

/-- A turn in which nothing happens. -/
def Turn.wait (shared : σ) (thread : τ) : Turn σ τ ε := { shared, thread, events := [] }

section Runs

variable [DecidableEq ι] (step : σ → τ → Turn σ τ ε)

/-- The turn of one thread. -/
def advance (config : Configuration ι σ τ ε) (thread : ι) : Configuration ι σ τ ε :=
  let turn := step config.shared (config.threads thread)
  { shared := turn.shared
    threads := Function.update config.threads thread turn.thread
    history := config.history ++ turn.events.map fun event => (thread, event) }

/-- The turns of a schedule. -/
def run (config : Configuration ι σ τ ε) (schedule : List ι) : Configuration ι σ τ ε :=
  schedule.foldl (advance step) config

theorem run_append (config : Configuration ι σ τ ε) (first second : List ι) :
    run step config (first ++ second) = run step (run step config first) second :=
  List.foldl_append

/-- What every turn keeps, a run keeps. -/
theorem run_invariant (inv : Configuration ι σ τ ε → Prop) {config : Configuration ι σ τ ε}
    (kept : ∀ config thread, inv config → inv (advance step config thread))
    (initially : inv config) (schedule : List ι) : inv (run step config schedule) := by
  induction schedule generalizing config with
  | nil => exact initially
  | cons thread rest ih => exact ih (kept config thread initially)

/-- A thread that is left alone comes to the end of its work, and what its turns
keep is the same there. -/
theorem run_alone {β γ : Type} [LT γ] [WellFoundedLT γ] (busy : τ → Prop) (size : τ → γ)
    (observe : σ → τ → β)
    (shrinks : ∀ shared thread, busy thread → size (step shared thread).thread < size thread)
    (keeps : ∀ shared thread, busy thread →
      observe (step shared thread).shared (step shared thread).thread = observe shared thread)
    (i : ι) (config : Configuration ι σ τ ε) :
    ∃ turns, let finish := run step config (List.replicate turns i)
      ¬busy (finish.threads i) ∧
        observe finish.shared (finish.threads i) = observe config.shared (config.threads i) := by
  generalize bound : size (config.threads i) = n
  induction n using WellFoundedLT.induction generalizing config with
  | ind n ih =>
      by_cases work : busy (config.threads i)
      · have own : (advance step config i).threads i =
            (step config.shared (config.threads i)).thread := Function.update_self _ _ _
        have smaller : size ((advance step config i).threads i) < n := by
          rw [own, ← bound]
          exact shrinks _ _ work
        obtain ⟨turns, idle, same⟩ := ih _ smaller _ rfl
        refine ⟨turns + 1, idle, same.trans ?_⟩
        rw [own]
        exact keeps _ _ work
      · exact ⟨0, work, rfl⟩

/-- Every turn of a schedule meets a condition on the state it is taken in. -/
def Meets (condition : σ → τ → Prop) (config : Configuration ι σ τ ε) : List ι → Prop
  | [] => True
  | thread :: rest =>
      condition config.shared (config.threads thread) ∧
        Meets condition (advance step config thread) rest

theorem Meets.mono {condition weaker : σ → τ → Prop}
    (implies : ∀ shared thread, condition shared thread → weaker shared thread)
    {config : Configuration ι σ τ ε} {schedule : List ι}
    (meets : Meets step condition config schedule) :
    Meets step weaker config schedule := by
  induction schedule generalizing config with
  | nil => trivial
  | cons thread rest ih => exact ⟨implies _ _ meets.1, ih meets.2⟩

/-- Conditions that can be decided can be decided along a schedule. -/
def Meets.decidable (condition : σ → τ → Prop)
    [∀ shared thread, Decidable (condition shared thread)] (config : Configuration ι σ τ ε) :
    (schedule : List ι) → Decidable (Meets step condition config schedule)
  | [] => isTrue trivial
  | thread :: rest =>
      have := Meets.decidable condition (advance step config thread) rest
      inferInstanceAs (Decidable (condition config.shared (config.threads thread) ∧
        Meets step condition (advance step config thread) rest))

instance (condition : σ → τ → Prop) [∀ shared thread, Decidable (condition shared thread)]
    (config : Configuration ι σ τ ε) (schedule : List ι) :
    Decidable (Meets step condition config schedule) :=
  Meets.decidable step condition config schedule

theorem meets_always (config : Configuration ι σ τ ε) (schedule : List ι) :
    Meets step (fun _ _ => True) config schedule := by
  induction schedule generalizing config with
  | nil => trivial
  | cons thread rest ih => exact ⟨trivial, ih _⟩

/-- Every turn of a schedule meets a condition on the configuration it is taken in. -/
def Along (condition : Configuration ι σ τ ε → ι → Prop) (config : Configuration ι σ τ ε) :
    List ι → Prop
  | [] => True
  | thread :: rest => condition config thread ∧ Along condition (advance step config thread) rest

/-- What the turns that meet a condition keep, a run of such turns keeps. -/
theorem Along.run_invariant {condition : Configuration ι σ τ ε → ι → Prop}
    (inv : Configuration ι σ τ ε → Prop) {config : Configuration ι σ τ ε} {schedule : List ι}
    (kept : ∀ config thread, condition config thread → inv config →
      inv (advance step config thread))
    (initially : inv config) (along : Along step condition config schedule) :
    inv (run step config schedule) := by
  induction schedule generalizing config with
  | nil => exact initially
  | cons thread rest ih => exact ih (kept config thread along.1 initially) along.2

/-- Two conditions along a schedule that together imply a third. -/
theorem Along.imp₂ {condition other both : Configuration ι σ τ ε → ι → Prop}
    (implies : ∀ config thread, condition config thread → other config thread →
      both config thread) {config : Configuration ι σ τ ε} {schedule : List ι}
    (first : Along step condition config schedule) (second : Along step other config schedule) :
    Along step both config schedule := by
  induction schedule generalizing config with
  | nil => trivial
  | cons thread rest ih => exact ⟨implies _ _ first.1 second.1, ih first.2 second.2⟩

/-- Conditions on configurations that can be decided can be decided along a schedule. -/
def Along.decidable (condition : Configuration ι σ τ ε → ι → Prop)
    [∀ config thread, Decidable (condition config thread)] (config : Configuration ι σ τ ε) :
    (schedule : List ι) → Decidable (Along step condition config schedule)
  | [] => isTrue trivial
  | thread :: rest =>
      have := Along.decidable condition (advance step config thread) rest
      inferInstanceAs (Decidable (condition config thread ∧
        Along step condition (advance step config thread) rest))

instance (condition : Configuration ι σ τ ε → ι → Prop)
    [∀ config thread, Decidable (condition config thread)] (config : Configuration ι σ τ ε)
    (schedule : List ι) : Decidable (Along step condition config schedule) :=
  Along.decidable step condition config schedule

/-- An invariant of the shared state and the history, with an assertion for
each thread, for turns that meet a condition. A turn may rely on the assertion
of the thread whose turn it is, has to restore it, and must not interfere with
those of the others. -/
structure Guarded (condition : σ → τ → Prop) (inv : List (ι × ε) → σ → Prop)
    (assertion : ι → List (ι × ε) → σ → τ → Prop) : Prop where
  shared : ∀ history shared i thread, condition shared thread → inv history shared →
    assertion i history shared thread →
    inv (history ++ (step shared thread).events.map fun event => (i, event))
      (step shared thread).shared
  own : ∀ history shared i thread, condition shared thread → inv history shared →
    assertion i history shared thread →
    assertion i (history ++ (step shared thread).events.map fun event => (i, event))
      (step shared thread).shared (step shared thread).thread
  others : ∀ history shared i thread j other, j ≠ i → condition shared thread →
    inv history shared → assertion i history shared thread → assertion j history shared other →
    assertion j (history ++ (step shared thread).events.map fun event => (i, event))
      (step shared thread).shared other

/-- A configuration in which the invariant and all assertions hold. -/
def HoldsWith (inv : List (ι × ε) → σ → Prop) (assertion : ι → List (ι × ε) → σ → τ → Prop)
    (config : Configuration ι σ τ ε) : Prop :=
  inv config.history config.shared ∧
    ∀ i, assertion i config.history config.shared (config.threads i)

variable {step} {condition : σ → τ → Prop} {inv : List (ι × ε) → σ → Prop}
  {assertion : ι → List (ι × ε) → σ → τ → Prop}

theorem Guarded.advance (guarded : Guarded step condition inv assertion)
    {config : Configuration ι σ τ ε} (holds : HoldsWith inv assertion config) {thread : ι}
    (met : condition config.shared (config.threads thread)) :
    HoldsWith inv assertion (advance step config thread) := by
  obtain ⟨invariant, assertions⟩ := holds
  refine ⟨guarded.shared _ _ _ _ met invariant (assertions thread), fun other => ?_⟩
  dsimp only [Interleaving.advance]
  by_cases same : other = thread
  · subst same
    rw [Function.update_self]
    exact guarded.own _ _ _ _ met invariant (assertions other)
  · rw [Function.update_of_ne same]
    exact guarded.others _ _ _ _ _ _ same met invariant (assertions thread) (assertions other)

/-- Assertions that do not interfere hold along every schedule whose turns meet
the condition. -/
theorem Guarded.run (guarded : Guarded step condition inv assertion)
    {config : Configuration ι σ τ ε} (holds : HoldsWith inv assertion config) {schedule : List ι}
    (meets : Meets step condition config schedule) :
    HoldsWith inv assertion (run step config schedule) := by
  induction schedule generalizing config with
  | nil => exact holds
  | cons thread rest ih =>
      obtain ⟨met, later⟩ := meets
      exact ih (guarded.advance holds met) later

end Runs

section Histories

/-- Every event of a history is accounted for by the history before it. -/
def Justified (reason : List (ι × ε) → ι → ε → Prop) (history : List (ι × ε)) : Prop :=
  ∀ before i event after, history = before ++ (i, event) :: after → reason before i event

theorem justified_nil (reason : List (ι × ε) → ι → ε → Prop) : Justified reason [] := by
  intro before i event after split
  exact absurd split.symm (List.append_ne_nil_of_right_ne_nil _ (List.cons_ne_nil _ _))

theorem Justified.concat {reason : List (ι × ε) → ι → ε → Prop} {history : List (ι × ε)}
    (justified : Justified reason history) {i : ι} {event : ε} (last : reason history i event) :
    Justified reason (history ++ [(i, event)]) := by
  intro before j other after split
  rcases List.eq_nil_or_concat after with rfl | ⟨init, final, rfl⟩
  · obtain ⟨rfl, same⟩ := List.append_inj' split rfl
    cases same
    exact last
  · rw [List.concat_eq_append, ← List.cons_append, ← List.append_assoc] at split
    obtain ⟨earlier, -⟩ := List.append_inj' split rfl
    exact justified before j other init earlier

end Histories

section Counting

/-- Exactly `count` threads are in a state of a kind. -/
def Counted (kind : τ → Prop) (threads : ι → τ) (count : Nat) : Prop :=
  ∃ members : Finset ι, members.card = count ∧ ∀ i, i ∈ members ↔ kind (threads i)

variable {kind : τ → Prop} {threads : ι → τ} {count : Nat} {i : ι} {thread : τ}

/-- With no thread counted, no thread is in a state of the kind. -/
theorem Counted.none (counted : Counted kind threads 0) (i : ι) : ¬kind (threads i) := by
  obtain ⟨members, size, belongs⟩ := counted
  rw [Finset.card_eq_zero] at size
  subst size
  exact fun inside => absurd ((belongs i).mpr inside) (Finset.notMem_empty i)

theorem Counted.pos (counted : Counted kind threads count) (inside : kind (threads i)) :
    0 < count := by
  obtain ⟨members, rfl, belongs⟩ := counted
  exact Finset.card_pos.mpr ⟨i, (belongs i).mpr inside⟩

/-- There is one count. -/
theorem Counted.unique {count' : Nat} (counted : Counted kind threads count)
    (other : Counted kind threads count') : count = count' := by
  obtain ⟨members, rfl, belongs⟩ := counted
  obtain ⟨members', rfl, belongs'⟩ := other
  have same : members = members' := Finset.ext fun i => (belongs i).trans (belongs' i).symm
  rw [same]

/-- A count above zero has a thread to show for it. -/
theorem Counted.exists_of_pos (counted : Counted kind threads count) (some : 0 < count) :
    ∃ i, kind (threads i) := by
  obtain ⟨members, rfl, belongs⟩ := counted
  obtain ⟨i, member⟩ := Finset.card_pos.mp some
  exact ⟨i, (belongs i).mp member⟩

variable [DecidableEq ι]

theorem Counted.same (counted : Counted kind threads count)
    (unchanged : kind thread ↔ kind (threads i)) :
    Counted kind (Function.update threads i thread) count := by
  obtain ⟨members, size, belongs⟩ := counted
  refine ⟨members, size, fun j => ?_⟩
  rw [belongs j]
  by_cases same : j = i
  · subst same
    rw [Function.update_self, unchanged]
  · rw [Function.update_of_ne same]

theorem Counted.enter (counted : Counted kind threads count) (outside : ¬kind (threads i))
    (inside : kind thread) : Counted kind (Function.update threads i thread) (count + 1) := by
  obtain ⟨members, size, belongs⟩ := counted
  refine ⟨insert i members, ?_, fun j => ?_⟩
  · rw [Finset.card_insert_of_notMem fun member => outside ((belongs i).mp member), size]
  · rw [Finset.mem_insert, belongs j]
    by_cases same : j = i
    · subst same
      simp [inside]
    · rw [Function.update_of_ne same]
      exact or_iff_right same

theorem Counted.leave (counted : Counted kind threads count) (inside : kind (threads i))
    (outside : ¬kind thread) : Counted kind (Function.update threads i thread) (count - 1) := by
  obtain ⟨members, size, belongs⟩ := counted
  refine ⟨members.erase i, ?_, fun j => ?_⟩
  · rw [Finset.card_erase_of_mem ((belongs i).mpr inside), size]
  · rw [Finset.mem_erase, belongs j]
    by_cases same : j = i
    · subst same
      simp [outside]
    · rw [Function.update_of_ne same]
      exact and_iff_right same

/-- A thread stays in or out of a kind, comes into it, or goes out of it, and a
count goes with it. -/
inductive Crosses (before after : Prop) (count count' : Nat) : Prop
  | stays (unchanged : after ↔ before) (same : count' = count)
  | enters (outside : ¬before) (inside : after) (more : count' = count + 1)
  | leaves (inside : before) (outside : ¬after) (fewer : count' = count - 1)

/-- A count that goes with the threads stays right. -/
theorem Counted.crosses {count' : Nat} (counted : Counted kind threads count)
    (crosses : Crosses (kind (threads i)) (kind thread) count count') :
    Counted kind (Function.update threads i thread) count' := by
  cases crosses with
  | stays unchanged same => exact same ▸ counted.same unchanged
  | enters outside inside more => exact more ▸ counted.enter outside inside
  | leaves inside outside fewer => exact fewer ▸ counted.leave inside outside

end Counting

end Interleaving
