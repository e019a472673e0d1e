import MoodengSQL.Foundation.CellLog

/-!
# Ledgers of transactions

What transactions have done to a map of cells, as a checkpointing redo log sees
it: the changes the cells consist of, the ones the last checkpoint saved, and
the ones logged since. One transaction runs at a time. The ledger says which
changes a crash can bring back, and when these are exactly the committed ones.
-/

namespace Foundation

/-- A change of a cell together with its transaction. -/
abbrev Change (K V : Type) := Nat × CellOp K V

/-- What transactions have done so far. -/
structure Ledger (K V : Type) where
  /-- The changes the cells consist of now. -/
  live : List (Change K V)
  /-- The changes the last checkpoint saved. -/
  saved : List (Change K V)
  /-- The changes logged since. -/
  logged : List (Change K V)
  /-- The transactions that have committed. -/
  committed : List Nat
  /-- The transaction that is running. -/
  running : Option Nat
  /-- The transaction in which the last checkpoint was taken. -/
  within : Option Nat
  /-- Cells were cleared since, with committed changes of them still in the log. -/
  stale : Bool

/-- The cells a list of changes leads to. -/
def cells {K V : Type} [DecidableEq K] (changes : List (Change K V)) : K → Option V :=
  replayOps (changes.map Prod.snd) fun _ => none

section Cells

variable {K V : Type} [DecidableEq K]

theorem cells_append (first second : List (Change K V)) :
    cells (first ++ second) = replayOps (second.map Prod.snd) (cells first) := by
  rw [cells, List.map_append, replayOps_append]
  rfl

theorem cells_clear (part : K → Bool) (changes : List (Change K V)) :
    cells (changes.filter fun change => !part change.2.key) =
      fun key => if part key then none else cells changes key := by
  have mapped : (changes.filter fun change => !part change.2.key).map Prod.snd =
      (changes.map Prod.snd).filter fun op => !part op.key := by
    rw [List.filter_map]
    rfl
  rw [cells, mapped, replayOps_filter]
  rfl

end Cells

namespace Ledger

variable {K V : Type}

/-- No transaction has run. -/
def empty : Ledger K V :=
  { live := [], saved := [], logged := [], committed := [], running := none, within := none,
    stale := false }

/-- The changes among these that committed transactions made. -/
def done (l : Ledger K V) (changes : List (Change K V)) : List (Change K V) :=
  changes.filter fun change => change.1 ∈ l.committed

/-- The cells with the running transaction left out. -/
def settled [DecidableEq K] (l : Ledger K V) : K → Option V := cells (l.done l.live)

/-- A transaction starts. -/
def begin (l : Ledger K V) (txn : Nat) : Ledger K V := { l with running := some txn }

/-- A transaction changes a cell. -/
def change (l : Ledger K V) (txn : Nat) (op : CellOp K V) : Ledger K V :=
  { l with live := l.live ++ [(txn, op)], logged := l.logged ++ [(txn, op)] }

/-- A transaction commits. -/
def commit (l : Ledger K V) (txn : Nat) : Ledger K V :=
  { l with committed := txn :: l.committed, running := none }

/-- A transaction is undone. -/
def abort (l : Ledger K V) (txn : Nat) : Ledger K V :=
  { l with live := l.live.filter (·.1 ≠ txn), running := none }

/-- Everything is saved and the log starts anew. -/
def checkpoint (l : Ledger K V) : Ledger K V :=
  { l with saved := l.live, logged := [], within := l.running, stale := false }

/-- A part of the map is cleared, now and in what was saved, but not in the log. -/
def clear (l : Ledger K V) (part : K → Bool) : Ledger K V :=
  { l with
    live := l.live.filter fun change => !part change.2.key
    saved := l.saved.filter fun change => !part change.2.key
    stale := l.stale || (l.done l.logged).any fun change => part change.2.key }

/-- A change that has not been undone. -/
def counts (l : Ledger K V) (change : Change K V) : Bool :=
  change.1 ∈ l.committed ∨ l.running = some change.1

/-- What holds of a ledger over every sequence of operations. -/
structure Sound (l : Ledger K V) : Prop where
  owned : ∀ change ∈ l.live, l.counts change = true
  savedOwned : ∀ change ∈ l.saved, change.1 ∈ l.committed ∨ l.within = some change.1
  undecided : ∀ txn, l.running = some txn → txn ∉ l.committed
  traced : l.stale = false → l.live = (l.saved ++ l.logged).filter l.counts

section Operations

variable {l : Ledger K V} {txn : Nat}

theorem sound_empty : (empty : Ledger K V).Sound := by
  refine ⟨?_, ?_, ?_, ?_⟩ <;> simp [empty]

theorem Sound.begin (sound : l.Sound) (idle : l.running = none) (unused : txn ∉ l.committed)
    (fresh : ∀ change ∈ l.saved ++ l.logged, change.1 ≠ txn) : (l.begin txn).Sound := by
  refine ⟨fun change member => ?_, sound.savedOwned, ?_, fun current => ?_⟩
  · have owned := sound.owned change member
    simp only [counts, idle, reduceCtorEq, or_false, decide_eq_true_eq] at owned
    simp [counts, Ledger.begin, owned]
  · rintro other running
    cases running
    exact unused
  · refine (sound.traced current).trans (List.filter_congr fun change member => ?_)
    have differ : txn ≠ change.1 := (fresh change member).symm
    simp [counts, Ledger.begin, idle, differ]

theorem Sound.change (sound : l.Sound) (running : l.running = some txn) (op : CellOp K V) :
    (l.change txn op).Sound := by
  have own : l.counts (txn, op) = true := by simp [counts, running]
  refine ⟨fun change member => ?_, sound.savedOwned, sound.undecided, fun current => ?_⟩
  · rcases List.mem_append.mp member with before | last
    · exact sound.owned change before
    · rw [List.mem_singleton.mp last]
      exact own
  · change l.live ++ [(txn, op)] = (l.saved ++ (l.logged ++ [(txn, op)])).filter l.counts
    rw [← List.append_assoc, List.filter_append, ← sound.traced current,
      List.filter_cons_of_pos own, List.filter_nil]

theorem Sound.commit (sound : l.Sound) (running : l.running = some txn) : (l.commit txn).Sound := by
  have same : (l.commit txn).counts = l.counts := by
    funext change
    simp only [counts, Ledger.commit, running, List.mem_cons, reduceCtorEq, or_false,
      Option.some.injEq, decide_eq_decide]
    tauto
  refine ⟨fun change member => same ▸ sound.owned change member, fun change member => ?_, nofun,
    fun current => same ▸ sound.traced current⟩
  exact (sound.savedOwned change member).imp_left (List.mem_cons_of_mem _)

/-- Undoing the running transaction leaves the changes of the committed ones. -/
theorem Sound.live_abort (sound : l.Sound) (running : l.running = some txn) :
    (l.abort txn).live = l.done l.live := by
  refine List.filter_congr fun change member => ?_
  have owned := sound.owned change member
  have undecided := sound.undecided txn running
  simp only [counts, running, Option.some.injEq, decide_eq_true_eq] at owned
  simp only [decide_eq_decide]
  constructor
  · intro differ
    exact owned.resolve_right fun same => differ same.symm
  · rintro committed rfl
    exact undecided committed

theorem Sound.abort (sound : l.Sound) (running : l.running = some txn) : (l.abort txn).Sound := by
  have counted : ∀ change, (l.abort txn).counts change = decide (change.1 ∈ l.committed) := by
    intro change
    simp [counts, Ledger.abort]
  refine ⟨fun change member => ?_, sound.savedOwned, nofun, fun current => ?_⟩
  · rw [sound.live_abort running] at member
    rw [counted]
    exact (List.mem_filter.mp member).2
  · rw [sound.live_abort running, done, sound.traced current, List.filter_filter]
    refine List.filter_congr fun change _ => ?_
    rw [counted]
    simp only [counts]
    grind

theorem Sound.checkpoint (sound : l.Sound) : l.checkpoint.Sound := by
  refine ⟨sound.owned, fun change member => ?_, sound.undecided, fun _ => ?_⟩
  · exact of_decide_eq_true (sound.owned change member)
  · change l.live = (l.live ++ []).filter l.counts
    rw [List.append_nil, List.filter_eq_self.mpr sound.owned]

theorem Sound.clear (sound : l.Sound) (settled : ∀ change ∈ l.live, change.1 ∈ l.committed)
    (part : K → Bool) : (l.clear part).Sound := by
  refine ⟨fun change member => sound.owned change (List.mem_filter.mp member).1,
    fun change member => sound.savedOwned change (List.mem_filter.mp member).1,
    sound.undecided, fun current => ?_⟩
  obtain ⟨current, untouched⟩ := Bool.or_eq_false_iff.mp current
  have traced := sound.traced current
  have outside : (l.logged.filter l.counts).filter (fun change => !part change.2.key) =
      l.logged.filter l.counts := by
    refine List.filter_eq_self.mpr fun change member => ?_
    have inLive : change ∈ l.live := by
      rw [traced, List.filter_append]
      exact List.mem_append_right _ member
    have committed := settled change inLive
    have apart := List.any_eq_false.mp untouched change
      (List.mem_filter.mpr ⟨(List.mem_filter.mp member).1, by simpa using committed⟩)
    simpa using apart
  change l.live.filter (fun change => !part change.2.key) =
    (l.saved.filter (fun change => !part change.2.key) ++ l.logged).filter l.counts
  conv_lhs => rw [traced]
  rw [List.filter_append, List.filter_append, List.filter_append, outside, List.filter_filter,
    List.filter_filter]
  simp only [Bool.and_comm]

end Operations

section Settled

variable [DecidableEq K] {l : Ledger K V} {txn : Nat}

omit [DecidableEq K] in
theorem Sound.done_live_of_idle (sound : l.Sound) (idle : l.running = none) :
    l.done l.live = l.live := by
  refine List.filter_eq_self.mpr fun change member => ?_
  have owned := sound.owned change member
  simpa [counts, idle] using owned

/-- The running transaction does not show in the settled cells. -/
theorem settled_change (undecided : txn ∉ l.committed) (op : CellOp K V) :
    (l.change txn op).settled = l.settled := by
  have same : (l.change txn op).done (l.live ++ [(txn, op)]) = l.done l.live := by
    change (l.live ++ [(txn, op)]).filter (fun change => change.1 ∈ l.committed) = _
    rw [List.filter_append, List.filter_cons_of_neg (by simpa using undecided), List.filter_nil,
      List.append_nil]
    rfl
  exact congrArg cells same

/-- A commit settles everything. -/
theorem Sound.settled_commit (sound : l.Sound) (running : l.running = some txn) :
    (l.commit txn).settled = cells l.live :=
  congrArg cells ((sound.commit running).done_live_of_idle rfl)

/-- Undoing the running transaction leaves the settled cells, and nothing else. -/
theorem Sound.settled_abort (sound : l.Sound) (running : l.running = some txn) :
    (l.abort txn).settled = l.settled ∧ cells (l.abort txn).live = l.settled := by
  have live := congrArg cells (sound.live_abort running)
  exact ⟨(congrArg cells ((sound.abort running).done_live_of_idle rfl)).trans live, live⟩

theorem settled_of_committed (committed : ∀ change ∈ l.live, change.1 ∈ l.committed) :
    l.settled = cells l.live := by
  refine congrArg cells (List.filter_eq_self.mpr fun change member => ?_)
  simpa using committed change member

end Settled

section Recovery

variable {l : Ledger K V}

/-- The transaction in which the last checkpoint was taken has committed. -/
def SavedCommitted (l : Ledger K V) : Prop := ∀ txn, l.within = some txn → txn ∈ l.committed

/-- **Only committed changes were saved** if the transaction in which the last
checkpoint was taken has committed. -/
theorem Sound.done_saved (sound : l.Sound) (committed : l.SavedCommitted) :
    l.done l.saved = l.saved := by
  refine List.filter_eq_self.mpr fun change member => ?_
  have either := sound.savedOwned change member
  simpa using either.elim id fun inside => committed _ inside

/-- **The saved and the logged changes of committed transactions are all there
are.** -/
theorem Sound.done_live (sound : l.Sound) (committed : l.SavedCommitted)
    (current : l.stale = false) : l.done l.live = l.saved ++ l.done l.logged := by
  have both : l.done l.live = l.done (l.saved ++ l.logged) := by
    rw [done, sound.traced current, List.filter_filter]
    refine List.filter_congr fun change _ => ?_
    simp only [counts]
    grind
  rw [both, done, List.filter_append]
  exact congrArg (· ++ l.done l.logged) (sound.done_saved committed)

end Recovery

end Ledger

end Foundation
