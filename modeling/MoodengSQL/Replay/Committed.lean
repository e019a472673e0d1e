import MoodengSQL.Core.Recovery

/-!
# What replay applies

Replay groups the log by transaction and sorts. Read as one pass over the log,
it applies the data records of the transactions whose last decision is a commit,
by ascending sequence number.
-/

namespace MoodengSQL

open Std

/-- The decision a record takes about a transaction: commit or abort. -/
def WalOp.decides (txnId : Nat) : WalOp → Option Bool
  | .commit id => if id = txnId then some true else none
  | .abort id => if id = txnId then some false else none
  | _ => none

/-- The last decision about a transaction, in file order. -/
def lastDecision (entries : List WalEntry) (txnId : Nat) : Option Bool :=
  entries.foldl (fun last entry => (entry.2.decides txnId).or last) none

/-- Whether a record is a data record of a transaction that the log decides to commit. -/
def isCommitted (entries : List WalEntry) (entry : WalEntry) : Bool :=
  match entry.2.dataTxnId with
  | some txnId => lastDecision entries txnId == some true
  | none => false

/-- The data records of committed transactions, in file order. -/
def committedRecords (entries : List WalEntry) : List WalEntry :=
  entries.filter (isCommitted entries)

/-- The records a transaction group stands for. -/
def TxnState.records (state : TxnState) : List WalEntry :=
  if state.committed && !state.aborted then state.dataOps else []

/-- The group of a transaction after pass 1. -/
def groupOf (entries : List WalEntry) (txnId : Nat) : TxnState where
  committed := lastDecision entries txnId == some true
  aborted := lastDecision entries txnId == some false
  dataOps := entries.filter (·.2.dataTxnId = some txnId)

theorem lastDecision_concat (entries : List WalEntry) (entry : WalEntry) (txnId : Nat) :
    lastDecision (entries ++ [entry]) txnId =
      (entry.2.decides txnId).or (lastDecision entries txnId) := by
  simp [lastDecision]

/-- Pass 1 computes every transaction's group. -/
theorem getD_group (entries : List WalEntry) (txnId : Nat) :
    (entries.foldl groupEntry ∅).getD txnId {} = groupOf entries txnId := by
  induction entries using List.reverseRecOn with
  | nil => simp [groupOf, lastDecision]
  | append_singleton entries entry ih =>
      simp only [List.foldl_concat, groupOf, lastDecision_concat, List.filter_append] at ih ⊢
      generalize entries.foldl groupEntry ∅ = txns at ih ⊢
      generalize entries.filter (·.2.dataTxnId = some txnId) = dataOps at ih ⊢
      generalize lastDecision entries txnId = last at ih ⊢
      obtain ⟨lsn, op⟩ := entry
      cases op <;>
        simp only [groupEntry, WalOp.controlTxnId, WalOp.dataTxnId, WalOp.isDataOp, WalOp.decides,
          if_true, ExtTreeMap.getD_insert, Std.compare_eq_iff_eq] <;>
        split <;> subst_vars <;> simp_all [TxnState.control]

/-- A group in the table is the group of its transaction. -/
theorem eq_group_of_getElem? {entries : List WalEntry} {txnId : Nat} {state : TxnState}
    (found : (entries.foldl groupEntry ∅)[txnId]? = some state) :
    state = groupOf entries txnId := by
  rw [← getD_group, ExtTreeMap.getD_eq_getD_getElem?, found, Option.getD_some]

/-- A data record's transaction has a group in the table. -/
theorem exists_group {entries : List WalEntry} {entry : WalEntry} {txnId : Nat}
    (member : entry ∈ entries) (data : entry.2.dataTxnId = some txnId) :
    (entries.foldl groupEntry ∅)[txnId]? = some (groupOf entries txnId) := by
  cases found : (entries.foldl groupEntry ∅)[txnId]? with
  | some state => rw [eq_group_of_getElem? found]
  | none =>
      have empty : groupOf entries txnId = {} := by
        rw [← getD_group, ExtTreeMap.getD_eq_getD_getElem?, found, Option.getD_none]
      have none : entries.filter (·.2.dataTxnId = some txnId) = [] :=
        congrArg TxnState.dataOps empty
      simp only [List.filter_eq_nil_iff, decide_eq_true_eq] at none
      exact absurd data (none entry member)

theorem mem_records_groupOf {entries : List WalEntry} {txnId : Nat} {entry : WalEntry} :
    entry ∈ (groupOf entries txnId).records ↔
      lastDecision entries txnId = some true ∧ entry ∈ entries ∧
        entry.2.dataTxnId = some txnId := by
  unfold TxnState.records groupOf
  by_cases committed : lastDecision entries txnId = some true <;> simp [committed]

/-- Pass 2 collects the committed records, in whatever order it visits the groups. -/
theorem collectCommitted_perm [Runtime] {entries : List WalEntry} (distinct : entries.Nodup) :
    (collectCommitted (Runtime.hashOrder.order "replay_wal"
      ((entries.foldl groupEntry ∅).toList.map Prod.snd))).Perm (committedRecords entries) := by
  set txns := entries.foldl groupEntry ∅ with groups
  have visit : (collectCommitted (Runtime.hashOrder.order "replay_wal"
      (txns.toList.map Prod.snd))).Perm (collectCommitted (txns.toList.map Prod.snd)) :=
    (Runtime.hashOrder.perm "replay_wal" (txns.toList.map Prod.snd)).flatMap_right _
  have byKey : collectCommitted (txns.toList.map Prod.snd) =
      txns.toList.flatMap (·.2.records) := by
    rw [collectCommitted, List.flatMap_map]
    rfl
  refine visit.trans ((List.perm_ext_iff_of_nodup ?_ ?_).mpr ?_)
  · rw [byKey, List.nodup_flatMap]
    refine ⟨fun pair member => ?_, ?_⟩
    · have group := eq_group_of_getElem?
        (groups ▸ ExtTreeMap.mem_toList_iff_getElem?_eq_some.mp member)
      rw [group, TxnState.records]
      split
      · exact distinct.filter _
      · exact List.nodup_nil
    · refine (ExtTreeMap.distinct_keys_toList (t := txns)).imp_of_mem ?_
      intro left right leftMember rightMember differ
      have leftGroup := eq_group_of_getElem?
        (groups ▸ ExtTreeMap.mem_toList_iff_getElem?_eq_some.mp leftMember)
      have rightGroup := eq_group_of_getElem?
        (groups ▸ ExtTreeMap.mem_toList_iff_getElem?_eq_some.mp rightMember)
      simp only [Function.onFun, leftGroup, rightGroup]
      intro entry inLeft inRight
      have same := (mem_records_groupOf.mp inLeft).2.2.symm.trans
        (mem_records_groupOf.mp inRight).2.2
      exact differ (by simpa using same)
  · exact distinct.filter _
  · intro entry
    rw [byKey, List.mem_flatMap, committedRecords, List.mem_filter]
    constructor
    · rintro ⟨⟨txnId, state⟩, member, inside⟩
      have group := eq_group_of_getElem?
        (groups ▸ ExtTreeMap.mem_toList_iff_getElem?_eq_some.mp member)
      dsimp only at inside group
      rw [group] at inside
      obtain ⟨committed, present, data⟩ := mem_records_groupOf.mp inside
      exact ⟨present, by simp [isCommitted, data, committed]⟩
    · rintro ⟨present, committed⟩
      unfold isCommitted at committed
      split at committed
      · rename_i txnId data
        have committed : lastDecision entries txnId = some true := by simpa using committed
        exact ⟨(txnId, groupOf entries txnId),
          ExtTreeMap.mem_toList_iff_getElem?_eq_some.mpr (exists_group present data),
          mem_records_groupOf.mpr ⟨committed, present, data⟩⟩
      · cases committed

/-- Sequence numbers are pairwise distinct. -/
def DistinctLsns (entries : List WalEntry) : Prop := (entries.map Prod.fst).Nodup

/-- Sorting by sequence number does not depend on the order of distinct ones. -/
theorem sortByLsn_eq_of_perm {left right : List WalEntry} (perm : left.Perm right)
    (distinct : DistinctLsns left) : sortByLsn left = sortByLsn right := by
  have leftPerm : (sortByLsn left).Perm left := List.perm_insertionSort _ _
  have rightPerm : (sortByLsn right).Perm right := List.perm_insertionSort _ _
  have samePerm := leftPerm.trans (perm.trans rightPerm.symm)
  have leftSorted : (sortByLsn left).Pairwise fun a b => a.1 ≤ b.1 :=
    List.pairwise_insertionSort _ _
  have rightSorted : (sortByLsn right).Pairwise fun a b => a.1 ≤ b.1 :=
    List.pairwise_insertionSort _ _
  refine samePerm.eq_of_pairwise ?_ leftSorted rightSorted
  intro a b inLeft inRight ab ba
  have unique := List.inj_on_of_nodup_map distinct
  exact unique (leftPerm.mem_iff.mp inLeft) (perm.mem_iff.mpr (rightPerm.mem_iff.mp inRight))
    (Nat.le_antisymm ab ba)

theorem DistinctLsns.nodup {entries : List WalEntry} (distinct : DistinctLsns entries) :
    entries.Nodup :=
  List.Nodup.of_map _ distinct

theorem DistinctLsns.committedRecords {entries : List WalEntry} (distinct : DistinctLsns entries) :
    DistinctLsns (committedRecords entries) :=
  distinct.sublist (List.filter_sublist.map _)

/-- The list replay applies is the sorted list of committed records. -/
theorem toApply_eq [Runtime] {entries : List WalEntry} (distinct : DistinctLsns entries) :
    sortByLsn (collectCommitted (Runtime.hashOrder.order "replay_wal"
      ((entries.foldl groupEntry ∅).toList.map Prod.snd))) =
      sortByLsn (committedRecords entries) :=
  (sortByLsn_eq_of_perm (collectCommitted_perm distinct.nodup).symm
    distinct.committedRecords).symm

/-- Folding `apply_wal_op` over records. -/
def foldWalOps [Runtime] (storage : StorageEngine) (entries : List WalEntry) :
    Except Failure StorageEngine :=
  entries.foldlM (fun storage entry => applyWalOp storage entry.2 false) storage

/-- The loop of replay ends as the fold does. -/
theorem applyEntries_eq_fold [Runtime] (storage : StorageEngine) (entries : List WalEntry) :
    (applyEntries storage entries).1 = (foldWalOps storage entries).map (fun _ => ()) ∧
      ∀ final, foldWalOps storage entries = .ok final →
        (applyEntries storage entries).2 = final := by
  induction entries generalizing storage with
  | nil =>
      refine ⟨rfl, fun final folded => ?_⟩
      cases folded
      rfl
  | cons entry rest ih =>
      simp only [applyEntries, foldWalOps, List.foldlM_cons]
      cases applyWalOp storage entry.2 false with
      | error e => exact ⟨rfl, fun _ folded => nomatch folded⟩
      | ok storage' => exact ih storage'

/-- Without logging, applying a record reads nothing of the runtime. -/
theorem applyWalOp_runtime (left right : Runtime) (storage : StorageEngine) (op : WalOp) :
    @applyWalOp left storage op false = @applyWalOp right storage op false := by
  cases op with
  | delete txnId table rowId => simp [applyWalOp, StorageEngine.applyDelete]
  | _ => rfl

theorem applyEntries_runtime (left right : Runtime) (storage : StorageEngine)
    (entries : List WalEntry) :
    @applyEntries left storage entries = @applyEntries right storage entries := by
  induction entries generalizing storage with
  | nil => rfl
  | cons entry rest ih =>
      simp only [applyEntries, applyWalOp_runtime left right, ih]

theorem replayEntries_eq [Runtime] {entries : List WalEntry} (distinct : DistinctLsns entries)
    (storage : StorageEngine) :
    replayEntries storage entries =
      match applyEntries storage (sortByLsn (committedRecords entries)) with
      | (.ok (), storage') => (.ok (committedRecords entries).length, storage')
      | (.error e, storage') => (.error e, storage') := by
  have count : (sortByLsn (committedRecords entries)).length = (committedRecords entries).length :=
    (List.perm_insertionSort _ _).length_eq
  cases applied : applyEntries storage (sortByLsn (committedRecords entries)) with
  | mk outcome storage' =>
      cases outcome with
      | ok _ => simp only [replayEntries, toApply_eq distinct, count, applied]
      | error _ => simp only [replayEntries, toApply_eq distinct, applied]

theorem sortByLsn_ascending {entries : List WalEntry} (distinct : DistinctLsns entries) :
    (sortByLsn entries).Pairwise fun a b => a.1 < b.1 := by
  have perm : (sortByLsn entries).Perm entries := List.perm_insertionSort _ _
  have sorted : (sortByLsn entries).Pairwise fun a b => a.1 ≤ b.1 :=
    List.pairwise_insertionSort _ _
  have distinct : (sortByLsn entries).Pairwise fun a b => a.1 ≠ b.1 :=
    List.pairwise_map.mp ((perm.map Prod.fst).nodup_iff.mpr distinct)
  exact (sorted.and distinct).imp fun both => Nat.lt_of_le_of_ne both.1 both.2

/-- **Replay applies exactly the committed operations.** For records with
distinct sequence numbers, `replay_wal` ends as the fold of `apply_wal_op` over
the data records whose transaction's last decision is a commit, by ascending
sequence number; it counts those records, and the hash map's order does not
matter. -/
theorem replayEntries_eq_fold [runtime : Runtime] (storage : StorageEngine)
    (entries : List WalEntry) (distinct : DistinctLsns entries) :
    ∃ ascending : List WalEntry,
      ascending.Perm (committedRecords entries) ∧
      ascending.Pairwise (fun a b => a.1 < b.1) ∧
      (replayEntries storage entries).1 =
        (foldWalOps storage ascending).map (fun _ => (committedRecords entries).length) ∧
      (∀ final, foldWalOps storage ascending = .ok final →
        (replayEntries storage entries).2 = final) ∧
      ∀ hashOrder : HashOrder,
        @replayEntries { runtime with hashOrder } storage entries =
          replayEntries storage entries := by
  refine ⟨sortByLsn (committedRecords entries), List.perm_insertionSort _ _,
    sortByLsn_ascending distinct.committedRecords, ?_, ?_, ?_⟩
  · obtain ⟨outcome, -⟩ := applyEntries_eq_fold storage (sortByLsn (committedRecords entries))
    rw [replayEntries_eq distinct]
    cases folded : foldWalOps storage (sortByLsn (committedRecords entries)) with
    | ok final =>
        rw [folded] at outcome
        split <;> simp_all [Except.map]
    | error e =>
        rw [folded] at outcome
        split <;> simp_all [Except.map]
  · intro final folded
    obtain ⟨-, reached⟩ := applyEntries_eq_fold storage (sortByLsn (committedRecords entries))
    rw [replayEntries_eq distinct, ← reached final folded]
    split <;> simp_all
  · intro hashOrder
    rw [@replayEntries_eq { runtime with hashOrder } _ distinct, replayEntries_eq distinct,
      applyEntries_runtime { runtime with hashOrder } runtime]

/-- Two interleaved transactions, one committed and one aborted: one record is applied. -/
theorem replayEntries_eq_fold_interleaved :
    ∃ ascending : List WalEntry,
      ascending.Perm [(3, .insert 1 "t" 1 (Row.new [.bool true]))] ∧
      (@replayEntries Runtime.reference (.open (.open [] none) ∅)
        [(1, .begin 1), (2, .begin 2), (3, .insert 1 "t" 1 (Row.new [.bool true])),
          (4, .insert 2 "t" 2 (Row.new [.bool false])), (5, .abort 2), (6, .commit 1)]).1 =
        (@foldWalOps Runtime.reference (.open (.open [] none) ∅) ascending).map
          (fun _ => 1) := by
  obtain ⟨ascending, perm, -, outcome, -⟩ :=
    @replayEntries_eq_fold Runtime.reference (.open (.open [] none) ∅)
      [(1, .begin 1), (2, .begin 2), (3, .insert 1 "t" 1 (Row.new [.bool true])),
        (4, .insert 2 "t" 2 (Row.new [.bool false])), (5, .abort 2), (6, .commit 1)]
      (by unfold DistinctLsns; decide)
  exact ⟨ascending, perm, outcome⟩

/-- The last control record of a transaction, in file order; a begin is a control record. -/
def lastControl (entries : List WalEntry) (txnId : Nat) : Option WalOp :=
  (entries.filter (·.2.controlTxnId = some txnId)).getLast?.map Prod.snd

/-- The data records whose transaction's last control record is a commit. -/
def lastControlCommits (entries : List WalEntry) : List WalEntry :=
  entries.filter fun entry =>
    match entry.2.dataTxnId with
    | some txnId => lastControl entries txnId == some (.commit txnId)
    | none => false

/-- A begin after the commit is the last control record, but replay does not
let it revoke the commit. -/
theorem begin_after_commit_keeps_commit :
    DistinctLsns [(1, .insert 1 "t" 1 (Row.new [])), (2, .commit 1), (3, .begin 1)] ∧
      lastControlCommits [(1, .insert 1 "t" 1 (Row.new [])), (2, .commit 1), (3, .begin 1)] = [] ∧
      (@replayEntries Runtime.reference (.open (.open [] none) ∅)
        [(1, .insert 1 "t" 1 (Row.new [])), (2, .commit 1), (3, .begin 1)]).1 = .ok 1 := by
  refine ⟨by unfold DistinctLsns; decide, by decide, by rfl⟩

end MoodengSQL
