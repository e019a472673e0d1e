import MoodengSQL.Replay.Open

/-!
# Replaying a log again

Replay gives every row the value the records of the log leave it with, whatever
it held before, so a second replay finds nothing to change. Tables and id
counters only grow, and after a replay they cover all its records.
-/

namespace MoodengSQL

open Std Foundation

/-- The rows of a table by their ids, without their versions, and the next id. -/
def TableData.visible (data : TableData) : Map Nat (List Value) × Nat :=
  (data.rows.map fun _ row => row.values, data.nextId)

namespace StorageEngine

/-- The next id of every table there is. -/
def nextIds (storage : StorageEngine) : String → Option Nat :=
  fun table => storage.tables[table]?.map TableData.nextId

theorem nextIds_insert (storage : StorageEngine) (table : String) (data : TableData) :
    { storage with tables := storage.tables.insert table data }.nextIds =
      Function.update storage.nextIds table (some data.nextId) := by
  funext name
  simp only [nextIds, ExtTreeMap.getElem?_insert, Std.compare_eq_iff_eq, Function.update_apply]
  by_cases same : table = name
  · simp [same]
  · simp [same, Ne.symm same]

/-- A table that keeps its next id leaves all next ids as they are. -/
theorem nextIds_insert_same {storage : StorageEngine} {table : String} {data data' : TableData}
    (found : storage.tables[table]? = some data) (same : data'.nextId = data.nextId) :
    { storage with tables := storage.tables.insert table data' }.nextIds = storage.nextIds := by
  rw [nextIds_insert, same, Function.update_eq_self_iff, nextIds, found]
  rfl

/-- Tables with the same rows and next ids show the same. -/
theorem visible_congr {left right : StorageEngine} (contents : left.contents = right.contents)
    (ids : left.nextIds = right.nextIds) (table : String) :
    left.tables[table]?.map TableData.visible = right.tables[table]?.map TableData.visible := by
  have sameIds := congrFun ids table
  unfold nextIds at sameIds
  cases first : left.tables[table]? with
  | none =>
      cases second : right.tables[table]? with
      | none => rfl
      | some data => simp [first, second] at sameIds
  | some data =>
      cases second : right.tables[table]? with
      | none => simp [first, second] at sameIds
      | some data' =>
          rw [first, second] at sameIds
          have rows : data.rows.map (fun _ row => row.values) =
              data'.rows.map fun _ row => row.values := by
            apply ExtTreeMap.ext_getElem?
            intro id
            have same := congrFun contents (table, id)
            simp only [StorageEngine.contents, view, ← view_of_getElem? first,
              ← view_of_getElem? second] at same
            rw [ExtTreeMap.getElem?_map, ExtTreeMap.getElem?_map]
            exact same
          simp only [Option.map_some, Option.some.injEq] at sameIds ⊢
          exact Prod.ext rows sameIds

end StorageEngine

/-- The table of a record is there, and its row id has been given out. -/
def WalOp.Covered (nextIds : String → Option Nat) : WalOp → Prop
  | .insert _ table rowId _ => ∃ next, nextIds table = some next ∧ rowId < next
  | .update _ table _ _ | .delete _ table _ => (nextIds table).isSome
  | .begin _ | .commit _ | .abort _ => True

/-- Counters that have grown cover what they covered. -/
theorem WalOp.Covered.mono {before after : String → Option Nat} {op : WalOp}
    (grows : ∀ table next, before table = some next →
      ∃ later, after table = some later ∧ next ≤ later)
    (covered : op.Covered before) : op.Covered after := by
  have known : ∀ {table : String}, (before table).isSome → (after table).isSome := by
    intro table some
    obtain ⟨next, found⟩ := Option.isSome_iff_exists.mp some
    obtain ⟨later, foundLater, -⟩ := grows table next found
    rw [foundLater]
    rfl
  cases op with
  | begin | commit | abort => trivial
  | update _ table _ _ => exact known covered
  | delete _ table _ => exact known covered
  | insert _ table rowId _ =>
      obtain ⟨next, found, below⟩ := covered
      obtain ⟨later, foundLater, le⟩ := grows table next found
      exact ⟨later, foundLater, below.trans_le le⟩

section Replay

variable [Runtime] {storage storage' : StorageEngine} {op : WalOp}

/-- What a record that was applied did to the tables: an insert lets the next id
grow past its row, and the others keep all next ids. -/
theorem applyWalOp_nextIds (ran : applyWalOp storage op false = .ok storage') :
    (∃ txnId table rowId row, op = .insert txnId table rowId row ∧
      storage'.nextIds = Function.update storage.nextIds table
        (some (max ((storage.nextIds table).getD 1) (rowId + 1)))) ∨
    ((∀ txnId table rowId row, op ≠ .insert txnId table rowId row) ∧
      op.Covered storage.nextIds ∧ storage'.nextIds = storage.nextIds) := by
  cases op with
  | begin | commit | abort =>
      cases ran
      exact .inr ⟨fun _ _ _ _ => WalOp.noConfusion, trivial, rfl⟩
  | insert txnId table rowId row =>
      refine .inl ⟨txnId, table, rowId, row, rfl, ?_⟩
      cases ran
      have next : (storage.tables.getD table .empty).nextId =
          (storage.nextIds table).getD 1 := by
        rw [StorageEngine.nextIds, ExtTreeMap.getD_eq_getD_getElem?]
        cases storage.tables[table]? <;> rfl
      refine (storage.nextIds_insert table _).trans ?_
      simp only [TableData.applyInsert, next]
      congr 2
      split <;> omega
  | update txnId table rowId row =>
      refine .inr ⟨fun _ _ _ _ => WalOp.noConfusion, ?_⟩
      cases found : storage.tables[table]? with
      | none =>
          simp only [applyWalOp, StorageEngine.applyUpdate, found, Except.map, reduceCtorEq] at ran
      | some data =>
          refine ⟨by simp [WalOp.Covered, StorageEngine.nextIds, found], ?_⟩
          simp only [applyWalOp, StorageEngine.applyUpdate, found] at ran
          split at ran
          · cases ran
            rfl
          · cases ran
            exact StorageEngine.nextIds_insert_same found rfl
  | delete txnId table rowId =>
      refine .inr ⟨fun _ _ _ _ => WalOp.noConfusion, ?_⟩
      cases found : storage.tables[table]? with
      | none =>
          simp only [applyWalOp, StorageEngine.applyDelete, found, Except.map, reduceCtorEq] at ran
      | some data =>
          refine ⟨by simp [WalOp.Covered, StorageEngine.nextIds, found], ?_⟩
          simp only [applyWalOp, StorageEngine.applyDelete, found, Except.map, Bool.and_false,
            Bool.false_eq_true, if_false, Except.ok.injEq] at ran
          subst ran
          exact StorageEngine.nextIds_insert_same found rfl

/-- Next ids only grow, and a record that was applied is covered. -/
theorem applyWalOp_covers (ran : applyWalOp storage op false = .ok storage') :
    op.Covered storage'.nextIds ∧
      ∀ other : WalOp, other.Covered storage.nextIds → other.Covered storage'.nextIds := by
  rcases applyWalOp_nextIds ran with ⟨txnId, table, rowId, row, rfl, ids⟩ | ⟨-, covered, ids⟩
  · rw [ids]
    refine ⟨⟨_, Function.update_self _ _ _, by omega⟩, fun other => WalOp.Covered.mono ?_⟩
    intro name next found
    by_cases same : name = table
    · subst same
      refine ⟨_, Function.update_self _ _ _, ?_⟩
      rw [found, Option.getD_some]
      exact le_max_left _ _
    · exact ⟨next, (Function.update_of_ne same _ _).trans found, le_rfl⟩
  · rw [ids]
    exact ⟨covered, fun _ => id⟩

/-- A record that is covered can be applied, and changes no next id. -/
theorem applyWalOp_again (covered : op.Covered storage.nextIds) :
    ∃ storage', applyWalOp storage op false = .ok storage' ∧
      storage'.nextIds = storage.nextIds := by
  have known : ∀ cell, op.cellOp = some cell → cell.key.1 ∈ storage.tables := by
    intro cell found
    rw [ExtTreeMap.mem_iff_isSome_getElem?]
    cases op with
    | begin | commit | abort => cases found
    | insert txnId table rowId row =>
        cases found
        obtain ⟨next, present, -⟩ := covered
        obtain ⟨data, stored, -⟩ := Option.map_eq_some_iff.mp present
        exact Option.isSome_iff_exists.mpr ⟨data, stored⟩
    | update txnId table rowId row =>
        cases found
        exact Option.isSome_map.symm.trans covered
    | delete txnId table rowId =>
        cases found
        exact Option.isSome_map.symm.trans covered
  obtain ⟨storage', ran, -⟩ := applyWalOp_accepts known
  refine ⟨storage', ran, ?_⟩
  rcases applyWalOp_nextIds ran with ⟨txnId, table, rowId, row, rfl, ids⟩ | ⟨-, -, ids⟩
  · obtain ⟨next, found, below⟩ := covered
    rw [ids, Function.update_eq_self_iff, found, Option.getD_some, max_eq_left below]
  · exact ids

theorem applyEntries_covers {entries : List WalEntry}
    (ran : applyEntries storage entries = (.ok (), storage')) :
    (∀ entry ∈ entries, entry.2.Covered storage'.nextIds) ∧
      ∀ other : WalOp, other.Covered storage.nextIds → other.Covered storage'.nextIds := by
  induction entries generalizing storage with
  | nil =>
      cases ran
      exact ⟨fun _ => nofun, fun _ => id⟩
  | cons entry rest ih =>
      unfold applyEntries at ran
      cases applied : applyWalOp storage entry.2 false with
      | error e =>
          rw [applied] at ran
          cases ran
      | ok mid =>
          rw [applied] at ran
          obtain ⟨own, grows⟩ := applyWalOp_covers applied
          obtain ⟨others, growsOn⟩ := ih ran
          refine ⟨fun other member => ?_, fun other covered => growsOn other (grows other covered)⟩
          rcases List.mem_cons.mp member with rfl | later
          · exact growsOn _ own
          · exact others other later

theorem applyEntries_again {entries : List WalEntry}
    (covered : ∀ entry ∈ entries, entry.2.Covered storage.nextIds) :
    ∃ storage', applyEntries storage entries = (.ok (), storage') ∧
      storage'.nextIds = storage.nextIds := by
  induction entries generalizing storage with
  | nil => exact ⟨storage, rfl, rfl⟩
  | cons entry rest ih =>
      obtain ⟨mid, applied, same⟩ := applyWalOp_again (covered entry List.mem_cons_self)
      have still : ∀ other ∈ rest, other.2.Covered mid.nextIds := by
        intro other member
        rw [same]
        exact covered other (List.mem_cons_of_mem _ member)
      obtain ⟨storage', ran, unchanged⟩ := ih still
      refine ⟨storage', ?_, unchanged.trans same⟩
      unfold applyEntries
      rw [applied]
      exact ran

/-- **Replay is idempotent.** Where `replay_wal` succeeds, it succeeds again on
the state it leaves, and every table keeps its row ids, its values and its next
id. -/
theorem replay_idempotent (storage replayed : StorageEngine) (entries : List WalEntry)
    (count : Nat) (distinct : DistinctLsns entries)
    (first : replayEntries storage entries = (.ok count, replayed)) :
    ∃ again : StorageEngine, replayEntries replayed entries = (.ok count, again) ∧
      ∀ table : String, again.tables[table]?.map TableData.visible =
        replayed.tables[table]?.map TableData.visible := by
  rw [replayEntries_eq distinct] at first
  cases ran : applyEntries storage (sortByLsn (committedRecords entries)) with
  | mk outcome final =>
      rw [ran] at first
      cases outcome with
      | error e => cases first
      | ok _ =>
          cases first
          obtain ⟨again, ranAgain, ids⟩ := applyEntries_again (applyEntries_covers ran).1
          refine ⟨again, ?_, StorageEngine.visible_congr ?_ ids⟩
          · rw [replayEntries_eq distinct, ranAgain]
          · rw [applyEntries_ok ranAgain, applyEntries_ok ran, replayOps_replayOps]

end Replay

/-- A row that is inserted, updated and deleted, next to one that is updated
without being there. -/
theorem replay_idempotent_deleted :
    ∃ again : StorageEngine,
      @replayEntries Runtime.reference (@replayEntries Runtime.reference (.open (.open [] none) ∅)
        [(1, .begin 1), (2, .insert 1 "t" 1 (Row.new [.bool true])),
          (4, .delete 1 "t" 1), (3, .update 1 "t" 1 (Row.new [.bool false])),
          (5, .update 1 "t" 2 (Row.new [.null])), (6, .commit 1)]).2
        [(1, .begin 1), (2, .insert 1 "t" 1 (Row.new [.bool true])),
          (4, .delete 1 "t" 1), (3, .update 1 "t" 1 (Row.new [.bool false])),
          (5, .update 1 "t" 2 (Row.new [.null])), (6, .commit 1)] = (.ok 4, again) := by
  obtain ⟨again, ran, -⟩ := @replay_idempotent Runtime.reference (.open (.open [] none) ∅)
    (@replayEntries Runtime.reference (.open (.open [] none) ∅)
      [(1, .begin 1), (2, .insert 1 "t" 1 (Row.new [.bool true])),
        (4, .delete 1 "t" 1), (3, .update 1 "t" 1 (Row.new [.bool false])),
        (5, .update 1 "t" 2 (Row.new [.null])), (6, .commit 1)]).2
    [(1, .begin 1), (2, .insert 1 "t" 1 (Row.new [.bool true])),
      (4, .delete 1 "t" 1), (3, .update 1 "t" 1 (Row.new [.bool false])),
      (5, .update 1 "t" 2 (Row.new [.null])), (6, .commit 1)] 4
    (by unfold DistinctLsns; decide) (Prod.ext (by rfl) rfl)
  exact ⟨again, ran⟩

end MoodengSQL
