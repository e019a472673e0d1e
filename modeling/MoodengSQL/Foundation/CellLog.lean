import Mathlib

/-!
# Logs of cell operations

A map from keys to optional values, operations that write, replace or erase one
cell, and the replay of a list of operations.
-/

namespace Foundation

variable {K V : Type}

/-- An operation on one cell. -/
inductive CellOp (K V : Type) where
  | put (key : K) (value : V)
  | replace (key : K) (value : V)
  | erase (key : K)

namespace CellOp

variable [DecidableEq K]

/-- The cell an operation is about. -/
def key : CellOp K V → K
  | put key _ => key
  | replace key _ => key
  | erase key => key

/-- The content of the cell after the operation. -/
def result : CellOp K V → Option V → Option V
  | put _ value, _ => some value
  | replace _ value, old => old.map fun _ => value
  | erase _, _ => none

/-- Apply an operation. Replacing an empty cell does nothing. -/
def apply (op : CellOp K V) (cells : K → Option V) : K → Option V :=
  Function.update cells op.key (op.result (cells op.key))

end CellOp

section Replay

variable [DecidableEq K]

/-- Replay operations in order. -/
def replayOps (ops : List (CellOp K V)) (cells : K → Option V) : K → Option V :=
  ops.foldl (fun cells op => op.apply cells) cells

theorem replayOps_append (first second : List (CellOp K V)) (cells : K → Option V) :
    replayOps (first ++ second) cells = replayOps second (replayOps first cells) :=
  List.foldl_append

theorem replayOps_concat (ops : List (CellOp K V)) (op : CellOp K V) (cells : K → Option V) :
    replayOps (ops ++ [op]) cells = op.apply (replayOps ops cells) :=
  replayOps_append ops [op] cells

/-- Leaving out the operations on a part of the map leaves that part as it was. -/
theorem replayOps_filter (part : K → Bool) (ops : List (CellOp K V)) (cells : K → Option V) :
    replayOps (ops.filter fun op => !part op.key) cells =
      fun key => if part key then cells key else replayOps ops cells key := by
  induction ops using List.reverseRecOn with
  | nil => simp [replayOps]
  | append_singleton ops op ih =>
      funext key
      cases inside : part op.key with
      | true =>
          rw [List.filter_append, List.filter_singleton, inside, Bool.not_true, cond_false,
            List.append_nil, ih, replayOps_concat]
          dsimp only
          split
          · rfl
          · rename_i outside
            refine (Function.update_of_ne ?_ _ _).symm
            rintro rfl
            exact outside inside
      | false =>
          rw [List.filter_append, List.filter_singleton, inside, Bool.not_false, cond_true,
            replayOps_concat, replayOps_concat, ih]
          simp only [CellOp.apply, Function.update_apply, inside, Bool.false_eq_true, if_false]
          split
          · rename_i here
            rw [here, inside, if_neg Bool.false_ne_true]
          · rfl

/-- What operations in a row do to one cell. -/
inductive CellEffect (V : Type) where
  | keep
  | set (value : Option V)
  | rewrite (value : V)

namespace CellEffect

/-- The content of the cell afterwards. -/
def apply : CellEffect V → Option V → Option V
  | keep, old => old
  | set value, _ => value
  | rewrite value, old => old.map fun _ => value

/-- Another operation on the cell. -/
def andThen (effect : CellEffect V) : CellOp K V → CellEffect V
  | .put _ value => set (some value)
  | .erase _ => set none
  | .replace _ value => match effect with
    | keep => rewrite value
    | rewrite _ => rewrite value
    | set old => set (old.map fun _ => value)

omit [DecidableEq K] in
theorem apply_andThen (effect : CellEffect V) (op : CellOp K V) (old : Option V) :
    (effect.andThen op).apply old = op.result (effect.apply old) := by
  cases op with
  | put => rfl
  | erase => rfl
  | replace key value =>
      cases effect with
      | keep => rfl
      | set => rfl
      | rewrite => cases old <;> rfl

/-- Doing it once more changes nothing. -/
theorem apply_apply (effect : CellEffect V) (old : Option V) :
    effect.apply (effect.apply old) = effect.apply old := by
  cases effect with
  | keep => rfl
  | set => rfl
  | rewrite => cases old <;> rfl

end CellEffect

/-- What a list of operations does to a cell. -/
def effectOn (key : K) (ops : List (CellOp K V)) : CellEffect V :=
  ops.foldl (fun effect op => if op.key = key then effect.andThen op else effect) .keep

theorem effectOn_concat (key : K) (ops : List (CellOp K V)) (op : CellOp K V) :
    effectOn key (ops ++ [op]) =
      if op.key = key then (effectOn key ops).andThen op else effectOn key ops := by
  simp only [effectOn, List.foldl_append, List.foldl_cons, List.foldl_nil]

/-- **Replay acts on every cell by itself.** -/
theorem replayOps_apply (ops : List (CellOp K V)) (cells : K → Option V) (key : K) :
    replayOps ops cells key = (effectOn key ops).apply (cells key) := by
  induction ops using List.reverseRecOn with
  | nil => rfl
  | append_singleton ops op ih =>
      rw [replayOps_concat, effectOn_concat, CellOp.apply]
      by_cases here : op.key = key
      · rw [if_pos here, CellEffect.apply_andThen, ← ih, here, Function.update_self]
      · rw [if_neg here, Function.update_of_ne (Ne.symm here), ih]

/-- **Replaying twice is replaying once.** -/
theorem replayOps_replayOps (ops : List (CellOp K V)) (cells : K → Option V) :
    replayOps ops (replayOps ops cells) = replayOps ops cells := by
  funext key
  rw [replayOps_apply, replayOps_apply ops cells, CellEffect.apply_apply]

/-- Operations that have been replayed last may be replayed again. -/
theorem replayOps_again (first second : List (CellOp K V)) (cells : K → Option V) :
    replayOps second (replayOps (first ++ second) cells) = replayOps (first ++ second) cells := by
  rw [replayOps_append, replayOps_replayOps]

end Replay

end Foundation
