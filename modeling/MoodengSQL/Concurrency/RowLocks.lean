import MoodengSQL.Foundation.Interleaving
import MoodengSQL.Index.Manager

/-!
# Row locks

The lock of a row is an `Arc` that the map of the lock manager and the handles
of the threads share. A guard that is dropped reads the reference count, and
takes the entry out of the map if it read two references, the map's and its
own. The two are separate steps: an entry taken out while another handle is
still about leaves that handle with a lock that no later thread will find.
-/

namespace MoodengSQL

open Interleaving

/-- The allocation behind an `Arc<RwLock<()>>`: its strong references, and
whether a thread has the write lock. -/
structure ArcLock where
  strong : Nat
  locked : Bool

/-- The row locks of a `LockManager`: the map, and the allocations made so far,
which an `Arc` names by their position. -/
structure LockManager where
  rowLocks : RowKey → Option Nat
  arcs : List ArcLock

/-- A `RowLockHandle`: its key and its `Arc`. -/
structure RowLockHandle where
  key : RowKey
  lock : Nat

namespace LockManager

/-- `LockManager::new`. -/
def new : LockManager := { rowLocks := fun _ => none, arcs := [] }

/-- Whether a thread has the write lock of an allocation. -/
def isLocked (locks : LockManager) (lock : Nat) : Bool :=
  (locks.arcs[lock]?.map ArcLock.locked).getD false

/-- `Arc::strong_count`. -/
def strongCount (locks : LockManager) (lock : Nat) : Nat :=
  (locks.arcs[lock]?.map ArcLock.strong).getD 0

/-- `Arc::clone`. -/
def clone (locks : LockManager) (lock : Nat) : LockManager :=
  { locks with arcs := locks.arcs.modify lock fun arc => { arc with strong := arc.strong + 1 } }

/-- The drop of an `Arc`. -/
def dropArc (locks : LockManager) (lock : Nat) : LockManager :=
  { locks with arcs := locks.arcs.modify lock fun arc => { arc with strong := arc.strong - 1 } }

/-- Take or give back the write lock of an allocation. -/
def setLocked (locks : LockManager) (lock : Nat) (locked : Bool) : LockManager :=
  { locks with arcs := locks.arcs.modify lock fun arc => { arc with locked } }

/-- `row_lock`: the entry of the map, made if there is none, cloned into a handle. -/
def rowLock (locks : LockManager) (key : RowKey) : RowLockHandle × LockManager :=
  match locks.rowLocks key with
  | some lock => ({ key, lock }, locks.clone lock)
  | none =>
      ({ key, lock := locks.arcs.length },
        { rowLocks := Function.update locks.rowLocks key (some locks.arcs.length)
          arcs := locks.arcs ++ [{ strong := 2, locked := false }] })

/-- `DashMap::remove`, with the drop of the `Arc` it returns. -/
def remove (locks : LockManager) (key : RowKey) : LockManager :=
  match locks.rowLocks key with
  | some lock =>
      { locks with rowLocks := Function.update locks.rowLocks key none }.dropArc lock
  | none => locks

section Lemmas

variable (locks : LockManager) (lock other : Nat) (key : RowKey)

@[simp] theorem rowLocks_clone : (locks.clone lock).rowLocks = locks.rowLocks := rfl

@[simp] theorem rowLocks_dropArc : (locks.dropArc lock).rowLocks = locks.rowLocks := rfl

@[simp] theorem rowLocks_setLocked (locked : Bool) :
    (locks.setLocked lock locked).rowLocks = locks.rowLocks := rfl

@[simp] theorem length_clone : (locks.clone lock).arcs.length = locks.arcs.length :=
  List.length_modify _ _ _

@[simp] theorem length_dropArc : (locks.dropArc lock).arcs.length = locks.arcs.length :=
  List.length_modify _ _ _

@[simp] theorem length_setLocked (locked : Bool) :
    (locks.setLocked lock locked).arcs.length = locks.arcs.length :=
  List.length_modify _ _ _

/-- A change of an allocation that keeps the write lock leaves every write lock as it is. -/
theorem isLocked_modify (change : ArcLock → ArcLock)
    (keeps : ∀ arc, (change arc).locked = arc.locked) :
    { locks with arcs := locks.arcs.modify lock change }.isLocked other = locks.isLocked other := by
  simp only [isLocked, List.getElem?_modify]
  cases locks.arcs[other]? with
  | none => rfl
  | some arc =>
      by_cases same : lock = other
      · simp [same, keeps]
      · simp [same]

@[simp] theorem isLocked_clone : (locks.clone lock).isLocked other = locks.isLocked other :=
  isLocked_modify locks lock other _ fun _ => rfl

@[simp] theorem isLocked_dropArc : (locks.dropArc lock).isLocked other = locks.isLocked other :=
  isLocked_modify locks lock other _ fun _ => rfl

theorem isLocked_setLocked_of_ne (locked : Bool) (different : other ≠ lock) :
    (locks.setLocked lock locked).isLocked other = locks.isLocked other := by
  simp only [isLocked, setLocked, List.getElem?_modify, different.symm, ite_false]
  cases locks.arcs[other]? <;> rfl

theorem isLocked_setLocked_self (locked : Bool) (allocated : lock < locks.arcs.length) :
    (locks.setLocked lock locked).isLocked lock = locked := by
  simp [isLocked, setLocked, List.getElem?_eq_getElem allocated]

theorem isLocked_of_le (unallocated : locks.arcs.length ≤ lock) : locks.isLocked lock = false := by
  simp [isLocked, List.getElem?_eq_none unallocated]

theorem isLocked_rowLock : (locks.rowLock key).2.isLocked other = locks.isLocked other := by
  unfold rowLock
  split
  · exact isLocked_clone locks _ other
  · by_cases inside : other < locks.arcs.length
    · simp only [isLocked, List.getElem?_append_left inside]
    · rw [isLocked_of_le locks other (not_lt.mp inside)]
      simp only [isLocked, List.getElem?_append_right (not_lt.mp inside)]
      cases other - locks.arcs.length <;> rfl

/-- An entry that is left after a removal was there before. -/
theorem rowLocks_of_remove {found : RowKey} {lock : Nat}
    (entry : (locks.remove key).rowLocks found = some lock) :
    locks.rowLocks found = some lock := by
  unfold remove at entry
  split at entry
  · by_cases same : found = key
    · simp [dropArc, same] at entry
    · simpa [dropArc, Function.update_of_ne same] using entry
  · exact entry

@[simp] theorem length_remove : (locks.remove key).arcs.length = locks.arcs.length := by
  unfold remove
  split
  · exact length_dropArc _ _
  · rfl

@[simp] theorem isLocked_remove : (locks.remove key).isLocked other = locks.isLocked other := by
  unfold remove
  split
  · exact isLocked_dropArc _ _ other
  · rfl

end Lemmas

end LockManager

/-- Where a thread stands with a row lock: it waits for the write lock, it has
the guard, the guard's drop has read the count, the eviction is decided, the
write lock is given back. -/
inductive LockPlace where
  | waiting (handle : RowLockHandle)
  | guarding (handle : RowLockHandle)
  | counted (handle : RowLockHandle) (count : Nat)
  | evicted (handle : RowLockHandle)
  | released (handle : RowLockHandle)

/-- A thread, with the rows it has still to lock. -/
structure LockThread where
  place : Option LockPlace
  program : List RowKey

/-- The row for which the thread is about to call `row_lock`. -/
def LockThread.request (thread : LockThread) : Option RowKey :=
  match thread.place with
  | none => thread.program.head?
  | some _ => none

/-- The handle of a thread that has not given the write lock back. -/
def LockThread.wanted (thread : LockThread) : Option RowLockHandle :=
  match thread.place with
  | some (.waiting handle) | some (.guarding handle) | some (.counted handle _)
  | some (.evicted handle) => some handle
  | some (.released _) | none => none

/-- The handle of a thread between taking the write lock and giving it back. -/
def LockThread.held (thread : LockThread) : Option RowLockHandle :=
  match thread.place with
  | some (.guarding handle) | some (.counted handle _) | some (.evicted handle) => some handle
  | some (.waiting _) | some (.released _) | none => none

theorem LockThread.wanted_of_held {thread : LockThread} {handle : RowLockHandle}
    (held : thread.held = some handle) : thread.wanted = some handle := by
  obtain ⟨place, program⟩ := thread
  match place with
  | some (.guarding _) | some (.counted _ _) | some (.evicted _) => exact held
  | some (.waiting _) | some (.released _) | none => cases held

theorem LockThread.wanted_of_waiting {thread : LockThread} {handle : RowLockHandle}
    (waits : thread.place = some (.waiting handle)) : thread.wanted = some handle := by
  simp only [wanted, waits]

theorem LockThread.waiting_or_held {thread : LockThread} {handle : RowLockHandle}
    (wants : thread.wanted = some handle) :
    thread.place = some (.waiting handle) ∨ thread.held = some handle := by
  obtain ⟨place, program⟩ := thread
  match place with
  | some (.waiting _) =>
      cases wants
      exact .inl rfl
  | some (.guarding _) | some (.counted _ _) | some (.evicted _) => exact .inr wants
  | some (.released _) | none => cases wants

/-- The turn of a thread: `row_lock`, `RowLockHandle::write`, the steps of the
guard's drop, and the drop of the handle. -/
def lockStep (locks : LockManager) (thread : LockThread) : Turn LockManager LockThread Empty :=
  match thread.place with
  | none => match thread.program with
    | [] => .wait locks thread
    | key :: rest => {
        shared := (locks.rowLock key).2
        thread := { place := some (.waiting (locks.rowLock key).1), program := rest }
        events := [] }
  | some (.waiting handle) =>
      if locks.isLocked handle.lock then .wait locks thread
      else {
        shared := locks.setLocked handle.lock true
        thread := { thread with place := some (.guarding handle) }
        events := [] }
  | some (.guarding handle) => {
      shared := locks
      thread := { thread with place := some (.counted handle (locks.strongCount handle.lock)) }
      events := [] }
  | some (.counted handle count) => {
      shared := if count = 2 then locks.remove handle.key else locks
      thread := { thread with place := some (.evicted handle) }
      events := [] }
  | some (.evicted handle) => {
      shared := locks.setLocked handle.lock false
      thread := { thread with place := some (.released handle) }
      events := [] }
  | some (.released handle) => {
      shared := locks.dropArc handle.lock
      thread := { thread with place := none }
      events := [] }

/-- Threads over a configuration of row locks. -/
abbrev LockConfig (ι : Type) := Configuration ι LockManager LockThread Empty

/-- Every thread before its first row. -/
def LockConfig.start {ι : Type} (programs : ι → List RowKey) : LockConfig ι where
  shared := .new
  threads i := { place := none, program := programs i }
  history := []

/-- At most one thread has the write guard of a row. -/
def LockConfig.Exclusive {ι : Type} (config : LockConfig ι) : Prop :=
  ∀ i j, ∀ handle ∈ (config.threads i).held, ∀ other ∈ (config.threads j).held,
    handle.key = other.key → i = j

instance {ι : Type} [Fintype ι] [DecidableEq ι] (config : LockConfig ι) :
    Decidable config.Exclusive :=
  inferInstanceAs (Decidable (∀ i j, ∀ handle ∈ (config.threads i).held,
    ∀ other ∈ (config.threads j).held, handle.key = other.key → i = j))

/-- If the turn is a `row_lock` that makes a new entry, no thread still waits
for or has the lock of an earlier entry of that row. -/
def LockConfig.FreshEntry {ι : Type} (config : LockConfig ι) (i : ι) : Prop :=
  ∀ key ∈ (config.threads i).request, config.shared.rowLocks key = none →
    ∀ j, ∀ handle ∈ (config.threads j).wanted, handle.key ≠ key

instance {ι : Type} [Fintype ι] (config : LockConfig ι) (i : ι) :
    Decidable (config.FreshEntry i) :=
  inferInstanceAs (Decidable (∀ key ∈ (config.threads i).request,
    config.shared.rowLocks key = none →
      ∀ j, ∀ handle ∈ (config.threads j).wanted, handle.key ≠ key))

/-- What a turn can do to the locks. The entries of the map may go away in any
turn but the one of `row_lock`. -/
inductive LockTurn (locks : LockManager) (thread : LockThread) :
    LockManager → LockThread → Prop
  | keep {locks' : LockManager} {thread' : LockThread}
      (entries : ∀ key lock, locks'.rowLocks key = some lock → locks.rowLocks key = some lock)
      (size : locks'.arcs.length = locks.arcs.length)
      (locked : ∀ lock, locks'.isLocked lock = locks.isLocked lock)
      (wanted : thread'.wanted = thread.wanted) (held : thread'.held = thread.held) :
      LockTurn locks thread locks' thread'
  | request (key : RowKey) (rest : List RowKey)
      (idle : thread = { place := none, program := key :: rest }) :
      LockTurn locks thread (locks.rowLock key).2
        { place := some (.waiting (locks.rowLock key).1), program := rest }
  | acquire (handle : RowLockHandle) (waits : thread.place = some (.waiting handle))
      (free : locks.isLocked handle.lock = false) :
      LockTurn locks thread (locks.setLocked handle.lock true)
        { thread with place := some (.guarding handle) }
  | release (handle : RowLockHandle) (holds : thread.held = some handle) :
      LockTurn locks thread (locks.setLocked handle.lock false)
        { thread with place := some (.released handle) }

theorem lockStep_turn (locks : LockManager) (thread : LockThread) :
    LockTurn locks thread (lockStep locks thread).shared (lockStep locks thread).thread := by
  obtain ⟨place, program⟩ := thread
  match place, program with
  | none, [] => exact .keep (fun _ _ entry => entry) rfl (fun _ => rfl) rfl rfl
  | none, key :: rest => exact .request key rest rfl
  | some (.waiting handle), program =>
      cases taken : locks.isLocked handle.lock with
      | true =>
          simp only [lockStep, taken, ite_true]
          exact .keep (fun _ _ entry => entry) rfl (fun _ => rfl) rfl rfl
      | false =>
          simp only [lockStep, taken, Bool.false_eq_true, ite_false]
          exact .acquire handle rfl taken
  | some (.guarding handle), program =>
      exact .keep (fun _ _ entry => entry) rfl (fun _ => rfl) rfl rfl
  | some (.counted handle count), program =>
      by_cases alone : count = 2
      · simp only [lockStep, alone, ite_true]
        exact .keep (fun _ _ => locks.rowLocks_of_remove _) (locks.length_remove _)
          (locks.isLocked_remove · _) rfl rfl
      · simp only [lockStep, alone, ite_false]
        exact .keep (fun _ _ entry => entry) rfl (fun _ => rfl) rfl rfl
  | some (.evicted handle), program => exact .release handle rfl
  | some (.released handle), program =>
      exact .keep (fun _ _ entry => entry) (locks.length_dropArc _) (locks.isLocked_dropArc _) rfl
        rfl

section Invariants

variable {ι : Type}

/-- An allocation is the lock of one row, in the map and in all handles. -/
def Keyed (locks : LockManager) (threads : ι → LockThread) : Prop :=
  ∃ keyOf : Nat → RowKey,
    (∀ key lock, locks.rowLocks key = some lock →
      lock < locks.arcs.length ∧ keyOf lock = key) ∧
    ∀ i handle, (threads i).wanted = some handle →
      handle.lock < locks.arcs.length ∧ keyOf handle.lock = handle.key

/-- The allocations that are locked are those some thread holds, each by one thread. -/
def Locked (locks : LockManager) (threads : ι → LockThread) : Prop :=
  (∀ lock, locks.isLocked lock = true →
    ∃ i handle, (threads i).held = some handle ∧ handle.lock = lock) ∧
  ∀ i handle, (threads i).held = some handle →
    locks.isLocked handle.lock = true ∧
    ∀ j other, (threads j).held = some other → other.lock = handle.lock → j = i

/-- The threads that wait for or hold the lock of a row share one allocation,
which is the one the map has, if it has one. -/
def OneLock (locks : LockManager) (threads : ι → LockThread) : Prop :=
  (∀ lock i handle, (threads i).wanted = some handle →
    locks.rowLocks handle.key = some lock → handle.lock = lock) ∧
  ∀ i j handle other, (threads i).wanted = some handle → (threads j).wanted = some other →
    handle.key = other.key → handle.lock = other.lock

theorem OneLock.exclusive {config : LockConfig ι}
    (oneLock : OneLock config.shared config.threads)
    (locked : Locked config.shared config.threads) : config.Exclusive := by
  intro i j handle first other second sameKey
  have sameLock := oneLock.2 i j handle other (LockThread.wanted_of_held first)
    (LockThread.wanted_of_held second) sameKey
  exact (locked.2 j other second).2 i handle first sameLock

variable [DecidableEq ι] {threads : ι → LockThread} {thread : ι} {locks locks' : LockManager}
  {next : LockThread}

/-- What the threads have after a turn, for any way to read a handle off a thread. -/
theorem update_threads (read : LockThread → Option RowLockHandle) {j : ι}
    {handle : RowLockHandle}
    (found : read (Function.update threads thread next j) = some handle) :
    (j = thread ∧ read next = some handle) ∨ (j ≠ thread ∧ read (threads j) = some handle) := by
  by_cases same : j = thread
  · subst same
    rw [Function.update_self] at found
    exact .inl ⟨rfl, found⟩
  · rw [Function.update_of_ne same] at found
    exact .inr ⟨same, found⟩

/-- A turn after which the thread has the handle it had, if any, changes nothing
that is said of handles. -/
theorem update_threads_same (read : LockThread → Option RowLockHandle)
    (same : read next = read (threads thread)) (j : ι) :
    read (Function.update threads thread next j) = read (threads j) := by
  by_cases own : j = thread
  · subst own
    rw [Function.update_self, same]
  · rw [Function.update_of_ne own]

theorem Keyed.turn (keyed : Keyed locks threads)
    (turn : LockTurn locks (threads thread) locks' next) :
    Keyed locks' (Function.update threads thread next) := by
  obtain ⟨keyOf, entries, handles⟩ := keyed
  cases turn with
  | keep fewer size locked wanted held =>
      refine ⟨keyOf, fun key lock entry => ?_, fun j handle found => ?_⟩
      · rw [size]
        exact entries key lock (fewer key lock entry)
      · rw [size]
        rw [update_threads_same LockThread.wanted wanted] at found
        exact handles j handle found
  | request key rest idle =>
      cases entry : locks.rowLocks key with
      | some lock =>
          simp only [LockManager.rowLock, entry]
          refine ⟨keyOf, fun other found present => ?_, fun j handle found => ?_⟩
          · rw [LockManager.length_clone]
            exact entries other found present
          · rw [LockManager.length_clone]
            rcases update_threads LockThread.wanted found with ⟨-, new⟩ | ⟨-, old⟩
            · cases new
              exact entries key lock entry
            · exact handles j handle old
      | none =>
          simp only [LockManager.rowLock, entry]
          refine ⟨Function.update keyOf locks.arcs.length key,
            fun other found present => ?_, fun j handle found => ?_⟩
          · simp only [List.length_append, List.length_singleton]
            dsimp only at present
            by_cases same : other = key
            · subst same
              rw [Function.update_self] at present
              cases present
              exact ⟨Nat.lt_succ_self _, Function.update_self _ _ _⟩
            · rw [Function.update_of_ne same] at present
              obtain ⟨inside, named⟩ := entries other found present
              exact ⟨inside.trans (Nat.lt_succ_self _),
                (Function.update_of_ne inside.ne _ _).trans named⟩
          · simp only [List.length_append, List.length_singleton]
            rcases update_threads LockThread.wanted found with ⟨-, new⟩ | ⟨-, old⟩
            · cases new
              exact ⟨Nat.lt_succ_self _, Function.update_self _ _ _⟩
            · obtain ⟨inside, named⟩ := handles j handle old
              exact ⟨inside.trans (Nat.lt_succ_self _),
                (Function.update_of_ne inside.ne _ _).trans named⟩
  | acquire handle waits free =>
      refine ⟨keyOf, fun key lock entry => ?_, fun j other found => ?_⟩
      · rw [LockManager.length_setLocked]
        exact entries key lock entry
      · rw [LockManager.length_setLocked]
        rcases update_threads LockThread.wanted found with ⟨rfl, new⟩ | ⟨-, old⟩
        · cases new
          exact handles j handle (LockThread.wanted_of_waiting waits)
        · exact handles j other old
  | release handle holds =>
      refine ⟨keyOf, fun key lock entry => ?_, fun j other found => ?_⟩
      · rw [LockManager.length_setLocked]
        exact entries key lock entry
      · rw [LockManager.length_setLocked]
        rcases update_threads LockThread.wanted found with ⟨-, new⟩ | ⟨-, old⟩
        · cases new
        · exact handles j other old

/-- A turn that takes and gives back no write lock keeps what is said of them. -/
theorem Locked.same (locked : Locked locks threads)
    (taken : ∀ lock, locks'.isLocked lock = locks.isLocked lock)
    (held : next.held = (threads thread).held) :
    Locked locks' (Function.update threads thread next) := by
  obtain ⟨holders, holds⟩ := locked
  have same := update_threads_same LockThread.held held
  constructor
  · intro lock isTaken
    obtain ⟨i, handle, has, names⟩ := holders lock ((taken lock).symm.trans isTaken)
    exact ⟨i, handle, (same i).trans has, names⟩
  · intro i handle has
    obtain ⟨isTaken, only⟩ := holds i handle ((same i).symm.trans has)
    refine ⟨(taken _).trans isTaken, fun j other hasToo names => ?_⟩
    exact only j other ((same j).symm.trans hasToo) names

/-- A thread that takes a free lock is the only one to hold it. -/
theorem Locked.acquire {handle : RowLockHandle} (locked : Locked locks threads)
    (allocated : handle.lock < locks.arcs.length)
    (waits : (threads thread).place = some (.waiting handle))
    (free : locks.isLocked handle.lock = false) :
    Locked (locks.setLocked handle.lock true)
      (Function.update threads thread
        { threads thread with place := some (.guarding handle) }) := by
  obtain ⟨holders, holds⟩ := locked
  have others : ∀ j other, (threads j).held = some other → other.lock ≠ handle.lock := by
    intro j other has names
    have taken := (holds j other has).1
    rw [names, free] at taken
    cases taken
  constructor
  · intro lock isTaken
    by_cases same : lock = handle.lock
    · exact ⟨thread, handle, by rw [Function.update_self]; rfl, same.symm⟩
    · rw [locks.isLocked_setLocked_of_ne _ _ true same] at isTaken
      obtain ⟨i, other, has, names⟩ := holders lock isTaken
      have elsewhere : i ≠ thread := by
        rintro rfl
        simp only [LockThread.held, waits, reduceCtorEq] at has
      exact ⟨i, other, by rwa [Function.update_of_ne elsewhere], names⟩
  · intro i found has
    rcases update_threads LockThread.held has with ⟨rfl, new⟩ | ⟨-, old⟩
    · cases new
      refine ⟨locks.isLocked_setLocked_self _ true allocated, fun j other hasToo names => ?_⟩
      rcases update_threads LockThread.held hasToo with ⟨same, -⟩ | ⟨-, old⟩
      · exact same
      · exact absurd names (others j other old)
    · have different := others i found old
      refine ⟨?_, fun j other hasToo names => ?_⟩
      · rw [locks.isLocked_setLocked_of_ne _ _ true different]
        exact (holds i found old).1
      · rcases update_threads LockThread.held hasToo with ⟨-, new⟩ | ⟨-, oldToo⟩
        · cases new
          exact absurd names.symm different
        · exact (holds i found old).2 j other oldToo names

/-- A lock that is given back was its thread's alone. -/
theorem Locked.release {handle : RowLockHandle} (locked : Locked locks threads)
    (allocated : handle.lock < locks.arcs.length)
    (has : (threads thread).held = some handle) :
    Locked (locks.setLocked handle.lock false)
      (Function.update threads thread
        { threads thread with place := some (.released handle) }) := by
  obtain ⟨holders, holds⟩ := locked
  obtain ⟨-, only⟩ := holds thread handle has
  constructor
  · intro lock isTaken
    by_cases same : lock = handle.lock
    · rw [same, locks.isLocked_setLocked_self _ false allocated] at isTaken
      cases isTaken
    · rw [locks.isLocked_setLocked_of_ne _ _ false same] at isTaken
      obtain ⟨i, other, hasToo, names⟩ := holders lock isTaken
      have elsewhere : i ≠ thread := by
        rintro rfl
        rw [has] at hasToo
        cases hasToo
        exact same names.symm
      exact ⟨i, other, by rwa [Function.update_of_ne elsewhere], names⟩
  · intro i found hasNow
    rcases update_threads LockThread.held hasNow with ⟨-, new⟩ | ⟨elsewhere, old⟩
    · cases new
    · have different : found.lock ≠ handle.lock :=
        fun names => elsewhere (only i found old names)
      refine ⟨?_, fun j other hasToo names => ?_⟩
      · rw [locks.isLocked_setLocked_of_ne _ _ false different]
        exact (holds i found old).1
      · rcases update_threads LockThread.held hasToo with ⟨-, new⟩ | ⟨-, oldToo⟩
        · cases new
        · exact (holds i found old).2 j other oldToo names

theorem Locked.turn (locked : Locked locks threads) (keyed : Keyed locks threads)
    (turn : LockTurn locks (threads thread) locks' next) :
    Locked locks' (Function.update threads thread next) := by
  obtain ⟨keyOf, -, handles⟩ := keyed
  cases turn with
  | keep fewer size taken wanted held => exact locked.same taken held
  | request key rest idle =>
      refine locked.same (locks.isLocked_rowLock · key) ?_
      rw [idle]
      rfl
  | acquire handle waits free =>
      exact locked.acquire (handles thread handle (LockThread.wanted_of_waiting waits)).1 waits free
  | release handle has =>
      exact locked.release (handles thread handle (LockThread.wanted_of_held has)).1 has

/-- A turn that makes no entry and gives the thread no new handle. -/
theorem OneLock.same (oneLock : OneLock locks threads)
    (fewer : ∀ key lock, locks'.rowLocks key = some lock → locks.rowLocks key = some lock)
    (wanted : ∀ handle, next.wanted = some handle → (threads thread).wanted = some handle) :
    OneLock locks' (Function.update threads thread next) := by
  obtain ⟨entries, handles⟩ := oneLock
  have before : ∀ j handle, (Function.update threads thread next j).wanted = some handle →
      (threads j).wanted = some handle := by
    intro j handle found
    rcases update_threads LockThread.wanted found with ⟨rfl, new⟩ | ⟨-, old⟩
    · exact wanted handle new
    · exact old
  constructor
  · intro lock j handle found entry
    exact entries lock j handle (before j handle found) (fewer _ _ entry)
  · intro i j handle other found foundToo
    exact handles i j handle other (before i handle found) (before j other foundToo)

/-- `row_lock`, when the handles of the row that are about have the lock of the
entry it finds or makes. -/
theorem OneLock.request (oneLock : OneLock locks threads) (key : RowKey) (rest : List RowKey)
    (fresh : locks.rowLocks key = none →
      ∀ j handle, (threads j).wanted = some handle → handle.key ≠ key) :
    OneLock (locks.rowLock key).2 (Function.update threads thread
      { place := some (.waiting (locks.rowLock key).1), program := rest }) := by
  obtain ⟨entries, handles⟩ := oneLock
  have named : (locks.rowLock key).1.key = key := by
    unfold LockManager.rowLock
    split <;> rfl
  have found : (locks.rowLock key).2.rowLocks key = some (locks.rowLock key).1.lock := by
    cases entry : locks.rowLocks key <;> simp [LockManager.rowLock, entry]
  have others : ∀ {other : RowKey}, other ≠ key →
      (locks.rowLock key).2.rowLocks other = locks.rowLocks other := by
    intro other different
    cases entry : locks.rowLocks key <;> simp [LockManager.rowLock, entry, different]
  have agrees : ∀ j handle, (threads j).wanted = some handle → handle.key = key →
      handle.lock = (locks.rowLock key).1.lock := by
    intro j handle wants same
    cases entry : locks.rowLocks key with
    | none => exact absurd same (fresh entry j handle wants)
    | some lock =>
        simp only [LockManager.rowLock, entry]
        exact entries lock j handle wants (same ▸ entry)
  constructor
  · intro lock j handle wants entry
    rcases update_threads LockThread.wanted wants with ⟨-, new⟩ | ⟨-, old⟩
    · cases new
      rw [named, found] at entry
      exact Option.some.inj entry
    · by_cases same : handle.key = key
      · rw [same, found] at entry
        exact (agrees j handle old same).trans (Option.some.inj entry)
      · rw [others same] at entry
        exact entries lock j handle old entry
  · intro i j handle other wants wantsToo same
    rcases update_threads LockThread.wanted wants with ⟨-, new⟩ | ⟨-, old⟩
    · cases new
      rcases update_threads LockThread.wanted wantsToo with ⟨-, new⟩ | ⟨-, old⟩
      · cases new
        rfl
      · exact (agrees j other old (same.symm.trans named)).symm
    · rcases update_threads LockThread.wanted wantsToo with ⟨-, new⟩ | ⟨-, oldToo⟩
      · cases new
        exact agrees i handle old (same.trans named)
      · exact handles i j handle other old oldToo same

theorem OneLock.turn (oneLock : OneLock locks threads)
    (fresh : ∀ key ∈ (threads thread).request, locks.rowLocks key = none →
      ∀ j, ∀ handle ∈ (threads j).wanted, handle.key ≠ key)
    (turn : LockTurn locks (threads thread) locks' next) :
    OneLock locks' (Function.update threads thread next) := by
  cases turn with
  | keep fewer size taken wanted held =>
      exact oneLock.same fewer fun handle found => wanted.symm.trans found
  | acquire handle waits free =>
      refine oneLock.same (fun _ _ entry => entry) fun other found => ?_
      cases found
      exact LockThread.wanted_of_waiting waits
  | release handle holds =>
      exact oneLock.same (fun _ _ entry => entry) fun other found => nomatch found
  | request key rest idle =>
      apply oneLock.request
      apply fresh
      rw [idle]
      rfl

end Invariants

section Runs

variable {ι : Type} [DecidableEq ι] (programs : ι → List RowKey) {schedule : List ι}

/-- In every run an allocation is the lock of one row, and it is locked exactly
when one thread holds it. -/
theorem run_locked (schedule : List ι) :
    let config := run lockStep (LockConfig.start programs) schedule
    Keyed config.shared config.threads ∧ Locked config.shared config.threads := by
  refine run_invariant lockStep (fun config => Keyed config.shared config.threads ∧
    Locked config.shared config.threads) ?_ ?_ schedule
  · rintro config thread ⟨keyed, locked⟩
    have turn := lockStep_turn config.shared (config.threads thread)
    exact ⟨keyed.turn turn, locked.turn keyed turn⟩
  · exact ⟨⟨fun _ => ("", 0), fun _ _ entry => (nomatch entry), fun _ _ wants => (nomatch wants)⟩,
      fun _ taken => (nomatch taken), fun _ _ has => (nomatch has)⟩

/-- **Row locks exclude each other** as long as no entry is made for a row while
a thread still waits for or has the lock of an earlier entry of it. -/
theorem row_locks_exclusive
    (fresh : Along lockStep LockConfig.FreshEntry (LockConfig.start programs) schedule) :
    LockConfig.Exclusive (run lockStep (LockConfig.start programs) schedule) := by
  have oneLock : OneLock (run lockStep (LockConfig.start programs) schedule).shared
      (run lockStep (LockConfig.start programs) schedule).threads := by
    refine fresh.run_invariant lockStep (fun config => OneLock config.shared config.threads) ?_ ?_
    · intro config thread met held
      exact held.turn met (lockStep_turn config.shared (config.threads thread))
    · exact ⟨fun _ _ _ wants => (nomatch wants), fun _ _ _ _ wants => (nomatch wants)⟩
  exact oneLock.exclusive (run_locked programs schedule).2

/-- Two threads that want the lock of one row, the second while the first has it. -/
theorem row_locks_exclusive_in_turn :
    LockConfig.Exclusive (run lockStep (LockConfig.start fun _ : Fin 2 => [("t", 1)])
      [0, 1, 0, 1, 0, 0, 0, 1, 0, 1]) :=
  row_locks_exclusive (fun _ : Fin 2 => [("t", 1)]) (by decide +kernel)

/-- The first thread reads two references; the second clones the `Arc` before the
first removes the entry, and the third makes an entry of its own: the second and
the third have the guard of the row together. -/
theorem eviction_race_shares_row :
    ¬LockConfig.Exclusive (run lockStep (LockConfig.start fun _ : Fin 3 => [("t", 1)])
      [0, 0, 0, 1, 0, 0, 2, 1, 2]) := by
  decide +kernel

/-- A thread that waits for a free lock takes it in its turn. -/
theorem advance_acquire {config : LockConfig ι} {i : ι} {handle : RowLockHandle}
    (waits : (config.threads i).place = some (.waiting handle))
    (free : config.shared.isLocked handle.lock = false) :
    ((advance lockStep config i).threads i).held = some handle ∧
      (advance lockStep config i).shared = config.shared.setLocked handle.lock true ∧
      ∀ j, j ≠ i → (advance lockStep config i).threads j = config.threads j := by
  have turn : lockStep config.shared (config.threads i) = {
      shared := config.shared.setLocked handle.lock true
      thread := { config.threads i with place := some (.guarding handle) }
      events := [] } := by
    simp only [lockStep, waits, free, Bool.false_eq_true, ite_false]
  simp only [advance, turn, Function.update_self]
  exact ⟨rfl, trivial, fun j elsewhere => Function.update_of_ne elsewhere _ _⟩

/-- A thread that has the lock of a row and another one that waits for a free
lock of the same row come to have the guard together. -/
theorem not_exclusive_of_two {config : LockConfig ι} {i j : ι} {handle other : RowLockHandle}
    (different : j ≠ i) (waits : (config.threads i).place = some (.waiting handle))
    (free : config.shared.isLocked handle.lock = false)
    (holds : (config.threads j).held = some other) (sameKey : other.key = handle.key) :
    ¬LockConfig.Exclusive (advance lockStep config i) := by
  intro exclusive
  obtain ⟨acquired, -, others⟩ := advance_acquire waits free
  rw [← others j different] at holds
  exact different (exclusive j i other holds handle acquired sameKey)

/-- The condition is exact: once an entry is made too early, two threads can come
to have the guard of the row. -/
theorem early_entry_breaks_exclusion (thread : ι)
    (early : ¬LockConfig.FreshEntry (run lockStep (LockConfig.start programs) schedule) thread) :
    ∃ later, ¬LockConfig.Exclusive
      (run lockStep (LockConfig.start programs) (schedule ++ thread :: later)) := by
  obtain ⟨⟨keyOf, -, handles⟩, holders, holds⟩ := run_locked programs schedule
  simp only [run_append]
  generalize run lockStep (LockConfig.start programs) schedule = config at *
  simp only [LockConfig.FreshEntry, not_forall, not_not] at early
  obtain ⟨key, requests, unmapped, i, handle, wants, sameKey⟩ := early
  have idle : (config.threads thread).place = none := by
    unfold LockThread.request at requests
    split at requests
    · assumption
    · cases requests
  have elsewhere : ∀ j other, (config.threads j).wanted = some other → j ≠ thread := by
    rintro j other wantsToo rfl
    simp only [LockThread.wanted, idle, reduceCtorEq] at wantsToo
  -- the thread gets a lock of its own, which is free
  let made : RowLockHandle := { key, lock := config.shared.arcs.length }
  have turn : ∃ rest, lockStep config.shared (config.threads thread) = {
      shared := (config.shared.rowLock key).2
      thread := { place := some (.waiting made), program := rest }
      events := [] } := by
    simp only [LockThread.request, idle] at requests
    cases program : (config.threads thread).program with
    | nil =>
        rw [program] at requests
        cases requests
    | cons first rest =>
        rw [program] at requests
        cases requests
        refine ⟨rest, ?_⟩
        simp only [lockStep, idle, program, LockManager.rowLock, unmapped, made]
  obtain ⟨rest, turn⟩ := turn
  have waits : ((advance lockStep config thread).threads thread).place = some (.waiting made) := by
    simp only [advance, turn, Function.update_self]
  have others : ∀ j, j ≠ thread →
      (advance lockStep config thread).threads j = config.threads j :=
    fun j away => Function.update_of_ne away _ _
  have locked : ∀ lock, (advance lockStep config thread).shared.isLocked lock =
      config.shared.isLocked lock := by
    intro lock
    simp only [advance, turn]
    exact config.shared.isLocked_rowLock lock key
  have free : config.shared.isLocked made.lock = false := config.shared.isLocked_of_le _ le_rfl
  cases taken : config.shared.isLocked handle.lock with
  | true =>
      obtain ⟨j, other, has, sameLock⟩ := holders handle.lock taken
      have otherWants := LockThread.wanted_of_held has
      have away := elsewhere j other otherWants
      have otherKey : other.key = made.key := by
        rw [← (handles j other otherWants).2, sameLock, (handles i handle wants).2, sameKey]
      refine ⟨[thread], not_exclusive_of_two away waits ((locked _).trans free) ?_ otherKey⟩
      rw [others j away]
      exact has
  | false =>
      have away := elsewhere i handle wants
      have waitsToo : (config.threads i).place = some (.waiting handle) := by
        rcases LockThread.waiting_or_held wants with waiting | has
        · exact waiting
        · rw [(holds i handle has).1] at taken
          cases taken
      have sameMade : handle.key = made.key := sameKey
      rw [← others i away] at waitsToo
      obtain ⟨acquired, shared, kept⟩ := advance_acquire waitsToo ((locked _).trans taken)
      refine ⟨[i, thread], not_exclusive_of_two away ?_ ?_ acquired sameMade⟩
      · rw [kept thread away.symm]
        exact waits
      · have allocated := (handles i handle wants).1
        rw [shared, LockManager.isLocked_setLocked_of_ne _ _ _ true allocated.ne', locked]
        exact free

end Runs

end MoodengSQL
