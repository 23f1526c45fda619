import Klyx.Lib.LawfulRun
import Mathlib.Logic.Function.Basic

/-!
# Locks

`klyx/mutex.h`.  A lock holds the slot number of its owner, and 0 when it is
free.  `mutex_lock` takes a free lock and does nothing otherwise, so a task first
waits with `mutex_wait_unlock` and then calls `mutex_lock`.  Another task may
take the lock between the two.

**Results.**
* `LockInv.step`: while every call of `mutex_lock` finds a free lock, the lock
  names the task that is in its critical section.
* `mutual_exclusion_iff`: there is never more than one such task exactly if
  every call of `mutex_lock` finds a free lock.
* `lock_ownership_iff`: a task that has taken a lock keeps it until it calls
  `mutex_unlock`, unless it is init.
-/

namespace Klyx

open LawfulRun

/-- `mutex_lock`, as the value that it leaves in the lock. -/
def mutexLock (currentTask M : Nat) : Nat :=
  if M = 0 then currentTask else M

/-- `mutex_unlock`. -/
def mutexUnlock (currentTask M : Nat) : Nat :=
  if M = currentTask then 0 else M

/-- `mutex_wait_unlock` reads the lock until it is free. -/
def mutexWaitUnlockReturns (M : Nat) : Bool :=
  M = 0

theorem mutexLock_free (currentTask : Nat) :
    mutexLock currentTask 0 = currentTask := rfl

theorem mutexUnlock_owner (currentTask : Nat) :
    mutexUnlock currentTask currentTask = 0 :=
  if_pos rfl

/-- A task other than init. -/
abbrev NonInit := { pid : Nat // pid ≠ 0 }

/-- What a task does next: it waits for the lock, calls `mutex_lock`, or leaves
its critical section by `mutex_unlock`. -/
inductive LockPc where
  | waiting
  | locking
  | critical
deriving DecidableEq

/-- A lock and the tasks that use it. -/
structure LockState where
  lock : Nat
  pc : NonInit → LockPc

namespace LockState

/-- The next step of a task.  After the critical section it starts over. -/
def step (s : LockState) (task : NonInit) : LockState :=
  match s.pc task with
  | .waiting =>
      if mutexWaitUnlockReturns s.lock then { s with pc := Function.update s.pc task .locking }
      else s
  | .locking =>
      { lock := mutexLock task s.lock, pc := Function.update s.pc task .critical }
  | .critical =>
      { lock := mutexUnlock task s.lock, pc := Function.update s.pc task .waiting }

/-- The tasks take steps in the order of a schedule. -/
def run (s : LockState) (schedule : List NonInit) : LockState :=
  schedule.foldl step s

/-- The lock is free, and every task is about to wait for it. -/
def Initial (s : LockState) : Prop :=
  s.lock = 0 ∧ ∀ task, s.pc task = .waiting

/-- At most one task is in its critical section. -/
def Exclusive (s : LockState) : Prop :=
  ∀ i j, s.pc i = .critical → s.pc j = .critical → i = j

/-- If the next step of a task is `mutex_lock`, it finds a free lock. -/
def LocksFree (s : LockState) (task : NonInit) : Prop :=
  s.pc task = .locking → s.lock = 0

instance (s : LockState) (task : NonInit) : Decidable (s.LocksFree task) :=
  inferInstanceAs (Decidable (_ → _))

end LockState

section Exclusion

/-- The lock names the task that is in its critical section. -/
def LockInv (s : LockState) : Prop :=
  ∀ task, s.pc task = .critical ↔ s.lock = task.val

namespace LockInv

variable {s : LockState} {task : NonInit}

theorem of_initial
    (h : s.Initial) :
    LockInv s := by
  intro task
  have hfree : s.lock ≠ task.val := by
    rw [h.1]
    exact task.property.symm
  simp only [h.2 task, hfree, reduceCtorEq]

theorem exclusive
    (h : LockInv s) :
    s.Exclusive := by
  intro i j hi hj
  have hlock : s.lock = i.val := (h i).mp hi
  exact Subtype.ext (hlock.symm.trans ((h j).mp hj))

/-- A lock that is not free has an owner in its critical section. -/
theorem owner
    (h : LockInv s)
    (hlock : s.lock ≠ 0) :
    ∃ i : NonInit, s.pc i = .critical :=
  ⟨⟨s.lock, hlock⟩, (h ⟨s.lock, hlock⟩).mpr rfl⟩

/-- A task that moves about outside its critical section. -/
theorem update_pc {pc : LockPc}
    (h : LockInv s)
    (hpc : s.pc task ≠ .critical)
    (hnext : pc ≠ .critical) :
    LockInv { s with pc := Function.update s.pc task pc } := by
  intro i
  dsimp only
  by_cases hi : i = task
  · subst hi
    have hlock : s.lock ≠ i.val := fun heq => hpc ((h i).mpr heq)
    simp only [Function.update_self, hnext, hlock]
  · rw [Function.update_of_ne hi]
    exact h i

/-- A task takes a free lock. -/
theorem lock
    (h : LockInv s)
    (hfree : s.lock = 0) :
    LockInv { lock := mutexLock task s.lock, pc := Function.update s.pc task .critical } := by
  intro i
  rw [hfree, mutexLock_free]
  dsimp only
  by_cases hi : i = task
  · subst hi
    simp only [Function.update_self]
  · have hnot : s.lock ≠ i.val := by
      rw [hfree]
      exact i.property.symm
    have hout : s.pc i ≠ .critical := fun heq => hnot ((h i).mp heq)
    have hother : task.val ≠ i.val := fun heq => hi (Subtype.ext heq.symm)
    rw [Function.update_of_ne hi]
    exact iff_of_false hout hother

/-- The owner frees the lock. -/
theorem unlock
    (h : LockInv s)
    (hpc : s.pc task = .critical) :
    LockInv { lock := mutexUnlock task s.lock, pc := Function.update s.pc task .waiting } := by
  have hlock : s.lock = task.val := (h task).mp hpc
  intro i
  rw [hlock, mutexUnlock_owner]
  dsimp only
  have hnot : 0 ≠ i.val := i.property.symm
  by_cases hi : i = task
  · subst hi
    simp only [Function.update_self, hnot, reduceCtorEq]
  · have hout : s.pc i ≠ .critical := fun heq => hi (h.exclusive i task heq hpc)
    rw [Function.update_of_ne hi]
    exact iff_of_false hout hnot

/-- **Step lemma.** -/
theorem step
    (h : LockInv s)
    (hfree : s.LocksFree task) :
    LockInv (s.step task) := by
  unfold LockState.step
  cases hpc : s.pc task with
  | waiting =>
      dsimp only
      split
      · exact h.update_pc (by simp [hpc]) (by simp)
      · exact h
  | locking =>
      exact h.lock (hfree hpc)
  | critical =>
      exact h.unlock hpc

/-- A call of `mutex_lock` that finds the lock taken puts a second task into its
critical section. -/
theorem locksFree_of_exclusive
    (h : LockInv s)
    (hnext : (s.step task).Exclusive) :
    s.LocksFree task := by
  intro hpc
  by_contra hlock
  obtain ⟨i, hi⟩ := h.owner hlock
  have hne : i ≠ task := by
    rintro rfl
    rw [hpc] at hi
    cases hi
  have hstep : (s.step task).pc = Function.update s.pc task .critical := by
    simp only [LockState.step, hpc]
  refine hne (hnext i task ?_ ?_)
  · rw [hstep, Function.update_of_ne hne, hi]
  · rw [hstep, Function.update_self]

end LockInv

end Exclusion

/-- **Mutual exclusion** holds in every state of a run exactly if every call of
`mutex_lock` in it finds a free lock. -/
theorem mutual_exclusion_iff {s : LockState}
    (hinit : s.Initial)
    (schedule : List NonInit) :
    (∀ n, (s.run (schedule.take n)).Exclusive) ↔
      ∀ n (hn : n < schedule.length), (s.run (schedule.take n)).LocksFree schedule[n] := by
  have hinv : LockInv s := LockInv.of_initial hinit
  -- as long as the locks are free, the invariant relates each state to itself
  have hlaw : ∀ (s t : LockState) (task : NonInit), s = t ∧ LockInv s → True →
      ((s.step task).Exclusive ↔ t.LocksFree task) := by
    rintro s t task ⟨rfl, h⟩ -
    exact ⟨h.locksFree_of_exclusive, fun hfree => (h.step hfree).exclusive⟩
  have hnext : ∀ (s t : LockState) (task : NonInit), s = t ∧ LockInv s → True →
      t.LocksFree task → s.step task = t.step task ∧ LockInv (s.step task) := by
    rintro s t task ⟨rfl, h⟩ - hfree
    exact ⟨rfl, h.step hfree⟩
  have hsteps := along_iff hlaw hnext ⟨rfl, hinv⟩ (along_of_forall (fun _ _ => trivial) s schedule)
  unfold LockState.run
  rw [forall_take_iff, hsteps, along_iff_forall_get]
  exact and_iff_right hinv.exclusive

/-- A free lock that every task is about to wait for. -/
def freeLock : LockState where
  lock := 0
  pc := fun _ => .waiting

/-- The second task waits in vain until the first one unlocks. -/
theorem mutual_exclusion_sample :
    let first : NonInit := ⟨1, by decide⟩
    let second : NonInit := ⟨2, by decide⟩
    let schedule := [first, first, second, first, second, second, second]
    ∀ n, (freeLock.run (schedule.take n)).Exclusive := by
  intro first second schedule
  refine (mutual_exclusion_iff ⟨rfl, fun _ => rfl⟩ schedule).mpr ?_
  decide

/-- Two tasks both see the lock free before either of them takes it. -/
theorem both_in_critical_section :
    let first : NonInit := ⟨1, by decide⟩
    let second : NonInit := ⟨2, by decide⟩
    let t := freeLock.run [first, second, first, second]
    t.pc first = .critical ∧ t.pc second = .critical ∧ ¬ t.Exclusive := by
  intro first second t
  have hfirst : t.pc first = .critical := rfl
  have hsecond : t.pc second = .critical := rfl
  refine ⟨hfirst, hsecond, fun h => ?_⟩
  exact absurd (h first second hfirst hsecond) (by decide)

/-! ### Ownership -/

inductive LockCall where
  | lock
  | unlock
deriving DecidableEq

/-- The value that a call leaves in the lock. -/
def LockCall.apply (call : LockCall) (currentTask M : Nat) : Nat :=
  match call with
  | .lock => mutexLock currentTask M
  | .unlock => mutexUnlock currentTask M

/-- The lock after a sequence of calls, each by the task of a slot. -/
def afterCalls (M : Nat) (calls : List (Nat × LockCall)) : Nat :=
  calls.foldl (fun M call => call.2.apply call.1 M) M

section Ownership

variable {owner task : Nat}

theorem mutexLock_held {M : Nat}
    (h : M ≠ 0)
    (currentTask : Nat) :
    mutexLock currentTask M = M :=
  if_neg h

/-- No call of another task changes a lock that is held. -/
theorem apply_held (call : LockCall)
    (howner : owner ≠ 0)
    (htask : task ≠ owner) :
    call.apply task owner = owner := by
  cases call with
  | lock =>
      exact mutexLock_held howner task
  | unlock =>
      exact if_neg htask.symm

theorem afterCalls_held {calls : List (Nat × LockCall)}
    (howner : owner ≠ 0)
    (hcalls : ∀ call ∈ calls, call.1 ≠ owner) :
    afterCalls owner calls = owner := by
  induction calls with
  | nil =>
      rfl
  | cons call calls ih =>
      have hfirst : call.2.apply call.1 owner = owner :=
        apply_held call.2 howner (hcalls call List.mem_cons_self)
      change afterCalls (call.2.apply call.1 owner) calls = owner
      rw [hfirst]
      exact ih (fun call hcall => hcalls call (List.mem_cons_of_mem _ hcall))

/-- A task holds a lock: a waiting task waits on, another `mutex_lock` does
nothing, and `mutex_unlock` by the task frees it. -/
def HoldsLock (owner M : Nat) : Prop :=
  mutexWaitUnlockReturns M = false ∧
  (∀ other, other ≠ owner → mutexLock other M = M) ∧
  mutexUnlock owner M = 0

theorem holdsLock_owner
    (howner : owner ≠ 0) :
    HoldsLock owner owner := by
  refine ⟨?_, fun other _ => mutexLock_held howner other, mutexUnlock_owner owner⟩
  simp only [mutexWaitUnlockReturns, howner, decide_false]

end Ownership

/-- **Lock ownership**: a task that takes a free lock holds it after any calls of
other tasks exactly if it is not init. -/
theorem lock_ownership_iff (task : Nat) :
    (∀ calls : List (Nat × LockCall), (∀ call ∈ calls, call.1 ≠ task) →
      HoldsLock task (afterCalls (mutexLock task 0) calls)) ↔ task ≠ 0 := by
  rw [mutexLock_free]
  constructor
  · rintro h rfl
    have hheld : HoldsLock 0 0 := h [] (by simp)
    exact absurd hheld.1 (by decide)
  · intro htask calls hcalls
    rw [afterCalls_held htask hcalls]
    exact holdsLock_owner htask

/-- The lock of init looks free, and another task takes it. -/
theorem init_holds_no_lock :
    ¬ HoldsLock 0 (afterCalls (mutexLock 0 0) []) ∧
    mutexWaitUnlockReturns (mutexLock 0 0) = true ∧
    afterCalls (mutexLock 0 0) [(1, .lock)] = 1 := by
  refine ⟨fun h => ?_, rfl, rfl⟩
  exact absurd h.1 (by decide)

end Klyx
