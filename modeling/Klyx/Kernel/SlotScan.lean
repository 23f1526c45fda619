import Klyx.Kernel.SignalDelivery

/-!
# The scan for the next task

The five hand-written register blocks of the scheduler copy every register to
the one of the same name, so copying out and back is the identity.  With that,
one try of the scan either resumes the slot, passes a dead slot, or flushes a
paused one (`schedScan_succ`), and `schedScan_rule` is the proof rule for all
of them.
-/

namespace Klyx

open HaltingRun

/-- The interrupt frame that holds a task's registers under the same names. -/
def Regs.frame (r : Regs) : IntRegs where
  gs := r.gs
  fs := r.fs
  es := r.es
  ss := r.ss
  ds := r.ds
  edi := r.edi
  esi := r.esi
  ebp := r.ebp
  esp := r.esp
  ebx := r.ebx
  edx := r.edx
  ecx := r.ecx
  eax := r.eax
  eip := r.eip
  cs := r.cs
  eflags := r.eflags

@[simp] theorem resumeFrom_eq_frame (regs : IntRegs) (r : Regs) :
    regs.resumeFrom r = r.frame := rfl

@[simp] theorem copyOut_eq_frame (vregs : IntRegs) (r : Regs) :
    vregs.copyOut r = r.frame := rfl

@[simp] theorem startFrom_eq_frame (regs : IntRegs) (r : Regs) :
    regs.startFrom r = r.frame := rfl

@[simp] theorem frame_saveFrom (r : Regs) (regs : IntRegs) :
    (r.saveFrom regs).frame = regs := rfl

@[simp] theorem copyBack_frame (r : Regs) :
    r.copyBack r.frame = r := rfl

section Projections

variable (k : Kernel) (regs : IntRegs)

@[simp] theorem advance_tasks : k.advance.tasks = k.tasks := rfl

@[simp] theorem advance_currentTask :
    k.advance.currentTask = (k.currentTask + 1) % tasksCap := rfl

@[simp] theorem saveCurrent_tasks :
    (k.saveCurrent regs).tasks =
      Function.update k.tasks k.currentTask
        { k.current with regs := k.current.regs.saveFrom regs } := rfl

@[simp] theorem saveCurrent_currentTask :
    (k.saveCurrent regs).currentTask = k.currentTask := rfl

@[simp] theorem saveCurrent_history :
    (k.saveCurrent regs).history = .saved k.currentTask regs :: k.history := rfl

end Projections

/-- Resume the task of the current slot. -/
def Kernel.resume (k : Kernel) : Kernel :=
  k.note (.resumed k.currentTask k.current.regs.frame)

theorem modifyTask_of_fixed {k : Kernel} {pid : Nat} {f : Task → Task}
    (h : f (k.tasks pid) = k.tasks pid) :
    k.modifyTask pid f = k := by
  unfold Kernel.modifyTask Kernel.setTask
  rw [h, Function.update_eq_self]

/-- Copying the registers back after a flush changes nothing. -/
theorem copyBack_of_flushed {pid : Nat} {k k' : Kernel}
    (h : Flushed pid k k') :
    k'.modifyTask pid (fun t => { t with regs := t.regs.copyBack (k.tasks pid).regs.frame }) =
      k' := by
  have hregs : (k.tasks pid).regs = (k'.tasks pid).regs := by
    rw [h.tasks, Function.update_self, flushed_regs]
  apply modifyTask_of_fixed
  rw [hregs, copyBack_frame]

theorem runnable_iff (k : Kernel) :
    k.current.Runnable ↔
      (k.tasks k.currentTask).status ≠ .dead ∧ ¬ (k.tasks k.currentTask).paused = true := by
  simp [Task.Runnable, Kernel.current]

/-- One try of the scan. -/
theorem schedScan_succ (regs : IntRegs) (tries : Nat) (k : Kernel) :
    schedScan regs (tries + 1) k =
      if k.advance.current.Runnable then
        .ok (k.advance.resume, k.advance.current.regs.frame)
      else if k.advance.current.status ≠ .dead then
        flushSignals k.advance.currentTask k.advance.current.regs.frame k.advance >>=
          schedScan regs tries
      else schedScan regs tries k.advance := by
  rw [schedScan]
  dsimp only
  by_cases hrun : k.advance.current.Runnable
  · rw [if_pos hrun, if_pos ((runnable_iff _).mp hrun), resumeFrom_eq_frame]
    rfl
  · rw [if_neg hrun, if_neg (fun h => hrun ((runnable_iff _).mpr h))]
    unfold Kernel.current
    split
    · rw [copyOut_eq_frame]
      cases hflush : flushSignals k.advance.currentTask
          (k.advance.tasks k.advance.currentTask).regs.frame k.advance with
      | error e =>
          rfl
      | ok k' =>
          simp only [bind, Except.bind]
          rw [copyBack_of_flushed (flushSignals_ok hflush)]
    · rfl

/-- Proof rule for the scan: an invariant that may count the tries left. -/
theorem schedScan_rule {regs : IntRegs} {I : Nat → Kernel → Prop}
    {Q : Exec (Kernel × IntRegs) → Prop}
    (hgiveUp : ∀ k, I 0 k → Q (.error (.panic noProcesses regs k)))
    (hresume : ∀ n k, I (n + 1) k → k.advance.current.Runnable →
      Q (.ok (k.advance.resume, k.advance.current.regs.frame)))
    (hdead : ∀ n k, I (n + 1) k → k.advance.current.status = .dead → I n k.advance)
    (hpaused : ∀ n k, I (n + 1) k → ¬ k.advance.current.Runnable →
      k.advance.current.status ≠ .dead → ∀ regs' k',
        flushSignals k.advance.currentTask regs' k.advance = .ok k' → I n k')
    (hpanic : ∀ n k, I (n + 1) k → ¬ k.advance.current.Runnable →
      k.advance.current.status ≠ .dead → ∀ regs' e,
        flushSignals k.advance.currentTask regs' k.advance = .error e → Q (.error e))
    {n : Nat} {k : Kernel}
    (hinit : I n k) :
    Q (schedScan regs n k) := by
  induction n generalizing k with
  | zero =>
      exact hgiveUp k hinit
  | succ n ih =>
      rw [schedScan_succ]
      split
      · rename_i hrun
        exact hresume n k hinit hrun
      · rename_i hrun
        split
        · rename_i hlive
          cases hflush : flushSignals k.advance.currentTask k.advance.current.regs.frame
              k.advance with
          | error e =>
              exact hpanic n k hinit hrun hlive _ e hflush
          | ok k' =>
              exact ih (hpaused n k hinit hrun hlive _ k' hflush)
        · rename_i hdead'
          exact ih (hdead n k hinit (not_not.mp hdead'))

/-- Proof rule for the scans that resume a task. -/
theorem schedScan_ok_rule {regs : IntRegs} {I : Nat → Kernel → Prop}
    {Q : Kernel → IntRegs → Prop}
    (hresume : ∀ n k, I (n + 1) k → k.advance.current.Runnable →
      Q k.advance.resume k.advance.current.regs.frame)
    (hdead : ∀ n k, I (n + 1) k → k.advance.current.status = .dead → I n k.advance)
    (hpaused : ∀ n k, I (n + 1) k → ¬ k.advance.current.Runnable →
      k.advance.current.status ≠ .dead → ∀ regs' k',
        flushSignals k.advance.currentTask regs' k.advance = .ok k' → I n k')
    {n : Nat} {k k' : Kernel} {regs' : IntRegs}
    (hinit : I n k)
    (h : schedScan regs n k = .ok (k', regs')) :
    Q k' regs' := by
  have hrule : ∀ k' regs', schedScan regs n k = .ok (k', regs') → Q k' regs' := by
    refine schedScan_rule (I := I)
      (Q := fun x => ∀ k' regs', x = .ok (k', regs') → Q k' regs')
      ?_ ?_ hdead hpaused ?_ hinit
    · intro _ _ _ _ heq
      cases heq
    · intro n k hI hrun k' regs' heq
      cases heq
      exact hresume n k hI hrun
    · intro _ _ _ _ _ _ _ _ _ _ heq
      cases heq
  exact hrule k' regs' h

/-- A call of `sched_next_task` that returns is a flush of the running task
followed by a scan that resumes a task. -/
theorem schedNextTask_ok {k k' : Kernel} {regs regs' : IntRegs}
    (h : schedNextTask k regs = .ok (k', regs')) :
    ∃ k₁, flushSignals k.currentTask regs (k.saveCurrent regs) = .ok k₁ ∧
      Flushed k.currentTask (k.saveCurrent regs) k₁ ∧
      schedScan regs tasksCap k₁ = .ok (k', regs') := by
  obtain ⟨k₁, hflush, hscan⟩ := bind_eq_ok.mp h
  exact ⟨k₁, hflush, flushSignals_ok hflush, hscan⟩

end Klyx
