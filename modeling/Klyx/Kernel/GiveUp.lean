import Klyx.Kernel.ScanOutcome
import Klyx.Kernel.SignalQueue

/-!
# When the kernel gives up

`sched_next_task` panics with "no avaliable processes" when a full round of its
scan resumes nothing.  The scan also handles the signals of the paused tasks it
passes, and a task that this wakes up is not looked at again: the kernel gives
up although that task could run.

**Results.**
* `gaveUp_iff`: the states in which the kernel gives up.
* `gaveUp_runnable_iff`: the tasks that can run when it does.
* `givesUpRightly_iff`: when giving up is justified.
-/

namespace Klyx

open HaltingRun CyclicScan

/-- A task that can run once its pending signals have been handled. -/
def Task.Awake (t : Task) : Prop :=
  t.status ≠ .dead ∧ ¬ t.Doomed ∧ pausedAfter t.paused t.pending = false

/-- At the panic of `sched_next_task`, every slot is dead or paused. -/
def GivesUpRightly (k : Kernel) (regs : IntRegs) : Prop :=
  ∀ regs' k', schedNextTask k regs = .error (.panic noProcesses regs' k') →
    ∀ pid, pid < tasksCap → (k'.tasks pid).status = .dead ∨ (k'.tasks pid).paused = true

/-- The states from which giving up is never wrong: another task can run, the
running task still can once its signals are handled, handling signals ends
init, or no stopped task is about to wake up. -/
def NoLateWaker (k : Kernel) : Prop :=
  (∃ pid, pid < tasksCap ∧ pid ≠ k.currentTask ∧ (k.tasks pid).Runnable) ∨
  k.current.Awake ∨
  (k.tasks 0).Doomed ∨
  ∀ pid, pid < tasksCap → pid ≠ k.currentTask → ¬ (k.tasks pid).Awake

section Tables

variable {k k' : Kernel} {regs regs' : IntRegs}

theorem flushed_runnable_iff {t : Task}
    (hq : t.QueueValid) :
    t.flushed.Runnable ↔ t.Awake := by
  have hdead := flushed_dead_iff hq
  constructor
  · rintro ⟨hlive, hpaused⟩
    have hboth : ¬ (t.status = .dead ∨ t.Doomed) := fun h => hlive (hdead.mpr h)
    obtain ⟨hlive', hsafe⟩ := not_or.mp hboth
    rw [flushed_paused hq hlive' hsafe] at hpaused
    exact ⟨hlive', hsafe, hpaused⟩
  · rintro ⟨hlive, hsafe, hpaused⟩
    refine ⟨?_, ?_⟩
    · intro h
      rcases hdead.mp h with hd | hd
      · exact hlive hd
      · exact hsafe hd
    · rw [flushed_paused hq hlive hsafe]
      exact hpaused

theorem not_runnable_iff (t : Task) :
    ¬ t.Runnable ↔ t.status = .dead ∨ t.paused = true := by
  unfold Task.Runnable
  cases t.paused <;> simp

/-- Storing registers before the flush does not matter to the flags after it. -/
theorem flushed_current_runnable_iff {k₁ : Kernel}
    (hq : k.current.QueueValid)
    (h : Flushed k.currentTask (k.saveCurrent regs) k₁) :
    (k₁.tasks k.currentTask).Runnable ↔ k.current.Awake := by
  rw [h.tasks, Function.update_self, saveCurrent_current,
    flushed_runnable_iff ((store_queueValid _ regs).mpr hq)]
  exact Iff.rfl

theorem noProcesses_ne : noProcesses ≠ "Attempt to kill init." := by
  decide

/-- Giving up means that the flush returned and the scan skipped every slot. -/
theorem gaveUp_inv
    (h : schedNextTask k regs = .error (.panic noProcesses regs' k')) :
    ∃ k₁, Flushed k.currentTask (k.saveCurrent regs) k₁ ∧
      (k.currentTask = 0 → k.current.QueueValid → ¬ k.current.Doomed) ∧
      Skipped k₁ tasksCap k' := by
  have houtcome := schedNextTask_outcome k regs
  generalize schedNextTask k regs = result at h houtcome
  cases houtcome with
  | initDied k₂ _ _ _ =>
      have hmsg := (Halt.panic.inj (Except.error.inj h)).1
      exact absurd hmsg.symm noProcesses_ne
  | scanned k₁ result hflush hsafe hscan =>
      refine ⟨k₁, hflush, hsafe, ?_⟩
      cases hscan with
      | resumed m k₂ _ _ _ =>
          cases h
      | gaveUp k₂ hskip =>
          cases h
          exact hskip
      | initDied m regs₂ k₂ _ _ _ _ =>
          have hmsg := (Halt.panic.inj (Except.error.inj h)).1
          exact absurd hmsg.symm noProcesses_ne

/-- Init is not about to die when the flush of the running task has returned. -/
theorem init_safe_after_flush {k₁ : Kernel}
    (hflush : Flushed k.currentTask (k.saveCurrent regs) k₁)
    (hsafe : ¬ (k.tasks 0).Doomed) :
    ¬ (k₁.tasks 0).Doomed := by
  intro hdoomed
  by_cases hinit : 0 = k.currentTask
  · rw [hflush.tasks, hinit, Function.update_self] at hdoomed
    exact flushed_not_deliverable _ hdoomed.deliverable
  · rw [flushed_other hflush hinit] at hdoomed
    exact hsafe hdoomed

theorem queueValid_after_flush {k₁ : Kernel}
    (hq : ∀ pid, (k.tasks pid).QueueValid)
    (hflush : Flushed k.currentTask (k.saveCurrent regs) k₁)
    (pid : Nat) :
    (k₁.tasks pid).QueueValid := by
  by_cases hother : pid = k.currentTask
  · subst hother
    rw [hflush.tasks, Function.update_self, saveCurrent_current]
    exact flushed_queueValid (hq k.currentTask)
  · rw [flushed_other hflush hother]
    exact hq pid

/-- The kernel gives up when nothing can run and init is not about to die. -/
theorem gaveUp_iff
    (hcur : k.currentTask < tasksCap)
    (hq : ∀ pid, (k.tasks pid).QueueValid) :
    (∃ regs' k', schedNextTask k regs = .error (.panic noProcesses regs' k')) ↔
      (∀ pid, pid < tasksCap → pid ≠ k.currentTask → ¬ (k.tasks pid).Runnable) ∧
      ¬ k.current.Awake ∧ ¬ (k.tasks 0).Doomed := by
  constructor
  · rintro ⟨regs', k', h⟩
    obtain ⟨k₁, hflush, hsafe, hskip⟩ := gaveUp_inv h
    have hcur₁ : k₁.currentTask < tasksCap := by
      rw [hflush.currentTask]
      exact hcur
    refine ⟨?_, ?_, ?_⟩
    · intro pid hpid hother
      rw [← flushed_other hflush hother]
      exact (hskip.all_visited hcur₁ hpid).2
    · rw [← flushed_current_runnable_iff (hq _) hflush]
      exact (hskip.all_visited hcur₁ hcur).2
    · -- init is flushed at the start when it is the running task, else by the scan
      by_cases hinit : k.currentTask = 0
      · have hsafe' := hsafe hinit (hq _)
        unfold Kernel.current at hsafe'
        rwa [hinit] at hsafe'
      · obtain ⟨j, hj, hslot⟩ := exists_slotAfter (s := 0) hcur₁ (Nat.zero_lt_succ _)
        rw [← flushed_other hflush (Ne.symm hinit)]
        exact hskip.safe j hj hslot (queueValid_after_flush hq hflush 0)
  · rintro ⟨hothers, hcurrent, hinit⟩
    have houtcome := schedNextTask_outcome k regs
    generalize schedNextTask k regs = result at houtcome
    cases houtcome with
    | initDied k₂ hzero _ hdoomed =>
        have hdoomed' := hdoomed (hq _)
        unfold Kernel.current at hdoomed'
        rw [hzero] at hdoomed'
        exact absurd hdoomed' hinit
    | scanned k₁ result hflush _ hscan =>
        cases hscan with
        | resumed m k₂ _ _ hrun =>
            -- the last try of the scan is the slot that it started from
            by_cases hother : k₁.slot m = k.currentTask
            · rw [hother, flushed_current_runnable_iff (hq _) hflush] at hrun
              exact absurd hrun hcurrent
            · rw [flushed_other hflush hother] at hrun
              exact absurd hrun (hothers _ (slot_lt _ _) hother)
        | gaveUp k₂ _ =>
            exact ⟨regs, k₂, rfl⟩
        | initDied m regs₂ k₂ _ _ _ hdoomed =>
            have hdoomed' := hdoomed (queueValid_after_flush hq hflush 0)
            exact absurd hdoomed' (init_safe_after_flush hflush hinit)

/-- The tasks that can run when the kernel gives up. -/
theorem gaveUp_runnable_iff {pid : Nat}
    (hcur : k.currentTask < tasksCap)
    (hq : ∀ pid, (k.tasks pid).QueueValid)
    (h : schedNextTask k regs = .error (.panic noProcesses regs' k'))
    (hpid : pid < tasksCap) :
    (k'.tasks pid).Runnable ↔ pid ≠ k.currentTask ∧ (k.tasks pid).Awake := by
  obtain ⟨k₁, hflush, -, hskip⟩ := gaveUp_inv h
  have hcur₁ : k₁.currentTask < tasksCap := by
    rw [hflush.currentTask]
    exact hcur
  obtain ⟨hvisited, hblocked⟩ := hskip.all_visited hcur₁ hpid
  rw [hvisited]
  by_cases hother : pid = k.currentTask
  · have hidem : (k₁.tasks pid).flushed = k₁.tasks pid := by
      rw [hflush.tasks, hother, Function.update_self, flushed_flushed]
    rw [hidem]
    exact iff_of_false hblocked (fun hr => hr.1 hother)
  · rw [flushed_other hflush hother, flushed_runnable_iff (hq pid)]
    exact (and_iff_right hother).symm

/-- Giving up is justified in exactly the states described by `NoLateWaker`. -/
theorem givesUpRightly_iff
    (hcur : k.currentTask < tasksCap)
    (hq : ∀ pid, (k.tasks pid).QueueValid) :
    GivesUpRightly k regs ↔ NoLateWaker k := by
  constructor
  · intro hright
    by_contra hnot
    simp only [NoLateWaker, not_or, not_exists, not_and, not_forall] at hnot
    obtain ⟨hothers, hcurrent, hinit, pid, hpid, hother, hawake⟩ := hnot
    have hgaveUp : ∃ regs' k', schedNextTask k regs = .error (.panic noProcesses regs' k') :=
      (gaveUp_iff hcur hq).mpr ⟨hothers, hcurrent, hinit⟩
    obtain ⟨regs', k', h⟩ := hgaveUp
    have hrun : (k'.tasks pid).Runnable :=
      (gaveUp_runnable_iff hcur hq h hpid).mpr ⟨hother, not_not.mp hawake⟩
    exact (not_runnable_iff _).mpr (hright regs' k' h pid hpid) hrun
  · intro hno regs' k' h pid hpid
    obtain ⟨hothers, hcurrent, hinit⟩ := (gaveUp_iff hcur hq).mp ⟨regs', k', h⟩
    rw [← not_runnable_iff, gaveUp_runnable_iff hcur hq h hpid]
    rintro ⟨hother, hawake⟩
    rcases hno with ⟨q, hq', hne, hrun⟩ | hcurrent' | hinit' | hnone
    · exact hothers q hq' hne hrun
    · exact hcurrent hcurrent'
    · exact hinit hinit'
    · exact hnone pid hpid hother hawake

end Tables

/-- **The calls of `sched_next_task` after which giving up is justified.** -/
theorem gives_up_rightly_iff_no_late_waker (k k₁ : Kernel) (e : Event) (regs : IntRegs)
    (h : Reachable k)
    (hcall : Prepared e k k₁) :
    GivesUpRightly k₁ regs ↔ NoLateWaker k₁ := by
  have hinv := h.schedInv
  have hacts : Actions True k k₁ :=
    actions_mono (fun _ => trivial) (prepared_actions hinv.runnable.1 hcall).1
  refine givesUpRightly_iff ?_ (h.queueValid hacts)
  rw [prepared_currentTask hcall]
  exact hinv.currentTask_lt

/-- Right after booting the next task can run. -/
theorem gives_up_rightly_iff_no_late_waker_sample :
    ∃ k, runFromBoot Image.sample default [] = .ok k ∧ GivesUpRightly k default := by
  obtain ⟨k, hrun, hother, hnext⟩ := exists_of_returnsWith
    (x := runFromBoot Image.sample default [])
    (p := fun k => 1 ≠ k.currentTask ∧ (k.tasks 1).Runnable) (by decide +kernel)
  refine ⟨k, hrun, ?_⟩
  rw [gives_up_rightly_iff_no_late_waker k k (.nextTask default) default ⟨_, _, _, hrun⟩
    (.direct rfl)]
  exact Or.inl ⟨1, by decide, hother, hnext⟩

/-- The kernel has given up although the task in a slot can run. -/
def gaveUpOn (pid : Nat) (result : Exec (Kernel × IntRegs)) : Bool :=
  match result with
  | .error (.panic msg _ k) => decide (msg = noProcesses ∧ (k.tasks pid).Runnable)
  | _ => false

theorem of_gaveUpOn {pid : Nat} {result : Exec (Kernel × IntRegs)}
    (h : gaveUpOn pid result = true) :
    ∃ regs k, result = .error (.panic noProcesses regs k) ∧ (k.tasks pid).Runnable := by
  rcases result with (⟨msg, regs, k⟩ | k) | ⟨k, regs⟩
  · obtain ⟨rfl, hrun⟩ := of_decide_eq_true h
    exact ⟨regs, k, rfl, hrun⟩
  · cases h
  · cases h

/-- All tasks but init are stopped, then task 1 is continued and init stops
itself: init's yield wakes task 1 up and panics. -/
theorem gives_up_on_late_waker :
    ¬ ∀ k, Reachable k → ∀ regs, GivesUpRightly k regs := by
  intro hall
  obtain ⟨k, hrun, hgaveUp⟩ := exists_of_returnsWith
    (x := runFromBoot Image.sample default
      [userCall 12 2 14, userCall 12 3 14, userCall 12 4 14, userCall 12 5 14,
        userCall 4 0 0, userCall 4 0 0, userCall 4 0 0, userCall 4 0 0, userCall 4 0 0,
        userCall 12 2 5, userCall 12 1 14])
    (p := fun k => gaveUpOn 1 (schedNextTask k { (default : IntRegs) with eax := 4 }) = true)
    (by decide +kernel)
  obtain ⟨regs', k', hpanic, hlive, hawake⟩ := of_gaveUpOn hgaveUp
  rcases hall k ⟨_, _, _, hrun⟩ _ regs' k' hpanic 1 (by decide) with hdead | hpaused
  · exact hlive hdead
  · rw [hawake] at hpaused
    cases hpaused

end Klyx
