import Klyx.Kernel.BoundedWaiting
import Klyx.Kernel.SignalQueue

/-!
# Stopping and continuing tasks

A paused task is passed by every switch.  The scan handles the signals of the
tasks that it passes, so a paused task hears the signal that continues it, and
the one that ends it, without running.

**Results.**
* `stopped_frozen`: a paused task stays what it was.
* `continued_resumed`: a task that its signals leave running is resumed.
-/

namespace Klyx

open HaltingRun CyclicScan

/-- Signals that a paused task does not answer. -/
def Unheeded (sig : Sig) : Prop :=
  sig ≠ sigcont ∧ ¬ Fatal sig

instance (sig : Sig) : Decidable (Unheeded sig) :=
  inferInstanceAs (Decidable (_ ∧ _))

/-- No pending signal continues or ends the task. -/
def Task.Deaf (t : Task) : Prop :=
  ∀ sig ∈ t.pending, Unheeded sig

instance (t : Task) : Decidable t.Deaf :=
  inferInstanceAs (Decidable (∀ sig ∈ t.pending, _))

/-- The same task but for its queue of signals. -/
def SameButQueue (t t' : Task) : Prop :=
  t' = { t with
    signals := t'.signals
    signalsWriteHead := t'.signalsWriteHead
    signalsReadHead := t'.signalsReadHead
    signalsSize := t'.signalsSize }

/-- A live task that its pending signals leave running. -/
structure Task.Continued (t : Task) : Prop where
  live : t.status ≠ .dead
  spared : ∀ sig ∈ t.pending, ¬ Fatal sig
  running : pausedAfter t.paused t.pending = false

instance (t : Task) : Decidable t.Continued :=
  decidable_of_iff
    (t.status ≠ .dead ∧ (∀ sig ∈ t.pending, ¬ Fatal sig) ∧ pausedAfter t.paused t.pending = false)
    ⟨fun h => ⟨h.1, h.2.1, h.2.2⟩, fun h => ⟨h.live, h.spared, h.running⟩⟩

section Tasks

variable {t t' t'' : Task}

theorem SameButQueue.refl (t : Task) :
    SameButQueue t t := rfl

theorem SameButQueue.trans
    (h : SameButQueue t t')
    (h' : SameButQueue t' t'') :
    SameButQueue t t'' := by
  rw [SameButQueue, h', h]

theorem SameButQueue.status
    (h : SameButQueue t t') :
    t'.status = t.status := by
  rw [h]

theorem SameButQueue.paused
    (h : SameButQueue t t') :
    t'.paused = t.paused := by
  rw [h]

theorem sameButQueue_enqueue (t : Task) (sig : Sig) :
    SameButQueue t (t.enqueue sig) := rfl

/-- A signal that is not heeded leaves a paused task what it was. -/
theorem sameButQueue_handleFront
    (hpaused : t.paused = true)
    (hfront : Unheeded t.front) :
    SameButQueue t t.handleFront := by
  rcases t
  cases hpaused
  cases hd : disposition _ with
  | die text =>
      exact absurd ⟨text, hd⟩ hfront.2
  | cont =>
      exact absurd ((disposition_cont_iff _).mp hd) hfront.1
  | stop =>
      rw [handleFront_of hd]
      rfl
  | ignore =>
      rw [handleFront_of hd]
      rfl

/-- A flush does not change a paused task that heeds none of its signals. -/
theorem sameButQueue_flushed
    (hq : t.QueueValid)
    (hpaused : t.paused = true)
    (hdeaf : t.Deaf) :
    SameButQueue t t.flushed := by
  revert hq hpaused hdeaf
  refine flushed_induction
    (P := fun t r => t.QueueValid → t.paused = true → t.Deaf → SameButQueue t r) ?_ ?_ t
  · intro t _ _ _ _
    exact .refl t
  · intro t r hdel ih hq hpaused hdeaf
    have hpending := pending_eq_cons hq hdel.1
    have hround : SameButQueue t t.handleFront := by
      apply sameButQueue_handleFront hpaused
      apply hdeaf
      rw [hpending]
      exact List.mem_cons_self
    refine hround.trans (ih (handleFront_queueValid hq hdel.1) ?_ ?_)
    · rw [hround.paused, hpaused]
    · intro sig hsig
      apply hdeaf
      rw [hpending]
      exact List.mem_cons_of_mem _ hsig

/-- Once its signals are handled, a continued task can run. -/
theorem Task.Continued.runnable
    (h : t.Continued)
    (hsettled : ¬ t.Deliverable) :
    t.Runnable := by
  have hempty : t.pending = [] := by
    rw [pending_eq_nil_iff]
    by_contra hsize
    exact hsettled ⟨hsize, h.live⟩
  have hrunning := h.running
  rw [hempty] at hrunning
  exact ⟨h.live, hrunning⟩

end Tasks

section Steps

variable {e : Event} {k k' : Kernel} {q : Nat}

/-- A paused task is not the running one. -/
theorem currentTask_ne_of_paused
    (hinv : SchedInv k)
    (hpaused : (k.tasks q).paused = true) :
    k.currentTask ≠ q := by
  rintro rfl
  exact Bool.false_ne_true (hinv.runnable.2.symm.trans hpaused)

/-- A step does not change a paused task that heeds none of its signals. -/
theorem step_stopped
    (hreach : Reachable k)
    (hlive : (k.tasks q).status ≠ .dead)
    (hpaused : (k.tasks q).paused = true)
    (hdeaf : (k.tasks q).Deaf)
    (h : step k e = .ok k') :
    SameButQueue (k.tasks q) (k'.tasks q) := by
  have hother := currentTask_ne_of_paused hreach.schedInv hpaused
  have hbystander := reaction_bystander hother.symm (step_cases hreach.schedInv.tasking h)
  generalize k'.tasks q = t at hbystander
  cases hbystander with
  | same =>
      exact .refl _
  | flushed =>
      exact sameButQueue_flushed (hreach.queueValid .refl q) hpaused hdeaf
  | signalled sig _ =>
      exact sameButQueue_enqueue _ sig
  | created t _ hdead =>
      exact absurd hdead hlive

/-- A step leaves the pause flag of a live task alone or handles all its signals. -/
theorem step_paused
    (hinv : SchedInv k)
    (hlive : (k.tasks q).status ≠ .dead)
    (h : step k e = .ok k') :
    (k'.tasks q).paused = (k.tasks q).paused ∨ ¬ (k'.tasks q).Deliverable := by
  cases step_cases hinv.tasking h with
  | quiet h =>
      left
      rw [h.tasks]
  | create eip tty fs gs cs genericSegment yieldOnly _ h =>
      left
      rw [h, schedMakeTask_live _ _ _ _ _ _ _ hlive]
  | queue pid sig _ _ h =>
      left
      rw [h]
      exact schedKillTask_paused k pid sig q
  | setuid uid _ h | setgid gid _ h =>
      left
      rw [h, Kernel.modifyTask_tasks]
      refine update_slot (P := fun t => t.paused = (k.tasks q).paused) (fun _ => rfl) ?_
      rintro rfl
      rfl
  | switch k₁ regs regs' hprep h =>
      rcases schedNextTask_switched h with ⟨k₂, m, hswitched⟩
      by_cases hown : q = k₁.currentTask
      · right
        rw [hown, hswitched.current]
        exact flushed_not_deliverable _
      · have hother : q ≠ k.currentTask := by
          rwa [← prepared_currentTask hprep]
        rcases hswitched.other hown with hsame | hflushed
        · left
          rw [hsame, prepared_other hother hprep]
        · right
          rw [hflushed]
          exact flushed_not_deliverable _

/-- A task that can run and is meant to go on running can run after a step. -/
theorem step_runnable
    (hinv : SchedInv k)
    (hrun : (k.tasks q).Runnable)
    (hcontinued : (k'.tasks q).Continued)
    (h : step k e = .ok k') :
    (k'.tasks q).Runnable := by
  rcases step_paused hinv hrun.1 h with hsame | hsettled
  · exact ⟨hcontinued.live, hsame.trans hrun.2⟩
  · exact hcontinued.runnable hsettled

/-- A switch stops before a slot, comes to it, or handles all signals of its task. -/
theorem step_passes
    (hinv : SchedInv k)
    (hq : q < tasksCap)
    (hswitches : e.Switches k)
    (h : step k e = .ok k') :
    ahead tasksCap k'.currentTask q < ahead tasksCap k.currentTask q ∨ k'.currentTask = q ∨
      ¬ (k'.tasks q).Deliverable := by
  rcases step_switched hinv hswitches h with ⟨k₁, k₂, regs, m, -, hswitched, hslot⟩
  have hcur := hinv.currentTask_lt
  have hnext : k'.currentTask = slotAfter tasksCap k.currentTask m := by
    rw [hswitched.next, hslot]
  rcases Nat.lt_trichotomy m (ahead tasksCap k.currentTask q) with hbefore | hreached | hpast
  · left
    have hnear := ahead_slotAfter hcur hq hbefore
    rw [hnext]
    omega
  · right; left
    rw [hnext, hreached, slotAfter_ahead hcur hq]
  · right; right
    have hvisited := hswitched.visited _ hpast
    rw [hslot, slotAfter_ahead hcur hq] at hvisited
    rw [hvisited]
    exact flushed_not_deliverable _

end Steps

theorem servedSlots_cons {e : Event} {k k₁ : Kernel} {es : List Event}
    (h : step k e = .ok k₁) :
    servedSlots k (e :: es) =
      if e.Switches k then k₁.currentTask :: servedSlots k₁ es else servedSlots k₁ es := by
  simp only [servedSlots, h]

/-- **A stopped task is frozen**: in every run in which no signal that would continue or
end it reaches its queue, it is never resumed, and nothing but that queue changes.  No
program, and no buffer of a system call, writes to the kernel's memory. -/
theorem stopped_frozen {k k' : Kernel} {es : List Event} {q : Nat}
    (hreach : Reachable k)
    (hlive : (k.tasks q).status ≠ .dead)
    (hpaused : (k.tasks q).paused = true)
    (hdeaf : Throughout step (fun k _ => (k.tasks q).Deaf) k es)
    (h : run step k es = .ok k') :
    SameButQueue (k.tasks q) (k'.tasks q) ∧ q ∉ servedSlots k es ∧ k'.currentTask ≠ q := by
  induction es generalizing k with
  | nil =>
      cases h
      exact ⟨.refl _, List.not_mem_nil, currentTask_ne_of_paused hreach.schedInv hpaused⟩
  | cons e es ih =>
      rcases (run_cons_eq_ok step).mp h with ⟨k₁, hstep, hrest⟩
      rcases hdeaf with ⟨hhere, hlater⟩
      have hsame := step_stopped hreach hlive hpaused hhere hstep
      have hpaused₁ : (k₁.tasks q).paused = true := hsame.paused.trans hpaused
      have hreach₁ := hreach.step hstep
      have hother := currentTask_ne_of_paused hreach₁.schedInv hpaused₁
      rcases ih hreach₁ (by rwa [hsame.status]) hpaused₁ (hlater k₁ hstep) hrest with
        ⟨hsame', hserved, hcur⟩
      refine ⟨hsame.trans hsame', ?_, hcur⟩
      rw [servedSlots_cons hstep]
      split
      · exact List.not_mem_cons_of_ne_of_not_mem hother.symm hserved
      · exact hserved

/-- Init stops task 1, which is then passed and signalled again. -/
def whileStopped : List Event :=
  [.timer default, .killTask ⟨1, by decide⟩ sigstop, .timer default, .timer default,
    userCall 4 0 0, .timer default, .fault default "" sigtrap]

theorem stopped_frozen_sample :
    ∃ k k', runFromBoot Image.sample default
        [userCall 12 2 14, userCall 4 0 0, userCall 4 0 0] = .ok k ∧
      run step k whileStopped = .ok k' ∧ SameButQueue (k.tasks 1) (k'.tasks 1) ∧
      1 ∉ servedSlots k whileStopped := by
  obtain ⟨k, hboot, hlive, hpaused, hdeaf, hreturns⟩ := exists_of_returnsWith
    (x := runFromBoot Image.sample default [userCall 12 2 14, userCall 4 0 0, userCall 4 0 0])
    (p := fun k => (k.tasks 1).status ≠ .dead ∧ (k.tasks 1).paused = true ∧
      Throughout step (fun k _ => (k.tasks 1).Deaf) k whileStopped ∧
      returnsWith (run step k whileStopped) (fun _ => True) = true)
    (by decide +kernel)
  obtain ⟨k', hrun, -⟩ := exists_of_returnsWith hreturns
  obtain ⟨hsame, hserved, -⟩ := stopped_frozen ⟨_, _, _, hboot⟩ hlive hpaused hdeaf hrun
  exact ⟨k, k', hboot, hrun, hsame, hserved⟩

/-- Every live task is left running by its pending signals. -/
def AllContinued (k : Kernel) : Prop :=
  ∀ pid, pid < tasksCap → (k.tasks pid).status ≠ .dead → (k.tasks pid).Continued

instance (k : Kernel) : Decidable (AllContinued k) :=
  inferInstanceAs (Decidable (∀ pid, pid < tasksCap → _))

section AllContinued

variable {k k' : Kernel} {t : Task}

theorem Task.Continued.not_doomed
    (h : t.Continued) :
    ¬ t.Doomed := by
  rintro ⟨-, sig, hmem, hfatal⟩
  exact h.spared sig hmem hfatal

theorem continued_flushed
    (hq : t.QueueValid)
    (h : t.Continued) :
    t.flushed.Continued := by
  have hlive : t.flushed.status ≠ .dead := by
    rw [Ne, flushed_dead_iff hq]
    rintro (hdead | hdoomed)
    · exact h.live hdead
    · exact h.not_doomed hdoomed
  have hempty : t.flushed.pending = [] := by
    rw [pending_eq_nil_iff]
    by_contra hsize
    exact flushed_not_deliverable t ⟨hsize, hlive⟩
  refine ⟨hlive, by simp [hempty], ?_⟩
  rw [hempty, flushed_paused hq h.live h.not_doomed, h.running]
  rfl

theorem continued_store (regs : IntRegs) :
    (t.store regs).Continued ↔ t.Continued :=
  ⟨fun h => ⟨h.live, h.spared, h.running⟩, fun h => ⟨h.live, h.spared, h.running⟩⟩

/-- When its signals leave every task running, a switch returns. -/
theorem schedNextTask_returns
    (hreach : Reachable k)
    (hall : AllContinued k)
    (regs : IntRegs) :
    ∃ r, schedNextTask k regs = .ok r := by
  have hinv := hreach.schedInv
  have hvalid : ∀ q, (k.tasks q).QueueValid := fun q => Reachable.queueValid hreach .refl q
  have hcur : k.current.Continued := hall _ hinv.currentTask_lt hinv.runnable.1
  have houtcome := schedNextTask_outcome k regs
  generalize schedNextTask k regs = result at houtcome
  cases houtcome with
  | initDied k' _ _ hdoomed =>
      exact absurd (hdoomed (hvalid k.currentTask)) hcur.not_doomed
  | scanned k₁ _ hflush _ hscan =>
      have hown : k₁.tasks k.currentTask = (k.current.store regs).flushed := by
        rw [hflush.tasks, Function.update_self, saveCurrent_current]
      cases hscan with
      | resumed m k₂ hm hskip hrun =>
          exact ⟨_, rfl⟩
      | gaveUp k₂ hskip =>
          -- the scan has come back to the running task, which can run
          have hlt : k₁.currentTask < tasksCap := by
            rw [hflush.currentTask, saveCurrent_currentTask]
            exact hinv.currentTask_lt
          have hblocked := (hskip.all_visited hlt hinv.currentTask_lt).2
          have hstored : (k.current.store regs).flushed.Continued :=
            continued_flushed (hvalid k.currentTask) ((continued_store regs).mpr hcur)
          rw [hown] at hblocked
          exact absurd (hstored.runnable (flushed_not_deliverable _)) hblocked
      | initDied m regs' k₂ _ _ hdel hdoomed =>
          by_cases hzero : 0 = k.currentTask
          · rw [hzero, hown] at hdel
            exact absurd hdel (flushed_not_deliverable _)
          · rw [flushed_other hflush hzero] at hdoomed
            have hinit := hall 0 (by decide) hinv.init_live
            exact absurd (hdoomed (hvalid 0)) hinit.not_doomed

/-- A switch leaves a continued task continued. -/
theorem schedNextTask_continued {pid : Nat} {regs regs' : IntRegs}
    (hreach : Reachable k)
    (hcontinued : (k.tasks pid).Continued)
    (h : schedNextTask k regs = .ok (k', regs')) :
    (k'.tasks pid).Continued := by
  have hvalid : ∀ q, (k.tasks q).QueueValid := fun q => Reachable.queueValid hreach .refl q
  rcases schedNextTask_switched h with ⟨k₁, m, hswitched⟩
  by_cases hown : pid = k.currentTask
  · subst hown
    rw [hswitched.current]
    exact continued_flushed (hvalid k.currentTask) ((continued_store regs).mpr hcontinued)
  · rcases hswitched.other hown with hsame | hflushed
    · rwa [hsame]
    · rw [hflushed]
      exact continued_flushed (hvalid pid) hcontinued

theorem schedNextTask_dead {pid : Nat} {regs regs' : IntRegs}
    (hdead : (k.tasks pid).status = .dead)
    (h : schedNextTask k regs = .ok (k', regs')) :
    (k'.tasks pid).status = .dead := by
  rcases schedNextTask_switched h with ⟨k₁, m, hswitched⟩
  by_cases hown : pid = k.currentTask
  · subst hown
    rw [hswitched.current, flushed_dead_of_dead]
    · exact hdead
    · exact hdead
  · rcases hswitched.other hown with hsame | hflushed
    · rwa [hsame]
    · rwa [hflushed, flushed_dead_of_dead hdead]

/-- Then any number of switches returns, and each resumes a task. -/
theorem nextTasks_allContinued {q : Nat}
    (hq : q < tasksCap)
    (hreach : Reachable k)
    (hall : AllContinued k)
    (hlive : (k.tasks q).status ≠ .dead)
    (frames : List IntRegs) :
    Throughout step (fun k _ => (k.tasks q).Continued) k (frames.map .nextTask) ∧
      (∃ k', run step k (frames.map .nextTask) = .ok k') ∧
      (servedSlots k (frames.map .nextTask)).length = frames.length := by
  induction frames generalizing k with
  | nil =>
      exact ⟨trivial, ⟨k, rfl⟩, rfl⟩
  | cons regs frames ih =>
      rcases schedNextTask_returns hreach hall regs with ⟨⟨k₁, regs₁⟩, hcall⟩
      have hstep : step k (.nextTask regs) = .ok k₁ := map_eq_ok.mpr ⟨_, hcall, rfl⟩
      have hall₁ : AllContinued k₁ := by
        intro pid hpid hlive₁
        have hlive : (k.tasks pid).status ≠ .dead :=
          fun hdead => hlive₁ (schedNextTask_dead hdead hcall)
        exact schedNextTask_continued hreach (hall pid hpid hlive) hcall
      have hcontinued := hall q hq hlive
      have hlive₁ := (schedNextTask_continued hreach hcontinued hcall).live
      rcases ih (hreach.step hstep) hall₁ hlive₁ with ⟨hcont, ⟨k', hrun⟩, hlen⟩
      refine ⟨⟨hcontinued, ?_⟩, ⟨k', ?_⟩, ?_⟩
      · intro k₂ hstep₂
        rw [hstep] at hstep₂
        cases hstep₂
        exact hcont
      · exact (run_cons_eq_ok step).mpr ⟨k₁, hstep, hrun⟩
      · rw [List.map_cons, servedSlots_cons hstep, if_pos (by trivial), List.length_cons, hlen,
          List.length_cons]

end AllContinued

section Continued

variable {k k' : Kernel} {es : List Event} {q : Nat}

/-- A task that can run and is meant to go on running can run throughout. -/
theorem throughout_runnable
    (hinv : SchedInv k)
    (hrun : (k.tasks q).Runnable)
    (hcontinued : Throughout step (fun k _ => (k.tasks q).Continued) k es) :
    Throughout step (fun k _ => (k.tasks q).Runnable) k es := by
  induction es generalizing k with
  | nil =>
      exact trivial
  | cons e es ih =>
      refine ⟨hrun, ?_⟩
      intro k₁ hstep
      have hlater := hcontinued.2 k₁ hstep
      cases es with
      | nil =>
          exact trivial
      | cons e' es =>
          exact ih (step_schedInv hinv hstep) (step_runnable hinv hrun hlater.1 hstep) hlater

theorem runnable_resumed
    (hreach : Reachable k)
    (hq : q < tasksCap)
    (hrun : (k.tasks q).Runnable)
    (hcontinued : Throughout step (fun k _ => (k.tasks q).Continued) k es)
    (h : run step k es = .ok k')
    (hlong : tasksCap ≤ (servedSlots k es).length) :
    q ∈ servedSlots k es := by
  have hrunnable := throughout_runnable hreach.schedInv hrun hcontinued
  have hahead : ahead tasksCap k.currentTask q < tasksCap := ahead_lt hq
  exact List.mem_of_mem_take (bounded_waiting hreach hq hrunnable h (by omega))

/-- One round may go by until a paused task hears its signals, and one more until it is
resumed. -/
theorem continued_resumed_ahead
    (hreach : Reachable k)
    (hq : q < tasksCap)
    (hcontinued : Throughout step (fun k _ => (k.tasks q).Continued) k es)
    (h : run step k es = .ok k')
    (hlong : ahead tasksCap k.currentTask q + 1 + tasksCap ≤ (servedSlots k es).length) :
    q ∈ servedSlots k es := by
  induction es generalizing k with
  | nil =>
      exact absurd hlong (by simp [servedSlots])
  | cons e es ih =>
      by_cases hrun : (k.tasks q).Runnable
      · exact runnable_resumed hreach hq hrun hcontinued h (by omega)
      rcases (run_cons_eq_ok step).mp h with ⟨k₁, hstep, hrest⟩
      have hinv := hreach.schedInv
      have hreach₁ := hreach.step hstep
      have hlater := hcontinued.2 k₁ hstep
      rw [servedSlots_cons hstep] at hlong ⊢
      by_cases hswitches : e.Switches k
      · rw [if_pos hswitches] at hlong ⊢
        rw [List.length_cons] at hlong
        rcases step_passes hinv hq hswitches hstep with hnear | hcur | hsettled
        · exact List.mem_cons_of_mem _ (ih hreach₁ hlater hrest (by omega))
        · rw [hcur]
          exact List.mem_cons_self
        · -- the scan has gone past the task, which has heard its signals
          have hrun₁ : (k₁.tasks q).Runnable := by
            cases es with
            | nil =>
                exact absurd hlong (by simp [servedSlots, tasksCap])
            | cons e' es =>
                exact hlater.1.runnable hsettled
          exact List.mem_cons_of_mem _
            (runnable_resumed hreach₁ hq hrun₁ hlater hrest (by omega))
      · rw [if_neg hswitches] at hlong ⊢
        apply ih hreach₁ hlater hrest
        rwa [currentTask_of_not_switches hswitches hstep]

/-- **A continued task is resumed**: a live task whose pending signals neither end it nor
leave it stopped gets a turn within two rounds of switches, stopped or not.  No program,
and no buffer of a system call, writes to the kernel's memory. -/
theorem continued_resumed
    (hreach : Reachable k)
    (hq : q < tasksCap)
    (hcontinued : Throughout step (fun k _ => (k.tasks q).Continued) k es)
    (h : run step k es = .ok k')
    (hlong : 2 * tasksCap ≤ (servedSlots k es).length) :
    q ∈ servedSlots k es := by
  have hahead : ahead tasksCap k.currentTask q < tasksCap := ahead_lt hq
  exact continued_resumed_ahead hreach hq hcontinued h (by omega)

end Continued

/-- Task 1 is stopped, and then sent `SIGCONT`. -/
theorem continued_resumed_sample :
    ∃ k, runFromBoot Image.sample default
        [userCall 12 2 14, userCall 4 0 0, userCall 4 0 0, .killTask ⟨1, by decide⟩ sigcont] =
          .ok k ∧
      (k.tasks 1).paused = true ∧
      1 ∈ servedSlots k ((List.replicate (2 * tasksCap) default).map .nextTask) := by
  obtain ⟨k, hboot, hpaused, hlive, hall⟩ := exists_of_returnsWith
    (x := runFromBoot Image.sample default
      [userCall 12 2 14, userCall 4 0 0, userCall 4 0 0, .killTask ⟨1, by decide⟩ sigcont])
    (p := fun k => (k.tasks 1).paused = true ∧ (k.tasks 1).status ≠ .dead ∧ AllContinued k)
    (by decide +kernel)
  have hreach : Reachable k := ⟨_, _, _, hboot⟩
  obtain ⟨hcontinued, ⟨k', hrun⟩, hlength⟩ := nextTasks_allContinued (q := 1) (by decide) hreach
    hall hlive (List.replicate (2 * tasksCap) default)
  rw [List.length_replicate] at hlength
  exact ⟨k, hboot, hpaused, continued_resumed hreach (by decide) hcontinued hrun hlength.ge⟩

end Klyx
