import Klyx.Kernel.RoundRobin
import Klyx.Kernel.VirtualProcessor

/-!
# Bounded waiting

Whatever else happens, a task that can run is not kept waiting for more switches than
there are slots ahead of it.  Signals may be sent and handled meanwhile, and other
tasks may be stopped, continued, killed and created: a switch goes past a slot only if
the task in it cannot run when the switch begins.

**Results.**
* `step_switch`: a switch does not go past a task that can run.
* `bounded_waiting`: the wait of a task that can run.
-/

namespace Klyx

open HaltingRun CyclicScan

/-- The slots that the switches of a run resume. -/
def servedSlots : Kernel → List Event → List Nat
  | _, [] => []
  | k, e :: es =>
      match step k e with
      | .error _ => []
      | .ok k' =>
          if e.Switches k then k'.currentTask :: servedSlots k' es else servedSlots k' es

section Steps

variable {e : Event} {k k' : Kernel}

/-- An event that switches prepares the switch and makes it. -/
theorem prepared_of_switches
    (htasking : k.isTaskingAvaliable = true)
    (hswitches : e.Switches k)
    (h : step k e = .ok k') :
    ∃ k₁ regs regs', Prepared e k k₁ ∧ schedNextTask k₁ regs = .ok (k', regs') := by
  rcases react_of_step h with ⟨frame, hreact⟩
  rcases frame_of_switches hswitches with ⟨regs, hframe⟩
  rcases react_frame hframe hreact with ⟨regs', rfl⟩
  rcases react_prepared htasking hframe hswitches hreact with ⟨k₁, hprep, hcall⟩
  exact ⟨k₁, regs, regs', hprep, hcall⟩

/-- The other events leave the running task running. -/
theorem currentTask_of_not_switches
    (hswitches : ¬ e.Switches k)
    (h : step k e = .ok k') :
    k'.currentTask = k.currentTask := by
  rcases react_of_step h with ⟨frame, hreact⟩
  cases e with
  | makeTask eip tty fs gs cs genericSegment yieldOnly =>
      cases h
      exact schedMakeTask_currentTask eip tty fs gs cs genericSegment yieldOnly
  | killTask pid sig =>
      cases h
      exact schedKillTask_currentTask k pid sig
  | timer | syscall | fault | nextTask =>
      rcases react_frame rfl hreact with ⟨regs', rfl⟩
      exact (react_same rfl hswitches hreact).current

/-- An event that switches makes one scan, from the slot after the running task. -/
theorem step_switched
    (hinv : SchedInv k)
    (hswitches : e.Switches k)
    (h : step k e = .ok k') :
    ∃ k₁ k₂ regs m, Prepared e k k₁ ∧ Switched k₁ regs k₂ m k' ∧
      ∀ j, k₂.slot j = slotAfter tasksCap k.currentTask j := by
  rcases prepared_of_switches hinv.tasking hswitches h with ⟨k₁, regs, regs', hprep, hcall⟩
  rcases schedNextTask_switched hcall with ⟨k₂, m, hswitched⟩
  refine ⟨k₁, k₂, regs, m, hprep, hswitched, ?_⟩
  intro j
  rw [Kernel.slot, hswitched.flushed.currentTask, saveCurrent_currentTask,
    prepared_currentTask hprep]

/-- **A switch does not go past a task that can run when it begins.** -/
theorem step_switch {q : Nat}
    (hinv : SchedInv k)
    (hswitches : e.Switches k)
    (hrun : (k.tasks q).Runnable)
    (h : step k e = .ok k') :
    ∃ m, m < tasksCap ∧ k'.currentTask = slotAfter tasksCap k.currentTask m ∧
      ∀ j, j < m → slotAfter tasksCap k.currentTask j ≠ q := by
  rcases step_switched hinv hswitches h with ⟨k₁, k₂, regs, m, hprep, hswitched, hslot⟩
  refine ⟨m, hswitched.short, by rw [hswitched.next, hslot], ?_⟩
  intro j hj hq
  by_cases hown : q = k.currentTask
  · -- the scan comes to the running task last
    have hm := hswitched.short
    have hlast : slotAfter tasksCap k.currentTask j =
        slotAfter tasksCap k.currentTask (tasksCap - 1) := by
      rw [hq, hown, slotAfter_last hinv.currentTask_lt]
    have hj' := slotAfter_injective (by omega) (by omega) hlast
    omega
  · have hblocked := hswitched.blocked j hj
    have hother : q ≠ k₁.currentTask := by
      rw [prepared_currentTask hprep]
      exact hown
    rw [hslot, hq, flushed_other hswitched.flushed hother, prepared_other hown hprep] at hblocked
    exact hblocked hrun

end Steps

/-- Along a run, the switches never go past a task that can run throughout. -/
theorem neverPasses_servedSlots {q : Nat} {k k' : Kernel} {es : List Event}
    (hinv : SchedInv k)
    (hrunnable : Throughout step (fun k _ => (k.tasks q).Runnable) k es)
    (h : run step k es = .ok k') :
    NeverPasses tasksCap q k.currentTask (servedSlots k es) := by
  induction es generalizing k with
  | nil =>
      exact trivial
  | cons e es ih =>
      rcases (run_cons_eq_ok step).mp h with ⟨k₁, hstep, hrest⟩
      rcases hrunnable with ⟨hrun, hlater⟩
      have hnext := ih (step_schedInv hinv hstep) (hlater k₁ hstep) hrest
      simp only [servedSlots, hstep]
      split
      · rename_i hswitches
        exact ⟨step_switch hinv hswitches hrun hstep, hnext⟩
      · rename_i hswitches
        rw [currentTask_of_not_switches hswitches hstep] at hnext
        exact hnext

/-- **No task that can run is kept waiting**: in every run of timer ticks, system calls,
faults, signals and task creations, a task that is live and not paused throughout is
resumed before the number of switches exceeds that of the slots ahead of it.  No program,
and no buffer of a system call, writes to the kernel's memory. -/
theorem bounded_waiting {k k' : Kernel} {es : List Event} {q : Nat}
    (hreach : Reachable k)
    (hq : q < tasksCap)
    (hrunnable : Throughout step (fun k _ => (k.tasks q).Runnable) k es)
    (h : run step k es = .ok k')
    (hlong : ahead tasksCap k.currentTask q < (servedSlots k es).length) :
    q ∈ (servedSlots k es).take (ahead tasksCap k.currentTask q + 1) :=
  mem_stops hreach.schedInv.currentTask_lt hq
    (neverPasses_servedSlots hreach.schedInv hrunnable h) hlong

/-- A yield, a signal that stops the task of slot 2, and two ticks. -/
def stopThenTicks : List Event :=
  [userCall 4 0 0, .killTask ⟨2, by decide⟩ sigstop, .timer default, .timer default]

/-- Two slots are ahead of slot 3 after booting. -/
theorem bounded_waiting_sample :
    ∃ k, runFromBoot Image.sample default [] = .ok k ∧
      3 ∈ (servedSlots k stopThenTicks).take 3 := by
  obtain ⟨k, hboot, hahead, hrunnable, hreturns, hlong⟩ := exists_of_returnsWith
    (x := runFromBoot Image.sample default [])
    (p := fun k => ahead tasksCap k.currentTask 3 = 2 ∧
      Throughout step (fun k _ => (k.tasks 3).Runnable) k stopThenTicks ∧
      returnsWith (run step k stopThenTicks) (fun k' => k'.currentTask = 3) = true ∧
      (servedSlots k stopThenTicks).length = 3)
    (by decide +kernel)
  obtain ⟨k', hrun, -⟩ := exists_of_returnsWith hreturns
  have hserved := bounded_waiting ⟨_, _, _, hboot⟩ (by decide) hrunnable hrun
    (by rw [hahead, hlong]; decide)
  rw [hahead] at hserved
  exact ⟨k, hboot, hserved⟩

end Klyx
