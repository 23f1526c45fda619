import Klyx.Kernel.BoundedWaiting
import Klyx.Lib.ProcessTable

/-!
# The scheduler is a process table

Seen from outside, a task is free, ready, running or stopped.  Every event of the
kernel is a step of the table of these states: queueing a signal is no step at all,
and a switch takes the processor from the running task, makes of the stopped tasks
that it goes past what their signals say, and runs the next ready one.

**Results.**
* `step_processes`: an event is a step of the table.
* `process_table`: what follows for whole runs.
-/

namespace Klyx

open HaltingRun CyclicScan ProcessTable

/-- The state of the task in a slot. -/
def Kernel.processes (k : Kernel) (q : Nat) : ProcState :=
  if (k.tasks q).status = .dead then .free
  else if q = k.currentTask then .running
  else if (k.tasks q).paused then .stopped
  else .ready

section Processes

variable {e : Event} {k k' : Kernel} {q : Nat}

theorem processes_eq_free :
    k.processes q = .free ↔ (k.tasks q).status = .dead := by
  unfold Kernel.processes
  split
  · rename_i hdead
    exact iff_of_true rfl hdead
  · rename_i hlive
    refine iff_of_false ?_ hlive
    split
    · exact ProcState.noConfusion
    · split <;> exact ProcState.noConfusion

theorem processes_eq_running
    (hinv : SchedInv k) :
    k.processes q = .running ↔ q = k.currentTask := by
  unfold Kernel.processes
  split
  · rename_i hdead
    refine iff_of_false ProcState.noConfusion ?_
    rintro rfl
    exact hinv.runnable.1 hdead
  · split
    · rename_i hcur
      exact iff_of_true rfl hcur
    · rename_i hother
      refine iff_of_false ?_ hother
      split <;> exact ProcState.noConfusion

/-- A task that is not running, by its structure. -/
theorem processes_other
    (hother : q ≠ k.currentTask) :
    k.processes q =
      if (k.tasks q).status = .dead then .free
      else if (k.tasks q).paused then .stopped else .ready := by
  simp only [Kernel.processes, hother, if_false]

/-- The states do not change with the rest of the task structures. -/
theorem processes_congr
    (hcur : k'.currentTask = k.currentTask)
    (hsame : ∀ q, (k'.tasks q).status = (k.tasks q).status ∧
      (k'.tasks q).paused = (k.tasks q).paused) :
    k'.processes = k.processes := by
  funext q
  simp only [Kernel.processes, hcur, hsame q]

theorem processes_modifyTask {pid : Nat} {f : Task → Task}
    (hstatus : ∀ t, (f t).status = t.status)
    (hpaused : ∀ t, (f t).paused = t.paused) :
    (k.modifyTask pid f).processes = k.processes := by
  refine processes_congr rfl ?_
  intro q
  rw [Kernel.modifyTask_tasks]
  refine update_slot (P := fun t => t.status = (k.tasks q).status ∧
    t.paused = (k.tasks q).paused) (fun _ => ⟨rfl, rfl⟩) ?_
  rintro rfl
  exact ⟨hstatus _, hpaused _⟩

theorem schedInv_oneRunning
    (hinv : SchedInv k) :
    OneRunning tasksCap k.processes :=
  ⟨k.currentTask, hinv.currentTask_lt, fun _ => processes_eq_running hinv⟩

theorem schedInv_root
    (hinv : SchedInv k) :
    k.processes 0 ≠ .free :=
  fun hfree => hinv.init_live (processes_eq_free.mp hfree)

/-- Filling the first free slot is a step. -/
theorem schedMakeTask_processes (eip tty fs gs cs genericSegment : Word) (yieldOnly : Bool)
    (hinv : SchedInv k) :
    Step tasksCap 0 k.processes
      (schedMakeTask k eip tty fs gs cs genericSegment yieldOnly).1.processes := by
  rcases schedMakeTask_cases k eip tty fs gs cs genericSegment yieldOnly with
    ⟨pid, hfree, hmade⟩ | ⟨-, hmade⟩
  · refine .spawn pid (processes_eq_free.mpr hfree.dead) ?_ ?_
    · intro p hp
      rw [Ne, processes_eq_free]
      exact hfree.first p hp
    · rw [hmade]
      funext q
      by_cases hq : q = pid
      · subst hq
        have hother : q ≠ k.currentTask := by
          rintro rfl
          exact hinv.runnable.1 hfree.dead
        simp only [Kernel.processes, Kernel.note_tasks, Kernel.note_currentTask,
          Kernel.setTask_tasks, Kernel.setTask_currentTask, Function.update_self, hother, if_false]
        rfl
      · rw [Function.update_of_ne hq]
        simp only [Kernel.processes, Kernel.note_tasks, Kernel.note_currentTask,
          Kernel.setTask_tasks, Kernel.setTask_currentTask, Function.update_of_ne hq]
  · rw [hmade]
    exact .idle rfl

/-- A task that a switch goes past. -/
theorem passed_of_flushed
    (hq : q ≠ k.currentTask)
    (hq' : q ≠ k'.currentTask)
    (hblocked : ¬ (k.tasks q).Runnable)
    (hflushed : k'.tasks q = (k.tasks q).flushed) :
    Passed (k.processes q) (k'.processes q) := by
  by_cases hdead : (k.tasks q).status = .dead
  · rw [flushed_dead_of_dead hdead] at hflushed
    have hdead' : (k'.tasks q).status = .dead := by
      rw [hflushed, hdead]
    rw [processes_eq_free.mpr hdead, processes_eq_free.mpr hdead']
    exact .free
  · have hpaused : (k.tasks q).paused = true := by
      by_contra hnot
      exact hblocked ⟨hdead, Bool.eq_false_of_not_eq_true hnot⟩
    rw [processes_other hq, if_neg hdead, if_pos hpaused]
    refine .stopped _ ?_
    rw [processes_other hq']
    split
    · exact ProcState.noConfusion
    · split <;> exact ProcState.noConfusion

/-- **A switch of the kernel is a switch of the table.** -/
theorem switched_processes {k₁ k₂ : Kernel} {regs : IntRegs} {m : Nat}
    (hinv : SchedInv k)
    (hinv' : SchedInv k')
    (hprep : Prepared e k k₁)
    (hswitched : Switched k₁ regs k₂ m k') :
    Switch tasksCap k.currentTask m k.processes k'.processes := by
  have hcur := hinv.currentTask_lt
  have hcur₁ : k₁.currentTask = k.currentTask := prepared_currentTask hprep
  have hslot : ∀ j, k₂.slot j = slotAfter tasksCap k.currentTask j := by
    intro j
    rw [Kernel.slot, hswitched.flushed.currentTask, saveCurrent_currentTask, hcur₁]
  have hnext : k'.currentTask = slotAfter tasksCap k.currentTask m := by
    rw [hswitched.next, hslot]
  have hbefore : ∀ q, q ≠ k.currentTask → k₂.tasks q = k.tasks q := by
    intro q hq
    have hq₁ : q ≠ k₁.currentTask := by rwa [hcur₁]
    rw [flushed_other hswitched.flushed hq₁, prepared_other hq hprep]
  have hshort := hswitched.short
  refine ⟨hshort, (processes_eq_running hinv).mpr rfl, ?_, ?_, ?_, ?_⟩
  · exact (processes_eq_running hinv').mpr hnext.symm
  · intro hother
    have hrun := hswitched.runnable
    rw [hslot, hbefore _ hother] at hrun
    refine ⟨?_, ?_⟩
    · rw [processes_other hother, if_neg hrun.1, if_neg (by simp [hrun.2])]
    · rw [Ne, processes_eq_running hinv', hnext]
      exact Ne.symm hother
  · intro j hj
    have hlast := slotAfter_last hcur
    have hother : slotAfter tasksCap k.currentTask j ≠ k.currentTask := by
      intro heq
      have hj' := slotAfter_injective (by omega) (by omega) (heq.trans hlast.symm)
      omega
    have hother' : slotAfter tasksCap k.currentTask j ≠ k'.currentTask := by
      rw [hnext]
      intro heq
      have hj' := slotAfter_injective (by omega) hshort heq
      omega
    have hblocked := hswitched.blocked j hj
    have hvisited := hswitched.visited j hj
    rw [hslot, hbefore _ hother] at hblocked hvisited
    exact passed_of_flushed hother hother' hblocked hvisited
  · intro q hq hskip
    have hq' : q ≠ k'.currentTask := by
      rw [hnext]
      exact hskip m le_rfl
    have hsame : k'.tasks q = k.tasks q := by
      rw [hswitched.untouched q (fun j hj => by rw [hslot]; exact hskip j hj.le), hbefore q hq]
    rw [processes_other hq, processes_other hq', hsame]

/-- **An event of the kernel is a step of the table.** -/
theorem step_processes
    (hinv : SchedInv k)
    (h : step k e = .ok k') :
    Step tasksCap 0 k.processes k'.processes := by
  have hinv' := step_schedInv hinv h
  cases step_cases hinv.tasking h with
  | quiet h =>
      refine .idle (processes_congr h.currentTask ?_)
      intro q
      rw [h.tasks]
      exact ⟨rfl, rfl⟩
  | create eip tty fs gs cs genericSegment yieldOnly _ h =>
      rw [h]
      exact schedMakeTask_processes eip tty fs gs cs genericSegment yieldOnly hinv
  | queue pid sig _ _ h =>
      rw [h]
      refine .idle (processes_congr (schedKillTask_currentTask k pid sig) ?_)
      intro q
      refine schedKillTask_slot (P := fun t => t.status = (k.tasks q).status ∧
        t.paused = (k.tasks q).paused) ⟨rfl, rfl⟩ ?_
      rintro rfl _
      exact ⟨rfl, rfl⟩
  | setuid uid _ h =>
      rw [h]
      exact .idle (processes_modifyTask (fun _ => rfl) (fun _ => rfl))
  | setgid gid _ h =>
      rw [h]
      exact .idle (processes_modifyTask (fun _ => rfl) (fun _ => rfl))
  | switch k₁ regs regs' hprep h =>
      rcases schedNextTask_switched h with ⟨k₂, m, hswitched⟩
      exact .switch k.currentTask m (switched_processes hinv hinv' hprep hswitched)
        (fun _ => schedInv_root hinv')

/-- **A run of the kernel is a run of the table.** -/
theorem run_processes {es : List Event}
    (hreach : Reachable k)
    (h : run step k es = .ok k') :
    Reachable k' ∧ Relation.ReflTransGen (Step tasksCap 0) k.processes k'.processes := by
  induction es generalizing k with
  | nil =>
      cases h
      exact ⟨hreach, .refl⟩
  | cons e es ih =>
      rcases (run_cons_eq_ok step).mp h with ⟨k₁, hstep, hrest⟩
      rcases ih (hreach.step hstep) hrest with ⟨hreach', hsteps⟩
      exact ⟨hreach', hsteps.head (step_processes hreach.schedInv hstep)⟩

end Processes

/-- **The kernel refines a process table**: every run is a run of the table, in which
exactly one process runs, init does not end, and each event changes the state of each
task along the arrows only.  No program, and no buffer of a system call, writes to the
kernel's memory. -/
theorem process_table {k k' : Kernel} {es : List Event}
    (hreach : Reachable k)
    (h : run step k es = .ok k') :
    Relation.ReflTransGen (Step tasksCap 0) k.processes k'.processes ∧
      OneRunning tasksCap k'.processes ∧ k'.processes 0 ≠ .free ∧
      ∀ e k'', step k' e = .ok k'' → ∀ q, Arrow (k'.processes q) (k''.processes q) := by
  rcases run_processes hreach h with ⟨hreach', hsteps⟩
  refine ⟨hsteps, steps_oneRunning (schedInv_oneRunning hreach.schedInv) hsteps,
    steps_root (schedInv_root hreach.schedInv) hsteps, ?_⟩
  intro e k'' hstep q
  exact step_arrow (step_processes hreach'.schedInv hstep) q

/-- Task 1 is stopped, passed, continued and killed while others run. -/
theorem process_table_sample :
    ∃ k k', runFromBoot Image.sample default [userCall 12 2 14, userCall 4 0 0] = .ok k ∧
      run step k [.timer default, .killTask ⟨1, by decide⟩ sigkill, .timer default,
        .timer default, .timer default, userCall 4 0 0, userCall 4 0 0] = .ok k' ∧
      Relation.ReflTransGen (Step tasksCap 0) k.processes k'.processes ∧
      k'.processes 1 = .free := by
  obtain ⟨k, hboot, hreturns⟩ := exists_of_returnsWith
    (x := runFromBoot Image.sample default [userCall 12 2 14, userCall 4 0 0])
    (p := fun k => returnsWith (run step k [.timer default, .killTask ⟨1, by decide⟩ sigkill,
      .timer default, .timer default, .timer default, userCall 4 0 0, userCall 4 0 0])
        (fun k' => k'.processes 1 = .free) = true)
    (by decide +kernel)
  obtain ⟨k', hrun, hfree⟩ := exists_of_returnsWith hreturns
  exact ⟨k, k', hboot, hrun, (process_table ⟨_, _, _, hboot⟩ hrun).1, hfree⟩

end Klyx
