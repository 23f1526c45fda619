import Klyx.Kernel.Interrupts
import Klyx.Kernel.ScanOutcome
import Klyx.Kernel.SignalQueue

/-!
# Processor faults

`x86_error_trap` sends the faulting task a fatal signal and switches to another
task.  The signal goes through the bounded queue of the task, and a full queue
drops it without a trace: then the faulting task lives on, unless an older
signal ends it.
-/

namespace Klyx

open HaltingRun

section Fault

variable {k k' : Kernel} {regs regs' : IntRegs}

/-- A switch ends the running task exactly when a fatal signal is pending. -/
theorem schedNextTask_ends_current
    (hlive : k.current.status ≠ .dead)
    (hq : k.current.QueueValid)
    (h : schedNextTask k regs = .ok (k', regs')) :
    (k'.tasks k.currentTask).status = .dead ↔ ∃ sig ∈ k.current.pending, Fatal sig := by
  obtain ⟨k₁, m, hswitched⟩ := schedNextTask_switched h
  rw [hswitched.current, flushed_dead_iff ((store_queueValid _ regs).mpr hq), store_status,
    store_doomed]
  constructor
  · rintro (hdead | hdoomed)
    · exact absurd hdead hlive
    · exact hdoomed.2
  · intro hfatal
    exact Or.inr ⟨hlive, hfatal⟩

/-- Sending a fatal signal dooms a live task if there is room for it. -/
theorem schedKillTask_pending_fatal_iff {pid : Nat} {sig : Sig}
    (hq : (k.tasks pid).QueueValid)
    (hfatal : Fatal sig) :
    (∃ s ∈ ((schedKillTask k pid sig).tasks pid).pending, Fatal s) ↔
      (k.tasks pid).signalsSize < taskSigCap - 1 ∨ ∃ s ∈ (k.tasks pid).pending, Fatal s := by
  by_cases hroom : (k.tasks pid).signalsSize < taskSigCap - 1
  · rw [schedKillTask_of_room hroom, Kernel.note_tasks, Kernel.modifyTask_tasks,
      Function.update_self, enqueue_pending hq hroom]
    refine iff_of_true ⟨sig, ?_, hfatal⟩ (Or.inl hroom)
    exact List.mem_append_right _ (List.mem_singleton.mpr rfl)
  · rw [schedKillTask_of_full hroom]
    constructor
    · exact Or.inr
    · rintro (hroom' | hpending)
      · exact absurd hroom' hroom
      · exact hpending

theorem schedKillTask_queueValid {pid : Nat} {sig : Sig}
    (hq : (k.tasks pid).QueueValid) :
    ((schedKillTask k pid sig).tasks pid).QueueValid := by
  refine schedKillTask_slot (P := Task.QueueValid) hq ?_
  intro _ hroom
  exact enqueue_queueValid hq hroom

end Fault

/-! ### The handlers -/

/-- What the handler of a trap does with its frame; the breakpoint leads to the debugger.
After a divide error `next` is the frame of the second fault. -/
def Trap.handler (k : Kernel) (regs next : IntRegs) : Trap → Option (Exec (Kernel × IntRegs))
  | .doDivideBy0 => some (x86TrapDoDivideBy0 k regs next)
  | .nmi => some (x86TrapNmi k regs)
  | .breakpoint => none
  | .overflow => some (x86TrapOverflow k regs)
  | .bound => some (x86TrapBound k regs)
  | .invalidOpcode => some (x86TrapInvalidOpcode k regs)
  | .deviceNoAvaliable => some (x86TrapDeviceNoAvaliable k regs)
  | .doubleFault => some (x86TrapDoubleFault k regs)
  | .coprocessorSegmentOverrun => some (x86TrapCoprocessorSegmentOverrun k regs)
  | .invalidTss => some (x86TrapInvalidTss k regs)
  | .segmentNotPresent => some (x86TrapSegmentNotPresent k regs)
  | .stackSegmentFault => some (x86TrapStackSegmentFault k regs)
  | .generalProtection => some (x86TrapGeneralProtection k regs)
  | .pageFault => some (x86TrapPageFault k regs)
  | .x87Error => some (x86TrapX87Error k regs)
  | .alignment => some (x86TrapAlignment k regs)
  | .machine => some (x86TrapMachine k regs)
  | .simd => some (x86TrapSimd k regs)

section Handlers

variable {k k' : Kernel} {regs next regs' : IntRegs}

theorem Reachable.fault {name : String} {sig : Sig}
    (h : Reachable k)
    (hok : x86ErrorTrap k regs name sig = .ok (k', regs')) :
    Reachable k' := by
  have hstep : Klyx.step k (.fault regs name sig) = .ok k' := by
    rw [Klyx.step, hok]
    rfl
  exact h.step hstep

/-- A divide error is two faults. -/
theorem divideBy0_faults
    (hok : x86TrapDoDivideBy0 k regs next = .ok (k', regs')) :
    ∃ k₁ regs₁, x86ErrorTrap k regs "divide by 0" sigfpe = .ok (k₁, regs₁) ∧
      x86ErrorTrap k₁ next "invalid opcode" sigill = .ok (k', regs') := by
  obtain ⟨⟨k₁, regs₁⟩, hfirst, hsecond⟩ := bind_eq_ok.mp hok
  exact ⟨k₁, regs₁, hfirst, hsecond⟩

/-- Behind every handler that does not panic the kernel is in a state that faults lead
to. -/
theorem Reachable.trap
    (h : Reachable k)
    (t : Trap)
    (hok : t.handler k regs next = some (.ok (k', regs'))) :
    Reachable k' := by
  cases t with
  | nmi | breakpoint | doubleFault | invalidTss | simd => cases hok
  | doDivideBy0 =>
      obtain ⟨k₁, regs₁, hfirst, hsecond⟩ := divideBy0_faults (Option.some.inj hok)
      exact (h.fault hfirst).fault hsecond
  | overflow | bound | invalidOpcode | deviceNoAvaliable | coprocessorSegmentOverrun
  | segmentNotPresent | stackSegmentFault | generalProtection | pageFault | x87Error
  | alignment | machine =>
      exact h.fault (Option.some.inj hok)

end Handlers

/-- **When a fault ends the task that caused it.** -/
theorem faulting_task_dead_iff (k : Kernel) (regs : IntRegs) (name : String) (sig : Sig)
    (k' : Kernel) (regs' : IntRegs)
    (h : Reachable k)
    (hsig : sig ∈ hardwareSignals)
    (hok : x86ErrorTrap k regs name sig = .ok (k', regs')) :
    (k'.tasks k.currentTask).status = .dead ↔
      k.current.signalsSize < taskSigCap - 1 ∨ ∃ s ∈ k.current.pending, Fatal s := by
  have hinv := h.schedInv
  have hq : k.current.QueueValid := h.queueValid .refl _
  unfold x86ErrorTrap at hok
  dsimp only at hok
  rw [Kernel.printf_isTaskingAvaliable, if_pos hinv.tasking, Kernel.printf_currentTask] at hok
  generalize hprinted : k.printf ("\n\n" ++ name ++ ":\n" ++ regs.report) = k₁ at hok
  have htask : k₁.tasks k.currentTask = k.current := by
    rw [← hprinted]
    rfl
  have hcur : (schedKillTask k₁ k.currentTask sig).currentTask = k.currentTask := by
    rw [schedKillTask_currentTask, ← hprinted, Kernel.printf_currentTask]
  have hlive : (schedKillTask k₁ k.currentTask sig).current.status ≠ .dead := by
    rw [Kernel.current, hcur, schedKillTask_status, htask]
    exact hinv.runnable.1
  have hq₁ : (k₁.tasks k.currentTask).QueueValid := by
    rw [htask]
    exact hq
  have hq₂ : (schedKillTask k₁ k.currentTask sig).current.QueueValid := by
    rw [Kernel.current, hcur]
    exact schedKillTask_queueValid hq₁
  have hends := schedNextTask_ends_current hlive hq₂ hok
  unfold Kernel.current at hends
  rw [hcur, schedKillTask_pending_fatal_iff hq₁ (fatal_of_mem_hardwareSignals hsig), htask]
    at hends
  exact hends

/-- A segmentation fault of task 1 with an empty queue ends it. -/
theorem faulting_task_dead_iff_sample :
    ∃ k k' regs', runFromBoot Image.sample default [userCall 4 0 0] = .ok k ∧
      x86ErrorTrap k default "page fault" sigsegv = .ok (k', regs') ∧
      (k'.tasks 1).status = .dead := by
  obtain ⟨k, hrun, hcur, hroom, htrap⟩ := exists_of_returnsWith
    (x := runFromBoot Image.sample default [userCall 4 0 0])
    (p := fun k => k.currentTask = 1 ∧ k.current.signalsSize < taskSigCap - 1 ∧
      returnsWith (x86ErrorTrap k default "page fault" sigsegv) (fun _ => True) = true)
    (by decide +kernel)
  obtain ⟨⟨k', regs'⟩, hok, -⟩ := exists_of_returnsWith htrap
  have hdead := (faulting_task_dead_iff k default "page fault" sigsegv k' regs'
    ⟨_, _, _, hrun⟩ (by decide) hok).mpr (Or.inl hroom)
  rw [hcur] at hdead
  exact ⟨k, k', regs', hrun, hok, hdead⟩

/-- Task 1 sends itself 63 continue signals and faults: it lives on. -/
theorem fault_dropped_by_full_queue :
    ¬ ∀ k, Reachable k → k.currentTask ≠ 0 → ∀ regs name sig, sig ∈ hardwareSignals →
      ∀ k' regs', x86ErrorTrap k regs name sig = .ok (k', regs') →
        (k'.tasks k.currentTask).status = .dead := by
  intro hall
  obtain ⟨k, hrun, hcur, htrap⟩ := exists_of_returnsWith
    (x := runFromBoot Image.sample default
      (userCall 4 0 0 :: List.replicate 63 (userCall 12 2 5)))
    (p := fun k => k.currentTask = 1 ∧
      returnsWith (x86ErrorTrap k default "page fault" sigsegv)
        (fun r => (r.1.tasks 1).status ≠ .dead) = true)
    (by decide +kernel)
  obtain ⟨⟨k', regs'⟩, hok, hlive⟩ := exists_of_returnsWith htrap
  have hinit : k.currentTask ≠ 0 := by
    rw [hcur]
    decide
  have hdead := hall k ⟨_, _, _, hrun⟩ hinit default "page fault" sigsegv (by decide) k' regs' hok
  rw [hcur] at hdead
  exact hlive hdead

end Klyx
