import Klyx.Kernel.SchedulerInvariant

/-!
# The kill system call

The call checks its two arguments and the permission of the caller, in five
exits.  `sysKill_refused`, `sysKill_probe` and `sysKill_sent` say what it does
in each case.

A user program reads the result as 0 for success and as -1 for failure.  The
branch that sends a signal leaves the call number 12 in the result register, so
the contract holds exactly for the calls that do not get there.
-/

namespace Klyx

/-- The slot that the call names. -/
def killTarget (regs : IntRegs) : Nat :=
  (regs.ebx - 1).toNat

/-- The call names a live task and a signal number. -/
def KillValid (k : Kernel) (regs : IntRegs) : Prop :=
  killTarget regs < tasksCap ∧
  (k.tasks (killTarget regs)).status ≠ .dead ∧
  regs.ecx.toNat < sigCount

/-- Root may signal everyone, other users their own tasks. -/
def KillPermitted (k : Kernel) (regs : IntRegs) : Prop :=
  k.current.uid = 0 ∨ k.current.uid = (k.tasks (killTarget regs)).uid

/-- The signal was appended to the queue of the target. -/
def KillAppended (k k' : Kernel) (regs : IntRegs) : Prop :=
  k'.tasks = Function.update k.tasks (killTarget regs)
    ((k.tasks (killTarget regs)).enqueue (regs.ecx.truncate 8))

/-- The calls that are to succeed. -/
def KillSucceeds (k k' : Kernel) (regs : IntRegs) : Prop :=
  KillValid k regs ∧ (regs.ecx = 0 ∨ (KillPermitted k regs ∧ KillAppended k k' regs))

/-- What user programs expect of the call. -/
structure KillContract (k : Kernel) (regs : IntRegs) (k' : Kernel) (regs' : IntRegs) :
    Prop where
  result : regs'.eax = 0 ∨ regs'.eax = -1
  zero_iff : regs'.eax = 0 ↔ KillSucceeds k k' regs
  atomic : ¬ KillSucceeds k k' regs → regs'.eax = -1 ∧ k'.tasks = k.tasks

section Cases

variable {k k' : Kernel} {regs regs' : IntRegs}

/-- The body of the call with its target named. -/
theorem sysKill_eq :
    sysKill k regs =
      if killTarget regs ≥ tasksCap then (k, { regs with eax := -1 })
      else if (k.tasks (killTarget regs)).status = .dead then (k, { regs with eax := -1 })
      else if regs.ecx.toNat ≥ sigCount then (k, { regs with eax := -1 })
      else if regs.ecx = 0 then (k, { regs with eax := 0 })
      else if k.current.uid = 0 ∨ k.current.uid = (k.tasks (killTarget regs)).uid then
        (schedKillTask k (killTarget regs) (regs.ecx.truncate 8), regs)
      else (k, { regs with eax := -1 }) := rfl

/-- Requests that name no task or no signal, and signals that the caller may
not send. -/
theorem sysKill_refused
    (h : ¬ KillValid k regs ∨ (regs.ecx ≠ 0 ∧ ¬ KillPermitted k regs)) :
    sysKill k regs = (k, { regs with eax := -1 }) := by
  rw [sysKill_eq]
  split
  · rfl
  rename_i htarget
  split
  · rfl
  rename_i hlive
  split
  · rfl
  rename_i hsig
  have hvalid : KillValid k regs := ⟨by omega, hlive, by omega⟩
  rcases h with hinvalid | ⟨hecx, hperm⟩
  · exact absurd hvalid hinvalid
  · rw [if_neg hecx]
    exact if_neg hperm

/-- Signal 0 only asks whether the target is alive. -/
theorem sysKill_probe
    (hvalid : KillValid k regs)
    (hecx : regs.ecx = 0) :
    sysKill k regs = (k, { regs with eax := 0 }) := by
  obtain ⟨htarget, hlive, hsig⟩ := hvalid
  rw [sysKill_eq, if_neg (by omega), if_neg hlive, if_neg (by omega), if_pos hecx]

/-- A signal that is sent leaves the frame as it was. -/
theorem sysKill_sent
    (hvalid : KillValid k regs)
    (hecx : regs.ecx ≠ 0)
    (hperm : KillPermitted k regs) :
    sysKill k regs = (schedKillTask k (killTarget regs) (regs.ecx.truncate 8), regs) := by
  obtain ⟨htarget, hlive, hsig⟩ := hvalid
  rw [sysKill_eq, if_neg (by omega), if_neg hlive, if_neg (by omega), if_neg hecx]
  exact if_pos hperm

theorem syscallHandlerImpl_kill {line : Word}
    (heax : regs.eax = 12) :
    syscallHandlerImpl k regs line = .ok (sysKill k regs) := by
  unfold syscallHandlerImpl
  rw [heax]
  rfl

/-- A refused call meets the contract. -/
theorem contract_of_refused
    (h : ¬ KillValid k regs ∨ (regs.ecx ≠ 0 ∧ ¬ KillPermitted k regs)) :
    KillContract k regs k { regs with eax := -1 } := by
  have hfails : ¬ KillSucceeds k k regs := by
    rintro ⟨hvalid, hrest⟩
    rcases h with hinvalid | ⟨hecx, hperm⟩
    · exact hinvalid hvalid
    · rcases hrest with hzero | ⟨hperm', -⟩
      · exact hecx hzero
      · exact hperm hperm'
  refine ⟨Or.inr rfl, ?_, fun _ => ⟨rfl, rfl⟩⟩
  exact iff_of_false (by simp) hfails

/-- A probe meets the contract. -/
theorem contract_of_probe
    (hvalid : KillValid k regs)
    (hecx : regs.ecx = 0) :
    KillContract k regs k { regs with eax := 0 } := by
  have hsucceeds : KillSucceeds k k regs := ⟨hvalid, Or.inl hecx⟩
  exact ⟨Or.inl rfl, iff_of_true rfl hsucceeds, fun hfails => absurd hsucceeds hfails⟩

/-- A call that leaves its own number as the result breaks the contract. -/
theorem not_contract_of_eax
    (heax : regs'.eax = 12) :
    ¬ KillContract k regs k' regs' := by
  intro h
  rcases h.result with hzero | hminus
  · rw [heax] at hzero
    exact absurd hzero (by decide)
  · rw [heax] at hminus
    exact absurd hminus (by decide)

end Cases

/-- **The calls that meet the contract of the kill system call.** -/
theorem kill_contract_iff_nothing_sent (k : Kernel) (regs : IntRegs) (line : Word)
    (heax : regs.eax = 12) :
    ∃ k' regs', syscallHandlerImpl k regs line = .ok (k', regs') ∧
      (KillContract k regs k' regs' ↔
        ¬ KillValid k regs ∨ regs.ecx = 0 ∨ ¬ KillPermitted k regs) := by
  refine ⟨(sysKill k regs).1, (sysKill k regs).2, syscallHandlerImpl_kill heax, ?_⟩
  by_cases hvalid : KillValid k regs
  · by_cases hecx : regs.ecx = 0
    · rw [sysKill_probe hvalid hecx]
      exact iff_of_true (contract_of_probe hvalid hecx) (Or.inr (Or.inl hecx))
    · by_cases hperm : KillPermitted k regs
      · rw [sysKill_sent hvalid hecx hperm]
        refine iff_of_false (not_contract_of_eax heax) ?_
        rintro (hinvalid | hzero | hdenied)
        · exact hinvalid hvalid
        · exact hecx hzero
        · exact hdenied hperm
      · have hrefused : ¬ KillValid k regs ∨ (regs.ecx ≠ 0 ∧ ¬ KillPermitted k regs) :=
          Or.inr ⟨hecx, hperm⟩
        rw [sysKill_refused hrefused]
        exact iff_of_true (contract_of_refused hrefused) (Or.inr (Or.inr hperm))
  · have hrefused : ¬ KillValid k regs ∨ (regs.ecx ≠ 0 ∧ ¬ KillPermitted k regs) :=
      Or.inl hvalid
    rw [sysKill_refused hrefused]
    exact iff_of_true (contract_of_refused hrefused) (Or.inl hvalid)

/-- A call that names process 0 wraps around to no slot and is refused. -/
theorem kill_contract_iff_nothing_sent_sample :
    ∃ k' regs',
      syscallHandlerImpl (bootTasks Image.sample) { (default : IntRegs) with eax := 12 } 0 =
        .ok (k', regs') ∧
      KillContract (bootTasks Image.sample) { (default : IntRegs) with eax := 12 } k' regs' := by
  obtain ⟨k', regs', hok, hiff⟩ := kill_contract_iff_nothing_sent (bootTasks Image.sample)
    { (default : IntRegs) with eax := 12 } 0 rfl
  refine ⟨k', regs', hok, hiff.mpr (Or.inl ?_)⟩
  rintro ⟨htarget, -, -⟩
  exact absurd htarget (by decide)

/-- Init continues task 1: the signal is queued and the result is 12. -/
theorem kill_contract_broken :
    ¬ ∀ k, Reachable k → ∀ regs line k' regs', regs.eax = 12 →
      syscallHandlerImpl k regs line = .ok (k', regs') → KillContract k regs k' regs' := by
  intro hall
  obtain ⟨k, hrun, hcall⟩ := HaltingRun.exists_of_returnsWith
    (x := runFromBoot Image.sample default [])
    (p := fun k => HaltingRun.returnsWith
      (syscallHandlerImpl k { (default : IntRegs) with eax := 12, ebx := 2, ecx := 5 } 0)
      (fun r => r.2.eax = 12) = true)
    (by decide +kernel)
  obtain ⟨⟨k', regs'⟩, hok, heax⟩ := HaltingRun.exists_of_returnsWith hcall
  exact not_contract_of_eax heax (hall k ⟨_, _, _, hrun⟩ _ _ k' regs' rfl hok)

end Klyx
