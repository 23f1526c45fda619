import Klyx.Kernel.Machine
import Klyx.Kernel.ScanOutcome

/-!
# Round robin

While no live task has pending signals, a switch changes nothing but registers
and resumes the first runnable slot of the cyclic order after the current one.
That slot then comes last in the order seen from itself, so successive switches
go through the runnable slots in turn.
-/

namespace Klyx

open HaltingRun CyclicScan

/-- Successive calls of `sched_next_task`, and the slots that they resume. -/
def switches : Kernel → List IntRegs → Exec (Kernel × List Nat)
  | k, [] => .ok (k, [])
  | k, regs :: frames => do
      let (k', _) ← schedNextTask k regs
      let (k'', slots) ← switches k' frames
      .ok (k'', k'.currentTask :: slots)

/-- The runnable slots in the order in which the scan meets them. -/
def runnableOrder (k : Kernel) : List Nat :=
  members tasksCap k.currentTask (fun pid => (k.tasks pid).Runnable)

/-- No live task of the table has a pending signal. -/
def Quiet (k : Kernel) : Prop :=
  ∀ pid, pid < tasksCap → (k.tasks pid).status ≠ .dead → (k.tasks pid).signalsSize = 0

/-- Only the registers of a task may differ. -/
def SameButRegs (t t' : Task) : Prop :=
  ∃ regs, t' = { t with regs := regs }

section Switch

variable {k k' : Kernel} {regs regs' : IntRegs}

theorem SameButRegs.refl (t : Task) :
    SameButRegs t t :=
  ⟨t.regs, rfl⟩

theorem SameButRegs.trans {t t' t'' : Task}
    (h₁ : SameButRegs t t')
    (h₂ : SameButRegs t' t'') :
    SameButRegs t t'' := by
  obtain ⟨r₁, rfl⟩ := h₁
  obtain ⟨r₂, rfl⟩ := h₂
  exact ⟨r₂, rfl⟩

theorem SameButRegs.runnable_iff {t t' : Task}
    (h : SameButRegs t t') :
    t'.Runnable ↔ t.Runnable := by
  obtain ⟨r, rfl⟩ := h
  exact Iff.rfl

theorem Quiet.not_deliverable
    (h : Quiet k)
    {pid : Nat}
    (hpid : pid < tasksCap) :
    ¬ (k.tasks pid).Deliverable :=
  fun hdel => hdel.1 (h pid hpid hdel.2)

theorem Quiet.transfer
    (h : Quiet k)
    (hsame : ∀ pid, pid < tasksCap → SameButRegs (k.tasks pid) (k'.tasks pid)) :
    Quiet k' := by
  intro pid hpid hlive
  have hquiet := h pid hpid
  obtain ⟨r, heq⟩ := hsame pid hpid
  rw [heq] at hlive ⊢
  exact hquiet hlive

/-- Flushing the running task of a quiet table only stores its registers. -/
theorem Quiet.flushed {k₁ : Kernel}
    (h : Quiet k)
    (hcur : k.currentTask < tasksCap)
    (hflush : Flushed k.currentTask (k.saveCurrent regs) k₁)
    (pid : Nat) :
    SameButRegs (k.tasks pid) (k₁.tasks pid) := by
  by_cases hother : pid = k.currentTask
  · subst hother
    have hnot : ¬ (k.current.store regs).Deliverable := h.not_deliverable hcur
    rw [hflush.tasks, Function.update_self, saveCurrent_current,
      flushed_of_not_deliverable hnot]
    exact ⟨k.current.regs.saveFrom regs, rfl⟩
  · rw [flushed_other hflush hother]
    exact .refl _

/-- A switch from a quiet table in which some task can run. -/
theorem Quiet.switch
    (h : Quiet k)
    (hcur : k.currentTask < tasksCap)
    (hsome : runnableOrder k ≠ [])
    (regs : IntRegs) :
    ∃ k₁ m k' regs', schedNextTask k regs = .ok (k', regs') ∧ Switched k regs k₁ m k' := by
  have houtcome := schedNextTask_outcome k regs
  cases hcall : schedNextTask k regs with
  | ok r =>
      obtain ⟨k₁, m, hswitched⟩ := schedNextTask_switched hcall
      exact ⟨k₁, m, r.1, r.2, rfl, hswitched⟩
  | error e =>
      rw [hcall] at houtcome
      exfalso
      cases houtcome with
      | initDied k' _ hdel _ =>
          exact h.not_deliverable hcur hdel
      | scanned k₁ _ hflush _ hscan =>
          have hsame := h.flushed hcur hflush
          have hquiet₁ : Quiet k₁ := h.transfer (fun pid _ => hsame pid)
          have hcur₁ : k₁.currentTask < tasksCap := by
            rw [hflush.currentTask]
            exact hcur
          cases hscan with
          | gaveUp k' hskip =>
              obtain ⟨pid, hpid⟩ := List.exists_mem_of_ne_nil _ hsome
              obtain ⟨hlt, hrun⟩ := (mem_members hcur).mp hpid
              exact (hskip.all_visited hcur₁ hlt).2 ((hsame pid).runnable_iff.mpr hrun)
          | initDied m regs' k' _ _ hdel _ =>
              exact hquiet₁.not_deliverable (Nat.zero_lt_succ _) hdel

/-- Such a switch changes nothing but registers. -/
theorem Switched.sameButRegs {k₁ : Kernel} {m : Nat}
    (h : Switched k regs k₁ m k')
    (hquiet : Quiet k)
    (hcur : k.currentTask < tasksCap)
    (pid : Nat) :
    SameButRegs (k.tasks pid) (k'.tasks pid) := by
  have hsame := hquiet.flushed hcur h.flushed
  have hquiet₁ : Quiet k₁ := hquiet.transfer (fun pid _ => hsame pid)
  by_cases hpid : pid < tasksCap
  · rw [h.settled (hquiet₁.not_deliverable hpid)]
    exact hsame pid
  · have huntouched : k'.tasks pid = k₁.tasks pid := by
      apply h.untouched
      intro j _ heq
      rw [heq] at hpid
      exact hpid (slot_lt k₁ j)
    rw [huntouched]
    exact hsame pid

/-- And it moves the first runnable slot to the end of the order. -/
theorem Switched.order {k₁ : Kernel} {m : Nat}
    (h : Switched k regs k₁ m k')
    (hquiet : Quiet k)
    (hcur : k.currentTask < tasksCap) :
    ∃ rest, runnableOrder k = k'.currentTask :: rest ∧
      runnableOrder k' = rest ++ [k'.currentTask] := by
  have hsame₁ := hquiet.flushed hcur h.flushed
  have hsame := h.sameButRegs hquiet hcur
  have hslot : ∀ j, k₁.slot j = slotAfter tasksCap k.currentTask j := by
    intro j
    rw [Kernel.slot, h.flushed.currentTask, saveCurrent_currentTask]
  have hskip : ∀ j, j < m → ¬ (k.tasks (slotAfter tasksCap k.currentTask j)).Runnable := by
    intro j hj
    rw [← hslot, ← (hsame₁ _).runnable_iff]
    exact h.blocked j hj
  have hstop : (k.tasks (slotAfter tasksCap k.currentTask m)).Runnable := by
    rw [← hslot, ← (hsame₁ _).runnable_iff]
    exact h.runnable
  obtain ⟨rest, hfirst, hlast⟩ := members_stop
    (p := fun pid => (k.tasks pid).Runnable) h.short hskip hstop
  have hnext : k'.currentTask = slotAfter tasksCap k.currentTask m :=
    h.next.trans (hslot m)
  refine ⟨rest, ?_, ?_⟩
  · rw [hnext]
    exact hfirst
  · rw [runnableOrder, members_congr (fun pid => (hsame pid).runnable_iff), hnext]
    exact hlast

end Switch

/-- Successive switches serve the slots at the head of the order. -/
theorem switches_serve {k : Kernel} {served rest : List Nat} {frames : List IntRegs}
    (hquiet : Quiet k)
    (hcur : k.currentTask < tasksCap)
    (horder : runnableOrder k = served ++ rest)
    (hlen : frames.length = served.length) :
    ∃ k', switches k frames = .ok (k', served) ∧
      ∀ pid, SameButRegs (k.tasks pid) (k'.tasks pid) := by
  induction served generalizing k rest frames with
  | nil =>
      obtain rfl : frames = [] := List.length_eq_zero_iff.mp hlen
      exact ⟨k, rfl, fun pid => .refl _⟩
  | cons pid served ih =>
      obtain ⟨regs, frames, rfl⟩ := List.exists_cons_of_length_eq_add_one hlen
      have hsome : runnableOrder k ≠ [] := by
        rw [horder]
        simp
      obtain ⟨k₁, m, k', regs', hcall, hswitched⟩ := hquiet.switch hcur hsome regs
      have hsame := hswitched.sameButRegs hquiet hcur
      obtain ⟨rest', hhead, htail⟩ := hswitched.order hquiet hcur
      rw [horder, List.cons_append] at hhead
      obtain ⟨rfl, rfl⟩ := List.cons.inj hhead
      have hcur' : k'.currentTask < tasksCap := by
        rw [hswitched.next]
        exact slot_lt k₁ m
      rw [List.append_assoc] at htail
      have hlen' : frames.length = served.length := by
        simpa using hlen
      obtain ⟨k'', hrest, hsame'⟩ :=
        ih (hquiet.transfer (fun pid _ => hsame pid)) hcur' htail hlen'
      refine ⟨k'', ?_, fun pid => (hsame pid).trans (hsame' pid)⟩
      unfold switches
      rw [hcall]
      simp only [bind, Except.bind, hrest]

/-- **The scheduler is a round robin.** -/
theorem round_robin (k : Kernel) (frames : List IntRegs)
    (hcur : k.currentTask < tasksCap)
    (hquiet : Quiet k)
    (hlen : frames.length =
      ((List.range tasksCap).filter (fun pid => (k.tasks pid).Runnable)).length) :
    ∃ k' slots, switches k frames = .ok (k', slots) ∧
      -- every runnable slot once, in cyclic order after the current one
      slots = ((List.range tasksCap).map (fun j => (k.currentTask + 1 + j) % tasksCap)).filter
        (fun pid => (k.tasks pid).Runnable) ∧
      slots.Perm ((List.range tasksCap).filter (fun pid => (k.tasks pid).Runnable)) ∧
      -- nothing changes but registers
      (∀ pid, ∃ regs, k'.tasks pid = { k.tasks pid with regs := regs }) ∧
      -- the current slot comes last if it is runnable
      (k.current.Runnable → slots.getLast? = some k.currentTask) := by
  have hperm : (runnableOrder k).Perm
      ((List.range tasksCap).filter (fun pid => (k.tasks pid).Runnable)) := members_perm hcur
  have hlen' : frames.length = (runnableOrder k).length := by
    rw [hlen, hperm.length_eq]
  have horder : runnableOrder k = runnableOrder k ++ [] := (List.append_nil _).symm
  obtain ⟨k', hcalls, hsame⟩ := switches_serve hquiet hcur horder hlen'
  refine ⟨k', runnableOrder k, hcalls, rfl, hperm, hsame, ?_⟩
  intro hrun
  obtain ⟨before, hbefore⟩ := members_last (p := fun pid => (k.tasks pid).Runnable) hcur hrun
  rw [runnableOrder, hbefore]
  exact List.getLast?_concat

/-- From init, five switches run the other four tasks and then init. -/
theorem round_robin_sample :
    ∃ k', switches (bootTasks Image.sample) (List.replicate 5 default) =
      .ok (k', [1, 2, 3, 4, 0]) := by
  obtain ⟨k', slots, hcalls, hslots, -⟩ :=
    round_robin (bootTasks Image.sample) (List.replicate 5 default)
      (by decide +kernel) (by unfold Quiet; decide +kernel) (by decide +kernel)
  have horder : slots = [1, 2, 3, 4, 0] := by
    rw [hslots]
    decide +kernel
  exact ⟨k', by rw [hcalls, horder]⟩

end Klyx
