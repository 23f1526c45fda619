import Klyx.Kernel.SlotScan
import Klyx.Lib.CyclicScan

/-!
# The outcome of a scan

A scan visits the slots in cyclic order and no slot twice, so the task it finds
in a slot is the one that was there when the scan began.  `Skipped k m k₁` is
the state after `m` slots were skipped: their tasks have been flushed, and all
others are untouched.  `ScanOutcome` lists the three ways in which a scan ends.
-/

namespace Klyx

open HaltingRun CyclicScan

/-- The slot that the scan starting in `k` visits after `m` others. -/
def Kernel.slot (k : Kernel) (m : Nat) : Nat :=
  slotAfter tasksCap k.currentTask m

/-- The state of a scan after `m` slots that cannot run. -/
structure Skipped (k : Kernel) (m : Nat) (k₁ : Kernel) : Prop where
  next : k₁.advance.currentTask = k.slot m
  visited : ∀ j, j < m → k₁.tasks (k.slot j) = (k.tasks (k.slot j)).flushed
  untouched : ∀ q, (∀ j, j < m → q ≠ k.slot j) → k₁.tasks q = k.tasks q
  blocked : ∀ j, j < m → ¬ (k.tasks (k.slot j)).Runnable
  safe : ∀ j, j < m → k.slot j = 0 → (k.tasks 0).QueueValid → ¬ (k.tasks 0).Doomed

/-- The ways in which a scan of at most `n` tries ends. -/
inductive ScanOutcome (k : Kernel) (regs : IntRegs) (n : Nat) :
    Exec (Kernel × IntRegs) → Prop where
  | resumed
      (m : Nat)
      (k₁ : Kernel)
      (hm : m < n)
      (hskip : Skipped k m k₁)
      (hrun : (k.tasks (k.slot m)).Runnable) :
      ScanOutcome k regs n (.ok (k₁.advance.resume, (k.tasks (k.slot m)).regs.frame))
  | gaveUp
      (k₁ : Kernel)
      (hskip : Skipped k n k₁) :
      ScanOutcome k regs n (.error (.panic noProcesses regs k₁))
  | initDied
      (m : Nat)
      (regs' : IntRegs)
      (k₁ : Kernel)
      (hm : m < n)
      (hslot : k.slot m = 0)
      (hdel : (k.tasks 0).Deliverable)
      (hdoomed : (k.tasks 0).QueueValid → (k.tasks 0).Doomed) :
      ScanOutcome k regs n (.error (.panic "Attempt to kill init." regs' k₁))

section Outcome

variable {k k₁ : Kernel} {m : Nat}

theorem slot_lt (k : Kernel) (m : Nat) :
    k.slot m < tasksCap :=
  Nat.mod_lt _ (Nat.zero_lt_succ _)

theorem slot_injective {i j : Nat}
    (hi : i < tasksCap)
    (hj : j < tasksCap)
    (h : k.slot i = k.slot j) :
    i = j :=
  slotAfter_injective hi hj h

theorem skipped_zero (k : Kernel) :
    Skipped k 0 k := by
  refine ⟨rfl, ?_, fun _ _ => rfl, ?_, ?_⟩
  · intro j hj
    exact absurd hj (Nat.not_lt_zero j)
  · intro j hj
    exact absurd hj (Nat.not_lt_zero j)
  · intro j hj
    exact absurd hj (Nat.not_lt_zero j)

/-- The scan finds in the next slot the task that was there at its start. -/
theorem Skipped.front
    (h : Skipped k m k₁)
    (hm : m < tasksCap) :
    k₁.advance.current = k.tasks (k.slot m) := by
  have huntouched : k₁.tasks (k.slot m) = k.tasks (k.slot m) := by
    apply h.untouched
    intro j hj heq
    have : m = j := slot_injective hm (by omega) heq
    omega
  rw [Kernel.current, h.next, advance_tasks, huntouched]

/-- Skipping one more slot, whose task is flushed. -/
theorem Skipped.step {k₂ : Kernel}
    (h : Skipped k m k₁)
    (hm : m < tasksCap)
    (hblocked : ¬ k₁.advance.current.Runnable)
    (hcur : k₂.currentTask = k₁.advance.currentTask)
    (htasks : k₂.tasks =
      Function.update k₁.tasks k₁.advance.currentTask k₁.advance.current.flushed)
    (hsafe : k.slot m = 0 → (k.tasks 0).QueueValid → ¬ (k.tasks 0).Doomed) :
    Skipped k (m + 1) k₂ := by
  have hfront := h.front hm
  rw [hfront, h.next] at htasks
  rw [hfront] at hblocked
  refine ⟨?_, ?_, ?_, ?_, ?_⟩
  · rw [advance_currentTask, hcur, h.next]
    exact slotAfter_slotAfter m 0
  · intro j hj
    rw [htasks]
    by_cases hlast : j = m
    · subst hlast
      exact Function.update_self _ _ _
    · -- a scan of at most 256 tries does not come to a slot twice
      have hne : k.slot j ≠ k.slot m := by
        intro heq
        exact hlast (slot_injective (by omega) hm heq)
      rw [Function.update_of_ne hne]
      exact h.visited j (by omega)
  · intro q hq
    rw [htasks, Function.update_of_ne (hq m (by omega))]
    exact h.untouched q (fun j hj => hq j (by omega))
  · intro j hj
    by_cases hlast : j = m
    · subst hlast
      exact hblocked
    · exact h.blocked j (by omega)
  · intro j hj
    by_cases hlast : j = m
    · subst hlast
      exact hsafe
    · exact h.safe j (by omega)

/-- Skipping a dead slot. -/
theorem Skipped.step_dead
    (h : Skipped k m k₁)
    (hm : m < tasksCap)
    (hdead : k₁.advance.current.status = .dead) :
    Skipped k (m + 1) k₁.advance := by
  refine h.step hm (fun hrun => hrun.1 hdead) rfl ?_ ?_
  · rw [flushed_dead_of_dead hdead]
    exact (Function.update_eq_self _ _).symm
  · intro hslot _ hdoomed
    rw [h.front hm, hslot] at hdead
    exact hdoomed.1 hdead

/-- Skipping a paused task. -/
theorem Skipped.step_paused {k₂ : Kernel} {regs : IntRegs}
    (h : Skipped k m k₁)
    (hm : m < tasksCap)
    (hblocked : ¬ k₁.advance.current.Runnable)
    (hflush : flushSignals k₁.advance.currentTask regs k₁.advance = .ok k₂) :
    Skipped k (m + 1) k₂ := by
  have hflushed := flushSignals_ok hflush
  refine h.step hm hblocked hflushed.currentTask hflushed.tasks ?_
  intro hslot hq hdoomed
  have hfront : k₁.advance.tasks k₁.advance.currentTask = k.tasks 0 := by
    rw [← hslot]
    exact h.front hm
  rw [← hfront] at hq hdoomed
  obtain ⟨k₃, hpanic⟩ := flushSignals_panic regs hq (h.next.trans hslot) hdoomed
  rw [hflush] at hpanic
  cases hpanic

/-- A flush in the scan fails only for init. -/
theorem Skipped.flush_error {regs : IntRegs} {e : Halt}
    (h : Skipped k m k₁)
    (hm : m < tasksCap)
    (hflush : flushSignals k₁.advance.currentTask regs k₁.advance = .error e) :
    k.slot m = 0 ∧ (k.tasks 0).Deliverable ∧
      ((k.tasks 0).QueueValid → (k.tasks 0).Doomed) ∧
      ∃ k', e = .panic "Attempt to kill init." regs k' := by
  obtain ⟨hzero, hdel, hdoomed, hreport⟩ := flushSignals_error hflush
  have hslot : k.slot m = 0 := h.next.symm.trans hzero
  have hfront : k₁.advance.tasks k₁.advance.currentTask = k.tasks 0 := by
    rw [← hslot]
    exact h.front hm
  rw [hfront] at hdel hdoomed
  exact ⟨hslot, hdel, hdoomed, hreport⟩

/-- **Every scan of at most one round ends in one of the three ways.** -/
theorem schedScan_outcome (k : Kernel) (regs : IntRegs) {n : Nat}
    (hn : n ≤ tasksCap) :
    ScanOutcome k regs n (schedScan regs n k) := by
  refine schedScan_rule
    (I := fun left k₁ => ∃ m, m + left = n ∧ Skipped k m k₁)
    (Q := ScanOutcome k regs n) ?_ ?_ ?_ ?_ ?_ ⟨0, Nat.zero_add n, skipped_zero k⟩
  · rintro k₁ ⟨m, hm, hskip⟩
    obtain rfl : m = n := hm
    exact .gaveUp k₁ hskip
  · rintro left k₁ ⟨m, hm, hskip⟩ hrun
    rw [hskip.front (by omega)] at hrun ⊢
    exact .resumed m k₁ (by omega) hskip hrun
  · rintro left k₁ ⟨m, hm, hskip⟩ hdead
    exact ⟨m + 1, by omega, hskip.step_dead (by omega) hdead⟩
  · rintro left k₁ ⟨m, hm, hskip⟩ hblocked _ regs' k₂ hflush
    exact ⟨m + 1, by omega, hskip.step_paused (by omega) hblocked hflush⟩
  · rintro left k₁ ⟨m, hm, hskip⟩ _ _ regs' e hflush
    obtain ⟨hslot, hdel, hdoomed, k₂, rfl⟩ := hskip.flush_error (by omega) hflush
    exact .initDied m regs' k₂ (by omega) hslot hdel hdoomed

/-- A scan that gives up has visited every slot. -/
theorem Skipped.all_visited
    (h : Skipped k tasksCap k₁)
    (hcur : k.currentTask < tasksCap)
    {q : Nat}
    (hq : q < tasksCap) :
    k₁.tasks q = (k.tasks q).flushed ∧ ¬ (k.tasks q).Runnable := by
  obtain ⟨j, hj, rfl⟩ := exists_slotAfter hcur hq
  exact ⟨h.visited j hj, h.blocked j hj⟩

/-- The ways in which a call of `sched_next_task` ends. -/
inductive SwitchOutcome (k : Kernel) (regs : IntRegs) : Exec (Kernel × IntRegs) → Prop where
  | initDied
      (k' : Kernel)
      (hcur : k.currentTask = 0)
      (hdel : k.current.Deliverable)
      (hdoomed : k.current.QueueValid → k.current.Doomed) :
      SwitchOutcome k regs (.error (.panic "Attempt to kill init." regs k'))
  | scanned
      (k₁ : Kernel)
      (result : Exec (Kernel × IntRegs))
      (hflush : Flushed k.currentTask (k.saveCurrent regs) k₁)
      (hsafe : k.currentTask = 0 → k.current.QueueValid → ¬ k.current.Doomed)
      (hscan : ScanOutcome k₁ regs tasksCap result) :
      SwitchOutcome k regs result

/-- A task after an interrupt frame was stored in it. -/
def Task.store (t : Task) (regs : IntRegs) : Task :=
  { t with regs := t.regs.saveFrom regs }

@[simp] theorem store_status (t : Task) (regs : IntRegs) :
    (t.store regs).status = t.status := rfl

@[simp] theorem store_queueValid (t : Task) (regs : IntRegs) :
    (t.store regs).QueueValid ↔ t.QueueValid := Iff.rfl

@[simp] theorem store_deliverable (t : Task) (regs : IntRegs) :
    (t.store regs).Deliverable ↔ t.Deliverable := Iff.rfl

@[simp] theorem store_doomed (t : Task) (regs : IntRegs) :
    (t.store regs).Doomed ↔ t.Doomed := Iff.rfl

theorem saveCurrent_current (k : Kernel) (regs : IntRegs) :
    (k.saveCurrent regs).tasks k.currentTask = k.current.store regs :=
  Function.update_self _ _ _

/-- The flush of the running task touches no other. -/
theorem flushed_other {pid : Nat} {regs : IntRegs}
    (h : Flushed k.currentTask (k.saveCurrent regs) k₁)
    (hother : pid ≠ k.currentTask) :
    k₁.tasks pid = k.tasks pid := by
  rw [h.tasks, Function.update_of_ne hother, saveCurrent_tasks, Function.update_of_ne hother]

theorem schedNextTask_outcome (k : Kernel) (regs : IntRegs) :
    SwitchOutcome k regs (schedNextTask k regs) := by
  have hcall : schedNextTask k regs =
      flushSignals k.currentTask regs (k.saveCurrent regs) >>= schedScan regs tasksCap := rfl
  rw [hcall]
  cases hflush : flushSignals k.currentTask regs (k.saveCurrent regs) with
  | error e =>
      obtain ⟨hcur, hdel, hdoomed, k', rfl⟩ := flushSignals_error hflush
      rw [saveCurrent_current, store_deliverable] at hdel
      rw [saveCurrent_current, store_queueValid, store_doomed] at hdoomed
      exact .initDied k' hcur hdel hdoomed
  | ok k₁ =>
      refine .scanned k₁ _ (flushSignals_ok hflush) ?_ (schedScan_outcome k₁ regs le_rfl)
      intro hcur hq hdoomed
      obtain ⟨k₂, hpanic⟩ := flushSignals_panic regs
        (k := k.saveCurrent regs)
        (by rw [saveCurrent_current]; exact hq) hcur
        (by rw [saveCurrent_current]; exact hdoomed)
      rw [hflush] at hpanic
      cases hpanic

/-- A call of `sched_next_task` that returns: the running task is flushed, some
slots are skipped, and the next one is resumed. -/
structure Switched (k : Kernel) (regs : IntRegs) (k₁ : Kernel) (m : Nat) (k' : Kernel) :
    Prop where
  flushed : Flushed k.currentTask (k.saveCurrent regs) k₁
  next : k'.currentTask = k₁.slot m
  short : m < tasksCap
  blocked : ∀ j, j < m → ¬ (k₁.tasks (k₁.slot j)).Runnable
  runnable : (k₁.tasks (k₁.slot m)).Runnable
  visited : ∀ j, j < m → k'.tasks (k₁.slot j) = (k₁.tasks (k₁.slot j)).flushed
  untouched : ∀ q, (∀ j, j < m → q ≠ k₁.slot j) → k'.tasks q = k₁.tasks q

theorem schedNextTask_switched {k' : Kernel} {regs regs' : IntRegs}
    (h : schedNextTask k regs = .ok (k', regs')) :
    ∃ k₁ m, Switched k regs k₁ m k' := by
  have houtcome := schedNextTask_outcome k regs
  rw [h] at houtcome
  cases houtcome with
  | scanned k₁ _ hflush _ hscan =>
      cases hscan with
      | resumed m k₂ hm hskip hrun =>
          exact ⟨k₁, m, hflush, hskip.next, hm, hskip.blocked, hrun, hskip.visited,
            hskip.untouched⟩

/-- The scan flushes a task or leaves it alone. -/
theorem Switched.scanned {k' : Kernel} {regs : IntRegs}
    (h : Switched k regs k₁ m k')
    (q : Nat) :
    k'.tasks q = k₁.tasks q ∨ k'.tasks q = (k₁.tasks q).flushed := by
  by_cases hvisited : ∃ j, j < m ∧ q = k₁.slot j
  · obtain ⟨j, hj, rfl⟩ := hvisited
    exact Or.inr (h.visited j hj)
  · left
    apply h.untouched
    intro j hj heq
    exact hvisited ⟨j, hj, heq⟩

/-- A task without deliverable signals is left alone by the scan. -/
theorem Switched.settled {k' : Kernel} {regs : IntRegs}
    (h : Switched k regs k₁ m k')
    {q : Nat}
    (hq : ¬ (k₁.tasks q).Deliverable) :
    k'.tasks q = k₁.tasks q := by
  rcases h.scanned q with hsame | hflushed
  · exact hsame
  · rw [hflushed, flushed_of_not_deliverable hq]

/-- A switch flushes a task that was not running or leaves it alone. -/
theorem Switched.other {k' : Kernel} {regs : IntRegs}
    (h : Switched k regs k₁ m k')
    {q : Nat}
    (hother : q ≠ k.currentTask) :
    k'.tasks q = k.tasks q ∨ k'.tasks q = (k.tasks q).flushed := by
  rw [← flushed_other h.flushed hother]
  exact h.scanned q

/-- What a switch leaves of the task that was running. -/
theorem Switched.current {k' : Kernel} {regs : IntRegs}
    (h : Switched k regs k₁ m k') :
    k'.tasks k.currentTask = (k.current.store regs).flushed := by
  have hcur : k₁.tasks k.currentTask = (k.current.store regs).flushed := by
    rw [h.flushed.tasks, Function.update_self, saveCurrent_current]
  have hsettled : ¬ (k₁.tasks k.currentTask).Deliverable := by
    rw [hcur]
    exact flushed_not_deliverable _
  exact (h.settled hsettled).trans hcur

end Outcome

end Klyx
