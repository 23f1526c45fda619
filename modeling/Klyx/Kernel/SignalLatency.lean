import Klyx.Kernel.RoundRobin

/-!
# Signals are delivered within one round

Every slot that successive switches pass has been flushed: the slot they start
in when it is switched out, the paused slots in between by the scan, and the
slot they end in by the next switch.  Each switch moves on by at least one slot,
so `TASKS_CAP + 1` of them have passed the whole table.
-/

namespace Klyx

open HaltingRun CyclicScan

/-- The first `d` slots from slot `c` on are settled, and the next is current. -/
structure Covered (c d : Nat) (k : Kernel) : Prop where
  current : k.currentTask = (c + d) % tasksCap
  settled : ∀ i, i < d → ¬ (k.tasks ((c + i) % tasksCap)).Deliverable

section Cover

variable {c d : Nat} {k k' : Kernel} {regs : IntRegs}

theorem covered_zero
    (hcur : k.currentTask < tasksCap) :
    Covered k.currentTask 0 k := by
  refine ⟨(Nat.mod_eq_of_lt hcur).symm, ?_⟩
  intro i hi
  exact absurd hi (Nat.not_lt_zero i)

/-- A switch leaves no deliverable signal where there was none. -/
theorem Switched.keeps_settled {k₁ : Kernel} {m q : Nat}
    (h : Switched k regs k₁ m k')
    (hq : ¬ (k.tasks q).Deliverable) :
    ¬ (k'.tasks q).Deliverable := by
  by_cases hother : q = k.currentTask
  · subst hother
    rw [h.current]
    exact flushed_not_deliverable _
  · rcases h.other hother with hsame | hflushed
    · rw [hsame]
      exact hq
    · rw [hflushed]
      exact flushed_not_deliverable _

/-- A switch that skips `m` slots covers `m + 1` more. -/
theorem Covered.switch {k₁ : Kernel} {m : Nat}
    (h : Covered c d k)
    (hswitched : Switched k regs k₁ m k') :
    Covered c (d + m + 1) k' := by
  have hslot : ∀ j, k₁.slot j = (c + (d + 1 + j)) % tasksCap := by
    intro j
    rw [Kernel.slot, slotAfter, hswitched.flushed.currentTask, saveCurrent_currentTask,
      h.current, Nat.add_assoc, Nat.mod_add_mod]
    congr 1
    omega
  refine ⟨?_, ?_⟩
  · rw [hswitched.next, hslot]
    congr 1
    omega
  · intro i hi
    by_cases hold : i < d
    · exact hswitched.keeps_settled (h.settled i hold)
    by_cases hcurrent : i = d
    · subst hcurrent
      rw [← h.current, hswitched.current]
      exact flushed_not_deliverable _
    · obtain ⟨j, rfl⟩ : ∃ j, i = d + 1 + j := ⟨i - (d + 1), by omega⟩
      rw [← hslot, hswitched.visited j (by omega)]
      exact flushed_not_deliverable _

/-- Every switch of a sequence covers at least one more slot. -/
theorem Covered.switches {frames : List IntRegs} {slots : List Nat}
    (h : Covered c d k)
    (hrun : switches k frames = .ok (k', slots)) :
    ∃ d', d + frames.length ≤ d' ∧ Covered c d' k' := by
  induction frames generalizing k d slots with
  | nil =>
      cases hrun
      exact ⟨d, le_rfl, h⟩
  | cons regs frames ih =>
      obtain ⟨⟨k₂, regs₂⟩, hcall, hrest⟩ := bind_eq_ok.mp hrun
      obtain ⟨⟨k₃, slots₃⟩, htail, hpair⟩ := bind_eq_ok.mp hrest
      cases hpair
      obtain ⟨k₁, m, hswitched⟩ := schedNextTask_switched hcall
      obtain ⟨d', hd', hcovered⟩ := ih (h.switch hswitched) htail
      refine ⟨d', ?_, hcovered⟩
      rw [List.length_cons]
      omega

end Cover

/-- **After `TASKS_CAP + 1` switches no live task has a pending signal.** -/
theorem bounded_signal_delivery (k k' : Kernel) (frames : List IntRegs) (slots : List Nat)
    (hcur : k.currentTask < tasksCap)
    (hlen : tasksCap + 1 ≤ frames.length)
    (hrun : switches k frames = .ok (k', slots)) :
    ∀ pid, pid < tasksCap → (k'.tasks pid).status ≠ .dead →
      (k'.tasks pid).signalsSize = 0 ∧ (k'.tasks pid).pending = [] := by
  intro pid hpid hlive
  obtain ⟨d, hd, hcovered⟩ := (covered_zero hcur).switches hrun
  obtain ⟨j, hj, hslot⟩ := exists_slotAfter hcur hpid
  have hsettled : ¬ (k'.tasks pid).Deliverable := by
    rw [← hslot, slotAfter, Nat.add_assoc]
    exact hcovered.settled (1 + j) (by omega)
  have hempty : (k'.tasks pid).signalsSize = 0 := by
    by_contra hsize
    exact hsettled ⟨hsize, hlive⟩
  exact ⟨hempty, (pending_eq_nil_iff _).mpr hempty⟩

/-- A full table in which task 2 has a stop signal pending. -/
def stoppingTable : Kernel :=
  schedKillTask { Kernel.zero with tasks := fun pid => freshTask pid 0 0 0 0 0 0 false } 2 sigstop

/-- Task 2 runs once more, is stopped, and stays skipped with an empty queue. -/
theorem bounded_signal_delivery_sample :
    ∃ k' slots, switches stoppingTable (List.replicate (tasksCap + 1) default) =
        .ok (k', slots) ∧
      (k'.tasks 2).pending = [] := by
  obtain ⟨⟨k', slots⟩, hrun, hlive⟩ := exists_of_returnsWith
    (x := switches stoppingTable (List.replicate (tasksCap + 1) default))
    (p := fun r => (r.1.tasks 2).status ≠ .dead)
    (by decide +kernel)
  have hcur : stoppingTable.currentTask < tasksCap := by
    decide
  have hlen : tasksCap + 1 ≤ (List.replicate (tasksCap + 1) (default : IntRegs)).length := by
    simp
  obtain ⟨-, hpending⟩ :=
    bounded_signal_delivery _ k' _ slots hcur hlen hrun 2 (by decide) hlive
  exact ⟨k', slots, hrun, hpending⟩

end Klyx
