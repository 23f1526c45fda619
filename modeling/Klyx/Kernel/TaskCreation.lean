import Klyx.Kernel.SchedulerAction

/-!
# The creation of a task

`sched_make_task` takes the first dead slot of the table and clears it before it
fills it, so that nothing of an earlier task is left in it.

**Results.**
* `freshTask_created`: what the new task looks like.
* `task_creation`: what changes in the table.
-/

namespace Klyx

/-- A new task with the arguments of `sched_make_task`. -/
structure CreatedWith (pid : Nat) (eip tty fs gs cs genericSegment : Word) (yieldOnly : Bool)
    (t : Task) : Prop where
  status : t.status = .new
  paused : t.paused = false
  pending : t.pending = []
  signalsSize : t.signalsSize = 0
  uid : t.uid = 0
  gid : t.gid = 0
  eip : t.regs.eip = eip
  cs : t.regs.cs = cs
  fs : t.regs.fs = fs
  gs : t.regs.gs = gs
  ds : t.regs.ds = genericSegment
  es : t.regs.es = genericSegment
  ss : t.regs.ss = genericSegment
  tty : t.tty = tty
  yieldOnly : t.yieldOnly = yieldOnly
  esp : t.regs.esp.toNat = tasksStackStart + taskStackCap * pid
  ebp : t.regs.ebp.toNat = tasksStackStart + taskStackCap * pid

section Creation

variable {k : Kernel} {pid : Nat} (eip tty fs gs cs genericSegment : Word) (yieldOnly : Bool)

/-- A new task gets the stack of its slot. -/
theorem freshTask_esp
    (hpid : pid < tasksCap) :
    (freshTask pid eip tty fs gs cs genericSegment yieldOnly).regs.esp.toNat =
      tasksStackStart + taskStackCap * pid := by
  unfold tasksCap at hpid
  unfold freshTask tasksStackStart taskStackCap
  simp only [BitVec.toNat_ofNat]
  omega

theorem freshTask_created
    (hpid : pid < tasksCap) :
    CreatedWith pid eip tty fs gs cs genericSegment yieldOnly
      (freshTask pid eip tty fs gs cs genericSegment yieldOnly) where
  status := rfl
  paused := rfl
  pending := rfl
  signalsSize := rfl
  uid := rfl
  gid := rfl
  eip := rfl
  cs := rfl
  fs := rfl
  gs := rfl
  ds := rfl
  es := rfl
  ss := rfl
  tty := rfl
  yieldOnly := rfl
  esp := freshTask_esp eip tty fs gs cs genericSegment yieldOnly hpid
  ebp := freshTask_esp eip tty fs gs cs genericSegment yieldOnly hpid

/-- `sched_make_task` with a free slot. -/
theorem schedMakeTask_of_firstFree
    (hfree : FirstFree k pid) :
    schedMakeTask k eip tty fs gs cs genericSegment yieldOnly =
      ((k.setTask pid (freshTask pid eip tty fs gs cs genericSegment yieldOnly)).note
        (.created pid (freshTask pid eip tty fs gs cs genericSegment yieldOnly).regs), pid) := by
  have hfind : (List.range tasksCap).find? (fun pid => (k.tasks pid).status = .dead) =
      some pid := by
    rw [List.find?_range_eq_some]
    refine ⟨by simpa using hfree.dead, List.mem_range.mpr hfree.lt, ?_⟩
    intro q hq
    simpa using hfree.first q hq
  simp only [schedMakeTask, hfind]

/-- The new task does not depend on what its slot held before. -/
theorem schedMakeTask_slot
    (hfree : FirstFree k pid) :
    (schedMakeTask k eip tty fs gs cs genericSegment yieldOnly).1.tasks pid =
      freshTask pid eip tty fs gs cs genericSegment yieldOnly := by
  rw [schedMakeTask_of_firstFree eip tty fs gs cs genericSegment yieldOnly hfree]
  exact Function.update_self _ _ _

end Creation

/-- **The creation of a task** changes the first dead slot, which then holds the
new task whatever it held before, or nothing but `errno` if no slot is dead. -/
theorem task_creation (k : Kernel) (eip tty fs gs cs genericSegment : Word) (yieldOnly : Bool) :
    let (k', pid) := schedMakeTask k eip tty fs gs cs genericSegment yieldOnly
    (FirstFree k pid ∧
      CreatedWith pid eip tty fs gs cs genericSegment yieldOnly (k'.tasks pid) ∧
      (∀ other, FirstFree other pid →
        (schedMakeTask other eip tty fs gs cs genericSegment yieldOnly).1.tasks pid =
          k'.tasks pid) ∧
      ∀ q, q ≠ pid → k'.tasks q = k.tasks q) ∨
    ((∀ q, q < tasksCap → (k.tasks q).status ≠ .dead) ∧
      k'.tasks = k.tasks ∧
      k'.errno = .enobufs) := by
  dsimp only
  rcases schedMakeTask_cases k eip tty fs gs cs genericSegment yieldOnly with
    ⟨pid, hfree, -⟩ | ⟨hnone, heq⟩
  · have hslot := schedMakeTask_slot eip tty fs gs cs genericSegment yieldOnly hfree
    rw [schedMakeTask_of_firstFree eip tty fs gs cs genericSegment yieldOnly hfree] at hslot ⊢
    refine Or.inl ⟨hfree, ?_, ?_, fun q hq => Function.update_of_ne hq _ _⟩
    · rw [hslot]
      exact freshTask_created eip tty fs gs cs genericSegment yieldOnly hfree.lt
    · intro other hother
      rw [hslot]
      exact schedMakeTask_slot eip tty fs gs cs genericSegment yieldOnly hother
  · rw [heq]
    exact Or.inr ⟨hnone, rfl, rfl⟩

end Klyx
