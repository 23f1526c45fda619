import Klyx.Kernel.Reaction

/-!
# The scheduler invariant

In every state reached from boot the current slot lies inside the table, its
task is live and not paused, and init is live.

A switch can only end in a slot that the scan has just tested, so the first
part needs no history.  Init survives because every action that ends a task
ends the current one, and both the exit call and the flush refuse to do that
in slot 0.
-/

namespace Klyx

open HaltingRun

/-- What holds in every state between two reactions. -/
structure SchedInv (k : Kernel) : Prop where
  currentTask_lt : k.currentTask < tasksCap
  runnable : k.current.Runnable
  init_live : (k.tasks 0).status ≠ .dead
  tasking : k.isTaskingAvaliable = true

section Slots

variable {k k' : Kernel}

/-- Filling a slot leaves live tasks alone. -/
theorem schedMakeTask_live {pid : Nat} (eip tty fs gs cs genericSegment : Word)
    (yieldOnly : Bool)
    (hlive : (k.tasks pid).status ≠ .dead) :
    (schedMakeTask k eip tty fs gs cs genericSegment yieldOnly).1.tasks pid = k.tasks pid :=
  (schedMakeTask_other k eip tty fs gs cs genericSegment yieldOnly pid).resolve_right hlive

@[simp] theorem schedMakeTask_currentTask (eip tty fs gs cs genericSegment : Word)
    (yieldOnly : Bool) :
    (schedMakeTask k eip tty fs gs cs genericSegment yieldOnly).1.currentTask =
      k.currentTask := by
  rcases schedMakeTask_cases k eip tty fs gs cs genericSegment yieldOnly with
    ⟨pid, -, hmade⟩ | ⟨-, hmade⟩
  · simp [hmade]
  · simp [hmade]

@[simp] theorem schedMakeTask_isTaskingAvaliable (eip tty fs gs cs genericSegment : Word)
    (yieldOnly : Bool) :
    (schedMakeTask k eip tty fs gs cs genericSegment yieldOnly).1.isTaskingAvaliable =
      k.isTaskingAvaliable := by
  rcases schedMakeTask_cases k eip tty fs gs cs genericSegment yieldOnly with
    ⟨pid, -, hmade⟩ | ⟨-, hmade⟩
  · simp [hmade]
  · simp [hmade]

theorem freshTask_runnable (pid : Nat) (eip tty fs gs cs genericSegment : Word)
    (yieldOnly : Bool) :
    (freshTask pid eip tty fs gs cs genericSegment yieldOnly).Runnable :=
  ⟨fun h => TaskStatus.noConfusion h, rfl⟩

end Slots

/-- Every move of slot 0 leaves init live. -/
theorem slotMove_init_live {mayExit : Prop} {h h' : List Note} {t t' : Task} {c c' : Nat}
    (hinit : t.status ≠ .dead)
    (hmove : SlotMove mayExit 0 h t c h' t' c') :
    t'.status ≠ .dead := by
  cases hmove with
  | other | save | flushed | resume | queue | setuid | setgid =>
      exact hinit
  | handle hdel hsafe =>
      intro hdead
      exact hsafe ((handleFront_dead_iff hdel.2).mp hdead) rfl
  | create =>
      exact (freshTask_runnable _ _ _ _ _ _ _ _).1
  | exit _ hpid =>
      exact absurd rfl hpid

theorem actions_tasking {mayExit : Prop} {k k' : Kernel}
    (htasking : k.isTaskingAvaliable = true)
    (h : Actions mayExit k k') :
    k'.isTaskingAvaliable = true := by
  refine actions_invariant (P := fun k => k.isTaskingAvaliable = true) ?_ htasking h
  intro k k' htasking haction
  cases haction with
  | quiet h | save _ h | handle _ _ h | flushed _ h | advance _ h | resume _ _ _ h | queue _ _ _ h
  | create _ _ _ _ _ _ _ _ _ h | exit _ _ h | setuid _ _ h | setgid _ _ h =>
      exact h.isTaskingAvaliable htasking

/-- A scan stops only at a slot of the table that it has found runnable. -/
theorem schedScan_stops {k k' : Kernel} {regs regs' : IntRegs} {n : Nat}
    (h : schedScan regs n k = .ok (k', regs')) :
    k'.currentTask < tasksCap ∧ k'.current.Runnable := by
  refine schedScan_ok_rule (I := fun _ _ => True)
    (Q := fun k' _ => k'.currentTask < tasksCap ∧ k'.current.Runnable) ?_ ?_ ?_ trivial h
  · intro _ k _ hrun
    exact ⟨Nat.mod_lt _ (by decide), hrun⟩
  · intro _ _ _ _
    trivial
  · intro _ _ _ _ _ _ _ _
    trivial

theorem schedNextTask_stops {k k' : Kernel} {regs regs' : IntRegs}
    (h : schedNextTask k regs = .ok (k', regs')) :
    k'.currentTask < tasksCap ∧ k'.current.Runnable := by
  obtain ⟨_, _, _, hscan⟩ := schedNextTask_ok h
  exact schedScan_stops hscan

/-- Queueing a signal does not touch the pause flag. -/
theorem schedKillTask_paused (k : Kernel) (pid : Nat) (sig : Sig) (q : Nat) :
    ((schedKillTask k pid sig).tasks q).paused = (k.tasks q).paused := by
  refine schedKillTask_slot (P := fun t => t.paused = (k.tasks q).paused) rfl ?_
  rintro rfl _
  rfl

/-- The current task of the state after a reaction can run. -/
theorem reaction_runnable {e : Event} {k k' : Kernel}
    (hinv : SchedInv k)
    (h : Reaction e k k') :
    k'.currentTask < tasksCap ∧ k'.current.Runnable := by
  obtain ⟨hlt, hrun, -, -⟩ := hinv
  cases h with
  | quiet h =>
      rw [Kernel.current, h.tasks, h.currentTask]
      exact ⟨hlt, hrun⟩
  | create eip tty fs gs cs genericSegment yieldOnly _ h =>
      subst h
      rw [Kernel.current, schedMakeTask_currentTask, schedMakeTask_live _ _ _ _ _ _ _ hrun.1]
      exact ⟨hlt, hrun⟩
  | queue pid sig _ _ h =>
      subst h
      unfold Kernel.current Task.Runnable
      rw [schedKillTask_currentTask, schedKillTask_status, schedKillTask_paused]
      exact ⟨hlt, hrun⟩
  | setuid uid _ h =>
      subst h
      refine ⟨hlt, ?_⟩
      rw [Kernel.current, Kernel.modifyTask_tasks, Kernel.modifyTask_currentTask,
        Function.update_self]
      exact hrun
  | setgid gid _ h =>
      subst h
      refine ⟨hlt, ?_⟩
      rw [Kernel.current, Kernel.modifyTask_tasks, Kernel.modifyTask_currentTask,
        Function.update_self]
      exact hrun
  | switch k₁ regs regs' _ h =>
      exact schedNextTask_stops h

/-- Every reaction keeps the invariant. -/
theorem reaction_schedInv {e : Event} {k k' : Kernel}
    (hinv : SchedInv k)
    (h : Reaction e k k') :
    SchedInv k' := by
  have hacts : Actions e.IsExit k k' := reaction_actions hinv.runnable.1 h
  obtain ⟨hlt, hrun⟩ := reaction_runnable hinv h
  refine ⟨hlt, hrun, ?_, actions_tasking hinv.tasking hacts⟩
  exact actions_invariant (P := fun k => (k.tasks 0).status ≠ .dead)
    (fun _ _ hinit haction => slotMove_init_live hinit (action_slotMove haction 0))
    hinv.init_live hacts

theorem step_schedInv {e : Event} {k k' : Kernel}
    (hinv : SchedInv k)
    (h : step k e = .ok k') :
    SchedInv k' :=
  reaction_schedInv hinv (step_cases hinv.tasking h)

/-- Assigning to the running task, if that leaves it runnable. -/
theorem modifyCurrent_schedInv {k : Kernel} {f : Task → Task}
    (hinv : SchedInv k)
    (hrun : (f k.current).Runnable) :
    SchedInv (k.modifyTask k.currentTask f) := by
  rcases hinv with ⟨hlt, -, hinit, htasking⟩
  refine ⟨hlt, ?_, ?_, htasking⟩
  · simpa [Kernel.current] using hrun
  · rw [Kernel.modifyTask_tasks]
    exact update_slot (P := fun t => t.status ≠ .dead) (fun _ => hinit) (fun _ => hrun.1)

/-- A free slot 0 is the first free slot. -/
theorem schedMakeTask_slot_zero {k : Kernel} (eip tty fs gs cs genericSegment : Word)
    (yieldOnly : Bool)
    (hdead : (k.tasks 0).status = .dead) :
    (schedMakeTask k eip tty fs gs cs genericSegment yieldOnly).1.tasks 0 =
      freshTask 0 eip tty fs gs cs genericSegment yieldOnly := by
  rcases schedMakeTask_cases k eip tty fs gs cs genericSegment yieldOnly with
    ⟨pid, hfree, hmade⟩ | ⟨hnone, -⟩
  · have hpid : pid = 0 := by
      by_contra hpos
      exact hfree.first 0 (by omega) hdead
    subst hpid
    simp [hmade]
  · exact absurd hdead (hnone 0 (by decide))

/-- Init is the first task that booting creates. -/
theorem bootTasks_init (img : Image) :
    (bootTasks img).tasks 0 = freshTask 0 img.testInit 0 0 0 0x08 0x10 true := by
  have hfirst := schedMakeTask_slot_zero (k := Kernel.zero) img.testInit 0 0 0 0x08 0x10 true rfl
  have hkeep : ∀ (k : Kernel) (eip tty : Word),
      k.tasks 0 = freshTask 0 img.testInit 0 0 0 0x08 0x10 true →
      (schedMakeTask k eip tty 0 0 0x08 0x10 false).1.tasks 0 =
        freshTask 0 img.testInit 0 0 0 0x08 0x10 true := by
    intro k eip tty htask
    rw [schedMakeTask_live, htask]
    rw [htask]
    exact (freshTask_runnable _ _ _ _ _ _ _ _).1
  simp only [bootTasks]
  exact hkeep _ _ _ (hkeep _ _ _ (hkeep _ _ _ (hkeep _ _ _ hfirst)))

theorem bootTasks_actions (img : Image) :
    Actions False Kernel.zero (bootTasks img) := by
  have hmake : ∀ {k : Kernel} (eip tty : Word) (yieldOnly : Bool),
      Actions False Kernel.zero k →
      Actions False Kernel.zero (schedMakeTask k eip tty 0 0 0x08 0x10 yieldOnly).1 :=
    fun _ _ _ h => h.tail (schedMakeTask_action _ _ _ _ _ _ _ _)
  exact hmake _ _ _ (hmake _ _ _ (hmake _ _ _ (hmake _ _ _ (hmake _ _ _ .refl))))

theorem bootTasks_currentTask (img : Image) :
    (bootTasks img).currentTask = 0 := by
  simp [bootTasks, Kernel.zero]

theorem bootTasks_isTaskingAvaliable (img : Image) :
    (bootTasks img).isTaskingAvaliable = false := by
  simp [bootTasks, Kernel.zero]

theorem bootTasks_init_settled (img : Image) :
    ¬ ((bootTasks img).tasks 0).Deliverable := by
  rw [bootTasks_init]
  exact fun hdel => hdel.1 rfl

theorem bootTasks_init_runnable (img : Image) :
    ((bootTasks img).tasks 0).Runnable := by
  rw [bootTasks_init]
  exact freshTask_runnable _ _ _ _ _ _ _ _

/-- The state in which init is resumed for the first time. -/
def Kernel.started (k : Kernel) : Kernel :=
  { k with
    currentTask := 0
    useCurrentTty := false
    isTaskingAvaliable := true }

/-- The first system call 0 resumes init. -/
theorem sysSetup_first {k : Kernel}
    (regs : IntRegs)
    (htasking : k.isTaskingAvaliable = false)
    (hlive : (k.tasks 0).status ≠ .dead) :
    sysSetup { k with currentTask := 0, useCurrentTty := false } regs =
      .ok (k.started.resume, (k.tasks 0).regs.frame) := by
  have hfree : ¬ k.isTaskingAvaliable = true := by
    simp [htasking]
  simp only [sysSetup, schedStartTasking, startFrom_eq_frame]
  rw [if_pos hfree]
  exact if_pos hlive

theorem started_actions {k : Kernel}
    (hcur : k.currentTask = 0)
    (hsettled : ¬ (k.tasks 0).Deliverable)
    (hrun : (k.tasks 0).Runnable) :
    Actions False k k.started.resume := by
  have hquiet : Action False k k.started :=
    .quiet ⟨rfl, hcur.symm, rfl, fun _ => rfl⟩
  exact (Relation.ReflTransGen.single hquiet).tail
    (.resume 0 hsettled hrun ⟨rfl, rfl, rfl, id⟩)

theorem started_schedInv {k : Kernel}
    (hrun : (k.tasks 0).Runnable) :
    SchedInv k.started.resume :=
  ⟨Nat.zero_lt_succ _, hrun, hrun.1, rfl⟩

/-- Booting ends with init resumed. -/
theorem kernelStart_eq (img : Image) (regs : IntRegs) :
    kernelStart img regs =
      .ok ((bootTasks img).started.resume, ((bootTasks img).tasks 0).regs.frame) := by
  have hcall : kernelStart img regs =
      sysSetup { bootTasks img with currentTask := 0, useCurrentTty := false }
        { regs with eax := 0 } := rfl
  rw [hcall]
  exact sysSetup_first _ (bootTasks_isTaskingAvaliable img) (bootTasks_init_runnable img).1

theorem eq_of_kernelStart {img : Image} {regs regs' : IntRegs} {k : Kernel}
    (h : kernelStart img regs = .ok (k, regs')) :
    k = (bootTasks img).started.resume := by
  rw [kernelStart_eq] at h
  exact (congrArg Prod.fst (Except.ok.inj h)).symm

/-- Booting is a sequence of actions from zeroed memory. -/
theorem kernelStart_actions {img : Image} {regs regs' : IntRegs} {k : Kernel}
    (h : kernelStart img regs = .ok (k, regs')) :
    Actions False Kernel.zero k := by
  rw [eq_of_kernelStart h]
  exact (bootTasks_actions img).trans
    (started_actions (bootTasks_currentTask img) (bootTasks_init_settled img)
      (bootTasks_init_runnable img))

theorem kernelStart_schedInv {img : Image} {regs regs' : IntRegs} {k : Kernel}
    (h : kernelStart img regs = .ok (k, regs')) :
    SchedInv k := by
  rw [eq_of_kernelStart h]
  exact started_schedInv (bootTasks_init_runnable img)

/-- The parts of a run from boot. -/
theorem runFromBoot_iff {img : Image} {regs : IntRegs} {es : List Event} {k : Kernel} :
    RunFromBoot img regs es k ↔
      ∃ k₀ regs₀, kernelStart img regs = .ok (k₀, regs₀) ∧ run step k₀ es = .ok k := by
  unfold RunFromBoot runFromBoot
  rw [bind_eq_ok]
  constructor
  · rintro ⟨k₀, hstart, hrun⟩
    obtain ⟨⟨k₁, regs₁⟩, hcall, rfl⟩ := map_eq_ok.mp hstart
    exact ⟨k₁, regs₁, hcall, hrun⟩
  · rintro ⟨k₀, regs₀, hstart, hrun⟩
    exact ⟨k₀, map_eq_ok.mpr ⟨(k₀, regs₀), hstart, rfl⟩, hrun⟩

theorem schedInv_of_run {img : Image} {regs : IntRegs} {es : List Event} {k : Kernel}
    (h : RunFromBoot img regs es k) :
    SchedInv k := by
  obtain ⟨k₀, regs₀, hstart, hrun⟩ := runFromBoot_iff.mp h
  exact run_invariant step (fun _ _ _ _ => step_schedInv) (kernelStart_schedInv hstart) hrun

/-- A reachable state comes from zeroed memory by actions. -/
theorem actions_of_run {mayExit : Prop} {img : Image} {regs : IntRegs} {es : List Event}
    {k : Kernel}
    (hexit : ∀ e ∈ es, e.IsExit → mayExit)
    (h : RunFromBoot img regs es k) :
    Actions mayExit Kernel.zero k := by
  obtain ⟨k₀, regs₀, hstart, hrun⟩ := runFromBoot_iff.mp h
  have hboot : Actions mayExit Kernel.zero k₀ :=
    actions_mono False.elim (kernelStart_actions hstart)
  refine hboot.trans (run_relation step (fun _ => .refl) (fun h₁ h₂ => h₁.trans h₂) ?_
    (kernelStart_schedInv hstart) hrun)
  intro e he s s' hinv hstep
  exact ⟨step_schedInv hinv hstep, actions_mono (hexit e he)
    (reaction_actions hinv.runnable.1 (step_cases hinv.tasking hstep))⟩

theorem Reachable.schedInv {k : Kernel}
    (h : Reachable k) :
    SchedInv k := by
  obtain ⟨img, regs, es, hrun⟩ := h
  exact schedInv_of_run hrun

theorem Reachable.actions {k : Kernel}
    (h : Reachable k) :
    Actions True Kernel.zero k := by
  obtain ⟨img, regs, es, hrun⟩ := h
  exact actions_of_run (fun _ _ _ => trivial) hrun

/-- A reaction from a reachable state leads to a reachable state. -/
theorem Reachable.step {k k' : Kernel} {e : Event}
    (h : Reachable k)
    (hstep : Klyx.step k e = .ok k') :
    Reachable k' := by
  obtain ⟨img, regs, es, hrun⟩ := h
  obtain ⟨k₀, regs₀, hstart, hes⟩ := runFromBoot_iff.mp hrun
  refine ⟨img, regs, es ++ [e], runFromBoot_iff.mpr ⟨k₀, regs₀, hstart, ?_⟩⟩
  rw [run_append Klyx.step hes]
  exact (run_cons_eq_ok Klyx.step).mpr ⟨k', hstep, rfl⟩

end Klyx
