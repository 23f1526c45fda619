import Klyx.Kernel.ScanOutcome
import Klyx.Kernel.SchedulerAction

/-!
# What one reaction of the kernel can do

`step_cases` says once what a reaction that returns can be: it leaves the
scheduler alone, fills a slot, queues a signal, changes credentials, or
prepares a task switch and makes it.  Invariants of whole runs are read off
from it.

**Results.**
* `step_cases`: the inversion of `step`.
* `reaction_actions`: a reaction with a live current task is a sequence of
  actions.
* `reaction_bystander`: what it does to the other slots.
-/

namespace Klyx

open HaltingRun

/-- The state in which a reaction calls `sched_next_task`. -/
inductive Prepared (e : Event) (k k₁ : Kernel) : Prop where
  | direct
      (h : k₁ = k)
  | signalled
      (k₂ : Kernel)
      (sig : Sig)
      (hquiet : Moves k k₂ k.tasks k.currentTask [])
      (h : k₁ = schedKillTask k₂ k.currentTask sig)
  | exited
      (hexit : e.IsExit)
      (hcur : k.currentTask ≠ 0)
      (h : k₁ = (k.modifyTask k.currentTask (fun t => { t with status := .dead })).note
        (.exited k.currentTask))

/-- What a reaction that returns has done. -/
inductive Reaction (e : Event) (k k' : Kernel) : Prop where
  | quiet
      (h : Moves k k' k.tasks k.currentTask [])
  | create
      (eip tty fs gs cs genericSegment : Word)
      (yieldOnly : Bool)
      (hevent : ¬ e.IsSyscall)
      (h : k' = (schedMakeTask k eip tty fs gs cs genericSegment yieldOnly).1)
  | queue
      (pid : Nat)
      (sig : Sig)
      (hpid : pid < tasksCap)
      (hallowed : e.IsSyscall → k.current.uid = 0 ∨ k.current.uid = (k.tasks pid).uid)
      (h : k' = schedKillTask k pid sig)
  | setuid
      (uid : Word)
      (hroot : k.current.uid = 0)
      (h : k' = k.modifyTask k.currentTask (fun t => { t with uid := uid }))
  | setgid
      (gid : Word)
      (hroot : k.current.uid = 0)
      (h : k' = k.modifyTask k.currentTask (fun t => { t with gid := gid }))
  | switch
      (k₁ : Kernel)
      (regs regs' : IntRegs)
      (hprep : Prepared e k k₁)
      (h : schedNextTask k₁ regs = .ok (k', regs'))

theorem moves_rfl {k : Kernel} :
    Moves k k k.tasks k.currentTask [] :=
  ⟨rfl, rfl, rfl, id⟩

theorem moves_printf (k : Kernel) (text : String) :
    Moves k (k.printf text) k.tasks k.currentTask [] :=
  ⟨rfl, rfl, rfl, id⟩

theorem moves_ttyCall (k : Kernel) (td count : Word) :
    Moves k (ttyCall k td count).1 k.tasks k.currentTask [] := by
  unfold ttyCall
  split
  · exact ⟨rfl, rfl, rfl, id⟩
  · exact ⟨rfl, rfl, rfl, id⟩

section Inversion

variable {e : Event} {k k' : Kernel} {regs regs' : IntRegs}

theorem intTimerImpl_reaction
    (h : intTimerImpl k regs = .ok (k', regs')) :
    Reaction e k k' := by
  unfold intTimerImpl at h
  split at h
  · exact .switch k regs regs' (.direct rfl) h
  · cases h
    exact .quiet moves_rfl

theorem x86ErrorTrap_reaction {name : String} {sig : Sig}
    (h : x86ErrorTrap k regs name sig = .ok (k', regs')) :
    Reaction e k k' := by
  unfold x86ErrorTrap at h
  dsimp only at h
  split at h
  · exact .switch _ regs regs' (.signalled _ sig (moves_printf k _) rfl) h
  · cases h

theorem sysSetup_reaction
    (htasking : k.isTaskingAvaliable = true)
    (h : sysSetup k regs = .ok (k', regs')) :
    Reaction e k k' := by
  unfold sysSetup at h
  rw [if_neg (not_not.mpr htasking)] at h
  exact .switch _ regs regs' (.signalled k sigsys moves_rfl rfl) h

theorem sysExit_reaction
    (hexit : e.IsExit)
    (h : sysExit k regs = .ok (k', regs')) :
    Reaction e k k' := by
  unfold sysExit at h
  split at h
  · cases h
  · rename_i hcur
    exact .switch _ regs regs' (.exited hexit hcur rfl) h

theorem sysSetuid_reaction :
    Reaction e k (sysSetuid k regs).1 := by
  unfold sysSetuid
  split
  · rename_i hroot
    exact .setuid regs.ebx hroot rfl
  · exact .quiet moves_rfl

theorem sysSetgid_reaction :
    Reaction e k (sysSetgid k regs).1 := by
  unfold sysSetgid
  split
  · rename_i hroot
    exact .setgid regs.ebx hroot rfl
  · exact .quiet moves_rfl

theorem sysKill_reaction :
    Reaction e k (sysKill k regs).1 := by
  unfold sysKill
  dsimp only
  split
  · exact .quiet moves_rfl
  rename_i htarget
  split
  · exact .quiet moves_rfl
  split
  · exact .quiet moves_rfl
  split
  · exact .quiet moves_rfl
  split
  · rename_i hallowed
    exact .queue _ _ (by omega) (fun _ => hallowed) rfl
  · exact .quiet moves_rfl

theorem eq_fst_of_ok {p : Kernel × IntRegs}
    (h : (.ok p : Exec (Kernel × IntRegs)) = .ok (k', regs')) :
    k' = p.1 := by
  rw [Except.ok.inj h]

theorem syscallHandlerImpl_reaction {line : Word}
    (htasking : k.isTaskingAvaliable = true)
    (h : syscallHandlerImpl k regs line = .ok (k', regs')) :
    Reaction (.syscall regs line) k k' := by
  unfold syscallHandlerImpl at h
  split at h
  · exact sysSetup_reaction htasking h
  · rename_i heax
    exact sysExit_reaction (BitVec.eq_of_toNat_eq heax) h
  · cases h
    exact .quiet (moves_ttyCall k _ _)
  · cases h
    exact .quiet (moves_ttyCall k _ _)
  · exact .switch k regs regs' (.direct rfl) h
  · cases h
    exact .quiet moves_rfl
  · cases h
    exact .quiet moves_rfl
  · rw [eq_fst_of_ok h]
    exact sysSetuid_reaction
  · rw [eq_fst_of_ok h]
    exact sysSetgid_reaction
  · cases h
    exact .quiet moves_rfl
  · cases h
    exact .quiet moves_rfl
  · cases h
    exact .quiet moves_rfl
  · rw [eq_fst_of_ok h]
    exact sysKill_reaction
  · cases h

/-- Inversion of a reaction that returns. -/
theorem step_cases
    (htasking : k.isTaskingAvaliable = true)
    (h : step k e = .ok k') :
    Reaction e k k' := by
  cases e with
  | timer regs =>
      obtain ⟨⟨k₁, regs'⟩, hcall, rfl⟩ := map_eq_ok.mp h
      exact intTimerImpl_reaction hcall
  | syscall regs line =>
      obtain ⟨⟨k₁, regs'⟩, hcall, rfl⟩ := map_eq_ok.mp h
      exact syscallHandlerImpl_reaction htasking hcall
  | fault regs name sig =>
      obtain ⟨⟨k₁, regs'⟩, hcall, rfl⟩ := map_eq_ok.mp h
      exact x86ErrorTrap_reaction hcall
  | makeTask eip tty fs gs cs genericSegment yieldOnly =>
      cases h
      exact .create eip tty fs gs cs genericSegment yieldOnly id rfl
  | killTask pid sig =>
      cases h
      exact .queue pid sig pid.isLt False.elim rfl
  | nextTask regs =>
      obtain ⟨⟨k₁, regs'⟩, hcall, rfl⟩ := map_eq_ok.mp h
      exact .switch k regs regs' (.direct rfl) hcall

theorem schedKillTask_status (k : Kernel) (pid : Nat) (sig : Sig) (q : Nat) :
    ((schedKillTask k pid sig).tasks q).status = (k.tasks q).status := by
  refine schedKillTask_slot (P := fun t => t.status = (k.tasks q).status) rfl ?_
  rintro rfl _
  rfl

theorem prepared_currentTask {k₁ : Kernel}
    (h : Prepared e k k₁) :
    k₁.currentTask = k.currentTask := by
  cases h with
  | direct h =>
      rw [h]
  | signalled k₂ sig hquiet h =>
      rw [h, schedKillTask_currentTask, hquiet.currentTask]
  | exited _ _ h =>
      rw [h]
      rfl

/-- Preparing a switch is a sequence of actions after which the current task
is live, unless it has just exited. -/
theorem prepared_actions {k₁ : Kernel}
    (hlive : k.current.status ≠ .dead)
    (h : Prepared e k k₁) :
    Actions e.IsExit k k₁ ∧ (e.IsExit ∨ k₁.current.status ≠ .dead) := by
  cases h with
  | direct h =>
      subst h
      exact ⟨.refl, Or.inr hlive⟩
  | signalled k₂ sig hquiet h =>
      subst h
      refine ⟨(Relation.ReflTransGen.single (.quiet hquiet)).tail
        (schedKillTask_action k₂ _ sig), Or.inr ?_⟩
      rw [Kernel.current, schedKillTask_currentTask, schedKillTask_status, hquiet.tasks,
        hquiet.currentTask]
      exact hlive
  | exited hexit hcur h =>
      subst h
      exact ⟨.single (.exit hexit hcur ⟨rfl, rfl, rfl, id⟩), Or.inl hexit⟩

/-- A reaction from a state with a live current task is a sequence of actions. -/
theorem reaction_actions
    (hlive : k.current.status ≠ .dead)
    (h : Reaction e k k') :
    Actions e.IsExit k k' := by
  cases h with
  | quiet h =>
      exact .single (.quiet h)
  | create eip tty fs gs cs genericSegment yieldOnly _ h =>
      subst h
      exact .single (schedMakeTask_action k eip tty fs gs cs genericSegment yieldOnly)
  | queue pid sig _ _ h =>
      subst h
      exact .single (schedKillTask_action k pid sig)
  | setuid uid hroot h =>
      subst h
      exact .single (.setuid uid hroot ⟨rfl, rfl, rfl, id⟩)
  | setgid gid hroot h =>
      subst h
      exact .single (.setgid gid hroot ⟨rfl, rfl, rfl, id⟩)
  | switch k₁ regs regs' hprep h =>
      obtain ⟨hacts, hlive'⟩ := prepared_actions hlive hprep
      exact hacts.trans (schedNextTask_actions hlive' h)

/-- What a reaction makes of a task other than the running one. -/
inductive Bystander (e : Event) (k : Kernel) (q : Nat) : Task → Prop where
  | same : Bystander e k q (k.tasks q)
  | flushed : Bystander e k q (k.tasks q).flushed
  | signalled
      (sig : Sig)
      (hallowed : e.IsSyscall → k.current.uid = 0 ∨ k.current.uid = (k.tasks q).uid) :
      Bystander e k q ((k.tasks q).enqueue sig)
  | created
      (t : Task)
      (hevent : ¬ e.IsSyscall)
      (hdead : (k.tasks q).status = .dead) :
      Bystander e k q t

/-- Preparing a switch only touches the running task. -/
theorem prepared_other {k₁ : Kernel} {q : Nat}
    (hother : q ≠ k.currentTask)
    (h : Prepared e k k₁) :
    k₁.tasks q = k.tasks q := by
  cases h with
  | direct h =>
      rw [h]
  | signalled k₂ sig hquiet h =>
      subst h
      refine schedKillTask_slot (P := fun t => t = k.tasks q) ?_ ?_
      · rw [hquiet.tasks]
      · intro hcur _
        exact absurd hcur hother
  | exited _ _ h =>
      subst h
      exact Function.update_of_ne hother _ _

theorem schedMakeTask_other (k : Kernel) (eip tty fs gs cs genericSegment : Word)
    (yieldOnly : Bool) (q : Nat) :
    (schedMakeTask k eip tty fs gs cs genericSegment yieldOnly).1.tasks q = k.tasks q ∨
      (k.tasks q).status = .dead := by
  rcases schedMakeTask_cases k eip tty fs gs cs genericSegment yieldOnly with
    ⟨pid, hfree, hmade⟩ | ⟨-, hmade⟩
  · by_cases hq : q = pid
    · right
      rw [hq]
      exact hfree.dead
    · left
      rw [hmade]
      exact Function.update_of_ne hq _ _
  · left
    rw [hmade]

theorem reaction_bystander {q : Nat}
    (hother : q ≠ k.currentTask)
    (h : Reaction e k k') :
    Bystander e k q (k'.tasks q) := by
  cases h with
  | quiet h =>
      rw [h.tasks]
      exact .same
  | create eip tty fs gs cs genericSegment yieldOnly hevent h =>
      subst h
      rcases schedMakeTask_other k eip tty fs gs cs genericSegment yieldOnly q with hsame | hdead
      · rw [hsame]
        exact .same
      · exact .created _ hevent hdead
  | queue pid sig _ hallowed h =>
      subst h
      refine schedKillTask_slot (P := Bystander e k q) .same ?_
      rintro rfl _
      exact .signalled sig hallowed
  | setuid uid _ h =>
      rw [h, Kernel.modifyTask_tasks, Function.update_of_ne hother]
      exact .same
  | setgid gid _ h =>
      rw [h, Kernel.modifyTask_tasks, Function.update_of_ne hother]
      exact .same
  | switch k₁ regs regs' hprep h =>
      obtain ⟨k₂, m, hswitched⟩ := schedNextTask_switched h
      have hsame := prepared_other hother hprep
      rw [← prepared_currentTask hprep] at hother
      rcases hswitched.other hother with htask | htask
      · rw [htask, hsame]
        exact .same
      · rw [htask, hsame]
        exact .flushed

end Inversion

end Klyx
