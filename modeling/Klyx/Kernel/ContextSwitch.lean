import Klyx.Kernel.SchedulerInvariant

/-!
# Context switches keep every task's registers

The register values that a switch loads are those that the same task stored
when it was last switched out, or its initial ones.  The history gives these
values as `lastContext`; the invariant `ContextLog` says that the structure of
a live task holds them.

`react` is a reaction together with the frame that it leaves to the processor;
`react_switched` says what this frame is when the reaction switches tasks.

The rest is a frame condition: a reaction changes the stored registers
of the task that was running, and of no other live task.
-/

namespace Klyx

open HaltingRun GhostHistory

/-- The registers stored last for the task in a slot. -/
def lastContext (pid : Nat) : List Note → Option IntRegs
  | [] => none
  | .created q regs :: h => if q = pid then some regs.frame else lastContext pid h
  | .saved q regs :: h => if q = pid then some regs else lastContext pid h
  | _ :: h => lastContext pid h

/-- A live task holds the registers stored last. -/
def ContextLog (pid : Nat) (h : List Note) (t : Task) : Prop :=
  t.status ≠ .dead → lastContext pid h = some t.regs.frame

/-- A resumed task gets the registers stored last. -/
def ResumedFromContext (n : Note) (earlier : List Note) : Prop :=
  ∀ pid regs, n = .resumed pid regs → lastContext pid earlier = some regs

/-- The invariant of the saved registers. -/
structure ContextInv (k : Kernel) : Prop where
  log : ∀ pid, ContextLog pid k.history (k.tasks pid)
  resumed : Everywhere ResumedFromContext k.history

section Preservation

variable {mayExit : Prop} {k k' : Kernel}

/-- Records of other slots do not count. -/
theorem lastContext_other {pid : Nat} {h notes : List Note}
    (hnotes : ∀ n ∈ notes, n.slot ≠ pid) :
    lastContext pid (notes ++ h) = lastContext pid h := by
  refine reading_append ?_ hnotes
  intro n earlier hn
  cases n with
  | created | saved =>
      exact if_neg hn
  | resumed | queued | handled | flushed | died | exited =>
      rfl

@[simp] theorem lastContext_handleNotes {pid q : Nat} {sig : Sig} {h : List Note} :
    lastContext pid (handleNotes q sig ++ h) = lastContext pid h := by
  unfold handleNotes
  split <;> rfl

/-- A log survives changes that spare the registers. -/
theorem ContextLog.transfer {pid : Nat} {h h' : List Note} {t t' : Task}
    (hlog : ContextLog pid h t)
    (hlive : t'.status ≠ .dead → t.status ≠ .dead)
    (hregs : t'.regs = t.regs)
    (hctx : lastContext pid h' = lastContext pid h) :
    ContextLog pid h' t' := by
  intro hlive'
  rw [hctx, hregs]
  exact hlog (hlive hlive')

/-- Every move of a slot keeps the registers of a live task in the history. -/
theorem ContextLog.move {pid c c' : Nat} {h h' : List Note} {t t' : Task}
    (hlog : ContextLog pid h t)
    (hmove : SlotMove mayExit pid h t c h' t' c') :
    ContextLog pid h' t' := by
  cases hmove with
  | other notes _ hnotes _ =>
      exact hlog.transfer id rfl (lastContext_other hnotes)
  | flushed | resume | queue | setuid | setgid =>
      exact hlog.transfer id rfl rfl
  | save regs =>
      intro _
      rw [frame_saveFrom]
      exact if_pos rfl
  | handle hdel _ =>
      exact hlog.transfer (fun _ => hdel.2) (handleFront_regs _) lastContext_handleNotes
  | create =>
      intro _
      exact if_pos rfl
  | exit =>
      intro hlive
      exact absurd rfl hlive

theorem resumedFromContext_of_not_resumed {n : Note} {earlier : List Note}
    (h : ∀ pid regs, n ≠ .resumed pid regs) :
    ResumedFromContext n earlier :=
  fun pid regs heq => absurd heq (h pid regs)

/-- Every action resumes from the registers stored last. -/
theorem action_resumed
    (hinv : ContextInv k)
    (h : Action mayExit k k') :
    Everywhere ResumedFromContext k'.history := by
  have hold := hinv.resumed
  cases h with
  | quiet h | advance _ h | setuid _ _ h | setgid _ _ h =>
      rw [h.history]
      exact hold
  | flushed _ h | save _ h | exit _ _ h | queue _ _ _ h | create _ _ _ _ _ _ _ _ _ h =>
      rw [h.history]
      exact ⟨resumedFromContext_of_not_resumed (fun _ _ => Note.noConfusion), hold⟩
  | handle _ _ h =>
      rw [h.history]
      exact everywhere_handleNotes hold
        (resumedFromContext_of_not_resumed (fun _ _ => Note.noConfusion))
        (resumedFromContext_of_not_resumed (fun _ _ => Note.noConfusion))
  | resume next _ hrun h =>
      rw [h.history]
      refine ⟨?_, hold⟩
      intro pid regs heq
      cases heq
      exact hinv.log next hrun.1

theorem action_contextInv
    (hinv : ContextInv k)
    (h : Action mayExit k k') :
    ContextInv k' :=
  ⟨fun pid => (hinv.log pid).move (action_slotMove h pid), action_resumed hinv h⟩

/-- No task is live in zeroed memory. -/
theorem zero_contextInv : ContextInv Kernel.zero :=
  ⟨fun _ hlive => absurd rfl hlive, trivial⟩

theorem Reachable.contextInv
    (h : Reachable k) :
    ContextInv k :=
  actions_invariant (fun _ _ => action_contextInv) zero_contextInv h.actions

end Preservation

section Frame

variable {k k' : Kernel} {regs regs' : IntRegs}

/-- A reaction changes the stored registers of no live task but the running
one: neither creating tasks nor signalling nor the copies that the scan makes
of the registers of paused tasks. -/
theorem reaction_frame {e : Event}
    (h : Reaction e k k')
    {q : Nat}
    (hlive : (k.tasks q).status ≠ .dead)
    (hother : q ≠ k.currentTask) :
    (k'.tasks q).regs = (k.tasks q).regs := by
  have hbystander := reaction_bystander hother h
  generalize k'.tasks q = t at hbystander
  cases hbystander with
  | same =>
      rfl
  | flushed =>
      exact flushed_regs _
  | signalled sig _ =>
      rfl
  | created t _ hdead =>
      exact absurd hdead hlive

end Frame

section Switches

variable {k k' k₁ : Kernel} {regs regs' : IntRegs}

/-- A change of tasks: the frame `regs` goes to the task that was running, and
the processor gets the frame `regs'` of another one. -/
structure ContextSwitched (k : Kernel) (regs : IntRegs) (k' : Kernel) (regs' : IntRegs) :
    Prop where
  stored : (k'.tasks k.currentTask).regs.frame = regs
  loaded : k'.current.regs.frame = regs'
  resumed : ∃ earlier, k'.history = .resumed k'.currentTask regs' :: earlier
  context : ∀ pid, lastContext pid k'.history =
    if pid = k.currentTask then some regs else lastContext pid k.history

theorem flushSignals_lastContext {pid : Nat}
    (q : Nat)
    (h : flushSignals pid regs k = .ok k') :
    lastContext q k'.history = lastContext q k.history := by
  have hrule : ∀ k', flushSignals pid regs k = .ok k' →
      lastContext q k'.history = lastContext q k.history := by
    refine flushSignals_rule (I := fun k₁ => lastContext q k₁.history = lastContext q k.history)
      (Q := fun x => ∀ k', x = .ok k' → lastContext q k'.history = lastContext q k.history)
      ?_ ?_ ?_ rfl
    · intro k₁ hctx _ k' heq
      cases heq
      exact hctx
    · intro k₁ k₂ hctx _ htaken
      rw [htaken.history, lastContext_handleNotes, hctx]
    · intro _ _ _ _ _ _ k' heq
      cases heq
  exact hrule k' h

/-- What a scan that resumes a task loads and records. -/
theorem schedScan_loaded {n : Nat}
    (h : schedScan regs n k = .ok (k', regs')) :
    k'.current.regs.frame = regs' ∧
    (∃ earlier, k'.history = .resumed k'.currentTask regs' :: earlier) ∧
    ∀ pid, lastContext pid k'.history = lastContext pid k.history := by
  refine schedScan_ok_rule
    (I := fun _ k₁ => ∀ pid, lastContext pid k₁.history = lastContext pid k.history)
    (Q := fun k' regs' => k'.current.regs.frame = regs' ∧
      (∃ earlier, k'.history = .resumed k'.currentTask regs' :: earlier) ∧
      ∀ pid, lastContext pid k'.history = lastContext pid k.history)
    ?_ ?_ ?_ (fun _ => rfl) h
  · intro _ k₁ hctx _
    exact ⟨rfl, ⟨k₁.history, rfl⟩, hctx⟩
  · intro _ _ hctx _
    exact hctx
  · intro _ _ hctx _ _ _ _ hflush pid
    exact (flushSignals_lastContext pid hflush).trans (hctx pid)

/-- `sched_next_task` stores the one frame and loads the other. -/
theorem schedNextTask_contextSwitched
    (h : schedNextTask k regs = .ok (k', regs')) :
    ContextSwitched k regs k' regs' := by
  obtain ⟨k₁, hflush, -, hscan⟩ := schedNextTask_ok h
  obtain ⟨hloaded, hresumed, hctx⟩ := schedScan_loaded hscan
  obtain ⟨_, _, hswitched⟩ := schedNextTask_switched h
  refine ⟨?_, hloaded, hresumed, ?_⟩
  · rw [hswitched.current, flushed_regs]
    exact frame_saveFrom k.current.regs regs
  · intro pid
    rw [hctx pid, flushSignals_lastContext pid hflush, saveCurrent_history]
    by_cases hpid : pid = k.currentTask
    · rw [if_pos hpid, hpid]
      exact if_pos rfl
    · rw [if_neg hpid]
      exact if_neg (Ne.symm hpid)

/-- Preparing a switch stores no registers. -/
theorem prepared_lastContext {e : Event}
    (h : Prepared e k k₁)
    (pid : Nat) :
    lastContext pid k₁.history = lastContext pid k.history := by
  cases h with
  | direct h =>
      rw [h]
  | signalled k₂ sig hquiet h =>
      have hhist : k₂.history = k.history := hquiet.history
      rw [h, ← hhist]
      unfold schedKillTask
      split
      · rfl
      · rfl
  | exited _ _ h =>
      rw [h]
      rfl

theorem prepared_contextSwitched {e : Event}
    (hprep : Prepared e k k₁)
    (h : schedNextTask k₁ regs = .ok (k', regs')) :
    ContextSwitched k regs k' regs' := by
  obtain ⟨hstored, hloaded, hresumed, hctx⟩ := schedNextTask_contextSwitched h
  rw [prepared_currentTask hprep] at hstored hctx
  refine ⟨hstored, hloaded, hresumed, fun pid => ?_⟩
  rw [hctx pid, prepared_lastContext hprep]

/-- The frame of the interrupted task. -/
def Event.frame : Event → Option IntRegs
  | .timer regs | .syscall regs _ | .fault regs _ _ | .nextTask regs => some regs
  | .makeTask .. | .killTask .. => none

/-- One reaction of the kernel, with the frame that it leaves to the processor. -/
def react (k : Kernel) : Event → Exec (Kernel × Option IntRegs)
  | .timer regs => (intTimerImpl k regs).map (fun r => (r.1, some r.2))
  | .syscall regs line => (syscallHandlerImpl k regs line).map (fun r => (r.1, some r.2))
  | .fault regs name sig => (x86ErrorTrap k regs name sig).map (fun r => (r.1, some r.2))
  | .makeTask eip tty fs gs cs genericSegment yieldOnly =>
      .ok ((schedMakeTask k eip tty fs gs cs genericSegment yieldOnly).1, none)
  | .killTask pid sig => .ok (schedKillTask k pid sig, none)
  | .nextTask regs => (schedNextTask k regs).map (fun r => (r.1, some r.2))

theorem step_eq_react (k : Kernel) (e : Event) :
    step k e = (react k e).map Prod.fst := by
  have hmap : ∀ x : Exec (Kernel × IntRegs),
      x.map Prod.fst = (x.map (fun r => (r.1, some r.2))).map Prod.fst := by
    intro x
    cases x <;> rfl
  cases e with
  | timer | syscall | fault | nextTask =>
      exact hmap _
  | makeTask | killTask =>
      rfl

theorem react_of_step {e : Event}
    (h : step k e = .ok k') :
    ∃ frame, react k e = .ok (k', frame) := by
  rw [step_eq_react] at h
  obtain ⟨⟨k₁, frame⟩, hreact, rfl⟩ := map_eq_ok.mp h
  exact ⟨frame, hreact⟩

/-- A reaction that gets a frame leaves one. -/
theorem react_frame {e : Event} {frame : Option IntRegs}
    (hframe : e.frame = some regs)
    (h : react k e = .ok (k', frame)) :
    ∃ regs', frame = some regs' := by
  cases e with
  | timer | syscall | fault | nextTask =>
      obtain ⟨r, -, heq⟩ := map_eq_ok.mp h
      cases heq
      exact ⟨r.2, rfl⟩
  | makeTask | killTask =>
      cases hframe

theorem frame_of_switches {e : Event}
    (h : e.Switches k) :
    ∃ regs, e.frame = some regs := by
  cases e with
  | timer regs | syscall regs line | fault regs name sig | nextTask regs =>
      exact ⟨regs, rfl⟩
  | makeTask | killTask =>
      exact h.elim

/-- A task goes on with its frame, but for the result of a call in `eax`, no registers
are stored, and no task is made. -/
structure SameContext (k : Kernel) (regs : IntRegs) (k' : Kernel) (regs' : IntRegs) : Prop where
  current : k'.currentTask = k.currentTask
  frame : { regs' with eax := regs.eax } = regs
  kept : ∀ pid, (k'.tasks pid).regs = (k.tasks pid).regs
  live : ∀ pid, (k'.tasks pid).status ≠ .dead → (k.tasks pid).status ≠ .dead

theorem sameContext_of_moves
    (h : Moves k k' k.tasks k.currentTask [])
    (hframe : { regs' with eax := regs.eax } = regs) :
    SameContext k regs k' regs' :=
  ⟨h.currentTask, hframe, fun pid => by rw [h.tasks], fun pid => by rw [h.tasks]; exact id⟩

/-- An assignment to one task that spares its registers and its status. -/
theorem sameContext_update {pid : Nat} {t : Task}
    (htasks : k'.tasks = Function.update k.tasks pid t)
    (hcur : k'.currentTask = k.currentTask)
    (hframe : { regs' with eax := regs.eax } = regs)
    (hregs : t.regs = (k.tasks pid).regs)
    (hstatus : t.status = (k.tasks pid).status) :
    SameContext k regs k' regs' := by
  refine ⟨hcur, hframe, ?_, ?_⟩
  · intro q
    rw [htasks]
    exact update_slot (P := fun t => t.regs = (k.tasks q).regs) (fun _ => rfl)
      (fun hpid => by rw [hregs, hpid])
  · intro q
    rw [htasks]
    exact update_slot (P := fun t => t.status ≠ .dead → (k.tasks q).status ≠ .dead)
      (fun _ => id) (fun hpid => by rw [hstatus, hpid]; exact id)

theorem SameContext.of_ok {r : Kernel × IntRegs}
    (hsame : SameContext k regs r.1 r.2)
    (h : (.ok r : Exec (Kernel × IntRegs)) = .ok (k', regs')) :
    SameContext k regs k' regs' := by
  rwa [Except.ok.inj h] at hsame

theorem sysSetuid_sameContext (k : Kernel) (regs : IntRegs) :
    SameContext k regs (sysSetuid k regs).1 (sysSetuid k regs).2 := by
  unfold sysSetuid
  split
  · exact sameContext_update rfl rfl rfl rfl rfl
  · exact sameContext_of_moves moves_rfl rfl

theorem sysSetgid_sameContext (k : Kernel) (regs : IntRegs) :
    SameContext k regs (sysSetgid k regs).1 (sysSetgid k regs).2 := by
  unfold sysSetgid
  split
  · exact sameContext_update rfl rfl rfl rfl rfl
  · exact sameContext_of_moves moves_rfl rfl

theorem sysKill_sameContext (k : Kernel) (regs : IntRegs) :
    SameContext k regs (sysKill k regs).1 (sysKill k regs).2 := by
  unfold sysKill
  dsimp only
  split
  · exact sameContext_of_moves moves_rfl rfl
  split
  · exact sameContext_of_moves moves_rfl rfl
  split
  · exact sameContext_of_moves moves_rfl rfl
  split
  · exact sameContext_of_moves moves_rfl rfl
  split
  · unfold schedKillTask
    split
    · exact sameContext_of_moves moves_rfl rfl
    · exact sameContext_update rfl rfl rfl rfl rfl
  · exact sameContext_of_moves moves_rfl rfl

/-- The frame of a reaction comes from its handler. -/
theorem map_frame_eq_ok {x : Exec (Kernel × IntRegs)}
    (h : x.map (fun r => (r.1, some r.2)) = .ok (k', some regs')) :
    x = .ok (k', regs') := by
  obtain ⟨⟨k₁, regs₁⟩, hx, heq⟩ := map_eq_ok.mp h
  cases heq
  exact hx

theorem syscallHandlerImpl_prepared {line : Word}
    (htasking : k.isTaskingAvaliable = true)
    (hswitches : regs.Switching)
    (h : syscallHandlerImpl k regs line = .ok (k', regs')) :
    ∃ k₁, Prepared (.syscall regs line) k k₁ ∧ schedNextTask k₁ regs = .ok (k', regs') := by
  rcases hswitches with heax | heax | heax
  · have hsetup : sysSetup k regs = .ok (k', regs') := by
      rw [← h, syscallHandlerImpl, heax]
      rfl
    unfold sysSetup at hsetup
    rw [if_neg (not_not.mpr htasking)] at hsetup
    exact ⟨_, .signalled k sigsys moves_rfl rfl, hsetup⟩
  · have hexit : sysExit k regs = .ok (k', regs') := by
      rw [← h, syscallHandlerImpl, heax]
      rfl
    unfold sysExit at hexit
    split at hexit
    · cases hexit
    · rename_i hcur
      exact ⟨_, .exited heax hcur rfl, hexit⟩
  · have hyield : schedNextTask k regs = .ok (k', regs') := by
      rw [← h, syscallHandlerImpl, heax]
      rfl
    exact ⟨k, .direct rfl, hyield⟩

theorem syscallHandlerImpl_same {line : Word}
    (hstays : ¬ regs.Switching)
    (h : syscallHandlerImpl k regs line = .ok (k', regs')) :
    SameContext k regs k' regs' := by
  obtain ⟨h0, h14⟩ := not_or.mp hstays
  obtain ⟨h1, h4⟩ := not_or.mp h14
  unfold syscallHandlerImpl at h
  split at h
  · rename_i heax
    exact absurd (BitVec.eq_of_toNat_eq heax) h0
  · rename_i heax
    exact absurd (BitVec.eq_of_toNat_eq heax) h1
  · cases h
    exact sameContext_of_moves (moves_ttyCall k _ _) rfl
  · cases h
    exact sameContext_of_moves (moves_ttyCall k _ _) rfl
  · rename_i heax
    exact absurd (BitVec.eq_of_toNat_eq heax) h4
  · cases h
    exact sameContext_of_moves moves_rfl rfl
  · cases h
    exact sameContext_of_moves moves_rfl rfl
  · exact (sysSetuid_sameContext k regs).of_ok h
  · exact (sysSetgid_sameContext k regs).of_ok h
  · cases h
    exact sameContext_of_moves moves_rfl rfl
  · cases h
    exact sameContext_of_moves moves_rfl rfl
  · cases h
    exact sameContext_of_moves moves_rfl rfl
  · exact (sysKill_sameContext k regs).of_ok h
  · cases h

/-- A reaction that switches prepares the switch and calls `sched_next_task`. -/
theorem react_prepared {e : Event}
    (htasking : k.isTaskingAvaliable = true)
    (hframe : e.frame = some regs)
    (hswitches : e.Switches k)
    (h : react k e = .ok (k', some regs')) :
    ∃ k₁, Prepared e k k₁ ∧ schedNextTask k₁ regs = .ok (k', regs') := by
  cases e with
  | timer regs₀ =>
      cases hframe
      have hcall := map_frame_eq_ok h
      have hallowed : k.isTaskingAvaliable = true ∧ ¬ k.current.yieldOnly = true :=
        ⟨htasking, by simpa [Event.Switches] using hswitches⟩
      unfold intTimerImpl at hcall
      rw [if_pos hallowed] at hcall
      exact ⟨k, .direct rfl, hcall⟩
  | syscall regs₀ line =>
      cases hframe
      exact syscallHandlerImpl_prepared htasking hswitches (map_frame_eq_ok h)
  | fault regs₀ name sig =>
      cases hframe
      have hcall := map_frame_eq_ok h
      unfold x86ErrorTrap at hcall
      dsimp only at hcall
      rw [Kernel.printf_isTaskingAvaliable, if_pos htasking] at hcall
      exact ⟨_, .signalled _ sig (moves_printf k _) rfl, hcall⟩
  | nextTask regs₀ =>
      cases hframe
      exact ⟨k, .direct rfl, map_frame_eq_ok h⟩
  | makeTask | killTask =>
      cases hframe

/-- The frames of a reaction that switches. -/
theorem react_switched {e : Event}
    (htasking : k.isTaskingAvaliable = true)
    (hframe : e.frame = some regs)
    (hswitches : e.Switches k)
    (h : react k e = .ok (k', some regs')) :
    ContextSwitched k regs k' regs' := by
  obtain ⟨k₁, hprep, hcall⟩ := react_prepared htasking hframe hswitches h
  exact prepared_contextSwitched hprep hcall

/-- The frame of a reaction that does not. -/
theorem react_same {e : Event}
    (hframe : e.frame = some regs)
    (hstays : ¬ e.Switches k)
    (h : react k e = .ok (k', some regs')) :
    SameContext k regs k' regs' := by
  cases e with
  | timer regs₀ =>
      cases hframe
      have hcall := map_frame_eq_ok h
      have hyield : ¬ (k.isTaskingAvaliable = true ∧ ¬ k.current.yieldOnly = true) :=
        fun hallowed => hstays (by simpa [Event.Switches] using hallowed.2)
      unfold intTimerImpl at hcall
      rw [if_neg hyield] at hcall
      cases hcall
      exact sameContext_of_moves moves_rfl rfl
  | syscall regs₀ line =>
      cases hframe
      exact syscallHandlerImpl_same hstays (map_frame_eq_ok h)
  | fault | nextTask =>
      exact absurd trivial hstays
  | makeTask | killTask =>
      cases hframe

/-- Booting resumes init with the registers that `sched_make_task` gave it. -/
theorem kernelStart_frame {img : Image}
    (h : kernelStart img regs = .ok (k, regs')) :
    k.currentTask = 0 ∧
    regs' = (freshTask 0 img.testInit 0 0 0 0x08 0x10 true).regs.frame ∧
    (∃ earlier, k.history = .resumed 0 regs' :: earlier) ∧
    k.current.regs.frame = regs' := by
  rw [kernelStart_eq] at h
  cases h
  rw [bootTasks_init]
  refine ⟨rfl, rfl, ⟨(bootTasks img).history, ?_⟩, ?_⟩
  · rw [← bootTasks_init]
    rfl
  · rw [← bootTasks_init]
    rfl

end Switches

/-- **A resumed task gets back the registers with which it was switched out.** -/
theorem context_switch_integrity (k : Kernel)
    (h : Reachable k) :
    -- the first call of `sched_start_tasking` loads the initial registers of init
    (∀ img regs k₀ regs', kernelStart img regs = .ok (k₀, regs') →
      k₀.currentTask = 0 ∧
      regs' = (freshTask 0 img.testInit 0 0 0 0x08 0x10 true).regs.frame ∧
      (∃ earlier, k₀.history = .resumed 0 regs' :: earlier) ∧
      lastContext 0 k₀.history = some regs') ∧
    -- whenever a task was resumed, it got the registers stored last for it
    (∀ later pid regs earlier, k.history = later ++ .resumed pid regs :: earlier →
      lastContext pid earlier = some regs) ∧
    -- a reaction that switches stores its frame for the running task, and leaves to the
    -- processor the registers stored last for the next one
    (∀ e regs k' regs', e.frame = some regs → e.Switches k →
      react k e = .ok (k', some regs') →
      ContextSwitched k regs k' regs' ∧ lastContext k'.currentTask k'.history = some regs') ∧
    -- any other reaction leaves the frame of the running task
    (∀ e regs k' regs', e.frame = some regs → ¬ e.Switches k →
      react k e = .ok (k', some regs') → SameContext k regs k' regs') ∧
    -- no reaction touches the registers of a suspended task
    (∀ e k' pid, step k e = .ok k' → (k.tasks pid).status ≠ .dead → pid ≠ k.currentTask →
      (k'.tasks pid).regs = (k.tasks pid).regs) := by
  have htasking := h.schedInv.tasking
  refine ⟨?_, ?_, ?_, fun e regs k' regs' => react_same, ?_⟩
  · intro img regs k₀ regs' hstart
    obtain ⟨hcur, hinitial, hresumed, hloaded⟩ := kernelStart_frame hstart
    have hreach : Reachable k₀ :=
      ⟨img, regs, [], runFromBoot_iff.mpr ⟨k₀, regs', hstart, rfl⟩⟩
    have hlog := hreach.contextInv.log 0
    rw [Kernel.current, hcur] at hloaded
    rw [ContextLog, hloaded] at hlog
    exact ⟨hcur, hinitial, hresumed, hlog hreach.schedInv.init_live⟩
  · intro later pid regs earlier heq
    exact everywhere_iff.mp h.contextInv.resumed later _ earlier heq pid regs rfl
  · intro e regs k' regs' hframe hswitches hreact
    have hswitched := react_switched htasking hframe hswitches hreact
    have hstep : step k e = .ok k' := by
      rw [step_eq_react, hreact]
      rfl
    have hreach := h.step hstep
    have hlog := hreach.contextInv.log k'.currentTask hreach.schedInv.runnable.1
    exact ⟨hswitched, hlog.trans (congrArg some hswitched.loaded)⟩
  · intro e k' pid hstep hlive hother
    exact reaction_frame (step_cases htasking hstep) hlive hother

/-- A frame with a different value in every register. -/
def yieldFrame : IntRegs :=
  ⟨1, 2, 3, 5, 6, 7, 8, 9, 10, 11, 12, 13, 4, 14, 15, 16⟩

/-- Init yields with this frame and three more tasks yield.  No reaction to what
the fourth does changes what is stored for init, and when it yields, the processor
gets the frame back. -/
theorem context_switch_integrity_sample :
    ∃ k k', runFromBoot Image.sample default
        [.syscall yieldFrame 0, userCall 4 0 0, userCall 4 0 0, userCall 4 0 0] = .ok k ∧
      (∀ e k', step k e = .ok k' → (k'.tasks 0).regs = (k.tasks 0).regs) ∧
      react k (userCall 4 17 0) = .ok (k', some yieldFrame) ∧
      (k'.tasks 4).regs.ebx = 17 ∧
      lastContext 0 k'.history = some yieldFrame := by
  obtain ⟨k, hrun, hcur, hlive, hreact⟩ := exists_of_returnsWith
    (x := runFromBoot Image.sample default
      [.syscall yieldFrame 0, userCall 4 0 0, userCall 4 0 0, userCall 4 0 0])
    (p := fun k => k.currentTask = 4 ∧ (k.tasks 0).status ≠ .dead ∧
      returnsWith (react k (userCall 4 17 0))
        (fun r => r.1.currentTask = 0 ∧ r.2 = some yieldFrame) = true)
    (by decide +kernel)
  obtain ⟨⟨k', frame⟩, hswitch, hnext, rfl⟩ := exists_of_returnsWith hreact
  obtain ⟨-, -, hswitched, -, hframe⟩ := context_switch_integrity k ⟨_, _, _, hrun⟩
  have hother : 0 ≠ k.currentTask := by
    rw [hcur]
    decide
  obtain ⟨hcontext, hlast⟩ := hswitched (userCall 4 17 0) _ k' yieldFrame rfl
    (Or.inr (Or.inr rfl)) hswitch
  have hstored := congrArg IntRegs.ebx hcontext.stored
  rw [hcur] at hstored
  rw [hnext] at hlast
  exact ⟨k, k', hrun, fun e k' hstep => hframe e k' 0 hstep hlive hother, hswitch, hstored, hlast⟩

end Klyx
