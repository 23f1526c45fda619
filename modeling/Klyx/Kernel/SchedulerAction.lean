import Klyx.Kernel.Machine
import Klyx.Kernel.SlotScan
import Klyx.Lib.GhostHistory
import Mathlib.Logic.Relation

/-!
# What the scheduler can do in one action

Every reaction of the kernel is a sequence of the actions listed in `Action`.
An invariant of whole runs needs one check for each action; the decomposition
of the kernel functions into actions is proved here once.  What the history
says about one slot is checked against `SlotMove`, the same action as that slot
sees it.

The parameter `mayExit` says whether the exit system call is among the
reactions considered.

**Results.**
* `action_slotMove`: every action is a move of every slot.
* `schedNextTask_actions`: a task switch is a sequence of actions.
-/

namespace Klyx

open HaltingRun GhostHistory

/-- The part of the state that the scheduler's results speak about. -/
structure Moves (k k' : Kernel) (tasks : Nat → Task) (currentTask : Nat)
    (notes : List Note) : Prop where
  tasks : k'.tasks = tasks
  currentTask : k'.currentTask = currentTask
  history : k'.history = notes ++ k.history
  isTaskingAvaliable : k.isTaskingAvaliable = true → k'.isTaskingAvaliable = true

/-- One action of the scheduler. -/
inductive Action (mayExit : Prop) (k k' : Kernel) : Prop where
  | quiet
      (h : Moves k k' k.tasks k.currentTask [])
  | save
      (regs : IntRegs)
      (h : Moves k k'
        (Function.update k.tasks k.currentTask
          { k.current with regs := k.current.regs.saveFrom regs })
        k.currentTask [.saved k.currentTask regs])
  | handle
      (hdel : k.current.Deliverable)
      (hsafe : Fatal k.current.front → k.currentTask ≠ 0)
      (h : Moves k k'
        (Function.update k.tasks k.currentTask k.current.handleFront)
        k.currentTask (handleNotes k.currentTask k.current.front))
  | flushed
      (hdone : k.current.signalsSize = 0 ∨
        (∃ earlier, k.history = .died k.currentTask :: earlier) ∨
        (mayExit ∧ k.current.status = .dead))
      (h : Moves k k' k.tasks k.currentTask [.flushed k.currentTask])
  | advance
      (hsettled : ¬ k.current.Deliverable)
      (h : Moves k k' k.tasks ((k.currentTask + 1) % tasksCap) [])
  | resume
      (pid : Nat)
      (hsettled : ¬ k.current.Deliverable)
      (hrun : (k.tasks pid).Runnable)
      (h : Moves k k' k.tasks pid [.resumed pid (k.tasks pid).regs.frame])
  | queue
      (pid : Nat)
      (sig : Sig)
      (hroom : (k.tasks pid).signalsSize < taskSigCap - 1)
      (h : Moves k k' (Function.update k.tasks pid ((k.tasks pid).enqueue sig))
        k.currentTask [.queued pid sig])
  | create
      (pid : Nat)
      (eip tty fs gs cs genericSegment : Word)
      (yieldOnly : Bool)
      (hdead : (k.tasks pid).status = .dead)
      (h : Moves k k'
        (Function.update k.tasks pid
          (freshTask pid eip tty fs gs cs genericSegment yieldOnly))
        k.currentTask
        [.created pid (freshTask pid eip tty fs gs cs genericSegment yieldOnly).regs])
  | exit
      (hmay : mayExit)
      (hcur : k.currentTask ≠ 0)
      (h : Moves k k'
        (Function.update k.tasks k.currentTask { k.current with status := .dead })
        k.currentTask [.exited k.currentTask])
  | setuid
      (uid : Word)
      (hroot : k.current.uid = 0)
      (h : Moves k k'
        (Function.update k.tasks k.currentTask { k.current with uid := uid })
        k.currentTask [])
  | setgid
      (gid : Word)
      (hroot : k.current.uid = 0)
      (h : Moves k k'
        (Function.update k.tasks k.currentTask { k.current with gid := gid })
        k.currentTask [])

section Calls

variable {k : Kernel} {pid : Nat} {sig : Sig}

/-- `sched_kill_task` on a queue that has room. -/
theorem schedKillTask_of_room
    (hroom : (k.tasks pid).signalsSize < taskSigCap - 1) :
    schedKillTask k pid sig =
      (k.modifyTask pid (fun t => t.enqueue sig)).note (.queued pid sig) :=
  if_neg (by omega)

/-- `sched_kill_task` on a full queue. -/
theorem schedKillTask_of_full
    (hfull : ¬ (k.tasks pid).signalsSize < taskSigCap - 1) :
    schedKillTask k pid sig = k :=
  if_pos (by omega)

@[simp] theorem schedKillTask_currentTask (k : Kernel) (pid : Nat) (sig : Sig) :
    (schedKillTask k pid sig).currentTask = k.currentTask := by
  by_cases hroom : (k.tasks pid).signalsSize < taskSigCap - 1
  · rw [schedKillTask_of_room hroom]
    simp
  · rw [schedKillTask_of_full hroom]

/-- The first free slot of the table. -/
structure FirstFree (k : Kernel) (pid : Nat) : Prop where
  lt : pid < tasksCap
  dead : (k.tasks pid).status = .dead
  first : ∀ q, q < pid → (k.tasks q).status ≠ .dead

/-- `sched_make_task` fills the first free slot, or reports that there is none. -/
theorem schedMakeTask_cases (k : Kernel) (eip tty fs gs cs genericSegment : Word)
    (yieldOnly : Bool) :
    (∃ pid, FirstFree k pid ∧
      (schedMakeTask k eip tty fs gs cs genericSegment yieldOnly).1 =
        (k.setTask pid (freshTask pid eip tty fs gs cs genericSegment yieldOnly)).note
          (.created pid (freshTask pid eip tty fs gs cs genericSegment yieldOnly).regs)) ∨
    ((∀ pid, pid < tasksCap → (k.tasks pid).status ≠ .dead) ∧
      (schedMakeTask k eip tty fs gs cs genericSegment yieldOnly).1 =
        { k with errno := .enobufs }) := by
  cases hfind : (List.range tasksCap).find? (fun pid => (k.tasks pid).status = .dead) with
  | none =>
      right
      refine ⟨?_, by simp only [schedMakeTask, hfind]⟩
      simpa using hfind
  | some pid =>
      left
      obtain ⟨hdead, hmem, hfirst⟩ := List.find?_range_eq_some.mp hfind
      refine ⟨pid, ⟨List.mem_range.mp hmem, by simpa using hdead, ?_⟩,
        by simp only [schedMakeTask, hfind]⟩
      intro q hq
      simpa using hfirst q hq

end Calls

/-- A property of a slot after some slot has been assigned. -/
theorem update_slot {P : Task → Prop} {tasks : Nat → Task} {pid q : Nat} {t : Task}
    (hother : q ≠ pid → P (tasks q))
    (hnew : q = pid → P t) :
    P (Function.update tasks pid t q) := by
  rw [Function.update_apply]
  split
  · rename_i hq
    exact hnew hq
  · rename_i hq
    exact hother hq

/-- A property of a slot after some slot has been sent a signal. -/
theorem schedKillTask_slot {P : Task → Prop} {k : Kernel} {pid q : Nat} {sig : Sig}
    (hsame : P (k.tasks q))
    (hqueued : q = pid → (k.tasks pid).signalsSize < taskSigCap - 1 →
      P ((k.tasks pid).enqueue sig)) :
    P ((schedKillTask k pid sig).tasks q) := by
  by_cases hroom : (k.tasks pid).signalsSize < taskSigCap - 1
  · rw [schedKillTask_of_room hroom]
    exact update_slot (fun _ => hsame) (fun hq => hqueued hq hroom)
  · rw [schedKillTask_of_full hroom]
    exact hsame

/-- The slot that a record is about. -/
def Note.slot : Note → Nat
  | .created pid _ => pid
  | .saved pid _ => pid
  | .resumed pid _ => pid
  | .queued pid _ => pid
  | .handled pid _ => pid
  | .flushed pid => pid
  | .died pid => pid
  | .exited pid => pid

/-- One action as slot `pid` sees it: the history `h`, its task `t` and the
current slot `c` before the action, and the same after it. -/
inductive SlotMove (mayExit : Prop) (pid : Nat) (h : List Note) (t : Task) (c : Nat) :
    List Note → Task → Nat → Prop where
  | other
      (notes : List Note)
      (c' : Nat)
      (hnotes : ∀ n ∈ notes, n.slot ≠ pid)
      (hmove : c' = c ∨ (pid = c → ¬ t.Deliverable)) :
      SlotMove mayExit pid h t c (notes ++ h) t c'
  | save
      (regs : IntRegs) :
      SlotMove mayExit pid h t c (.saved pid regs :: h)
        { t with regs := t.regs.saveFrom regs } c
  | handle
      (hdel : t.Deliverable)
      (hsafe : Fatal t.front → pid ≠ 0) :
      SlotMove mayExit pid h t c (handleNotes pid t.front ++ h) t.handleFront c
  | flushed
      (hdone : t.signalsSize = 0 ∨ (∃ earlier, h = .died pid :: earlier) ∨
        (mayExit ∧ t.status = .dead)) :
      SlotMove mayExit pid h t c (.flushed pid :: h) t c
  | resume
      (hsettled : pid = c → ¬ t.Deliverable)
      (hrun : t.Runnable) :
      SlotMove mayExit pid h t c (.resumed pid t.regs.frame :: h) t pid
  | queue
      (sig : Sig)
      (hroom : t.signalsSize < taskSigCap - 1) :
      SlotMove mayExit pid h t c (.queued pid sig :: h) (t.enqueue sig) c
  | create
      (eip tty fs gs cs genericSegment : Word)
      (yieldOnly : Bool)
      (hdead : t.status = .dead) :
      SlotMove mayExit pid h t c
        (.created pid (freshTask pid eip tty fs gs cs genericSegment yieldOnly).regs :: h)
        (freshTask pid eip tty fs gs cs genericSegment yieldOnly) c
  | exit
      (hmay : mayExit)
      (hpid : pid ≠ 0) :
      SlotMove mayExit pid h t c (.exited pid :: h) { t with status := .dead } c
  | setuid
      (uid : Word)
      (hroot : t.uid = 0) :
      SlotMove mayExit pid h t c h { t with uid := uid } c
  | setgid
      (gid : Word)
      (hroot : t.uid = 0) :
      SlotMove mayExit pid h t c h { t with gid := gid } c

theorem slot_of_mem_handleNotes {pid : Nat} {sig : Sig} {n : Note}
    (h : n ∈ handleNotes pid sig) :
    n.slot = pid := by
  unfold handleNotes at h
  split at h
  · rcases List.mem_cons.mp h with rfl | h
    · rfl
    · rw [List.mem_singleton.mp h]
      rfl
  · rw [List.mem_singleton.mp h]
    rfl

section Slots

variable {mayExit : Prop} {pid : Nat}

theorem slot_singleton {note : Note} :
    ∀ n ∈ [note], n.slot = note.slot := by
  intro n hn
  rw [List.mem_singleton.mp hn]

/-- Records of one slot, as another slot sees them. -/
theorem slotMove_records {h notes : List Note} {t : Task} {c c' q : Nat}
    (hnotes : ∀ n ∈ notes, n.slot = q)
    (hother : pid ≠ q)
    (hmove : c' = c ∨ (pid = c → ¬ t.Deliverable)) :
    SlotMove mayExit pid h t c (notes ++ h) t c' := by
  refine .other notes c' ?_ hmove
  intro n hn heq
  exact hother (heq.symm.trans (hnotes n hn))

/-- An action that assigns slot `q` is a move of every slot if it is one of `q`. -/
theorem slotMove_assign {h notes : List Note} {tasks : Nat → Task} {t : Task} {c q : Nat}
    (hnotes : ∀ n ∈ notes, n.slot = q)
    (hself : SlotMove mayExit q h (tasks q) c (notes ++ h) t c) :
    SlotMove mayExit pid h (tasks pid) c (notes ++ h) (Function.update tasks q t pid) c := by
  by_cases hpid : pid = q
  · subst hpid
    rw [Function.update_self]
    exact hself
  · rw [Function.update_of_ne hpid]
    exact slotMove_records hnotes hpid (Or.inl rfl)

/-- The current slot, when the scan moves on, is settled. -/
theorem current_settled {k : Kernel}
    (hsettled : ¬ k.current.Deliverable)
    (hcur : pid = k.currentTask) :
    ¬ (k.tasks pid).Deliverable := by
  subst hcur
  exact hsettled

/-- **Every action is a move of every slot.** -/
theorem action_slotMove {k k' : Kernel}
    (h : Action mayExit k k')
    (pid : Nat) :
    SlotMove mayExit pid k.history (k.tasks pid) k.currentTask
      k'.history (k'.tasks pid) k'.currentTask := by
  cases h with
  | quiet h =>
      rw [h.tasks, h.history, h.currentTask]
      exact .other [] _ (by simp) (Or.inl rfl)
  | advance hsettled h =>
      rw [h.tasks, h.history, h.currentTask]
      exact .other [] _ (by simp) (Or.inr (current_settled hsettled))
  | flushed hdone h =>
      rw [h.tasks, h.history, h.currentTask]
      by_cases hpid : pid = k.currentTask
      · subst hpid
        exact .flushed hdone
      · exact slotMove_records slot_singleton hpid (Or.inl rfl)
  | resume next hsettled hrun h =>
      rw [h.tasks, h.history, h.currentTask]
      by_cases hpid : pid = next
      · subst hpid
        exact .resume (current_settled hsettled) hrun
      · exact slotMove_records slot_singleton hpid (Or.inr (current_settled hsettled))
  | save regs h =>
      rw [h.tasks, h.history, h.currentTask]
      exact slotMove_assign slot_singleton (.save regs)
  | handle hdel hsafe h =>
      rw [h.tasks, h.history, h.currentTask]
      exact slotMove_assign (fun _ => slot_of_mem_handleNotes) (.handle hdel hsafe)
  | queue q sig hroom h =>
      rw [h.tasks, h.history, h.currentTask]
      exact slotMove_assign slot_singleton (.queue sig hroom)
  | create q eip tty fs gs cs genericSegment yieldOnly hdead h =>
      rw [h.tasks, h.history, h.currentTask]
      exact slotMove_assign slot_singleton
        (.create eip tty fs gs cs genericSegment yieldOnly hdead)
  | exit hmay hcur h =>
      rw [h.tasks, h.history, h.currentTask]
      exact slotMove_assign slot_singleton (.exit hmay hcur)
  | setuid uid hroot h =>
      rw [h.tasks, h.history, h.currentTask]
      exact slotMove_assign (by simp) (.setuid uid hroot)
  | setgid gid hroot h =>
      rw [h.tasks, h.history, h.currentTask]
      exact slotMove_assign (by simp) (.setgid gid hroot)

end Slots

/-- Finitely many actions. -/
abbrev Actions (mayExit : Prop) : Kernel → Kernel → Prop :=
  Relation.ReflTransGen (Action mayExit)

section Decomposition

variable {mayExit : Prop}

/-- A state property that survives every action survives every sequence. -/
theorem actions_invariant {P : Kernel → Prop} {k k' : Kernel}
    (haction : ∀ k k', P k → Action mayExit k k' → P k')
    (hinit : P k)
    (h : Actions mayExit k k') :
    P k' := by
  induction h with
  | refl =>
      exact hinit
  | tail _ hlast ih =>
      exact haction _ _ ih hlast

/-- The records of one round, in a property of all records. -/
theorem everywhere_handleNotes {P : Note → List Note → Prop} {pid : Nat} {sig : Sig}
    {h : List Note}
    (hold : Everywhere P h)
    (hhandled : P (.handled pid sig) h)
    (hdied : P (.died pid) (.handled pid sig :: h)) :
    Everywhere P (handleNotes pid sig ++ h) := by
  by_cases hfatal : Fatal sig
  · rw [handleNotes_of_fatal hfatal]
    exact ⟨hdied, hhandled, hold⟩
  · rw [handleNotes_of_not_fatal hfatal]
    exact ⟨hhandled, hold⟩

/-- More reactions allow more actions. -/
theorem action_mono {p q : Prop} {k k' : Kernel}
    (hpq : p → q)
    (h : Action p k k') :
    Action q k k' := by
  cases h with
  | quiet h =>
      exact .quiet h
  | save regs h =>
      exact .save regs h
  | handle hdel hsafe h =>
      exact .handle hdel hsafe h
  | flushed hdone h =>
      exact .flushed (hdone.imp_right (Or.imp_right (And.imp_left hpq))) h
  | advance hsettled h =>
      exact .advance hsettled h
  | resume pid hsettled hrun h =>
      exact .resume pid hsettled hrun h
  | queue pid sig hroom h =>
      exact .queue pid sig hroom h
  | create pid eip tty fs gs cs genericSegment yieldOnly hdead h =>
      exact .create pid eip tty fs gs cs genericSegment yieldOnly hdead h
  | exit hmay hcur h =>
      exact .exit (hpq hmay) hcur h
  | setuid uid hroot h =>
      exact .setuid uid hroot h
  | setgid gid hroot h =>
      exact .setgid gid hroot h

theorem actions_mono {p q : Prop} {k k' : Kernel}
    (hpq : p → q)
    (h : Actions p k k') :
    Actions q k k' := by
  induction h with
  | refl =>
      exact .refl
  | tail _ hlast ih =>
      exact ih.tail (action_mono hpq hlast)

/-- Why a task may be found in front of a finished flush. -/
def FlushEntry (mayExit : Prop) (k : Kernel) : Prop :=
  k.current.status ≠ .dead ∨
  (∃ earlier, k.history = .died k.currentTask :: earlier) ∨
  (mayExit ∧ k.current.status = .dead)

theorem flushEntry_of_live {k : Kernel}
    (hlive : mayExit ∨ k.current.status ≠ .dead) :
    FlushEntry mayExit k := by
  by_cases hdead : k.current.status = .dead
  · rcases hlive with hmay | hlive
    · exact Or.inr (Or.inr ⟨hmay, hdead⟩)
    · exact absurd hdead hlive
  · exact Or.inl hdead

/-- A round of the flush of the current task is an action. -/
theorem action_of_signalTaken {k k' : Kernel}
    (hdel : k.current.Deliverable)
    (h : SignalTaken k.currentTask k k') :
    Action mayExit k k' :=
  .handle hdel h.safe ⟨h.tasks, h.currentTask, h.history,
    fun ht => h.isTaskingAvaliable.trans ht⟩

theorem flushEntry_of_signalTaken {k k' : Kernel}
    (hdel : k.current.Deliverable)
    (h : SignalTaken k.currentTask k k') :
    FlushEntry mayExit k' := by
  by_cases hfatal : Fatal k.current.front
  · right; left
    refine ⟨.handled k.currentTask k.current.front :: k.history, ?_⟩
    have hfatal' : Fatal (k.tasks k.currentTask).front := hfatal
    rw [h.history, h.currentTask, handleNotes_of_fatal hfatal']
    rfl
  · left
    have htask : k'.current = k.current.handleFront := by
      rw [Kernel.current, h.tasks, h.currentTask, Function.update_self]
      rfl
    rw [htask, Ne, handleFront_dead_iff hdel.2]
    exact hfatal

/-- A flush of the current task is a sequence of actions. -/
theorem flushSignals_actions {k k' : Kernel} {regs : IntRegs}
    (hlive : mayExit ∨ k.current.status ≠ .dead)
    (h : flushSignals k.currentTask regs k = .ok k') :
    Actions mayExit k k' := by
  have hrule : ∀ k', flushSignals k.currentTask regs k = .ok k' → Actions mayExit k k' := by
    refine flushSignals_rule
      (I := fun k₁ => Actions mayExit k k₁ ∧ k₁.currentTask = k.currentTask ∧
        FlushEntry mayExit k₁)
      (Q := fun x => ∀ k', x = .ok k' → Actions mayExit k k') ?_ ?_ ?_
      ⟨.refl, rfl, flushEntry_of_live hlive⟩
    · rintro k₁ ⟨hacts, hcur, hentry⟩ hnot k' heq
      cases heq
      rw [← hcur] at hnot ⊢
      refine hacts.tail (.flushed ?_ ⟨rfl, rfl, rfl, id⟩)
      rcases hentry with hlive | hrest
      · left
        by_contra hsize
        exact hnot ⟨hsize, hlive⟩
      · exact Or.inr hrest
    · rintro k₁ k₂ ⟨hacts, hcur, -⟩ hdel htaken
      rw [← hcur] at hdel htaken
      exact ⟨hacts.tail (action_of_signalTaken hdel htaken),
        htaken.currentTask.trans hcur, flushEntry_of_signalTaken hdel htaken⟩
    · intro _ _ _ _ _ _ _ heq
      cases heq
  exact hrule k' h

theorem action_advance {k : Kernel}
    (hsettled : ¬ k.current.Deliverable) :
    Action mayExit k k.advance :=
  .advance hsettled ⟨rfl, rfl, rfl, id⟩

/-- The last try of a scan. -/
theorem action_resume {k : Kernel}
    (hsettled : ¬ k.current.Deliverable)
    (hrun : k.advance.current.Runnable) :
    Action mayExit k k.advance.resume :=
  .resume k.advance.currentTask hsettled hrun ⟨rfl, rfl, rfl, id⟩

/-- The running task is settled after its flush. -/
theorem flushed_settled {pid : Nat} {k k' : Kernel}
    (hcur : k.currentTask = pid)
    (h : Flushed pid k k') :
    ¬ k'.current.Deliverable := by
  rw [Kernel.current, h.tasks, h.currentTask, hcur, Function.update_self]
  exact flushed_not_deliverable _

/-- A scan that resumes a task is a sequence of actions. -/
theorem schedScan_actions {k k' : Kernel} {regs regs' : IntRegs} {n : Nat}
    (hsettled : ¬ k.current.Deliverable)
    (h : schedScan regs n k = .ok (k', regs')) :
    Actions mayExit k k' := by
  refine schedScan_ok_rule
    (I := fun _ k₁ => Actions mayExit k k₁ ∧ ¬ k₁.current.Deliverable)
    (Q := fun k' _ => Actions mayExit k k') ?_ ?_ ?_ ⟨.refl, hsettled⟩ h
  · rintro _ k₁ ⟨hacts, hsettled⟩ hrun
    exact hacts.tail (action_resume hsettled hrun)
  · rintro _ k₁ ⟨hacts, hsettled⟩ hdead
    exact ⟨hacts.tail (action_advance hsettled), fun hdel => hdel.2 hdead⟩
  · rintro _ k₁ ⟨hacts, hsettled⟩ _ hlive regs' k₂ hflush
    exact ⟨(hacts.tail (action_advance hsettled)).trans
      (flushSignals_actions (Or.inr hlive) hflush), flushed_settled rfl (flushSignals_ok hflush)⟩

/-- What a task switch does after storing the registers is a sequence of actions. -/
theorem schedNextTask_actions_saved {k k' : Kernel} {regs regs' : IntRegs}
    (hlive : mayExit ∨ k.current.status ≠ .dead)
    (h : schedNextTask k regs = .ok (k', regs')) :
    Actions mayExit (k.saveCurrent regs) k' := by
  obtain ⟨k₁, hflush, hflushed, hscan⟩ := schedNextTask_ok h
  have hlive' : mayExit ∨ (k.saveCurrent regs).current.status ≠ .dead := by
    refine hlive.imp_right ?_
    intro hlive
    simpa [Kernel.current] using hlive
  exact (flushSignals_actions hlive' hflush).trans
    (schedScan_actions (flushed_settled (saveCurrent_currentTask k regs) hflushed) hscan)

/-- A task switch is a sequence of actions. -/
theorem schedNextTask_actions {k k' : Kernel} {regs regs' : IntRegs}
    (hlive : mayExit ∨ k.current.status ≠ .dead)
    (h : schedNextTask k regs = .ok (k', regs')) :
    Actions mayExit k k' := by
  have hsave : Action mayExit k (k.saveCurrent regs) := .save regs ⟨rfl, rfl, rfl, id⟩
  exact (Relation.ReflTransGen.single hsave).trans (schedNextTask_actions_saved hlive h)

theorem schedKillTask_action (k : Kernel) (pid : Nat) (sig : Sig) :
    Action mayExit k (schedKillTask k pid sig) := by
  by_cases hroom : (k.tasks pid).signalsSize < taskSigCap - 1
  · rw [schedKillTask_of_room hroom]
    exact .queue pid sig hroom ⟨rfl, rfl, rfl, id⟩
  · rw [schedKillTask_of_full hroom]
    exact .quiet ⟨rfl, rfl, rfl, id⟩

theorem schedMakeTask_action (k : Kernel) (eip tty fs gs cs genericSegment : Word)
    (yieldOnly : Bool) :
    Action mayExit k (schedMakeTask k eip tty fs gs cs genericSegment yieldOnly).1 := by
  rcases schedMakeTask_cases k eip tty fs gs cs genericSegment yieldOnly with
    ⟨pid, hfree, hmade⟩ | ⟨-, hmade⟩
  · rw [hmade]
    exact .create pid eip tty fs gs cs genericSegment yieldOnly hfree.dead ⟨rfl, rfl, rfl, id⟩
  · rw [hmade]
    exact .quiet ⟨rfl, rfl, rfl, id⟩

end Decomposition

end Klyx
