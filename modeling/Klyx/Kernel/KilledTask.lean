import Klyx.Kernel.SignalQueue

/-!
# A killed task runs at most once more

`resumesSinceKill` counts how often a task was resumed since it was first sent
SIGKILL.  While the count is defined the signal is still pending, because
handling it ends the task.  A task is flushed before the scan moves on from it,
so a task with a pending signal that has been resumed is the current one, and
the scan cannot come back to it.
-/

namespace Klyx

open HaltingRun GhostHistory

/-- A task lives in the slot. -/
def aliveIn (pid : Nat) : List Note → Bool
  | [] => false
  | .created q _ :: h => if q = pid then true else aliveIn pid h
  | .died q :: h => if q = pid then false else aliveIn pid h
  | .exited q :: h => if q = pid then false else aliveIn pid h
  | _ :: h => aliveIn pid h

/-- How often the task in the slot was resumed since SIGKILL was first accepted
for it, if it was. -/
def resumesSinceKill (pid : Nat) : List Note → Option Nat
  | [] => none
  | .queued q sig :: h =>
      if q = pid ∧ sig = sigkill ∧ aliveIn pid h = true then
        some ((resumesSinceKill pid h).getD 0)
      else resumesSinceKill pid h
  | .resumed q _ :: h =>
      if q = pid then (resumesSinceKill pid h).map (· + 1) else resumesSinceKill pid h
  | .died q :: h => if q = pid then none else resumesSinceKill pid h
  | .exited q :: h => if q = pid then none else resumesSinceKill pid h
  | _ :: h => resumesSinceKill pid h

/-- The record resumes the task in the slot. -/
def Note.Resumes (pid : Nat) : Note → Bool
  | .resumed q _ => decide (q = pid)
  | _ => false

/-- What the history says about the task in a slot. -/
structure KillLog (pid : Nat) (h : List Note) (t : Task) (currentTask : Nat) : Prop where
  alive : aliveIn pid h = true ↔ t.status ≠ .dead
  doomed : ∀ n, resumesSinceKill pid h = some n → t.status ≠ .dead ∧ sigkill ∈ t.pending
  once : ∀ n, resumesSinceKill pid h = some n → n = 0 ∨ (n = 1 ∧ pid = currentTask)

/-- No record of the history counts a second resumption. -/
def ResumedOnce (pid : Nat) (n : Note) (earlier : List Note) : Prop :=
  ∀ m, resumesSinceKill pid (n :: earlier) = some m → m ≤ 1

section Histories

variable {pid q : Nat} {h : List Note}

/-- Resumptions between an accepted SIGKILL and a later moment are counted, as
long as the task has not ended. -/
theorem resumesSinceKill_of_accepted {since earlier : List Note}
    (halive : aliveIn pid earlier = true)
    (hlives : ∀ n ∈ since, n ≠ .died pid ∧ n ≠ .exited pid) :
    ∃ m, resumesSinceKill pid (since ++ .queued pid sigkill :: earlier) = some m ∧
      since.countP (Note.Resumes pid) ≤ m := by
  induction since with
  | nil =>
      refine ⟨(resumesSinceKill pid earlier).getD 0, ?_, Nat.zero_le _⟩
      exact if_pos ⟨rfl, rfl, halive⟩
  | cons n since ih =>
      obtain ⟨m, hm, hcount⟩ := ih (fun n hn => hlives n (List.mem_cons_of_mem _ hn))
      obtain ⟨hdied, hexited⟩ := hlives n List.mem_cons_self
      rw [List.cons_append, List.countP_cons]
      cases n with
      | created q regs | saved q regs | handled q sig | flushed q =>
          exact ⟨m, hm, hcount⟩
      | resumed q regs =>
          by_cases hq : q = pid
          · exact ⟨m + 1, by simp [resumesSinceKill, hq, hm], by simpa [Note.Resumes, hq]⟩
          · exact ⟨m, by simp [resumesSinceKill, hq, hm], by simpa [Note.Resumes, hq]⟩
      | queued q sig =>
          refine ⟨m, ?_, hcount⟩
          simp only [resumesSinceKill, hm]
          split
          · rfl
          · rfl
      | died q =>
          have hq : q ≠ pid := by
            rintro rfl
            exact hdied rfl
          exact ⟨m, by simp [resumesSinceKill, hq, hm], hcount⟩
      | exited q =>
          have hq : q ≠ pid := by
            rintro rfl
            exact hexited rfl
          exact ⟨m, by simp [resumesSinceKill, hq, hm], hcount⟩

end Histories

section Logs

variable {pid c : Nat} {h h' : List Note} {t t' : Task}

/-- Records of other slots do not count. -/
theorem aliveIn_other {notes : List Note}
    (hnotes : ∀ n ∈ notes, n.slot ≠ pid) :
    aliveIn pid (notes ++ h) = aliveIn pid h := by
  refine reading_append ?_ hnotes
  intro n earlier hn
  cases n with
  | created | died | exited =>
      exact if_neg hn
  | saved | resumed | queued | handled | flushed =>
      rfl

theorem resumesSinceKill_other {notes : List Note}
    (hnotes : ∀ n ∈ notes, n.slot ≠ pid) :
    resumesSinceKill pid (notes ++ h) = resumesSinceKill pid h := by
  refine reading_append ?_ hnotes
  intro n earlier hn
  cases n with
  | resumed | died | exited =>
      exact if_neg hn
  | queued =>
      exact if_neg (fun hyes => hn hyes.1)
  | created | saved | handled | flushed =>
      rfl

theorem aliveIn_handleNotes {sig : Sig} :
    aliveIn pid (handleNotes pid sig ++ h) = if Fatal sig then false else aliveIn pid h := by
  by_cases hfatal : Fatal sig
  · simp [handleNotes_of_fatal hfatal, aliveIn, hfatal]
  · simp [handleNotes_of_not_fatal hfatal, aliveIn, hfatal]

theorem resumesSinceKill_handleNotes {sig : Sig} :
    resumesSinceKill pid (handleNotes pid sig ++ h) =
      if Fatal sig then none else resumesSinceKill pid h := by
  by_cases hfatal : Fatal sig
  · simp [handleNotes_of_fatal hfatal, resumesSinceKill, hfatal]
  · simp [handleNotes_of_not_fatal hfatal, resumesSinceKill, hfatal]

/-- A log survives changes that spare the status and the queue. -/
theorem KillLog.transfer
    (hlog : KillLog pid h t c)
    (hstatus : t'.status = t.status)
    (hpending : t'.pending = t.pending)
    (halive : aliveIn pid h' = aliveIn pid h)
    (hresumes : resumesSinceKill pid h' = resumesSinceKill pid h) :
    KillLog pid h' t' c := by
  refine ⟨?_, ?_, ?_⟩
  · rw [halive, hstatus]
    exact hlog.alive
  · rw [hresumes, hstatus, hpending]
    exact hlog.doomed
  · rw [hresumes]
    exact hlog.once

/-- A killed task with nothing deliverable has not been resumed yet. -/
theorem KillLog.not_resumed
    (hlog : KillLog pid h t c)
    (hsettled : pid = c → ¬ t.Deliverable)
    {n : Nat}
    (hn : resumesSinceKill pid h = some n) :
    n = 0 := by
  rcases hlog.once n hn with hzero | ⟨-, hcur⟩
  · exact hzero
  · obtain ⟨hlive, hmem⟩ := hlog.doomed n hn
    have hdoomed : t.Doomed := ⟨hlive, sigkill, hmem, fatal_sigkill⟩
    exact absurd hdoomed.deliverable (hsettled hcur)

/-- The scan moves on. -/
theorem KillLog.moveOn
    (hlog : KillLog pid h t c)
    (hsettled : pid = c → ¬ t.Deliverable)
    (c' : Nat) :
    KillLog pid h t c' :=
  ⟨hlog.alive, hlog.doomed, fun _ hn => Or.inl (hlog.not_resumed hsettled hn)⟩

/-- A task that is resumed is the current one. -/
theorem KillLog.resume
    (hlog : KillLog pid h t c)
    (hsettled : pid = c → ¬ t.Deliverable)
    (regs : IntRegs) :
    KillLog pid (.resumed pid regs :: h) t pid := by
  have hresumes : resumesSinceKill pid (.resumed pid regs :: h) =
      (resumesSinceKill pid h).map (· + 1) := if_pos rfl
  refine ⟨hlog.alive, ?_, ?_⟩
  · intro n hn
    rw [hresumes, Option.map_eq_some_iff] at hn
    obtain ⟨m, hm, -⟩ := hn
    exact hlog.doomed m hm
  · intro n hn
    rw [hresumes, Option.map_eq_some_iff] at hn
    obtain ⟨m, hm, rfl⟩ := hn
    rw [hlog.not_resumed hsettled hm]
    exact Or.inr ⟨rfl, rfl⟩

/-- A signal is accepted. -/
theorem KillLog.enqueue {sig : Sig}
    (hlog : KillLog pid h t c)
    (hq : t.QueueValid)
    (hroom : t.signalsSize < taskSigCap - 1) :
    KillLog pid (.queued pid sig :: h) (t.enqueue sig) c := by
  have hpending : (t.enqueue sig).pending = t.pending ++ [sig] := enqueue_pending hq hroom
  have hkeep : ∀ n, resumesSinceKill pid h = some n →
      (t.enqueue sig).status ≠ .dead ∧ sigkill ∈ (t.enqueue sig).pending := by
    intro n hn
    obtain ⟨hlive, hmem⟩ := hlog.doomed n hn
    rw [hpending]
    exact ⟨hlive, List.mem_append_left _ hmem⟩
  by_cases hkill : sig = sigkill ∧ aliveIn pid h = true
  · have hresumes : resumesSinceKill pid (.queued pid sig :: h) =
        some ((resumesSinceKill pid h).getD 0) := if_pos ⟨rfl, hkill⟩
    refine ⟨hlog.alive, ?_, ?_⟩
    · intro n _
      rw [hpending, hkill.1]
      exact ⟨hlog.alive.mp hkill.2, List.mem_append_right _ (List.mem_singleton.mpr rfl)⟩
    · intro n hn
      rw [hresumes] at hn
      cases hold : resumesSinceKill pid h with
      | none =>
          rw [hold] at hn
          cases hn
          exact Or.inl rfl
      | some m =>
          rw [hold] at hn
          cases hn
          exact hlog.once m hold
  · have hresumes : resumesSinceKill pid (.queued pid sig :: h) = resumesSinceKill pid h :=
      if_neg (fun hyes => hkill hyes.2)
    refine ⟨hlog.alive, ?_, ?_⟩
    · rw [hresumes]
      exact hkeep
    · rw [hresumes]
      exact hlog.once

/-- A signal is handled. -/
theorem KillLog.handleFront
    (hlog : KillLog pid h t c)
    (hq : t.QueueValid)
    (hdel : t.Deliverable) :
    KillLog pid (handleNotes pid t.front ++ h) t.handleFront c := by
  have hdead := handleFront_dead_iff hdel.2
  by_cases hfatal : Fatal t.front
  · have hnone : resumesSinceKill pid (handleNotes pid t.front ++ h) = none := by
      rw [resumesSinceKill_handleNotes, if_pos hfatal]
    refine ⟨?_, ?_, ?_⟩
    · rw [aliveIn_handleNotes, if_pos hfatal]
      exact iff_of_false Bool.false_ne_true (fun hlive => hlive (hdead.mpr hfatal))
    · intro n hn
      rw [hnone] at hn
      cases hn
    · intro n hn
      rw [hnone] at hn
      cases hn
  · have hsame : resumesSinceKill pid (handleNotes pid t.front ++ h) =
        resumesSinceKill pid h := by
      rw [resumesSinceKill_handleNotes, if_neg hfatal]
    have hlive : t.handleFront.status ≠ .dead := fun hd => hfatal (hdead.mp hd)
    refine ⟨?_, ?_, ?_⟩
    · rw [aliveIn_handleNotes, if_neg hfatal]
      exact iff_of_true (hlog.alive.mpr hdel.2) hlive
    · intro n hn
      rw [hsame] at hn
      obtain ⟨-, hmem⟩ := hlog.doomed n hn
      rw [pending_eq_cons hq hdel.1] at hmem
      rcases List.mem_cons.mp hmem with hfront | hrest
      · rw [← hfront] at hfatal
        exact absurd fatal_sigkill hfatal
      · exact ⟨hlive, hrest⟩
    · rw [hsame]
      exact hlog.once

/-- A task ends itself. -/
theorem KillLog.exit
    (pid : Nat) (h : List Note) (t : Task) (c : Nat) :
    KillLog pid (.exited pid :: h) { t with status := .dead } c := by
  have hnone : resumesSinceKill pid (.exited pid :: h) = none := if_pos rfl
  refine ⟨?_, ?_, ?_⟩
  · have halive : aliveIn pid (.exited pid :: h) = false := if_pos rfl
    rw [halive]
    exact iff_of_false Bool.false_ne_true (fun hlive => hlive rfl)
  · intro n hn
    rw [hnone] at hn
    cases hn
  · intro n hn
    rw [hnone] at hn
    cases hn

/-- A dead slot is filled. -/
theorem KillLog.create
    (hlog : KillLog pid h t c)
    (hdead : t.status = .dead)
    (hlive : t'.status ≠ .dead)
    (regs : Regs) :
    KillLog pid (.created pid regs :: h) t' c := by
  have hnone : ∀ n, resumesSinceKill pid (.created pid regs :: h) ≠ some n :=
    fun n hn => (hlog.doomed n hn).1 hdead
  refine ⟨iff_of_true (if_pos rfl) hlive, ?_, ?_⟩
  · intro n hn
    exact absurd hn (hnone n)
  · intro n hn
    exact absurd hn (hnone n)

/-- Every move of a slot keeps its log. -/
theorem KillLog.move {mayExit : Prop} {c' : Nat}
    (hlog : KillLog pid h t c)
    (hq : t.QueueValid)
    (hmove : SlotMove mayExit pid h t c h' t' c') :
    KillLog pid h' t' c' := by
  cases hmove with
  | other notes _ hnotes hmove =>
      have hlog' : KillLog pid h t c' := by
        rcases hmove with rfl | hsettled
        · exact hlog
        · exact hlog.moveOn hsettled c'
      exact hlog'.transfer rfl rfl (aliveIn_other hnotes) (resumesSinceKill_other hnotes)
  | save | flushed | setuid | setgid =>
      exact hlog.transfer rfl rfl rfl rfl
  | handle hdel _ =>
      exact hlog.handleFront hq hdel
  | resume hsettled _ =>
      exact hlog.resume hsettled _
  | queue sig hroom =>
      exact hlog.enqueue hq hroom
  | create _ _ _ _ _ _ _ hdead =>
      exact hlog.create hdead (freshTask_runnable _ _ _ _ _ _ _ _).1 _
  | exit =>
      exact .exit _ _ _ _

end Logs

section Preservation

variable {mayExit : Prop} {pid : Nat} {k k' : Kernel}

/-- What the history says about the task in a slot of a state. -/
def KillInv (pid : Nat) (k : Kernel) : Prop :=
  KillLog pid k.history (k.tasks pid) k.currentTask

theorem resumedOnce_of_killLog {n : Note} {earlier : List Note} {t : Task} {c : Nat}
    (hlog : KillLog pid (n :: earlier) t c) :
    ResumedOnce pid n earlier := by
  intro m hm
  rcases hlog.once m hm with hzero | ⟨hone, -⟩
  · omega
  · omega

/-- Every action records no second resumption. -/
theorem action_resumedOnce
    (hlog : KillInv pid k)
    (hlog' : KillInv pid k')
    (hold : Everywhere (ResumedOnce pid) k.history)
    (h : Action mayExit k k') :
    Everywhere (ResumedOnce pid) k'.history := by
  unfold KillInv at hlog hlog'
  cases h with
  | quiet h | advance _ h | setuid _ _ h | setgid _ _ h =>
      rw [h.history]
      exact hold
  | save _ h | flushed _ h | resume _ _ _ h | queue _ _ _ h | create _ _ _ _ _ _ _ _ _ h
  | exit _ _ h =>
      rw [h.history] at hlog' ⊢
      exact ⟨resumedOnce_of_killLog hlog', hold⟩
  | handle _ _ h =>
      rw [h.history]
      -- the record of the handled signal counts what the history before it counts
      have hhandled : ResumedOnce pid (.handled k.currentTask k.current.front) k.history :=
        resumedOnce_of_killLog (hlog.transfer rfl rfl rfl rfl)
      refine everywhere_handleNotes hold hhandled ?_
      intro m hm
      simp only [resumesSinceKill] at hm
      split at hm
      · cases hm
      · exact hhandled m hm

theorem zero_killInv : KillInv pid Kernel.zero := by
  refine ⟨iff_of_false Bool.false_ne_true (fun hlive => hlive rfl), ?_, ?_⟩
  · intro n hn
    cases hn
  · intro n hn
    cases hn

/-- No reachable history records a second resumption after SIGKILL. -/
theorem Reachable.killInv
    (h : Reachable k)
    (pid : Nat) :
    KillInv pid k ∧ Everywhere (ResumedOnce pid) k.history := by
  have hinv : QueuesInv True k ∧ KillInv pid k ∧ Everywhere (ResumedOnce pid) k.history := by
    refine actions_invariant
      (P := fun k => QueuesInv True k ∧ KillInv pid k ∧ Everywhere (ResumedOnce pid) k.history)
      ?_ ⟨zero_queuesInv, zero_killInv, trivial⟩ h.actions
    rintro k k' ⟨hqueues, hkill, honce⟩ haction
    have hkill' : KillInv pid k' :=
      hkill.move (hqueues.log pid).valid (action_slotMove haction pid)
    exact ⟨action_queuesInv hqueues haction, hkill',
      action_resumedOnce hkill hkill' honce haction⟩
  exact hinv.2

end Preservation

/-- **After SIGKILL was accepted for a live task, the task is resumed at most
once before it ends.**  No program, and no buffer of a system call, writes to the
kernel's memory. -/
theorem killed_task_resumed_at_most_once (k : Kernel) (pid : Nat)
    (h : Reachable k) :
    -- the history knows which tasks are alive
    (aliveIn pid k.history = true ↔ (k.tasks pid).status ≠ .dead) ∧
    -- `since` is any stretch of it that begins with the signal and in which the task lives
    (∀ later since earlier, k.history = later ++ since ++ .queued pid sigkill :: earlier →
      aliveIn pid earlier = true →
      (∀ n ∈ since, n ≠ .died pid ∧ n ≠ .exited pid) →
      since.countP (Note.Resumes pid) ≤ 1) := by
  obtain ⟨hlog, hbound⟩ := h.killInv pid
  refine ⟨hlog.alive, ?_⟩
  intro later since earlier hhist halive hlives
  obtain ⟨m, hm, hcount⟩ := resumesSinceKill_of_accepted halive hlives
  cases since with
  | nil =>
      exact Nat.zero_le _
  | cons n since =>
      have honce := everywhere_iff.mp hbound later n
        (since ++ .queued pid sigkill :: earlier) (by rw [hhist]; simp)
      have hle : m ≤ 1 := honce m hm
      omega

/-- Init kills task 1 and yields: task 1 runs, for the last time. -/
theorem killed_task_resumed_at_most_once_sample :
    ∃ k since earlier,
      runFromBoot Image.sample default [userCall 12 2 10, userCall 4 0 0] = .ok k ∧
      k.currentTask = 1 ∧
      k.history = since ++ .queued 1 sigkill :: earlier ∧
      since.countP (Note.Resumes 1) ≤ 1 := by
  obtain ⟨k, hrun, hcur, hhist, halive, hlives⟩ := exists_of_returnsWith
    (x := runFromBoot Image.sample default [userCall 12 2 10, userCall 4 0 0])
    (p := fun k => k.currentTask = 1 ∧
      k.history = k.history.take 3 ++ .queued 1 sigkill :: k.history.drop 4 ∧
      aliveIn 1 (k.history.drop 4) = true ∧
      ∀ n ∈ k.history.take 3, n ≠ .died 1 ∧ n ≠ .exited 1)
    (by decide +kernel)
  obtain ⟨-, hbound⟩ := killed_task_resumed_at_most_once k 1 ⟨_, _, _, hrun⟩
  exact ⟨k, _, _, hrun, hcur, hhist, hbound [] _ _ hhist halive hlives⟩

end Klyx
