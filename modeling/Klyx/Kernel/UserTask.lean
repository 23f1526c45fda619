import Klyx.Kernel.SchedulerInvariant

/-!
# A user program among other tasks

One task runs a known program, and the others do what they like.  A system of
this kind takes turns: in a turn of its `own` the program makes its next move,
which it can do only while its task is running; any `other` turn is an event of
the kernel.  While the task is running, nothing but a timer tick can come from
outside, so the other events are then ignored.  The program ends with its task:
a later task in the same slot is not its continuation.

`Kept` lists what no event changes in a task structure, unless the event fills
the slot; `SameUser` is the same for the credentials of a task that is not
making system calls.
-/

namespace Klyx

open HaltingRun

/-- One turn of a system with a known program. -/
inductive Turn where
  /-- The program makes its next move, with these registers. -/
  | own (regs : IntRegs)
  /-- Something else happens. -/
  | other (e : Event)

/-- A timer tick. -/
def Event.IsTimer : Event → Prop
  | .timer _ => True
  | _ => False

instance (e : Event) : Decidable e.IsTimer :=
  match e with
  | .timer _ => .isTrue trivial
  | .syscall .. | .fault .. | .makeTask .. | .killTask .. | .nextTask _ => .isFalse id

/-- A direct call of `sched_make_task`. -/
def Event.IsMakeTask : Event → Prop
  | .makeTask .. => True
  | _ => False

section Turns

variable {σ : Type}

/-- The program ends with its task. -/
def Kernel.surviving (k : Kernel) (pid : Nat) (s : σ) : Option σ :=
  if (k.tasks pid).status = .dead then none else some s

/-- One turn of a system in which the task in slot `pid` runs the program `act`. -/
def takeTurn (pid : Nat) (act : IntRegs → Kernel → σ → Exec (Kernel × σ)) :
    Kernel × Option σ → Turn → Exec (Kernel × Option σ)
  | (k, none), .own _ => .ok (k, none)
  | (k, some s), .own regs =>
      if k.currentTask = pid then
        (act regs k s).map (fun r => (r.1, r.1.surviving pid r.2))
      else .ok (k, some s)
  | (k, none), .other e => (step k e).map (fun k' => (k', none))
  | (k, some s), .other e =>
      if k.currentTask = pid ∧ ¬ e.IsTimer then .ok (k, some s)
      else (step k e).map (fun k' => (k', k'.surviving pid s))

variable {pid : Nat} {act : IntRegs → Kernel → σ → Exec (Kernel × σ)} {k k' : Kernel}

theorem surviving_of_live {s : σ}
    (hlive : (k.tasks pid).status ≠ .dead) :
    k.surviving pid s = some s :=
  if_neg hlive

/-- What a turn does while the program is running. -/
inductive TurnOutcome (pid : Nat) (act : IntRegs → Kernel → σ → Exec (Kernel × σ))
    (k : Kernel) (s : σ) : Turn → Kernel × Option σ → Prop where
  | idle
      (t : Turn) :
      TurnOutcome pid act k s t (k, some s)
  | own
      (regs : IntRegs)
      (k' : Kernel)
      (s' : σ)
      (hcur : k.currentTask = pid)
      (hact : act regs k s = .ok (k', s')) :
      TurnOutcome pid act k s (.own regs) (k', k'.surviving pid s')
  | other
      (e : Event)
      (k' : Kernel)
      (hallowed : k.currentTask = pid → e.IsTimer)
      (hstep : step k e = .ok k') :
      TurnOutcome pid act k s (.other e) (k', k'.surviving pid s)

theorem takeTurn_cases {s : σ} {t : Turn} {next : Kernel × Option σ}
    (h : takeTurn pid act (k, some s) t = .ok next) :
    TurnOutcome pid act k s t next := by
  cases t with
  | own regs =>
      by_cases hcur : k.currentTask = pid
      · simp only [takeTurn, if_pos hcur] at h
        obtain ⟨⟨k₁, s₁⟩, hact, rfl⟩ := map_eq_ok.mp h
        exact .own regs k₁ s₁ hcur hact
      · simp only [takeTurn, if_neg hcur] at h
        cases h
        exact .idle _
  | other e =>
      by_cases hcur : k.currentTask = pid ∧ ¬ e.IsTimer
      · simp only [takeTurn, if_pos hcur] at h
        cases h
        exact .idle _
      · simp only [takeTurn, if_neg hcur] at h
        obtain ⟨k₁, hstep, rfl⟩ := map_eq_ok.mp h
        exact .other e k₁ (fun hc => by_contra (fun ht => hcur ⟨hc, ht⟩)) hstep

/-- An invariant of a program as long as its task lives. -/
def WhileLive (pid : Nat) (Inv : Kernel → σ → Prop) : Kernel × Option σ → Prop
  | (k, some s) => (k.tasks pid).status ≠ .dead ∧ Inv k s
  | (_, none) => True

/-- A program that has ended does not come back. -/
theorem takeTurn_none {t : Turn} {next : Kernel × Option σ}
    (h : takeTurn pid act (k, none) t = .ok next) :
    next.2 = none := by
  cases t with
  | own regs =>
      cases h
      rfl
  | other e =>
      obtain ⟨k₁, -, rfl⟩ := map_eq_ok.mp h
      rfl

theorem whileLive_surviving {Inv : Kernel → σ → Prop} {s : σ}
    (h : Inv k s) :
    WhileLive pid Inv (k, k.surviving pid s) := by
  by_cases hdead : (k.tasks pid).status = .dead
  · have hended : k.surviving pid s = none := if_pos hdead
    rw [hended]
    trivial
  · rw [surviving_of_live hdead]
    exact ⟨hdead, h⟩

/-- What the moves of the program and the events around it keep holds in every run. -/
theorem run_whileLive {Inv : Kernel → σ → Prop} {s next : Kernel × Option σ} {ts : List Turn}
    (hown : ∀ regs k s k' s', Inv k s → k.currentTask = pid → act regs k s = .ok (k', s') →
      Inv k' s')
    (hother : ∀ e k s k', Inv k s → (k.tasks pid).status ≠ .dead →
      (k.currentTask = pid → e.IsTimer) → step k e = .ok k' → Inv k' s)
    (hinit : WhileLive pid Inv s)
    (h : run (takeTurn pid act) s ts = .ok next) :
    WhileLive pid Inv next := by
  refine run_invariant (takeTurn pid act) ?_ hinit h
  rintro t - ⟨k, _ | s⟩ ⟨k', o⟩ hinv hturn
  · have hended : o = none := takeTurn_none hturn
    rw [hended]
    trivial
  · rcases hinv with ⟨hlive, hinv⟩
    cases takeTurn_cases hturn with
    | idle =>
        exact ⟨hlive, hinv⟩
    | own regs k' s' hcur hact =>
        exact whileLive_surviving (hown regs k s k' s' hinv hcur hact)
    | other e k' hallowed hstep =>
        exact whileLive_surviving (hother e k s k' hinv hlive hallowed hstep)

end Turns

/-- What no event changes in a task structure, unless it fills the slot. -/
structure Kept (t t' : Task) : Prop where
  tty : t'.tty = t.tty
  yieldOnly : t'.yieldOnly = t.yieldOnly
  dead : t.status = .dead → t'.status = .dead

/-- The credentials of a task. -/
structure SameUser (t t' : Task) : Prop where
  uid : t'.uid = t.uid
  gid : t'.gid = t.gid

section Kept

variable {t t' t'' : Task}

theorem Kept.refl (t : Task) :
    Kept t t :=
  ⟨rfl, rfl, id⟩

theorem Kept.trans
    (h₁ : Kept t t')
    (h₂ : Kept t' t'') :
    Kept t t'' :=
  ⟨h₂.tty.trans h₁.tty, h₂.yieldOnly.trans h₁.yieldOnly, fun hdead => h₂.dead (h₁.dead hdead)⟩

theorem handleFront_kept (t : Task)
    (hlive : t.status ≠ .dead) :
    Kept t t.handleFront :=
  ⟨receive_preserves Task.tty (fun _ _ => rfl) (fun _ _ => rfl) t _,
    receive_preserves Task.yieldOnly (fun _ _ => rfl) (fun _ _ => rfl) t _,
    fun hdead => absurd hdead hlive⟩

theorem flushed_kept (t : Task) :
    Kept t t.flushed := by
  refine flushed_induction (P := Kept) (fun t _ => .refl t) ?_ t
  intro t r hdel ih
  exact (handleFront_kept t hdel.2).trans ih

theorem flushed_sameUser (t : Task) :
    SameUser t t.flushed :=
  ⟨flushed_preserves Task.uid handleFront_uid t, flushed_preserves Task.gid handleFront_gid t⟩

theorem store_kept (t : Task) (regs : IntRegs) :
    Kept t (t.store regs) :=
  ⟨rfl, rfl, id⟩

theorem SameUser.refl (t : Task) :
    SameUser t t :=
  ⟨rfl, rfl⟩

theorem SameUser.trans
    (h₁ : SameUser t t')
    (h₂ : SameUser t' t'') :
    SameUser t t'' :=
  ⟨h₂.uid.trans h₁.uid, h₂.gid.trans h₁.gid⟩

variable {k k' : Kernel} {regs regs' : IntRegs} {e : Event}

theorem schedKillTask_kept (k : Kernel) (pid : Nat) (sig : Sig) (q : Nat) :
    Kept (k.tasks q) ((schedKillTask k pid sig).tasks q) := by
  refine schedKillTask_slot (P := Kept (k.tasks q)) (.refl _) ?_
  rintro rfl _
  exact ⟨rfl, rfl, id⟩

/-- A task switch flushes tasks and stores the registers of one of them. -/
theorem schedNextTask_kept
    (h : schedNextTask k regs = .ok (k', regs'))
    (q : Nat) :
    Kept (k.tasks q) (k'.tasks q) := by
  obtain ⟨k₁, m, hswitched⟩ := schedNextTask_switched h
  by_cases hcur : q = k.currentTask
  · subst hcur
    rw [hswitched.current]
    exact (store_kept _ regs).trans (flushed_kept _)
  · rcases hswitched.other hcur with hsame | hflushed
    · rw [hsame]
      exact .refl _
    · rw [hflushed]
      exact flushed_kept _

theorem schedNextTask_sameUser
    (h : schedNextTask k regs = .ok (k', regs'))
    (q : Nat) :
    SameUser (k.tasks q) (k'.tasks q) := by
  obtain ⟨k₁, m, hswitched⟩ := schedNextTask_switched h
  by_cases hcur : q = k.currentTask
  · subst hcur
    rw [hswitched.current]
    obtain ⟨huid, hgid⟩ := flushed_sameUser (k.current.store regs)
    exact ⟨huid, hgid⟩
  · rcases hswitched.other hcur with hsame | hflushed
    · rw [hsame]
      exact ⟨rfl, rfl⟩
    · rw [hflushed]
      exact flushed_sameUser _

theorem schedKillTask_sameUser (k : Kernel) (pid : Nat) (sig : Sig) (q : Nat) :
    SameUser (k.tasks q) ((schedKillTask k pid sig).tasks q) := by
  refine schedKillTask_slot (P := SameUser (k.tasks q)) (.refl _) ?_
  rintro rfl _
  exact ⟨rfl, rfl⟩

theorem prepared_sameUser {k₁ : Kernel}
    (h : Prepared e k k₁)
    (q : Nat) :
    SameUser (k.tasks q) (k₁.tasks q) := by
  cases h with
  | direct h =>
      rw [h]
      exact .refl _
  | signalled k₂ sig hquiet h =>
      rw [h, ← hquiet.tasks]
      exact schedKillTask_sameUser k₂ _ sig q
  | exited _ _ h =>
      rw [h]
      exact update_slot (P := SameUser (k.tasks q)) (fun _ => .refl _)
        (by rintro rfl; exact ⟨rfl, rfl⟩)

/-- A fault of the running task leaves its credentials alone. -/
theorem x86ErrorTrap_sameUser {name : String} {sig : Sig}
    (h : x86ErrorTrap k regs name sig = .ok (k', regs'))
    (q : Nat) :
    SameUser (k.tasks q) (k'.tasks q) := by
  unfold x86ErrorTrap at h
  dsimp only at h
  split at h
  · exact (schedKillTask_sameUser (k.printf _) _ sig q).trans (schedNextTask_sameUser h q)
  · cases h

theorem sysKill_sameUser (k : Kernel) (regs : IntRegs) (q : Nat) :
    SameUser (k.tasks q) ((sysKill k regs).1.tasks q) := by
  have hnone : SameUser (k.tasks q) (k.tasks q) := .refl _
  simp only [sysKill]
  split
  · exact hnone
  split
  · exact hnone
  split
  · exact hnone
  split
  · exact hnone
  split
  · exact schedKillTask_sameUser k _ _ q
  · exact hnone

/-- Two system calls set credentials. -/
theorem syscallHandlerImpl_sameUser {line : Word}
    (htasking : k.isTaskingAvaliable = true)
    (hsetuid : regs.eax ≠ 7)
    (hsetgid : regs.eax ≠ 8)
    (h : syscallHandlerImpl k regs line = .ok (k', regs'))
    (q : Nat) :
    SameUser (k.tasks q) (k'.tasks q) := by
  have hquiet : ∀ {k₁ : Kernel}, Moves k k₁ k.tasks k.currentTask [] →
      SameUser (k.tasks q) (k₁.tasks q) := by
    intro k₁ hmoves
    rw [hmoves.tasks]
    exact .refl _
  have hswitch : ∀ {k₁ : Kernel} {r r' : IntRegs},
      Prepared (.syscall regs line) k k₁ → schedNextTask k₁ r = .ok (k', r') →
      SameUser (k.tasks q) (k'.tasks q) :=
    fun hprep hnext => (prepared_sameUser hprep q).trans (schedNextTask_sameUser hnext q)
  unfold syscallHandlerImpl at h
  split at h
  · unfold sysSetup at h
    rw [if_neg (not_not.mpr htasking)] at h
    exact hswitch (.signalled k sigsys moves_rfl rfl) h
  · rename_i heax
    unfold sysExit at h
    split at h
    · cases h
    · rename_i hcur
      exact hswitch (.exited (BitVec.eq_of_toNat_eq heax) hcur rfl) h
  · cases h
    exact hquiet (moves_ttyCall k _ _)
  · cases h
    exact hquiet (moves_ttyCall k _ _)
  · exact hswitch (.direct rfl) h
  · cases h
    exact .refl _
  · cases h
    exact .refl _
  · rename_i heax
    exact absurd (BitVec.eq_of_toNat_eq heax) hsetuid
  · rename_i heax
    exact absurd (BitVec.eq_of_toNat_eq heax) hsetgid
  · cases h
    exact .refl _
  · cases h
    exact .refl _
  · cases h
    exact .refl _
  · rw [eq_fst_of_ok h]
    exact sysKill_sameUser k regs q
  · cases h

theorem prepared_kept {k₁ : Kernel}
    (h : Prepared e k k₁)
    (q : Nat) :
    Kept (k.tasks q) (k₁.tasks q) := by
  cases h with
  | direct h =>
      rw [h]
      exact .refl _
  | signalled k₂ sig hquiet h =>
      rw [h, ← hquiet.tasks]
      exact schedKillTask_kept k₂ _ sig q
  | exited _ _ h =>
      rw [h]
      exact update_slot (P := Kept (k.tasks q)) (fun _ => .refl _)
        (by rintro rfl; exact ⟨rfl, rfl, fun _ => rfl⟩)

/-- A reaction that fills no slot. -/
theorem reaction_kept
    (hcall : e.IsSyscall)
    (h : Reaction e k k')
    (q : Nat) :
    Kept (k.tasks q) (k'.tasks q) := by
  cases h with
  | quiet h =>
      rw [h.tasks]
      exact .refl _
  | create _ _ _ _ _ _ _ hevent _ =>
      exact absurd hcall hevent
  | queue pid sig _ _ h =>
      rw [h]
      exact schedKillTask_kept k pid sig q
  | setuid uid _ h | setgid gid _ h =>
      rw [h]
      exact update_slot (P := Kept (k.tasks q)) (fun _ => .refl _)
        (by rintro rfl; exact ⟨rfl, rfl, id⟩)
  | switch k₁ regs regs' hprep h =>
      exact (prepared_kept hprep q).trans (schedNextTask_kept h q)

/-- Only a direct call of `sched_make_task` fills a slot. -/
theorem step_kept
    (htasking : k.isTaskingAvaliable = true)
    (hmake : ¬ e.IsMakeTask)
    (h : step k e = .ok k')
    (q : Nat) :
    Kept (k.tasks q) (k'.tasks q) := by
  cases e with
  | timer regs =>
      obtain ⟨⟨k₁, regs'⟩, hcall, rfl⟩ := map_eq_ok.mp h
      exact reaction_kept (e := .syscall default 0) trivial (intTimerImpl_reaction hcall) q
  | syscall regs line =>
      exact reaction_kept (e := .syscall regs line) trivial (step_cases htasking h) q
  | fault regs name sig =>
      obtain ⟨⟨k₁, regs'⟩, hcall, rfl⟩ := map_eq_ok.mp h
      exact reaction_kept (e := .syscall default 0) trivial (x86ErrorTrap_reaction hcall) q
  | makeTask eip tty fs gs cs genericSegment yieldOnly =>
      exact absurd trivial hmake
  | killTask pid sig =>
      cases h
      exact schedKillTask_kept k pid sig q
  | nextTask regs =>
      obtain ⟨⟨k₁, regs'⟩, hcall, rfl⟩ := map_eq_ok.mp h
      exact schedNextTask_kept hcall q

/-- A live task keeps its terminal. -/
theorem step_tty
    (htasking : k.isTaskingAvaliable = true)
    {pid : Nat}
    (hlive : (k.tasks pid).status ≠ .dead)
    (h : step k e = .ok k') :
    (k'.tasks pid).tty = (k.tasks pid).tty := by
  by_cases hmake : e.IsMakeTask
  · cases e with
    | makeTask eip tty fs gs cs genericSegment yieldOnly =>
        cases h
        rw [schedMakeTask_live eip tty fs gs cs genericSegment yieldOnly hlive]
    | timer | syscall | fault | killTask | nextTask =>
        exact hmake.elim
  · exact (step_kept htasking hmake h pid).tty

/-- A timer tick does not reach a task that only yields. -/
theorem step_timer_yieldOnly
    (hyield : k.current.yieldOnly = true)
    (hevent : e.IsTimer)
    (h : step k e = .ok k') :
    k' = k := by
  cases e with
  | timer regs =>
      obtain ⟨⟨k₁, regs'⟩, hcall, rfl⟩ := map_eq_ok.mp h
      unfold intTimerImpl at hcall
      rw [if_neg (fun hboth => hboth.2 hyield)] at hcall
      cases hcall
      rfl
  | syscall | fault | makeTask | killTask | nextTask =>
      exact hevent.elim

/-- What a task that makes no system call keeps: its credentials, unless it
was dead and its slot is filled. -/
theorem step_sameUser {pid : Nat}
    (htasking : k.isTaskingAvaliable = true)
    (hlive : (k.tasks pid).status ≠ .dead)
    (hallowed : k.currentTask = pid → e.IsTimer)
    (h : step k e = .ok k') :
    SameUser (k.tasks pid) (k'.tasks pid) := by
  by_cases hcur : k.currentTask = pid
  · cases e with
    | timer regs =>
        obtain ⟨⟨k₁, regs'⟩, hcall, rfl⟩ := map_eq_ok.mp h
        unfold intTimerImpl at hcall
        split at hcall
        · exact schedNextTask_sameUser hcall pid
        · cases hcall
          exact ⟨rfl, rfl⟩
    | syscall | fault | makeTask | killTask | nextTask =>
        exact (hallowed hcur).elim
  · have hbystander := reaction_bystander (Ne.symm hcur) (step_cases htasking h)
    generalize k'.tasks pid = t at hbystander
    cases hbystander with
    | same =>
        exact ⟨rfl, rfl⟩
    | flushed =>
        exact flushed_sameUser _
    | signalled =>
        exact ⟨rfl, rfl⟩
    | created _ _ hdead =>
        exact absurd hdead hlive

end Kept

end Klyx
