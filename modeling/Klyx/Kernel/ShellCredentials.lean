import Klyx.Kernel.ShellStatement

/-!
# The credentials of a terminal session

The program of a terminal follows the session of the lines that it has read, whatever the
other tasks do in between.  They can neither change its credentials nor its terminal.

**Results.**
* `SessionInv.statement`, `SessionInv.elsewhere`: the invariant of a session.
* `session_credentials`: every run.
-/

namespace Klyx

open HaltingRun InputMachine

/-! ### Logging in -/

/-- Before the line that decides. -/
def LoginPoint.Early : LoginPoint → Prop
  | .getuid | .getgid | .prompt | .read => True
  | .refuse | .setuid _ | .setgid _ | .returned => False

section Login

variable {passSaver : List Byte} {lines rest : List TypedLine} {k k' : Kernel} {regs : IntRegs}
  {a : Account}

/-- The first account decides. -/
theorem sessionAfter_of_firstAccount
    (h : firstAccount lines = some (a, rest)) :
    sessionAfter passSaver lines rest (.shell a 0 .command) := by
  induction lines with
  | nil =>
      cases h
  | cons line lines ih =>
      rw [firstAccount] at h
      cases haccount : line.account with
      | none =>
          rw [haccount] at h
          have hnext : Session.next passSaver .loggingIn line = .loggingIn := by
            simp [Session.next, haccount]
          have hread := ih h
          rw [sessionAfter, ← hnext] at hread
          exact hread.cons
      | some b =>
          rw [haccount] at h
          cases h
          have hnext : Session.next passSaver .loggingIn line = .shell a 0 .command := by
            simp [Session.next, haccount]
          rw [sessionAfter, ← hnext]
          exact HasRead.start.read

/-- A system call of a program keeps all terminals. -/
theorem call_tty {w : Word} {regs' : IntRegs}
    (htasking : k.isTaskingAvaliable = true)
    (h : syscallHandlerImpl k regs w = .ok (k', regs'))
    (q : Nat) :
    (k'.tasks q).tty = (k.tasks q).tty := by
  have hstep : step k (.syscall regs w) = .ok k' := map_eq_ok.mpr ⟨_, h, rfl⟩
  exact (step_kept htasking id hstep q).tty

/-- What `login` does with the lines and the terminal. -/
theorem login_reads {s s' : LoginState}
    (htasking : k.isTaskingAvaliable = true)
    (h : login regs k s = .ok (k', s')) :
    (∀ q, (k'.tasks q).tty = (k.tasks q).tty) ∧
      ((s'.lines = s.lines ∧ (s'.point.Early → s.point.Early)) ∨
        ∃ line, s.point.Early ∧ s.lines = line :: s'.lines ∧
          s'.point = afterLine line.account) := by
  rcases s with ⟨point, rest⟩
  cases point with
  | getuid | getgid =>
      simp only [login] at h
      rcases map_eq_ok.mp h with ⟨⟨k₁, r⟩, hcall, heq⟩
      cases heq
      exact ⟨call_tty htasking hcall, Or.inl ⟨rfl, fun _ => trivial⟩⟩
  | refuse | returned =>
      cases h
      exact ⟨fun _ => rfl, Or.inl ⟨rfl, id⟩⟩
  | prompt =>
      cases h
      exact ⟨fun _ => rfl, Or.inl ⟨rfl, fun _ => trivial⟩⟩
  | read =>
      simp only [login] at h
      split at h
      · cases rest with
        | nil =>
            cases h
            exact ⟨fun _ => rfl, Or.inl ⟨rfl, id⟩⟩
        | cons line rest =>
            rcases ttyRead_typed 511 line.enter_free [] with ⟨l, hread, hholds⟩
            simp only [hread] at h
            rcases map_eq_ok.mp h with ⟨⟨k₁, r⟩, hcall, heq⟩
            cases heq
            exact ⟨call_tty htasking hcall, Or.inr ⟨line, trivial, rfl, compareLine_typed hholds⟩⟩
      · rcases map_eq_ok.mp h with ⟨⟨k₁, r⟩, hcall, heq⟩
        cases heq
        exact ⟨call_tty htasking hcall, Or.inl ⟨rfl, fun _ => trivial⟩⟩
  | setuid a | setgid a =>
      simp only [login] at h
      rcases map_eq_ok.mp h with ⟨⟨k₁, r⟩, hcall, heq⟩
      cases heq
      exact ⟨call_tty htasking hcall, Or.inl ⟨rfl, False.elim⟩⟩

theorem early_afterLine {o : Option Account}
    (h : (afterLine o).Early) :
    o = none := by
  rcases o with _ | a
  · rfl
  · cases a <;> exact h.elim

end Login

/-! ### The whole program -/

/-- What `test_a` has made of the lines so far. -/
def SessionProgress (passSaver : List Byte) (lines : List TypedLine) (s : ShellState)
    (t : Task) : Prop :=
  match s.point with
  | .login p =>
      s.frames = [] ∧ LoginProgress lines ⟨p, s.lines⟩ t.uid t.gid ∧
        (p.Early → sessionAfter passSaver lines s.lines .loggingIn)
  | _ => ShellProgress passSaver lines s t

/-- The invariant of a terminal session in slot `pid`. -/
structure SessionInv (img : ShellImage) (pid : Nat) (lines : List TypedLine) (k : Kernel)
    (s : ShellState) : Prop where
  sched : SchedInv k
  tty : (k.tasks pid).tty.toNat < ttysCap
  progress : SessionProgress img.passSaver lines s (k.tasks pid)

section Session

variable {img : ShellImage} {pid : Nat} {lines : List TypedLine} {k k' : Kernel}
  {s s' : ShellState} {t : Task} {regs : IntRegs}

theorem sessionProgress_login {p : LoginPoint}
    (hpoint : s.point = .login p) :
    SessionProgress img.passSaver lines s t ↔
      s.frames = [] ∧ LoginProgress lines ⟨p, s.lines⟩ t.uid t.gid ∧
        (p.Early → sessionAfter img.passSaver lines s.lines .loggingIn) := by
  rw [SessionProgress, hpoint]

theorem sessionProgress_shell
    (hpoint : ∀ p, s.point ≠ .login p) :
    SessionProgress img.passSaver lines s t ↔ ShellProgress img.passSaver lines s t := by
  unfold SessionProgress
  cases hp : s.point with
  | login p =>
      exact absurd hp (hpoint p)
  | say | read | run | encRead | encCrypt | encKeep | encReadAgain | encCryptAgain | encCopy
  | encCompare | debugger | astray | saveGid | becomeRoot | becomeRootGroup | callShell
  | restoreUid | restoreGid | exit =>
      rfl

/-- A shell is never again at a statement of `login`. -/
theorem ShellProgress.session
    (h : ShellProgress img.passSaver lines s t) :
    SessionProgress img.passSaver lines s t := by
  refine (sessionProgress_shell ?_).mpr h
  intro p hpoint
  rcases h (by rw [hpoint]; exact ShellPoint.noConfusion) with ⟨a, d, A, -, hfits⟩
  have hsaved := hfits.saved
  rw [hpoint] at hsaved
  exact hsaved

/-- A statement of `login`. -/
theorem SessionInv.login {p : LoginPoint} {r : LoginState}
    (h : SessionInv img pid lines k s)
    (hpoint : s.point = .login p)
    (hcur : k.currentTask = pid)
    (hact : login regs k ⟨p, s.lines⟩ = .ok (k', r)) :
    SessionInv img pid lines k' { s with point := .login r.point, lines := r.lines } := by
  rcases h with ⟨hsched, htty, hprogress⟩
  rcases (sessionProgress_login hpoint).mp hprogress with ⟨hframes, hlogin, hearly⟩
  have hinv : LoginInv pid lines k ⟨p, s.lines⟩ := ⟨hsched, hlogin⟩
  have hinv' := hinv.statement hcur hact
  rcases login_reads hsched.tasking hact with ⟨hkept, hreads⟩
  refine ⟨hinv'.sched, by rw [hkept]; exact htty, ?_⟩
  refine (sessionProgress_login rfl).mpr ⟨hframes, hinv'.progress, ?_⟩
  intro hstill
  rcases hreads with ⟨hlines, hback⟩ | ⟨line, hread, hlines, hafter⟩
  · dsimp only at hlines ⊢
    rw [hlines]
    exact hearly (hback hstill)
  · dsimp only at hlines hread
    have hnone : line.account = none := by
      rw [hafter] at hstill
      exact early_afterLine hstill
    have hnext : Session.next img.passSaver .loggingIn line = .loggingIn := by
      simp [Session.next, hnone]
    have hsession := hearly hread
    rw [hlines] at hsession
    have hmore := HasRead.read hsession
    rwa [hnext] at hmore

/-- The login is over. -/
theorem SessionInv.returned
    (h : SessionInv img pid lines k s)
    (hpoint : s.point = .login .returned) :
    SessionInv img pid lines k { s with point := .prompt } := by
  rcases h with ⟨hsched, htty, hprogress⟩
  rcases (sessionProgress_login hpoint).mp hprogress with ⟨hframes, ⟨a, huid, hgid, hfirst⟩, -⟩
  refine ⟨hsched, htty, ShellProgress.session (fun _ =>
    ⟨a, 0, _, sessionAfter_of_firstAccount hfirst, ?_⟩)⟩
  exact ⟨rfl, hframes, Prod.ext huid hgid, trivial⟩

theorem SessionInv.shellStatement {around : Surroundings}
    (h : SessionInv img pid lines k s)
    (hcur : k.currentTask = pid)
    (hact : shellStatement img around regs k s = .ok (k', s')) :
    SessionInv img pid lines k' s' := by
  by_cases hlogin : ∃ p, s.point = .login p
  · rcases hlogin with ⟨p, hpoint⟩
    simp only [Klyx.shellStatement, hpoint] at hact
    cases p with
    | returned =>
        cases hact
        exact h.returned hpoint
    | getuid | getgid | refuse | prompt | read | setuid | setgid =>
        rcases map_eq_ok.mp hact with ⟨⟨k₁, r⟩, hcall, heq⟩
        cases heq
        exact h.login hpoint hcur hcall
  · subst hcur
    have hshell : ShellProgress img.passSaver lines s k.current :=
      (sessionProgress_shell (fun p hp => hlogin ⟨p, hp⟩)).mp h.progress
    rcases shellStatement_follows h.sched h.tty hshell hact with ⟨hsched, htty, hprogress⟩
    exact ⟨hsched, by rw [htty]; exact h.tty, hprogress.session⟩

/-- Every statement keeps the invariant. -/
theorem SessionInv.statement
    (h : SessionInv img pid lines k s)
    (hcur : k.currentTask = pid)
    (hact : testA img regs k s = .ok (k', s')) :
    SessionInv img pid lines k' s' := by
  have hfound : SessionInv img pid lines k
      { s with statics := (s.around.headD .quiet).statics s.statics, around := s.around.tail } :=
    ⟨h.sched, h.tty, h.progress⟩
  exact hfound.shellStatement hcur hact

/-- Other tasks do not change credentials or terminals. -/
theorem SessionInv.elsewhere {e : Event}
    (h : SessionInv img pid lines k s)
    (hlive : (k.tasks pid).status ≠ .dead)
    (hallowed : k.currentTask = pid → e.IsTimer)
    (hstep : step k e = .ok k') :
    SessionInv img pid lines k' s := by
  have huser := step_sameUser h.sched.tasking hlive hallowed hstep
  have htty := step_tty h.sched.tasking hlive hstep
  refine ⟨step_schedInv h.sched hstep, by rw [htty]; exact h.tty, ?_⟩
  have hprogress := h.progress
  unfold SessionProgress ShellProgress at hprogress ⊢
  rw [huser.uid, huser.gid]
  exact hprogress

end Session

/-! ### What the credentials are -/

/-- What the line is for that a statement reads. -/
def ShellPoint.asks : ShellPoint → Option Asks
  | .read => some .command
  | .encRead => some .password
  | .encReadAgain => some .again
  | .debugger _ _ => some .debugger
  | _ => none

/-- The credentials of a session. -/
structure CredentialsLaw (passSaver : List Byte) (lines : List TypedLine) (s : ShellState)
    (t : Task) : Prop where
  /-- The user is root or the account that is named first, and the group is that of root. -/
  confined : t.gid = 0 ∧
    (t.uid = 0 ∨ ∃ a others, firstAccount lines = some (a, others) ∧ t.uid = a.id)
  /-- While `login` waits for a line, no line has named an account. -/
  loggingIn : s.point = .login .read → sessionAfter passSaver lines s.lines .loggingIn ∧ t.uid = 0
  /-- While a shell waits for a line, the credentials are those of its depth, and each
  shell around it has saved its own. -/
  shell : ∀ asks, s.point.asks = some asks → ∃ a d,
    sessionAfter passSaver lines s.lines (.shell a d asks) ∧
      (t.uid, t.gid) = credentials a d ∧ s.frames = framesOf a d

section Credentials

variable {passSaver : List Byte} {lines rest : List TypedLine} {a : Account} {d : Nat}
  {asks : Asks} {p : ShellPoint} {s : ShellState} {t : Task}

/-- Root, or the account, in the group of root. -/
theorem credentials_cases (a : Account) (d : Nat) :
    (credentials a d).2 = 0 ∧ ((credentials a d).1 = 0 ∨ (credentials a d).1 = a.id) := by
  cases d with
  | zero =>
      exact ⟨rfl, Or.inr rfl⟩
  | succ d =>
      exact ⟨rfl, Or.inl rfl⟩

theorem point_credentials_cases (a : Account) (d : Nat) (p : ShellPoint) :
    (p.credentials a d).2 = 0 ∧
      ((p.credentials a d).1 = 0 ∨ (p.credentials a d).1 = a.id) := by
  have hcases := credentials_cases a d
  induction p with
  | say text next ih =>
      exact ih
  | becomeRootGroup =>
      exact ⟨hcases.1, Or.inl rfl⟩
  | callShell | restoreUid =>
      exact ⟨rfl, Or.inl rfl⟩
  | restoreGid =>
      exact ⟨rfl, hcases.2⟩
  | login | read | run | encRead | encCrypt | encKeep | encReadAgain | encCryptAgain | encCopy
  | encCompare | debugger | astray | saveGid | becomeRoot | exit =>
      exact hcases

/-- A statement of a shell belongs to a session of the same account. -/
theorem point_session_account (passSaver : List Byte)
    (h : p.Saved a d) :
    ∃ d' asks, p.session passSaver a d = .shell a d' asks := by
  induction p with
  | login =>
      exact h.elim
  | say text next ih =>
      exact ih h
  | run c =>
      cases c with
      | exit =>
          cases d <;> exact ⟨_, _, rfl⟩
      | help | ud | kill | stop | cont | uid | gid | pid | uname | fib | time | enc | strcpy
      | kdbg | su =>
          exact ⟨_, _, rfl⟩
  | read | encRead | encCrypt | encKeep | encReadAgain | encCryptAgain | encCopy | encCompare
  | debugger | astray | saveGid | becomeRoot | becomeRootGroup | callShell | restoreUid
  | restoreGid | exit =>
      exact ⟨_, _, rfl⟩

/-- No line changes the account of a shell. -/
theorem next_account (passSaver : List Byte) (a : Account) (d : Nat) (asks : Asks)
    (line : TypedLine) :
    ∃ d' asks', Session.next passSaver (.shell a d asks) line = .shell a d' asks' := by
  cases asks with
  | command =>
      simp only [Session.next]
      rcases line.command with _ | c
      · exact ⟨_, _, rfl⟩
      · exact point_session_account (p := .run c) passSaver trivial
  | debugger =>
      simp only [Session.next]
      split <;> exact ⟨_, _, rfl⟩
  | password | again | nothing =>
      exact ⟨_, _, rfl⟩

theorem foldl_account {taken : List TypedLine}
    (h : taken.foldl (Session.next passSaver) (.shell a d asks) = .shell b d' asks') :
    b = a := by
  induction taken generalizing d asks with
  | nil =>
      cases h
      rfl
  | cons line taken ih =>
      rcases next_account passSaver a d asks line with ⟨d₁, asks₁, hnext⟩
      rw [List.foldl_cons, hnext] at h
      exact ih h

/-- The account of a shell was named first. -/
theorem firstAccount_of_sessionAfter
    (h : sessionAfter passSaver lines rest (.shell a d asks)) :
    ∃ others, firstAccount lines = some (a, others) := by
  rcases h with ⟨taken, rfl, h⟩
  induction taken with
  | nil =>
      cases h
  | cons line taken ih =>
      rw [List.cons_append, firstAccount]
      rw [List.foldl_cons, Session.next] at h
      cases haccount : line.account with
      | none =>
          rw [haccount] at h
          exact ih h
      | some b =>
          rw [haccount] at h
          rw [foldl_account h]
          exact ⟨_, rfl⟩

/-- A statement of `login`. -/
theorem loginProgress_confined {l : LoginState} {uid gid : Word}
    (h : LoginProgress lines l uid gid) :
    gid = 0 ∧ (uid = 0 ∨ ∃ a others, firstAccount lines = some (a, others) ∧ uid = a.id) := by
  rcases l with ⟨point, rest⟩
  cases point with
  | getuid | getgid | prompt | read =>
      exact ⟨h.2.1, Or.inl h.1⟩
  | refuse =>
      exact h.elim
  | setuid a =>
      exact ⟨h.2.1, Or.inl h.1⟩
  | setgid a =>
      rcases h with ⟨huid, hgid, -, hfirst⟩
      exact ⟨hgid, Or.inr ⟨a, rest, hfirst, huid⟩⟩
  | returned =>
      rcases h with ⟨a, huid, hgid, hfirst⟩
      exact ⟨hgid, Or.inr ⟨a, rest, hfirst, huid⟩⟩

/-- A statement of a shell. -/
theorem ShellProgress.law
    (h : ShellProgress passSaver lines s t)
    (hastray : s.point ≠ .astray) :
    CredentialsLaw passSaver lines s t := by
  rcases h hastray with ⟨a, d, A, hread, hsession, hframes, huser, hsaved⟩
  rcases point_session_account passSaver hsaved with ⟨d', asks, haccount⟩
  rw [hsession] at hread
  refine ⟨?_, ?_, ?_⟩
  · rcases point_credentials_cases a d s.point with ⟨hgid, huid⟩
    rw [← huser] at hgid huid
    refine ⟨hgid, huid.imp_right (fun huid => ?_)⟩
    rw [haccount] at hread
    rcases firstAccount_of_sessionAfter hread with ⟨others, hfirst⟩
    exact ⟨a, others, hfirst, huid⟩
  · intro hpoint
    rw [hpoint] at hsaved
    exact hsaved.elim
  · intro asks hasks
    refine ⟨a, d, ?_⟩
    revert hread hframes huser
    cases hpoint : s.point with
    | read | encRead | encReadAgain | debugger =>
        rw [hpoint] at hasks
        cases hasks
        exact fun hread hframes huser => ⟨hread, huser, hframes⟩
    | login | say | run | encCrypt | encKeep | encCryptAgain | encCopy | encCompare | astray
    | saveGid | becomeRoot | becomeRootGroup | callShell | restoreUid | restoreGid | exit =>
        rw [hpoint] at hasks
        cases hasks

theorem SessionProgress.law
    (h : SessionProgress passSaver lines s t)
    (hastray : s.point ≠ .astray) :
    CredentialsLaw passSaver lines s t := by
  by_cases hlogin : ∃ p, s.point = .login p
  · rcases hlogin with ⟨p, hpoint⟩
    rw [SessionProgress, hpoint] at h
    rcases h with ⟨-, hlogin, hearly⟩
    refine ⟨loginProgress_confined hlogin, ?_, ?_⟩
    · intro hread
      rw [hpoint] at hread
      cases hread
      exact ⟨hearly trivial, hlogin.1⟩
    · intro asks hasks
      rw [hpoint] at hasks
      cases hasks
  · unfold SessionProgress at h
    split at h
    · rename_i p hpoint
      exact absurd ⟨p, hpoint⟩ hlogin
    · exact h.law hastray

end Credentials

/-- **Who may do what at a terminal.**  However other tasks run in between, and whatever
lines are typed, a session has the credentials of the account named first outside of all
`su`, those of root inside, and never any others, until it is astray: with more than
`suDepth` shells waiting, or when the debugger console has changed registers.  Other
programs, and the buffers of their system calls, are taken not to write to this task's
memory or the kernel's. -/
theorem session_credentials (img : ShellImage) {k k' : Kernel} {pid : Nat}
    {lines : List TypedLine} {around : List Surroundings} {ts : List Turn} {s : ShellState}
    (h : Reachable k)
    (hlive : (k.tasks pid).status ≠ .dead)
    (huid : (k.tasks pid).uid = 0)
    (hgid : (k.tasks pid).gid = 0)
    (htty : (k.tasks pid).tty.toNat < ttysCap)
    (hrun : run (takeTurn pid (testA img)) (k, some (.start lines around)) ts =
      .ok (k', some s))
    (hastray : s.point ≠ .astray) :
    CredentialsLaw img.passSaver lines s (k'.tasks pid) := by
  have hstart : SessionInv img pid lines k (.start lines around) :=
    ⟨h.schedInv, htty, (sessionProgress_login (p := .getuid) rfl).mpr
      ⟨rfl, ⟨huid, hgid, rfl⟩, fun _ => HasRead.start⟩⟩
  have hinit : WhileLive pid (SessionInv img pid lines) (k, some (.start lines around)) :=
    ⟨hlive, hstart⟩
  have hend : WhileLive pid (SessionInv img pid lines) (k', some s) := by
    refine run_whileLive ?_ ?_ hinit hrun
    · intro regs k s k' s' hinv hcur hact
      exact hinv.statement hcur hact
    · intro e k s k' hinv hlive hallowed hstep
      exact hinv.elsewhere hlive hallowed hstep
  exact hend.2.progress.law hastray

/-- "su". -/
def sampleSu : TypedLine :=
  ⟨[115, 117], by decide, by decide⟩

/-- Task 1 logs in as alice and enters a second shell; it is root there. -/
theorem session_credentials_sample :
    ∃ k k' s, runFromBoot Image.sample default [userCall 4 0 0] = .ok k ∧
      run (takeTurn 1 (testA ⟨[65], 0, ""⟩)) (k, some (.start [sampleAlice, sampleSu] []))
        (List.replicate 15 (.own default)) = .ok (k', some s) ∧
      s.point = .read ∧ CredentialsLaw [65] [sampleAlice, sampleSu] s (k'.tasks 1) := by
  rcases exists_of_returnsWith
    (x := runFromBoot Image.sample default [userCall 4 0 0])
    (p := fun k => (k.tasks 1).status ≠ .dead ∧ (k.tasks 1).uid = 0 ∧ (k.tasks 1).gid = 0 ∧
      (k.tasks 1).tty.toNat < ttysCap ∧
      returnsWith (run (takeTurn 1 (testA ⟨[65], 0, ""⟩))
        (k, some (.start [sampleAlice, sampleSu] [])) (List.replicate 15 (.own default)))
        (fun s => s.2.map ShellState.point = some .read) = true)
    (by decide +kernel) with ⟨k, hboot, hlive, huid, hgid, htty, hsession⟩
  rcases exists_of_returnsWith hsession with ⟨⟨k', o⟩, hrun, hpoint⟩
  rcases Option.map_eq_some_iff.mp hpoint with ⟨s, rfl, hread⟩
  exact ⟨k, k', s, hboot, hrun, hread, session_credentials ⟨[65], 0, ""⟩ ⟨_, _, _, hboot⟩ hlive
    huid hgid htty hrun (by rw [hread]; exact ShellPoint.noConfusion)⟩

end Klyx
