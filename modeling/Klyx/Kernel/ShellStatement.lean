import Klyx.Kernel.ShellSession
import Klyx.Lib.InputMachine

/-!
# What a statement of the shell does

Most statements leave the credentials of the task alone.  `su` assigns to them, which
changes nothing else that the scheduler looks at.

**Results.**
* `readLine_follows`: a statement that takes a line.
* `runCommand_follows`: a command that has been named.
* `encStatement_follows`: the statements on the static buffers.
* `shellStatement_follows`: all of them.
-/

namespace Klyx

open HaltingRun InputMachine

/-- What a statement that sets no credentials keeps. -/
structure Undisturbed (pid : Nat) (k k' : Kernel) : Prop where
  sched : SchedInv k'
  tty : (k'.tasks pid).tty = (k.tasks pid).tty
  user : SameUser (k.tasks pid) (k'.tasks pid)

section Undisturbed

variable {k k' : Kernel} {regs regs' : IntRegs} {pid : Nat}

theorem undisturbed_of_tasks
    (hinv : SchedInv k')
    (h : k'.tasks = k.tasks) :
    Undisturbed pid k k' :=
  ⟨hinv, by rw [h], by rw [h]; exact .refl _⟩

theorem undisturbed_printf
    (hinv : SchedInv k)
    (text : String) :
    Undisturbed pid k (k.printf text) :=
  undisturbed_of_tasks (printf_schedInv hinv text) rfl

theorem undisturbed_ttyCall
    (hinv : SchedInv k)
    (td count : Word) :
    Undisturbed pid k (ttyCall k td count).1 :=
  undisturbed_of_tasks (ttyCall_schedInv hinv td count) (ttyCall_tasks k td count)

theorem undisturbed_syscall {line : Word}
    (hinv : SchedInv k)
    (hsetuid : regs.eax ≠ 7)
    (hsetgid : regs.eax ≠ 8)
    (h : syscallHandlerImpl k regs line = .ok (k', regs')) :
    Undisturbed pid k k' := by
  have hstep : step k (.syscall regs line) = .ok k' := map_eq_ok.mpr ⟨_, h, rfl⟩
  exact ⟨step_schedInv hinv hstep, (step_kept hinv.tasking id hstep pid).tty,
    syscallHandlerImpl_sameUser hinv.tasking hsetuid hsetgid h pid⟩

theorem undisturbed_fault {name : String} {sig : Sig}
    (hinv : SchedInv k)
    (h : x86ErrorTrap k regs name sig = .ok (k', regs')) :
    Undisturbed pid k k' := by
  have hstep : step k (.fault regs name sig) = .ok k' := map_eq_ok.mpr ⟨_, h, rfl⟩
  exact ⟨step_schedInv hinv hstep, (step_kept hinv.tasking id hstep pid).tty,
    x86ErrorTrap_sameUser h pid⟩

theorem undisturbed_readCall {line : Word}
    (hinv : SchedInv k)
    (h : readCall k regs line = .ok k') :
    Undisturbed pid k k' := by
  rcases map_eq_ok.mp h with ⟨⟨k₁, regs₁⟩, hcall, rfl⟩
  refine undisturbed_syscall hinv ?_ ?_ hcall
  · simp
  · simp

end Undisturbed

/-- With a terminal, a statement that reads either waits or takes a line. -/
theorem readLine_cases {call : Word → Exec Kernel} {k k' : Kernel} {s s' : ShellState}
    {next : (Nat → Byte) → ShellPoint}
    (htty : k.current.tty.toNat < ttysCap)
    (h : readLine call k s next = .ok (k', s')) :
    (k' = k ∧ s' = s) ∨
      ∃ line lines w, s.lines = line :: lines ∧ call w = .ok k' ∧
        s' = { s with point := next line.buf, lines := lines } := by
  unfold readLine at h
  rw [if_pos htty] at h
  cases hlines : s.lines with
  | nil =>
      simp only [hlines] at h
      cases h
      exact Or.inl ⟨rfl, rfl⟩
  | cons line lines =>
      rcases ttyRead_typed 511 line.enter_free [] with ⟨l, hread, -⟩
      have hbuf : line.buf = l.buf := by
        unfold TypedLine.buf
        rw [hread]
      simp only [hlines, hread] at h
      rcases map_eq_ok.mp h with ⟨k₁, hcall, heq⟩
      cases heq
      exact Or.inr ⟨line, lines, _, rfl, hcall, by rw [hbuf]⟩

/-- The session of the lines that have been read. -/
def sessionAfter (passSaver : List Byte) (lines rest : List TypedLine) (A : Session) : Prop :=
  HasRead (Session.next passSaver) .loggingIn lines rest A

/-- What a shell has made of the lines so far, unless it is astray. -/
def ShellProgress (passSaver : List Byte) (lines : List TypedLine) (s : ShellState) (t : Task) :
    Prop :=
  s.point ≠ .astray → ∃ a d A, sessionAfter passSaver lines s.lines A ∧
    Fits passSaver a d s.point A s.frames (t.uid, t.gid)

section Shell

variable {img : ShellImage} {lines : List TypedLine} {k k' : Kernel} {s s' : ShellState}
  {regs : IntRegs} {pid : Nat} {a : Account} {d : Nat} {A : Session} {user : Word × Word}

/-- A statement that takes a line. -/
theorem readLine_follows {call : Word → Exec Kernel} {next : (Nat → Byte) → ShellPoint}
    (hinv : SchedInv k)
    (htty : k.current.tty.toNat < ttysCap)
    (hcall : ∀ w k', call w = .ok k' → Undisturbed k.currentTask k k')
    (hread : sessionAfter img.passSaver lines s.lines A)
    (hfits : Fits img.passSaver a d s.point A s.frames (k.current.uid, k.current.gid))
    (hnext : ∀ line, Fits img.passSaver a d (next line.buf) (A.next img.passSaver line) s.frames
      (k.current.uid, k.current.gid))
    (h : readLine call k s next = .ok (k', s')) :
    Undisturbed k.currentTask k k' ∧
      ShellProgress img.passSaver lines s' (k'.tasks k.currentTask) := by
  rcases readLine_cases htty h with ⟨rfl, rfl⟩ | ⟨line, rest, w, hlines, hw, rfl⟩
  · exact ⟨undisturbed_of_tasks hinv rfl, fun _ => ⟨a, d, A, hread, hfits⟩⟩
  · have hun := hcall w k' hw
    rw [hlines] at hread
    refine ⟨hun, fun _ => ⟨a, d, _, hread.read, ?_⟩⟩
    rw [hun.user.uid, hun.user.gid]
    exact hnext line

/-- A statement after which the shell is at another one of the same session. -/
theorem undisturbed_follows
    (hun : Undisturbed k.currentTask k k')
    (hread : sessionAfter img.passSaver lines s'.lines A)
    (hfits : Fits img.passSaver a d s'.point A s'.frames (k.current.uid, k.current.gid)) :
    Undisturbed k.currentTask k k' ∧
      ShellProgress img.passSaver lines s' (k'.tasks k.currentTask) := by
  refine ⟨hun, fun _ => ⟨a, d, A, hread, ?_⟩⟩
  rw [hun.user.uid, hun.user.gid]
  exact hfits

/-- A command that is a system call. -/
theorem shellCall_follows {next : IntRegs → ShellPoint}
    (hinv : SchedInv k)
    (hsetuid : regs.eax ≠ 7)
    (hsetgid : regs.eax ≠ 8)
    (hread : sessionAfter img.passSaver lines s.lines A)
    (hfits : ∀ r, Fits img.passSaver a d (next r) A s.frames (k.current.uid, k.current.gid))
    (h : shellCall k regs s next = .ok (k', s')) :
    Undisturbed k.currentTask k k' ∧
      ShellProgress img.passSaver lines s' (k'.tasks k.currentTask) := by
  rcases map_eq_ok.mp h with ⟨⟨k₁, regs₁⟩, hcall, heq⟩
  cases heq
  exact undisturbed_follows (undisturbed_syscall hinv hsetuid hsetgid hcall) hread (hfits regs₁)

theorem shellKill_follows {sig : Sig}
    (hinv : SchedInv k)
    (hread : sessionAfter img.passSaver lines s.lines A)
    (hfits : Fits img.passSaver a d .cend A s.frames (k.current.uid, k.current.gid))
    (h : shellKill k regs s sig = .ok (k', s')) :
    Undisturbed k.currentTask k k' ∧
      ShellProgress img.passSaver lines s' (k'.tasks k.currentTask) :=
  shellCall_follows hinv (show (12 : Word) ≠ 7 by decide) (show (12 : Word) ≠ 8 by decide) hread
    (fun _ => fits_say.mpr hfits) h

/-- A command that has been named. -/
theorem runCommand_follows {around : Surroundings} {c : ShellCommand}
    (hinv : SchedInv k)
    (hread : sessionAfter img.passSaver lines s.lines A)
    (hpoint : s.point = .run c)
    (hfits : Fits img.passSaver a d (.run c) A s.frames (k.current.uid, k.current.gid))
    (h : runCommand img around regs k s c = .ok (k', s')) :
    Undisturbed k.currentTask k k' ∧
      ShellProgress img.passSaver lines s' (k'.tasks k.currentTask) := by
  have hsame : Undisturbed k.currentTask k k := undisturbed_of_tasks hinv rfl
  have hud := hfits
  rcases hfits with ⟨rfl, hframes, huser, -⟩
  have hcend : Session.obey a d (some c) = .shell a d .command →
      Fits img.passSaver a d .cend (.obey a d (some c)) s.frames (k.current.uid, k.current.gid) :=
    fun hobey => ⟨hobey, hframes, huser, trivial⟩
  cases c with
  | help =>
      cases h
      exact undisturbed_follows (undisturbed_printf hinv _) hread (hcend rfl)
  | ud =>
      rcases map_eq_ok.mp h with ⟨⟨k₁, regs₁⟩, hfault, heq⟩
      cases heq
      exact undisturbed_follows (undisturbed_fault hinv hfault) hread (by rwa [hpoint])
  | exit =>
      cases h
      change s.frames = framesOf a d at hframes
      cases d with
      | zero =>
          have hnil : s.frames = [] := hframes
          refine undisturbed_follows (a := a) (d := 0) hsame hread ?_
          rw [if_pos hnil]
          exact ⟨rfl, hframes, huser, rfl⟩
      | succ d =>
          have hcons : s.frames ≠ [] := by
            rw [hframes]
            exact List.cons_ne_nil _ _
          refine undisturbed_follows (a := a) (d := d) hsame hread ?_
          rw [if_neg hcons]
          exact ⟨rfl, hframes, huser, trivial⟩
  | kill | stop | cont =>
      exact shellKill_follows hinv hread (hcend rfl) h
  | uid | gid | pid | uname | time =>
      simp only [runCommand] at h
      refine shellCall_follows (a := a) (d := d) hinv ?_ ?_ hread (fun _ => ?_) h
      · simp
      · simp
      · exact fits_say.mpr (hcend rfl)
  | fib =>
      cases h
      exact undisturbed_follows hsame hread ((fits_sayAll _).mpr (hcend rfl))
  | enc =>
      cases h
      exact undisturbed_follows hsame hread (fits_say.mpr ⟨rfl, hframes, huser, trivial⟩)
  | strcpy =>
      cases h
      exact undisturbed_follows hsame hread (hcend rfl)
  | kdbg =>
      cases h
      exact undisturbed_follows (undisturbed_printf hinv _) hread
        (fits_say.mpr ⟨rfl, hframes, huser, trivial⟩)
  | su =>
      cases h
      exact undisturbed_follows hsame hread ⟨rfl, hframes, huser, congrArg Prod.fst huser⟩

/-- `crypt` refuses an empty text and a key of less than two characters. -/
theorem crypt_isSome_iff (enc : Nat → Byte) (text key : List Byte) :
    (crypt enc (some text) (some key)).isSome = true ↔ 2 ≤ key.length ∧ text ≠ [] := by
  rcases text with _ | ⟨c, text⟩ <;> rcases key with _ | ⟨b₀, _ | ⟨b₁, key⟩⟩ <;> simp [crypt]

/-- The statements on the static buffers, whatever these hold. -/
theorem encStatement_follows
    (hfits : Fits img.passSaver a d s.point A s.frames user) :
    Fits img.passSaver a d (encStatement img s).point A (encStatement img s).frames user ∧
      (encStatement img s).lines = s.lines := by
  rcases s with ⟨point, frames, rest, statics, around⟩
  have hkept := hfits
  rcases hfits with ⟨rfl, hframes, huser, -⟩
  cases point with
  | encCrypt buf =>
      have hsome := crypt_isSome_iff statics.enc img.passSaver buf
      simp only [encStatement]
      cases hcrypt : crypt statics.enc (some img.passSaver) (some buf) with
      | none =>
          have hrefused : ¬ (2 ≤ buf.length ∧ img.passSaver ≠ []) := by
            rw [← hsome, hcrypt]
            simp
          refine ⟨⟨?_, hframes, huser, trivial⟩, rfl⟩
          simp [ShellPoint.session, asksAfter, hrefused, ShellPoint.cend, ShellPoint.prompt]
      | some enc =>
          have haccepted : 2 ≤ buf.length ∧ img.passSaver ≠ [] := by
            rw [← hsome, hcrypt]
            rfl
          refine ⟨⟨?_, hframes, huser, trivial⟩, rfl⟩
          simp [ShellPoint.session, asksAfter, haccepted]
  | encCryptAgain buf =>
      simp only [encStatement]
      split
      · exact ⟨⟨rfl, hframes, huser, trivial⟩, rfl⟩
      · exact ⟨⟨rfl, hframes, huser, trivial⟩, rfl⟩
  | encKeep buf | encCompare buf =>
      exact ⟨⟨rfl, hframes, huser, trivial⟩, rfl⟩
  | encCopy buf =>
      exact ⟨(fits_sayAll _).mpr ⟨rfl, hframes, huser, trivial⟩, rfl⟩
  | login | say | read | run | encRead | encReadAgain | debugger | astray | saveGid
  | becomeRoot | becomeRootGroup | callShell | restoreUid | restoreGid | exit =>
      exact ⟨hkept, rfl⟩

/-- Assigning the credentials of the running task. -/
theorem setUser_follows {f : Task → Task}
    (hinv : SchedInv k)
    (hstatus : ∀ t, (f t).status = t.status ∧ (f t).paused = t.paused ∧ (f t).tty = t.tty)
    (hread : sessionAfter img.passSaver lines s'.lines A)
    (hfits : Fits img.passSaver a d s'.point A s'.frames ((f k.current).uid, (f k.current).gid)) :
    SchedInv (k.modifyTask k.currentTask f) ∧
      ((k.modifyTask k.currentTask f).tasks k.currentTask).tty = k.current.tty ∧
      ShellProgress img.passSaver lines s'
        ((k.modifyTask k.currentTask f).tasks k.currentTask) := by
  have htask : (k.modifyTask k.currentTask f).tasks k.currentTask = f k.current := by
    rw [Kernel.modifyTask_tasks, Function.update_self]
    rfl
  rcases hstatus k.current with ⟨hlive, hpaused, htty⟩
  rw [htask]
  refine ⟨modifyCurrent_schedInv hinv ?_, htty, fun _ => ⟨a, d, A, hread, hfits⟩⟩
  rw [Task.Runnable, hlive, hpaused]
  exact hinv.runnable

/-- **What a statement of the shell does.** -/
theorem shellStatement_follows {around : Surroundings}
    (hinv : SchedInv k)
    (htty : k.current.tty.toNat < ttysCap)
    (hprogress : ShellProgress img.passSaver lines s k.current)
    (h : shellStatement img around regs k s = .ok (k', s')) :
    SchedInv k' ∧ (k'.tasks k.currentTask).tty = k.current.tty ∧
      ShellProgress img.passSaver lines s' (k'.tasks k.currentTask) := by
  have hkeeps : Undisturbed k.currentTask k k' ∧
      ShellProgress img.passSaver lines s' (k'.tasks k.currentTask) →
      SchedInv k' ∧ (k'.tasks k.currentTask).tty = k.current.tty ∧
        ShellProgress img.passSaver lines s' (k'.tasks k.currentTask) :=
    fun hboth => ⟨hboth.1.sched, hboth.1.tty, hboth.2⟩
  have hsame : Undisturbed k.currentTask k k := undisturbed_of_tasks hinv rfl
  have hcall : ∀ w k', readCall k regs w = .ok k' → Undisturbed k.currentTask k k' :=
    fun _ _ => undisturbed_readCall hinv
  by_cases hastray : s.point = .astray
  · rw [shellStatement, hastray] at h
    cases h
    exact ⟨hinv, rfl, fun hpoint => absurd hastray hpoint⟩
  rcases hprogress hastray with ⟨a, d, A, hread, hfits⟩
  have hfound := hfits
  rcases hfound with ⟨hsession, hframes, huser, hsaved⟩
  unfold shellStatement at h
  generalize hpoint : s.point = p at h hsession hframes huser hsaved
  cases p with
  | login p =>
      exact hsaved.elim
  | say text next =>
      cases h
      rw [hpoint] at hfits
      exact hkeeps (undisturbed_follows (undisturbed_printf hinv text) hread (fits_say.mp hfits))
  | read =>
      refine hkeeps (readLine_follows hinv htty hcall hread hfits ?_ h)
      intro line
      rw [hsession, hframes, huser]
      exact fits_dispatch line img.passSaver a d
  | run c =>
      rw [hpoint] at hfits
      exact hkeeps (runCommand_follows hinv hread hpoint hfits h)
  | encRead =>
      refine hkeeps (readLine_follows hinv htty hcall hread hfits ?_ h)
      intro line
      have hline : CString.stringIn line.buf 512 0 = editLine 511 line.keys := lineIn_eq line
      rw [hsession, hframes, huser, hline]
      exact fits_encEntered line img.passSaver a d
  | encReadAgain =>
      refine hkeeps (readLine_follows hinv htty hcall hread hfits ?_ h)
      intro line
      rw [hsession, hframes, huser]
      exact fits_encEnteredAgain img.passSaver a d _
  | encCrypt buf | encKeep buf | encCryptAgain buf | encCopy buf | encCompare buf =>
      cases h
      rcases encStatement_follows hfits with ⟨hnext, hlines⟩
      refine hkeeps (undisturbed_follows hsame ?_ hnext)
      rw [hlines]
      exact hread
  | debugger entry now =>
      refine hkeeps (readLine_follows hinv htty ?_ hread hfits ?_ h)
      · rintro w k₁ ⟨⟩
        exact undisturbed_ttyCall hinv _ w
      · intro line
        rw [hsession, hframes, huser]
        exact fits_debuggerNext line img.passSaver a d entry _ now
  | astray =>
      exact absurd hpoint hastray
  | saveGid oldUid =>
      cases h
      have hgid : k.current.gid = (credentials a d).2 := congrArg Prod.snd huser
      exact hkeeps (undisturbed_follows hsame hread
        ⟨hsession, hframes, huser, Prod.ext hsaved hgid⟩)
  | becomeRoot oldUid oldGid =>
      cases h
      have hgid : k.current.gid = (credentials a d).2 := congrArg Prod.snd huser
      exact setUser_follows hinv (fun _ => ⟨rfl, rfl, rfl⟩) hread
        ⟨hsession, hframes, Prod.ext rfl hgid, hsaved⟩
  | becomeRootGroup oldUid oldGid =>
      cases h
      have huid : k.current.uid = 0 := congrArg Prod.fst huser
      exact setUser_follows hinv (fun _ => ⟨rfl, rfl, rfl⟩) hread
        ⟨hsession, hframes, Prod.ext huid rfl, hsaved⟩
  | callShell oldUid oldGid =>
      dsimp only at h
      split at h
      · cases h
        refine hkeeps (undisturbed_follows (d := d + 1) hsame hread ⟨hsession, ?_, huser, trivial⟩)
        exact congrArg₂ List.cons hsaved hframes
      · cases h
        exact ⟨hinv, rfl, fun hpoint => absurd rfl hpoint⟩
  | restoreUid =>
      cases h
      have huid : (s.frames.headD (0, 0)).1 = (credentials a d).1 := by
        rw [hframes]
        rfl
      have hgid : k.current.gid = 0 := congrArg Prod.snd huser
      exact setUser_follows hinv (fun _ => ⟨rfl, rfl, rfl⟩) hread
        ⟨hsession, hframes, Prod.ext huid hgid, trivial⟩
  | restoreGid =>
      cases h
      have huid : k.current.uid = (credentials a d).1 := congrArg Prod.fst huser
      have hgid : (s.frames.headD (0, 0)).2 = (credentials a d).2 := by
        rw [hframes]
        rfl
      exact setUser_follows hinv (fun _ => ⟨rfl, rfl, rfl⟩) hread
        ⟨hsession, congrArg List.tail hframes, Prod.ext huid hgid, trivial⟩
  | exit =>
      rcases map_eq_ok.mp h with ⟨⟨k₁, regs₁⟩, hexit, heq⟩
      cases heq
      exact hkeeps (undisturbed_follows (undisturbed_syscall hinv
        (show (1 : Word) ≠ 7 by decide) (show (1 : Word) ≠ 8 by decide) hexit) hread hfits)

end Shell

end Klyx
