import Klyx.Kernel.Shell

/-!
# What a terminal session may do

`Session` says what the program of a terminal is for: somebody logs in, and the lines
that follow are commands, passwords or lines for the debugger.  The credentials depend on
the account and on the number of shells that `su` has entered only.

`Fits` says where the program may be in such a session: which frames are waiting then,
which credentials the task has, and what `su` has saved.

**Results.**
* `fits_dispatch`: a line that is taken for a command.
* `fits_encEntered`, `fits_encEnteredAgain`: passwords.
* `fits_debuggerNext`: a line for the debugger.
-/

namespace Klyx

/-! ### The session -/

/-- What a line that is typed into a shell will be taken for. -/
inductive Asks where
  | command
  | password
  | again
  | debugger
  /-- No more lines are read. -/
  | nothing
deriving DecidableEq

/-- A session as it is seen from outside. -/
inductive Session where
  | loggingIn
  /-- Somebody has logged in, and has entered `depth` shells by `su`. -/
  | shell (a : Account) (depth : Nat) (asks : Asks)
deriving DecidableEq

/-- The command that a line names, if any. -/
def TypedLine.command (line : TypedLine) : Option ShellCommand :=
  ShellCommand.all.find? (fun c => editLine 511 line.keys = c.name)

/-- The end of the innermost shell. -/
def Session.leave (a : Account) : Nat → Session
  | 0 => .shell a 0 .nothing
  | depth + 1 => .shell a depth .command

/-- A command has been named. -/
def Session.obey (a : Account) (depth : Nat) : Option ShellCommand → Session
  | some .su => .shell a (depth + 1) .command
  | some .exit => .leave a depth
  | some .enc => .shell a depth .password
  | some .kdbg => .shell a depth .debugger
  | some .ud => .shell a depth .nothing
  | _ => .shell a depth .command

/-- What `enc` asks for after the first password: `crypt` refuses a key of one character
and an empty text. -/
def asksAfter (passSaver password : List Byte) : Asks :=
  if 2 ≤ password.length ∧ passSaver ≠ [] then .again else .command

/-- The session after another line. -/
def Session.next (passSaver : List Byte) : Session → TypedLine → Session
  | .loggingIn, line =>
      match line.account with
      | some a => .shell a 0 .command
      | none => .loggingIn
  | .shell a depth .command, line => .obey a depth line.command
  | .shell a depth .password, line =>
      .shell a depth (asksAfter passSaver (editLine 511 line.keys))
  | .shell a depth .again, _ => .shell a depth .command
  | .shell a depth .debugger, line =>
      if editLine 511 line.keys = ShellCommand.cont.name then .shell a depth .command
      else .shell a depth .debugger
  | .shell a depth .nothing, _ => .shell a depth .nothing

/-- The credentials in a shell: those of the account outside of all `su`, and root inside. -/
def credentials (a : Account) : Nat → Word × Word
  | 0 => (a.id, 0)
  | _ + 1 => (0, 0)

/-- What the shells around one at some depth have saved. -/
def framesOf (a : Account) : Nat → List (Word × Word)
  | 0 => []
  | depth + 1 => credentials a depth :: framesOf a depth

/-! ### What each statement finds -/

/-- The session that a statement belongs to, in a shell at depth `d`. -/
def ShellPoint.session (passSaver : List Byte) (a : Account) (d : Nat) : ShellPoint → Session
  | .login _ => .loggingIn
  | .say _ next => next.session passSaver a d
  | .read | .encCryptAgain _ | .encCopy _ | .encCompare _ | .astray | .restoreUid
  | .restoreGid => .shell a d .command
  | .run c => .obey a d (some c)
  | .encRead => .shell a d .password
  | .encCrypt buf => .shell a d (asksAfter passSaver buf)
  | .encKeep _ | .encReadAgain => .shell a d .again
  | .debugger _ _ => .shell a d .debugger
  | .saveGid _ | .becomeRoot _ _ | .becomeRootGroup _ _ | .callShell _ _ =>
      .shell a (d + 1) .command
  | .exit => .shell a d .nothing

/-- The frames that are waiting.  The one of `su` still is until the credentials are put
back. -/
def ShellPoint.frames (a : Account) (d : Nat) : ShellPoint → List (Word × Word)
  | .say _ next => next.frames a d
  | .restoreUid | .restoreGid => framesOf a (d + 1)
  | _ => framesOf a d

/-- The credentials that the task has. -/
def ShellPoint.credentials (a : Account) (d : Nat) : ShellPoint → Word × Word
  | .say _ next => next.credentials a d
  | .becomeRootGroup _ _ => (0, (Klyx.credentials a d).2)
  | .callShell _ _ | .restoreUid => (0, 0)
  | .restoreGid => ((Klyx.credentials a d).1, 0)
  | _ => Klyx.credentials a d

/-- What `su` has saved so far. -/
def ShellPoint.Saved (a : Account) (d : Nat) : ShellPoint → Prop
  | .login _ => False
  | .say _ next => next.Saved a d
  | .saveGid oldUid => oldUid = (Klyx.credentials a d).1
  | .becomeRoot oldUid oldGid | .becomeRootGroup oldUid oldGid | .callShell oldUid oldGid =>
      (oldUid, oldGid) = Klyx.credentials a d
  | .exit => d = 0
  | _ => True

/-- A statement in a shell at depth `d`, where it belongs. -/
structure Fits (passSaver : List Byte) (a : Account) (d : Nat) (p : ShellPoint) (A : Session)
    (frames : List (Word × Word)) (user : Word × Word) : Prop where
  session : A = p.session passSaver a d
  frames : frames = p.frames a d
  user : user = p.credentials a d
  saved : p.Saved a d

section Fits

variable {passSaver : List Byte} {a : Account} {d : Nat} {p : ShellPoint} {A : Session}
  {frames : List (Word × Word)} {user : Word × Word} {text : String}

@[simp] theorem fits_say :
    Fits passSaver a d (.say text p) A frames user ↔ Fits passSaver a d p A frames user :=
  ⟨fun ⟨h₁, h₂, h₃, h₄⟩ => ⟨h₁, h₂, h₃, h₄⟩, fun ⟨h₁, h₂, h₃, h₄⟩ => ⟨h₁, h₂, h₃, h₄⟩⟩

@[simp] theorem fits_sayAll (texts : List String) :
    Fits passSaver a d (.sayAll texts p) A frames user ↔ Fits passSaver a d p A frames user := by
  induction texts with
  | nil =>
      rfl
  | cons text texts ih =>
      exact fits_say.trans ih

theorem fits_cend :
    Fits passSaver a d .cend (.shell a d .command) (framesOf a d) (credentials a d) :=
  ⟨rfl, rfl, rfl, trivial⟩

end Fits

/-! ### The lines -/

section Lines

variable (line : TypedLine)

theorem command_name_ne_zero (c : ShellCommand) :
    ∀ b ∈ c.name, b ≠ 0 := by
  cases c <;> simp [ShellCommand.name]

theorem strcmp_typed_iff (c : ShellCommand) :
    strcmp line.buf c.name = 0 ↔ editLine 511 line.keys = c.name := by
  rcases typed_buf_eq line with ⟨l, hbuf, hholds⟩
  rw [hbuf]
  exact strcmp_eq_zero_iff hholds (typed_ne_zero line) (command_name_ne_zero c)

theorem typed_buf_zero_iff :
    line.buf 0 = 0 ↔ editLine 511 line.keys = [] := by
  rcases typed_buf_eq line with ⟨l, hbuf, hholds⟩
  have hchars := typed_ne_zero line
  rw [hbuf, hholds.buf]
  cases htext : editLine 511 line.keys with
  | nil =>
      simp
  | cons c text =>
      rw [htext] at hchars
      simpa using hchars c List.mem_cons_self

/-- An empty line names no command. -/
theorem command_of_empty
    (h : editLine 511 line.keys = []) :
    line.command = none := by
  unfold TypedLine.command
  rw [h]
  decide

/-- The comparisons find the command that the line names. -/
theorem fits_dispatch (passSaver : List Byte) (a : Account) (d : Nat) :
    Fits passSaver a d (dispatch line.buf) (.obey a d line.command) (framesOf a d)
      (credentials a d) := by
  unfold dispatch
  by_cases hempty : line.buf 0 = 0
  · rw [if_pos hempty, command_of_empty line ((typed_buf_zero_iff line).mp hempty)]
    exact fits_cend
  · rw [if_neg hempty]
    have hfind : ShellCommand.all.find? (fun c => strcmp line.buf c.name = 0) = line.command := by
      simp only [strcmp_typed_iff]
      rfl
    rw [hfind]
    cases line.command with
    | none =>
        exact fits_say.mpr fits_cend
    | some c =>
        exact ⟨rfl, rfl, rfl, trivial⟩

/-- The first password. -/
theorem fits_encEntered (passSaver : List Byte) (a : Account) (d : Nat) :
    Fits passSaver a d (encEntered (editLine 511 line.keys))
      (.shell a d (asksAfter passSaver (editLine 511 line.keys))) (framesOf a d)
      (credentials a d) := by
  unfold encEntered
  split
  · rename_i hempty
    simpa [asksAfter, hempty] using fits_cend
  · exact ⟨rfl, rfl, rfl, trivial⟩

/-- The second password. -/
theorem fits_encEnteredAgain (passSaver : List Byte) (a : Account) (d : Nat) (buf : List Byte) :
    Fits passSaver a d (encEnteredAgain buf) (.shell a d .command) (framesOf a d)
      (credentials a d) := by
  unfold encEnteredAgain
  split
  · exact fits_cend
  · exact ⟨rfl, rfl, rfl, trivial⟩

/-- One line ends the debugger console. -/
theorem debuggerLine_goOn (mem : Word → Word) (regs : IntRegs) :
    (debuggerLine mem regs line.buf).goOn = true ↔
      editLine 511 line.keys ≠ ShellCommand.cont.name := by
  have hhelp := strcmp_typed_iff line .help
  have hcont := strcmp_typed_iff line .cont
  have hempty := typed_buf_zero_iff line
  simp only [ShellCommand.name] at hhelp hcont ⊢
  unfold debuggerLine
  simp only [hhelp, hcont, hempty]
  by_cases h : editLine 511 line.keys = [99, 111, 110, 116]
  -- `cont` is not empty and not `help`
  · simp [h]
  · simp only [h, if_false, ne_eq, not_false_iff, iff_true]
    split
    · rfl
    split
    · rfl
    split
    · rfl
    split
    · split <;> rfl
    · split <;> rfl

/-- A line for the debugger console. -/
theorem fits_debuggerNext (passSaver : List Byte) (a : Account) (d : Nat) (entry : IntRegs)
    (mem : Word → Word) (regs : IntRegs) :
    Fits passSaver a d (debuggerNext entry (debuggerLine mem regs line.buf))
      (Session.next passSaver (.shell a d .debugger) line) (framesOf a d) (credentials a d) := by
  have hgoes := debuggerLine_goOn line mem regs
  simp only [debuggerNext, Session.next]
  by_cases hcont : editLine 511 line.keys = ShellCommand.cont.name
  · rw [if_pos hcont, if_neg (by rw [hgoes]; exact not_not.mpr hcont)]
    split
    · exact fits_cend
    · exact ⟨rfl, rfl, rfl, trivial⟩
  · rw [if_neg hcont, if_pos (hgoes.mpr hcont)]
    exact (fits_sayAll _).mpr ⟨rfl, rfl, rfl, trivial⟩

end Lines

end Klyx
