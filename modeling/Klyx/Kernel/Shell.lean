import Klyx.Kernel.Debugger
import Klyx.Kernel.EncCommand

/-!
# The program of a terminal

`test_a` of `kernel/test.c` logs in, runs a shell, and ends its task.  The shell
compares a line with the names of sixteen commands.  `su` stores the credentials
of the task in its own frame, becomes root by assigning to the task table, and
calls the shell once more; when that one returns, the credentials are put back.

`testA` makes one statement of this program in a turn of its own.  The frames of
the calls that are waiting for an inner shell are a list, of at most `suDepth`
elements, because the stack of a task has no room for many more.  The assembly of `ud`
raises a fault and is met again if the task survives it; `kdbg` enters the
debugger console.  What a statement finds around it, such as the static buffers
that all tasks share, comes from outside.
-/

namespace Klyx

/-- The commands of the shell, in the order of their comparisons. -/
inductive ShellCommand where
  | help | ud | exit | kill | stop | cont | uid | gid | pid | uname | fib | time | enc
  | strcpy | kdbg | su
deriving DecidableEq

namespace ShellCommand

def all : List ShellCommand :=
  [help, ud, exit, kill, stop, cont, uid, gid, pid, uname, fib, time, enc, strcpy, kdbg, su]

/-- What the line is compared with, in ASCII. -/
def name : ShellCommand → List Byte
  | help => [104, 101, 108, 112]
  | ud => [117, 100]
  | exit => [101, 120, 105, 116]
  | kill => [107, 105, 108, 108]
  | stop => [115, 116, 111, 112]
  | cont => [99, 111, 110, 116]
  | uid => [117, 105, 100]
  | gid => [103, 105, 100]
  | pid => [112, 105, 100]
  | uname => [117, 110, 97, 109, 101]
  | fib => [102, 105, 98]
  | time => [116, 105, 109, 101]
  | enc => [101, 110, 99]
  | strcpy => [115, 116, 114, 99, 112, 121]
  | kdbg => [107, 100, 98, 103]
  | su => [115, 117]

end ShellCommand

/-- How many shells may wait for an inner one.  A frame of `shell` has the arrays `buf`
and `osname`; with one more frame and 2048 bytes for handlers and library functions
that many fit on the stack of a task. -/
def suDepth : Nat := 4

example : (suDepth + 1) * (512 + 5 * utsnameNameCap) + 2048 ≤ taskStackCap := by decide

/-- The next statement of `test_a`. -/
inductive ShellPoint where
  | login (p : LoginPoint)
  | say (text : String) (next : ShellPoint)
  | read
  | run (c : ShellCommand)
  | encRead
  | encCrypt (buf : List Byte)
  | encKeep (buf : List Byte)
  | encReadAgain
  | encCryptAgain (buf : List Byte)
  | encCopy (buf : List Byte)
  | encCompare (buf : List Byte)
  | debugger (entry regs : IntRegs)
  /-- The debugger console has changed registers under the compiled program, or its
  frames may no longer fit on the stack. -/
  | astray
  | saveGid (oldUid : Word)
  | becomeRoot (oldUid oldGid : Word)
  | becomeRootGroup (oldUid oldGid : Word)
  | callShell (oldUid oldGid : Word)
  | restoreUid
  | restoreGid
  | exit
deriving DecidableEq

/-- What a statement finds around it. -/
structure Surroundings where
  /-- What other tasks have done to the static buffers. -/
  statics : EncStatics → EncStatics
  /-- The result of `time`. -/
  time : Word
  /-- The words of the memory. -/
  mem : Word → Word

/-- Nothing has happened. -/
def Surroundings.quiet : Surroundings where
  statics := id
  time := 0
  mem := fun _ => 0

/-- `test_a` at some statement. -/
structure ShellState where
  point : ShellPoint
  /-- `old_uid` and `old_gid` of the calls that wait for a shell, innermost first. -/
  frames : List (Word × Word)
  /-- The lines that will still be typed. -/
  lines : List TypedLine
  statics : EncStatics
  around : List Surroundings

/-- What the program gets from its build: the text of `pass_saver.inc`, the address of
`encp` and the version in `osname`. -/
structure ShellImage where
  passSaver : List Byte
  encpAddr : Word
  version : String

/-- Characters as a text. -/
def textOf (s : List Byte) : String :=
  String.ofList (s.map (fun c => Char.ofNat c.toNat))

/-- The start of the loop of `shell`. -/
def ShellPoint.prompt : ShellPoint :=
  .say "$ " .read

/-- From the label `cend` on. -/
def ShellPoint.cend : ShellPoint :=
  .say "\n" .prompt

/-- Print texts and go on. -/
def ShellPoint.sayAll (texts : List String) (next : ShellPoint) : ShellPoint :=
  texts.foldr .say next

/-- The chain of comparisons on the line in `buf`. -/
def dispatch (buf : Nat → Byte) : ShellPoint :=
  if buf 0 = 0 then .cend
  else
    match ShellCommand.all.find? (fun c => strcmp buf c.name = 0) with
    | some c => .run c
    | none =>
        .say ("Unknown command: `" ++ textOf (CString.stringIn buf 512 0) ++ "`\n") .cend

/-- What `help` prints. -/
def shellHelp : String :=
  "List of commands:\n" ++ "\thelp ud exit uname time\n" ++ "\tfib enc strcpy kdbg\n" ++
  "\tkill stop cont pid\n" ++ "\tuid gid su\n" ++ "Kernel info:\n" ++
  "\tF1-F4 - switch to TTY\n" ++ "\tSource code: https://github.com/Kolya142/klyx\n" ++
  "\tLicense: GNU GPL2.0\n"

/-- The loop of `fib`, for some rounds at most. -/
def fibLoop : Nat → Int → Int → List String
  | 0, _, _ => []
  | n + 1, a, b => if a < 100 then (toString a ++ "\n") :: fibLoop n (a + b) a else []

/-- Ten rounds are enough. -/
example : fibLoop 11 1 1 = fibLoop 10 1 1 := by decide

/-- A system call, whose result decides how to go on. -/
def shellCall (k : Kernel) (regs : IntRegs) (s : ShellState) (next : IntRegs → ShellPoint) :
    Exec (Kernel × ShellState) :=
  (syscallHandlerImpl k regs 0).map (fun r => (r.1, { s with point := next r.2 }))

/-- `kill(3, sig)`. -/
def shellKill (k : Kernel) (regs : IntRegs) (s : ShellState) (sig : Sig) :
    Exec (Kernel × ShellState) :=
  shellCall k { regs with eax := 12, ebx := 3, ecx := sig.setWidth 32 } s
    (fun _ => .say "check tty2\n" .cend)

/-- The first statement of a command.  The video memory that `strcpy` writes to is no part
of the kernel's state. -/
def runCommand (img : ShellImage) (around : Surroundings) (regs : IntRegs) (k : Kernel)
    (s : ShellState) : ShellCommand → Exec (Kernel × ShellState)
  | .help => .ok (k.printf shellHelp, { s with point := .cend })
  | .ud => (x86ErrorTrap k regs "invalid opcode" sigill).map (fun r => (r.1, s))
  | .exit => .ok (k, { s with point := if s.frames = [] then .exit else .restoreUid })
  | .kill => shellKill k regs s sigkill
  | .stop => shellKill k regs s sigstop
  | .cont => shellKill k regs s sigcont
  | .uid => shellCall k { regs with eax := 9 } s
      (fun r => .say ("UID: " ++ toString r.eax.toInt ++ "\n") .cend)
  | .gid => shellCall k { regs with eax := 10 } s
      (fun r => .say ("GID: " ++ toString r.eax.toInt ++ "\n") .cend)
  | .pid => shellCall k { regs with eax := 11 } s
      (fun r => .say ("PID: " ++ toString r.eax.toInt ++ "\n") .cend)
  | .uname => shellCall k { regs with eax := 5 } s
      (fun _ => .say ("Kernel version: " ++ img.version ++ "\n") .cend)
  | .fib => .ok (k, { s with point := .sayAll (fibLoop 10 1 1) .cend })
  | .time => shellCall k { regs with eax := 6 } s
      (fun _ => .say (toString around.time.toInt ++ "\n") .cend)
  | .enc => .ok (k, { s with point := .say "Enter a password: " .encRead })
  | .strcpy => .ok (k, { s with point := .cend })
  | .kdbg =>
      .ok (k.printf ("\n\nDEBUG TRAP:\n" ++ regs.report ++ "Entering debugger console..\n"),
        { s with point := .say "DBG$ " (.debugger regs regs) })
  | .su => .ok (k, { s with point := .saveGid k.current.uid })

/-- `tty_read` into a buffer that was filled with zeros, by `call`.  Without a terminal it
returns at once; without a line it waits. -/
def readLine (call : Word → Exec Kernel) (k : Kernel) (s : ShellState)
    (next : (Nat → Byte) → ShellPoint) : Exec (Kernel × ShellState) :=
  if k.current.tty.toNat < ttysCap then
    match s.lines with
    | [] => .ok (k, s)
    | line :: lines =>
        match ttyRead 511 LineBuf.zeroed (line.keys ++ [10]) with
        | none => .ok (k, s)
        | some (l, _) =>
            (call (BitVec.ofNat 32 l.textCur)).map
              (fun k' => (k', { s with point := next l.buf, lines := lines }))
  else (call 0).map (fun k' => (k', { s with point := next LineBuf.zeroed.buf }))

/-- The system call. -/
def readCall (k : Kernel) (regs : IntRegs) (line : Word) : Exec Kernel :=
  (syscallHandlerImpl k { regs with eax := 3, ecx := 511 } line).map Prod.fst

/-- `enc`, from the first password on. -/
def encEntered (buf : List Byte) : ShellPoint :=
  if buf = [] then .cend else .say "crypt() work. please wait...\n" (.encCrypt buf)

/-- `enc`, from the second password on. -/
def encEnteredAgain (buf : List Byte) : ShellPoint :=
  if buf = [] then .cend else .encCryptAgain buf

/-- The debugger console after a line. -/
def debuggerNext (entry : IntRegs) (r : DebuggerResult) : ShellPoint :=
  if r.goOn then .sayAll r.out (.say "DBG$ " (.debugger entry r.regs))
  else if r.regs = entry then .cend
  else .astray

/-- The statements on the static buffers. -/
def encStatement (img : ShellImage) (s : ShellState) : ShellState :=
  match s.point with
  | .encCrypt buf =>
      match crypt s.statics.enc (some img.passSaver) (some buf) with
      | none => { s with point := .cend }
      | some enc =>
          { s with point := .say (hexPadded 8 img.encpAddr ++ "\n") (.encKeep buf)
                   statics := { s.statics with enc := enc } }
  | .encKeep buf =>
      { s with point := .say "Enter the same password: " .encReadAgain
               statics := { s.statics with encp := keepPassword s.statics.encp s.statics.enc buf } }
  | .encCryptAgain buf =>
      match crypt s.statics.enc (some buf) (some (CString.stringIn s.statics.encp 8192 0)) with
      | none => { s with point := .cend }
      | some enc =>
          { s with point := .encCopy buf
                   statics := { s.statics with enc := enc } }
  | .encCopy buf =>
      { s with point := .sayAll ["crypt() work. please wait...\n", toString buf.length ++ ".\n"]
                 (.encCompare buf)
               statics := { s.statics with
                 encp := strcpy s.statics.encp 0 (CString.stringIn s.statics.enc 8193 0) } }
  | .encCompare buf =>
      let same := if strcmpMem s.statics.encp buf 0 ≠ 0 then "not " else ""
      { s with point := .say ("Passwords are " ++ same ++ "the same.\n") .cend }
  | _ => s

/-- The statements of `test_a`. -/
def shellStatement (img : ShellImage) (around : Surroundings) (regs : IntRegs) (k : Kernel)
    (s : ShellState) : Exec (Kernel × ShellState) :=
  match s.point with
  | .login .returned => .ok (k, { s with point := .prompt })
  | .login p =>
      (login regs k ⟨p, s.lines⟩).map
        (fun r => (r.1, { s with point := .login r.2.point, lines := r.2.lines }))
  | .say text next => .ok (k.printf text, { s with point := next })
  | .read => readLine (readCall k regs) k s dispatch
  | .run c => runCommand img around regs k s c
  | .encRead => readLine (readCall k regs) k s
      (fun buf => encEntered (CString.stringIn buf 512 0))
  | .encReadAgain => readLine (readCall k regs) k s
      (fun buf => encEnteredAgain (CString.stringIn buf 512 0))
  | .encCrypt _ | .encKeep _ | .encCryptAgain _ | .encCopy _ | .encCompare _ =>
      .ok (k, encStatement img s)
  | .debugger entry now =>
      readLine (fun line => .ok (ttyCall k k.current.tty line).1) k s
        (fun buf => debuggerNext entry (debuggerLine around.mem now buf))
  | .astray => .ok (k, s)
  | .saveGid oldUid => .ok (k, { s with point := .becomeRoot oldUid k.current.gid })
  | .becomeRoot oldUid oldGid =>
      .ok (k.modifyTask k.currentTask (fun t => { t with uid := 0 }),
        { s with point := .becomeRootGroup oldUid oldGid })
  | .becomeRootGroup oldUid oldGid =>
      .ok (k.modifyTask k.currentTask (fun t => { t with gid := 0 }),
        { s with point := .callShell oldUid oldGid })
  | .callShell oldUid oldGid =>
      if s.frames.length < suDepth then
        .ok (k, { s with point := .prompt, frames := (oldUid, oldGid) :: s.frames })
      else .ok (k, { s with point := .astray })
  | .restoreUid =>
      let uid := (s.frames.headD (0, 0)).1
      .ok (k.modifyTask k.currentTask (fun t => { t with uid := uid }),
        { s with point := .restoreGid })
  | .restoreGid =>
      let gid := (s.frames.headD (0, 0)).2
      .ok (k.modifyTask k.currentTask (fun t => { t with gid := gid }),
        { s with point := .cend, frames := s.frames.tail })
  | .exit => (syscallHandlerImpl k { regs with eax := 1 } 0).map (fun r => (r.1, s))

/-- `test_a`, one statement at a time. -/
def testA (img : ShellImage) (regs : IntRegs) (k : Kernel) (s : ShellState) :
    Exec (Kernel × ShellState) :=
  let around := s.around.headD .quiet
  shellStatement img around regs k
    { s with statics := around.statics s.statics, around := s.around.tail }

/-- `test_a` before its first statement. -/
def ShellState.start (lines : List TypedLine) (around : List Surroundings) : ShellState where
  point := .login .getuid
  frames := []
  lines := lines
  statics := .zero
  around := around

end Klyx
