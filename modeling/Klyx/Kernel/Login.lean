import Klyx.Kernel.LineEditor
import Klyx.Kernel.UserTask
import Klyx.Lib.CString
import Mathlib.Data.BitVec

/-!
# Login

`login` reads lines until one of them names an account, and then gives up the
privileges of root by two system calls.  The user number goes first; after it
the task is no longer root, so the call that sets the group number is refused
and the task keeps group 0.

`LoginInv` follows the credentials from one call to the next.  Other tasks may
run in between; they cannot change them.
-/

namespace Klyx

open HaltingRun

/-- The accounts that `login` knows. -/
inductive Account where
  | root
  | alice
  | bob
  | eva
deriving DecidableEq

/-- What is typed to log in: the name in ASCII. -/
def Account.name : Account → List Byte
  | .root => [114, 111, 111, 116]
  | .alice => [97, 108, 105, 99, 101]
  | .bob => [98, 111, 98]
  | .eva => [101, 118, 97]

/-- The user number, which is also the group number. -/
def Account.id : Account → Word
  | .root => 0
  | .alice => 1001
  | .bob => 1002
  | .eva => 1000

/-- The keys typed before Enter, which the terminal delivers as characters
below 128 or as negative control codes. -/
structure TypedLine where
  keys : List Int
  enter_free : 10 ∉ keys
  ascii : ∀ res ∈ keys, res < 128
deriving DecidableEq

/-- A buffer that was filled with zeros, after `tty_read` has put the line there. -/
def TypedLine.buf (line : TypedLine) : Nat → Byte :=
  match ttyRead 511 LineBuf.zeroed (line.keys ++ [10]) with
  | none => LineBuf.zeroed.buf
  | some (l, _) => l.buf

/-- The next statement of `login`. -/
inductive LoginPoint where
  | getuid
  | getgid
  | refuse
  | prompt
  | read
  | setuid (a : Account)
  | setgid (a : Account)
  | returned
deriving DecidableEq

/-- `login` at some statement, with lines that will still be typed. -/
structure LoginState where
  point : LoginPoint
  lines : List TypedLine
deriving DecidableEq

/-- The chain of comparisons on the line in `buf`. -/
def compareLine (buf : Nat → Byte) : LoginPoint :=
  if strcmp buf Account.root.name = 0 then .returned
  else if strcmp buf Account.alice.name = 0 then .setuid .alice
  else if strcmp buf Account.bob.name = 0 then .setuid .bob
  else if strcmp buf Account.eva.name = 0 then .setuid .eva
  else .prompt

/-- `login`, one statement at a time.  Without a terminal `tty_read` returns at
once and leaves the buffer zeroed; without a line it waits. -/
def login (regs : IntRegs) (k : Kernel) (s : LoginState) : Exec (Kernel × LoginState) :=
  match s.point with
  | .getuid =>
      (syscallHandlerImpl k { regs with eax := 9 } 0).map
        (fun (r : Kernel × IntRegs) =>
          (r.1, { s with point := if r.2.eax ≠ 0 then .refuse else .getgid }))
  | .getgid =>
      (syscallHandlerImpl k { regs with eax := 10 } 0).map
        (fun (r : Kernel × IntRegs) =>
          (r.1, { s with point := if r.2.eax ≠ 0 then .refuse else .prompt }))
  | .refuse =>
      .ok (k.printf "login: login must be runned as root\n", { s with point := .returned })
  | .prompt =>
      .ok (k.printf ("You need to login first.\n" ++
        "Avaliable accounts: root alice bob eva.\n" ++ "Login: "), { s with point := .read })
  | .read =>
      if k.current.tty.toNat < ttysCap then
        match s.lines with
        | [] => .ok (k, s)
        | line :: lines =>
            match ttyRead 511 LineBuf.zeroed (line.keys ++ [10]) with
            | none => .ok (k, s)
            | some (l, _) =>
                (syscallHandlerImpl k { regs with eax := 3, ecx := 511 }
                  (BitVec.ofNat 32 l.textCur)).map
                  (fun r => (r.1, ⟨compareLine l.buf, lines⟩))
      else
        (syscallHandlerImpl k { regs with eax := 3, ecx := 511 } 0).map
          (fun r => (r.1, { s with point := compareLine LineBuf.zeroed.buf }))
  | .setuid a =>
      (syscallHandlerImpl k { regs with eax := 7, ebx := a.id } 0).map
        (fun r => (r.1, { s with point := .setgid a }))
  | .setgid a =>
      (syscallHandlerImpl k { regs with eax := 8, ebx := a.id } 0).map
        (fun r => (r.1, { s with point := .returned }))
  | .returned => .ok (k, s)

/-- The account that a line names, if any. -/
def TypedLine.account (line : TypedLine) : Option Account :=
  [.root, .alice, .bob, .eva].find? (fun a => editLine 511 line.keys = a.name)

/-- The first account named, and the lines that follow it. -/
def firstAccount : List TypedLine → Option (Account × List TypedLine)
  | [] => none
  | line :: lines =>
      match line.account with
      | some a => some (a, lines)
      | none => firstAccount lines

/-- The statement that follows a line. -/
def afterLine : Option Account → LoginPoint
  | none => .prompt
  | some .root => .returned
  | some a => .setuid a

theorem account_name_ne_zero (a : Account) :
    ∀ c ∈ a.name, c ≠ 0 := by
  cases a <;> decide

/-- The line consists of ASCII characters. -/
theorem typed_ascii (line : TypedLine) :
    ∀ c ∈ editLine 511 line.keys, 0 < c.toNat ∧ c.toNat < 128 := by
  refine editLine_forall ?_
  intro res hres hpos
  have hlt := line.ascii res hres
  obtain ⟨n, rfl⟩ := Int.eq_ofNat_of_zero_le (Int.le_of_lt hpos)
  simp
  omega

theorem typed_ne_zero (line : TypedLine) :
    ∀ c ∈ editLine 511 line.keys, c ≠ 0 := by
  rintro c hc rfl
  exact absurd (typed_ascii line 0 hc).1 (Nat.lt_irrefl 0)

theorem typed_buf_eq (line : TypedLine) :
    ∃ l, line.buf = l.buf ∧ Holds l (editLine 511 line.keys) := by
  obtain ⟨l, hread, hholds⟩ := ttyRead_typed 511 line.enter_free []
  refine ⟨l, ?_, hholds⟩
  unfold TypedLine.buf
  rw [hread]

/-- The end of the line, from any index on, is a string in the buffer. -/
theorem typed_buf_isString (line : TypedLine) (i : Nat) :
    CString.IsString line.buf i ((editLine 511 line.keys).drop i) := by
  obtain ⟨l, hbuf, hholds⟩ := typed_buf_eq line
  constructor
  · exact fun c hc => typed_ne_zero line c (List.mem_of_mem_drop hc)
  · intro j _
    rw [hbuf, hholds.buf, List.getD_eq_getElem?_getD, List.getD_eq_getElem?_getD,
      List.getElem?_drop]
  · rw [hbuf, hholds.buf]
    exact List.getD_eq_default _ _ (by rw [List.length_drop]; omega)

/-- The comparisons find the account that the line names. -/
theorem compareLine_typed {l : LineBuf} {line : TypedLine}
    (h : Holds l (editLine 511 line.keys)) :
    compareLine l.buf = afterLine line.account := by
  have hcompare : ∀ a : Account, strcmp l.buf a.name = 0 ↔ editLine 511 line.keys = a.name :=
    fun a => strcmp_eq_zero_iff h (typed_ne_zero line) (account_name_ne_zero a)
  unfold compareLine TypedLine.account
  simp only [hcompare, List.find?_cons, List.find?_nil]
  by_cases hroot : editLine 511 line.keys = Account.root.name
  · simp [eq_true hroot, afterLine]
  by_cases halice : editLine 511 line.keys = Account.alice.name
  · simp [eq_false hroot, eq_true halice, afterLine]
  by_cases hbob : editLine 511 line.keys = Account.bob.name
  · simp [eq_false hroot, eq_false halice, eq_true hbob, afterLine]
  by_cases heva : editLine 511 line.keys = Account.eva.name
  · simp [eq_false hroot, eq_false halice, eq_false hbob, eq_true heva, afterLine]
  · simp [eq_false hroot, eq_false halice, eq_false hbob, eq_false heva, afterLine]

/-- What a statement of `login` finds: the credentials so far, and the account
that decides. -/
def LoginProgress (lines : List TypedLine) (s : LoginState) (uid gid : Word) : Prop :=
  match s.point with
  | .getuid | .getgid | .prompt | .read =>
      uid = 0 ∧ gid = 0 ∧ firstAccount lines = firstAccount s.lines
  | .refuse => False
  | .setuid a => uid = 0 ∧ gid = 0 ∧ a ≠ .root ∧ firstAccount lines = some (a, s.lines)
  | .setgid a => uid = a.id ∧ gid = 0 ∧ a ≠ .root ∧ firstAccount lines = some (a, s.lines)
  | .returned => ∃ a, uid = a.id ∧ gid = 0 ∧ firstAccount lines = some (a, s.lines)

/-- The invariant of a login in slot `pid`. -/
structure LoginInv (pid : Nat) (lines : List TypedLine) (k : Kernel) (s : LoginState) : Prop where
  sched : SchedInv k
  progress : LoginProgress lines s (k.tasks pid).uid (k.tasks pid).gid

section Calls

variable {k : Kernel} {regs : IntRegs} {line : Word}

theorem syscallHandlerImpl_getuid
    (heax : regs.eax = 9) :
    syscallHandlerImpl k regs line = .ok (k, { regs with eax := k.current.uid }) := by
  unfold syscallHandlerImpl
  rw [heax]
  rfl

theorem syscallHandlerImpl_getgid
    (heax : regs.eax = 10) :
    syscallHandlerImpl k regs line = .ok (k, { regs with eax := k.current.gid }) := by
  unfold syscallHandlerImpl
  rw [heax]
  rfl

theorem syscallHandlerImpl_ttyRead (k : Kernel) (regs : IntRegs) (line : Word)
    (heax : regs.eax = 3) :
    ∃ regs', syscallHandlerImpl k regs line =
      .ok ((ttyCall k k.current.tty line).1, regs') := by
  unfold syscallHandlerImpl
  rw [heax]
  exact ⟨_, rfl⟩

/-- Root sets the user number. -/
theorem syscallHandlerImpl_setuid (line : Word)
    (heax : regs.eax = 7)
    (hroot : k.current.uid = 0) :
    ∃ regs', syscallHandlerImpl k regs line =
      .ok (k.modifyTask k.currentTask (fun t => { t with uid := regs.ebx }), regs') := by
  have hcall : syscallHandlerImpl k regs line = .ok (sysSetuid k regs) := by
    unfold syscallHandlerImpl
    rw [heax]
    rfl
  rw [hcall, sysSetuid, if_pos hroot]
  exact ⟨_, rfl⟩

/-- Nobody else sets the group number. -/
theorem syscallHandlerImpl_setgid (line : Word)
    (heax : regs.eax = 8)
    (huser : k.current.uid ≠ 0) :
    ∃ regs', syscallHandlerImpl k regs line = .ok (k, regs') := by
  have hcall : syscallHandlerImpl k regs line = .ok (sysSetgid k regs) := by
    unfold syscallHandlerImpl
    rw [heax]
    rfl
  rw [hcall, sysSetgid, if_neg huser]
  exact ⟨_, rfl⟩

theorem ttyCall_tasks (k : Kernel) (td count : Word) :
    (ttyCall k td count).1.tasks = k.tasks :=
  (moves_ttyCall k td count).tasks

theorem ttyCall_schedInv
    (h : SchedInv k)
    (td count : Word) :
    SchedInv (ttyCall k td count).1 := by
  have hmoves := moves_ttyCall k td count
  obtain ⟨hlt, hrun, hinit, htasking⟩ := h
  refine ⟨?_, ?_, ?_, hmoves.isTaskingAvaliable htasking⟩
  · rw [hmoves.currentTask]
    exact hlt
  · rw [Kernel.current, hmoves.tasks, hmoves.currentTask]
    exact hrun
  · rw [hmoves.tasks]
    exact hinit

theorem setuid_schedInv {uid : Word}
    (h : SchedInv k) :
    SchedInv (k.modifyTask k.currentTask (fun t => { t with uid := uid })) := by
  obtain ⟨hlt, hrun, hinit, htasking⟩ := h
  refine ⟨hlt, ?_, ?_, htasking⟩
  · rw [Kernel.current, Kernel.modifyTask_tasks, Kernel.modifyTask_currentTask,
      Function.update_self]
    exact hrun
  · rw [Kernel.modifyTask_tasks]
    exact update_slot (P := fun t => t.status ≠ .dead) (fun _ => hinit) (fun _ => hrun.1)

theorem printf_schedInv
    (h : SchedInv k)
    (text : String) :
    SchedInv (k.printf text) :=
  ⟨h.currentTask_lt, h.runnable, h.init_live, h.tasking⟩

end Calls

theorem account_id_eq_zero_iff (a : Account) :
    a.id = 0 ↔ a = .root := by
  cases a <;> decide

/-- The line that was read decides how `login` goes on. -/
theorem progress_afterLine {lines rest : List TypedLine} {line : TypedLine} {uid gid : Word}
    (huid : uid = 0)
    (hgid : gid = 0)
    (hfirst : firstAccount lines = firstAccount (line :: rest)) :
    LoginProgress lines ⟨afterLine line.account, rest⟩ uid gid := by
  have hcons : firstAccount (line :: rest) =
      match line.account with
      | some a => some (a, rest)
      | none => firstAccount rest := rfl
  rw [hcons] at hfirst
  cases haccount : line.account with
  | none =>
      rw [haccount] at hfirst
      exact ⟨huid, hgid, hfirst⟩
  | some a =>
      rw [haccount] at hfirst
      cases a with
      | root =>
          exact ⟨.root, huid, hgid, hfirst⟩
      | alice | bob | eva =>
          exact ⟨huid, hgid, by simp, hfirst⟩

section Statements

variable {pid : Nat} {lines : List TypedLine} {k k' : Kernel} {s s' : LoginState}
  {regs : IntRegs}

/-- Every statement of `login` keeps the invariant. -/
theorem LoginInv.statement
    (h : LoginInv pid lines k s)
    (hcur : k.currentTask = pid)
    (hact : login regs k s = .ok (k', s')) :
    LoginInv pid lines k' s' := by
  obtain ⟨hsched, hprogress⟩ := h
  obtain ⟨point, rest⟩ := s
  subst hcur
  cases point with
  | getuid =>
      obtain ⟨huid, hgid, hfirst⟩ := hprogress
      have huid' : k.current.uid = 0 := huid
      simp only [login] at hact
      rw [syscallHandlerImpl_getuid rfl] at hact
      obtain ⟨rfl, rfl⟩ := Prod.mk.inj (Except.ok.inj hact)
      refine ⟨hsched, ?_⟩
      rw [if_neg (not_not.mpr huid')]
      exact ⟨huid, hgid, hfirst⟩
  | getgid =>
      obtain ⟨huid, hgid, hfirst⟩ := hprogress
      have hgid' : k.current.gid = 0 := hgid
      simp only [login] at hact
      rw [syscallHandlerImpl_getgid rfl] at hact
      obtain ⟨rfl, rfl⟩ := Prod.mk.inj (Except.ok.inj hact)
      refine ⟨hsched, ?_⟩
      rw [if_neg (not_not.mpr hgid')]
      exact ⟨huid, hgid, hfirst⟩
  | refuse =>
      exact hprogress.elim
  | prompt =>
      obtain ⟨rfl, rfl⟩ := Prod.mk.inj (Except.ok.inj hact)
      exact ⟨printf_schedInv hsched _, hprogress⟩
  | read =>
      obtain ⟨huid, hgid, hfirst⟩ := hprogress
      simp only [login] at hact
      split at hact
      · cases rest with
        | nil =>
            obtain ⟨rfl, rfl⟩ := Prod.mk.inj (Except.ok.inj hact)
            exact ⟨hsched, huid, hgid, hfirst⟩
        | cons line rest =>
            obtain ⟨l, hread, hholds⟩ := ttyRead_typed 511 line.enter_free []
            obtain ⟨regs', hcall⟩ := syscallHandlerImpl_ttyRead k
              { regs with eax := 3, ecx := 511 } (BitVec.ofNat 32 l.textCur) rfl
            dsimp only at hact
            rw [hread] at hact
            dsimp only at hact
            rw [hcall] at hact
            obtain ⟨rfl, rfl⟩ := Prod.mk.inj (Except.ok.inj hact)
            refine ⟨ttyCall_schedInv hsched _ _, ?_⟩
            rw [ttyCall_tasks, compareLine_typed hholds]
            exact progress_afterLine huid hgid hfirst
      · obtain ⟨regs', hcall⟩ := syscallHandlerImpl_ttyRead k
          { regs with eax := 3, ecx := 511 } 0 rfl
        rw [hcall] at hact
        obtain ⟨rfl, rfl⟩ := Prod.mk.inj (Except.ok.inj hact)
        refine ⟨ttyCall_schedInv hsched _ _, ?_⟩
        rw [ttyCall_tasks]
        exact ⟨huid, hgid, hfirst⟩
  | setuid a =>
      obtain ⟨huid, hgid, hroot, hfirst⟩ := hprogress
      have heax : ({ regs with eax := 7, ebx := a.id } : IntRegs).eax = 7 := rfl
      obtain ⟨regs', hcall⟩ := syscallHandlerImpl_setuid (k := k) 0 heax huid
      simp only [login] at hact
      rw [hcall] at hact
      obtain ⟨rfl, rfl⟩ := Prod.mk.inj (Except.ok.inj hact)
      refine ⟨setuid_schedInv hsched, ?_⟩
      rw [Kernel.modifyTask_tasks, Function.update_self]
      exact ⟨rfl, hgid, hroot, hfirst⟩
  | setgid a =>
      obtain ⟨huid, hgid, hroot, hfirst⟩ := hprogress
      have huser : k.current.uid ≠ 0 := by
        intro hzero
        exact hroot ((account_id_eq_zero_iff a).mp (huid.symm.trans hzero))
      have heax : ({ regs with eax := 8, ebx := a.id } : IntRegs).eax = 8 := rfl
      obtain ⟨regs', hcall⟩ := syscallHandlerImpl_setgid (k := k) 0 heax huser
      simp only [login] at hact
      rw [hcall] at hact
      obtain ⟨rfl, rfl⟩ := Prod.mk.inj (Except.ok.inj hact)
      exact ⟨hsched, a, huid, hgid, hfirst⟩
  | returned =>
      obtain ⟨rfl, rfl⟩ := Prod.mk.inj (Except.ok.inj hact)
      exact ⟨hsched, hprogress⟩

/-- The invariant while the task of the login lives. -/
def LoginRun (pid : Nat) (lines : List TypedLine) : Kernel × Option LoginState → Prop
  | (k, some s) => (k.tasks pid).status ≠ .dead ∧ LoginInv pid lines k s
  | (_, none) => True

theorem LoginInv.surviving
    (h : LoginInv pid lines k s) :
    LoginRun pid lines (k, k.surviving pid s) := by
  by_cases hdead : (k.tasks pid).status = .dead
  · have hended : k.surviving pid s = none := if_pos hdead
    rw [hended]
    trivial
  · rw [surviving_of_live hdead]
    exact ⟨hdead, h⟩

/-- Other tasks do not change the credentials. -/
theorem LoginInv.elsewhere {e : Event}
    (h : LoginInv pid lines k s)
    (hlive : (k.tasks pid).status ≠ .dead)
    (hallowed : k.currentTask = pid → e.IsTimer)
    (hstep : step k e = .ok k') :
    LoginInv pid lines k' s := by
  have hsame := step_sameUser h.sched.tasking hlive hallowed hstep
  refine ⟨step_schedInv h.sched hstep, ?_⟩
  rw [hsame.uid, hsame.gid]
  exact h.progress

/-- Every turn keeps the invariant. -/
theorem takeTurn_loginRun {s next : Kernel × Option LoginState} {t : Turn}
    (h : LoginRun pid lines s)
    (hturn : takeTurn pid login s t = .ok next) :
    LoginRun pid lines next := by
  obtain ⟨k, _ | s⟩ := s
  · obtain ⟨k', o⟩ := next
    have hended : o = none := takeTurn_none hturn
    rw [hended]
    trivial
  · obtain ⟨hlive, hinv⟩ := h
    cases takeTurn_cases hturn with
    | idle =>
        exact ⟨hlive, hinv⟩
    | own regs k' s' hcur hact =>
        exact (hinv.statement hcur hact).surviving
    | other e k' hallowed hstep =>
        exact (hinv.elsewhere hlive hallowed hstep).surviving

/-- A login that returns has read the first account named, set the user number
and kept the group of root. -/
theorem login_returned {rest : List TypedLine} {ts : List Turn}
    (h : Reachable k)
    (hlive : (k.tasks pid).status ≠ .dead)
    (huid : (k.tasks pid).uid = 0)
    (hgid : (k.tasks pid).gid = 0)
    (hrun : run (takeTurn pid login) (k, some ⟨.getuid, lines⟩) ts =
      .ok (k', some ⟨.returned, rest⟩)) :
    ∃ a, firstAccount lines = some (a, rest) ∧
      (k'.tasks pid).uid = a.id ∧ (k'.tasks pid).gid = 0 := by
  have hstart : LoginRun pid lines (k, some ⟨.getuid, lines⟩) :=
    ⟨hlive, h.schedInv, huid, hgid, rfl⟩
  have hend : LoginRun pid lines (k', some ⟨.returned, rest⟩) :=
    run_invariant (takeTurn pid login) (fun _ _ _ _ => takeTurn_loginRun) hstart hrun
  obtain ⟨a, huid', hgid', hfirst⟩ := hend.2.progress
  exact ⟨a, hfirst, huid', hgid'⟩

end Statements

/-- What a login that returns is to have done: it has stopped at the first line
that names an account and has taken over the numbers of that account. -/
def LoggedIn (lines rest : List TypedLine) (t : Task) : Prop :=
  ∃ a, firstAccount lines = some (a, rest) ∧ t.uid = a.id ∧ t.gid = a.id

/-- **When a login drops all privileges.** -/
theorem login_drops_privileges_iff (k k' : Kernel) (pid : Nat) (lines rest : List TypedLine)
    (ts : List Turn)
    (h : Reachable k)
    (hlive : (k.tasks pid).status ≠ .dead)
    (huid : (k.tasks pid).uid = 0)
    (hgid : (k.tasks pid).gid = 0)
    (hrun : run (takeTurn pid login) (k, some ⟨.getuid, lines⟩) ts =
      .ok (k', some ⟨.returned, rest⟩)) :
    LoggedIn lines rest (k'.tasks pid) ↔
      ∃ others, firstAccount lines = some (.root, others) := by
  obtain ⟨a, hfirst, huid', hgid'⟩ := login_returned h hlive huid hgid hrun
  unfold LoggedIn
  rw [hfirst, huid', hgid']
  constructor
  · rintro ⟨b, hb, -, hzero⟩
    obtain ⟨rfl, -⟩ := Prod.mk.inj (Option.some.inj hb)
    rw [(account_id_eq_zero_iff a).mp hzero.symm]
    exact ⟨rest, rfl⟩
  · rintro ⟨others, hroot⟩
    obtain ⟨rfl, -⟩ := Prod.mk.inj (Option.some.inj hroot)
    exact ⟨.root, rfl, rfl, rfl⟩

/-- "root", with a corrected typing error. -/
def sampleRoot : TypedLine :=
  ⟨[114, 111, 8, 111, 111, 116], by decide, by decide⟩

/-- "alice". -/
def sampleAlice : TypedLine :=
  ⟨[97, 108, 105, 99, 101], by decide, by decide⟩

/-- Task 1 logs in as root, while a timer tick lets the others run in between. -/
theorem login_drops_privileges_iff_sample :
    ∃ k k', runFromBoot Image.sample default [userCall 4 0 0] = .ok k ∧
      run (takeTurn 1 login) (k, some ⟨.getuid, [sampleRoot, sampleAlice]⟩)
        [.own default, .own default, .other (.timer default), .other (.timer default),
          .other (.timer default), .other (.timer default), .other (userCall 4 0 0),
          .own default, .own default] = .ok (k', some ⟨.returned, [sampleAlice]⟩) ∧
      LoggedIn [sampleRoot, sampleAlice] [sampleAlice] (k'.tasks 1) := by
  obtain ⟨k, hrun, hlive, huid, hgid, hlogin⟩ := exists_of_returnsWith
    (x := runFromBoot Image.sample default [userCall 4 0 0])
    (p := fun k => (k.tasks 1).status ≠ .dead ∧ (k.tasks 1).uid = 0 ∧ (k.tasks 1).gid = 0 ∧
      returnsWith (run (takeTurn 1 login) (k, some ⟨.getuid, [sampleRoot, sampleAlice]⟩)
        [.own default, .own default, .other (.timer default), .other (.timer default),
          .other (.timer default), .other (.timer default), .other (userCall 4 0 0),
          .own default, .own default])
        (fun s => s.2 = some ⟨.returned, [sampleAlice]⟩) = true)
    (by decide +kernel)
  obtain ⟨⟨k', s⟩, hturns, rfl⟩ := exists_of_returnsWith hlogin
  have hiff := login_drops_privileges_iff k k' 1 _ _ _ ⟨_, _, _, hrun⟩ hlive huid hgid hturns
  exact ⟨k, k', hrun, hturns, hiff.mpr ⟨[sampleAlice], by decide⟩⟩

/-- Task 1 logs in as alice and stays in the group of root. -/
theorem login_keeps_group_of_root :
    ¬ ∀ k pid lines ts k' rest, Reachable k → (k.tasks pid).status ≠ .dead →
      (k.tasks pid).uid = 0 → (k.tasks pid).gid = 0 →
      run (takeTurn pid login) (k, some ⟨.getuid, lines⟩) ts =
        .ok (k', some ⟨.returned, rest⟩) →
      LoggedIn lines rest (k'.tasks pid) := by
  intro hall
  obtain ⟨k, hrun, hlive, huid, hgid, hlogin⟩ := exists_of_returnsWith
    (x := runFromBoot Image.sample default [userCall 4 0 0])
    (p := fun k => (k.tasks 1).status ≠ .dead ∧ (k.tasks 1).uid = 0 ∧ (k.tasks 1).gid = 0 ∧
      returnsWith (run (takeTurn 1 login) (k, some ⟨.getuid, [sampleAlice]⟩)
        (List.replicate 6 (.own default)))
        (fun s => s.2 = some ⟨.returned, []⟩ ∧ (s.1.tasks 1).uid = 1001 ∧
          (s.1.tasks 1).gid = 0) = true)
    (by decide +kernel)
  obtain ⟨⟨k', s⟩, hturns, rfl, huid', hgid'⟩ := exists_of_returnsWith hlogin
  obtain ⟨a, -, hauid, hagid⟩ := hall k 1 _ _ k' _ ⟨_, _, _, hrun⟩ hlive huid hgid hturns
  rw [hgid'] at hagid
  rw [huid', ← hagid] at hauid
  exact absurd hauid (by decide)

end Klyx
