import Klyx.Kernel.StringFunctions
import Klyx.Kernel.Login

/-!
# The debugger console

The breakpoint handler of `kernel/traps.c` reads lines and obeys them.  Fifteen
commands set a register of the interrupt frame to a hexadecimal number.  They
are told apart by `memcmp`, which looks at the first character only: whatever
begins with `s` is taken for `setsi`, the first of them, and whatever begins
with `j` for `jump`.

**Results.**
* `readHex_eq`: the number that the digits stand for.
* `debuggerLine_regs`: what a line does to the registers.
* `breakpoint_keeps`: no run changes a register other than `esi` and `eip`.
* `debugger_command_iff`: when a line does what its command says.
-/

namespace Klyx

open CString

/-! ### Hexadecimal numbers -/

/-- The body of the loop of `__read_hex`. -/
def readHexStep (ptr : Word) (c : Byte) : Word :=
  let ptr := ptr <<< 4
  if 48 ≤ c.toInt ∧ c.toInt ≤ 57 then ptr + BitVec.ofInt 32 (c.toInt - 48)
  else if 65 ≤ c.toInt ∧ c.toInt ≤ 70 then ptr + BitVec.ofInt 32 (c.toInt - 65 + 10)
  else if 97 ≤ c.toInt ∧ c.toInt ≤ 102 then ptr + BitVec.ofInt 32 (c.toInt - 97 + 10)
  else ptr

/-- `__read_hex`, on the characters up to the terminator. -/
def readHex (parseable : List Byte) : Word :=
  parseable.foldl readHexStep 0

/-- The value of a hexadecimal digit in either case; other characters count 0. -/
def hexDigit (c : Byte) : Nat :=
  if 48 ≤ c.toNat ∧ c.toNat ≤ 57 then c.toNat - 48
  else if 65 ≤ c.toNat ∧ c.toNat ≤ 70 then c.toNat - 55
  else if 97 ≤ c.toNat ∧ c.toNat ≤ 102 then c.toNat - 87
  else 0

/-- The number that is written in digits. -/
def hexNumber (s : List Byte) : Nat :=
  s.foldl (fun n c => 16 * n + hexDigit c) 0

/-- One to eight hexadecimal digits. -/
def IsHex (s : List Byte) : Prop :=
  1 ≤ s.length ∧ s.length ≤ 8 ∧
    ∀ c ∈ s, (48 ≤ c.toNat ∧ c.toNat ≤ 57) ∨ (65 ≤ c.toNat ∧ c.toNat ≤ 70) ∨
      (97 ≤ c.toNat ∧ c.toNat ≤ 102)

section Hex

/-- Comparing a signed character with ASCII characters. -/
theorem toInt_between_iff (c : Byte) (low high : Nat)
    (h : high < 128) :
    ((low : Int) ≤ c.toInt ∧ c.toInt ≤ high) ↔ (low ≤ c.toNat ∧ c.toNat ≤ high) := by
  have hc := BitVec.toInt_eq_toNat_cond c
  split at hc <;> omega

theorem ofInt_toInt_sub (c : Byte) (low high : Nat)
    (hc : low ≤ c.toNat ∧ c.toNat ≤ high)
    (h : high < 128) :
    BitVec.ofInt 32 (c.toInt - low) = BitVec.ofNat 32 (c.toNat - low) := by
  have hint := BitVec.toInt_eq_toNat_cond c
  have hsub : c.toInt - low = ((c.toNat - low : Nat) : Int) := by
    split at hint <;> omega
  rw [hsub, BitVec.ofInt_natCast]

/-- Each character adds the value of its digit. -/
theorem readHexStep_eq (ptr : Word) (c : Byte) :
    readHexStep ptr c = ptr <<< 4 + BitVec.ofNat 32 (hexDigit c) := by
  have hdec : (48 ≤ c.toInt ∧ c.toInt ≤ 57) ↔ (48 ≤ c.toNat ∧ c.toNat ≤ 57) := by
    exact_mod_cast toInt_between_iff c 48 57 (by decide)
  have hupper : (65 ≤ c.toInt ∧ c.toInt ≤ 70) ↔ (65 ≤ c.toNat ∧ c.toNat ≤ 70) := by
    exact_mod_cast toInt_between_iff c 65 70 (by decide)
  have hlower : (97 ≤ c.toInt ∧ c.toInt ≤ 102) ↔ (97 ≤ c.toNat ∧ c.toNat ≤ 102) := by
    exact_mod_cast toInt_between_iff c 97 102 (by decide)
  have hten : c.toInt - 65 + 10 = c.toInt - 55 := by omega
  have hten' : c.toInt - 97 + 10 = c.toInt - 87 := by omega
  unfold readHexStep hexDigit
  simp only [hdec, hupper, hlower, hten, hten']
  split
  · next h => rw [← ofInt_toInt_sub c 48 57 h (by decide)]; rfl
  split
  · next h => rw [← ofInt_toInt_sub c 55 70 ⟨by omega, h.2⟩ (by decide)]; rfl
  split
  · next h => rw [← ofInt_toInt_sub c 87 102 ⟨by omega, h.2⟩ (by decide)]; rfl
  · simp

/-- The digits are read as the number that they write, kept in 32 bits. -/
theorem readHex_eq (s : List Byte) :
    readHex s = BitVec.ofNat 32 (hexNumber s) := by
  have hshift : ∀ n d : Nat,
      BitVec.ofNat 32 n <<< 4 + BitVec.ofNat 32 d = BitVec.ofNat 32 (16 * n + d) := by
    intro n d
    apply BitVec.eq_of_toNat_eq
    simp only [BitVec.toNat_add, BitVec.toNat_shiftLeft, BitVec.toNat_ofNat, Nat.shiftLeft_eq]
    omega
  have hfold : ∀ n : Nat, s.foldl readHexStep (BitVec.ofNat 32 n) =
      BitVec.ofNat 32 (s.foldl (fun n c => 16 * n + hexDigit c) n) := by
    induction s with
    | nil =>
        intro n
        rfl
    | cons c s ih =>
        intro n
        rw [List.foldl_cons, List.foldl_cons, ← ih, readHexStep_eq, hshift]
  exact hfold 0

end Hex

/-! ### The commands -/

/-- The commands that set a register, in the order of their comparisons. -/
inductive SetCommand where
  | setsi | setdi | setsp | setbp | setcs | setss | setes | setds | setfs | setgs
  | seta | setb | setc | setd | jump
deriving DecidableEq

namespace SetCommand

def all : List SetCommand :=
  [setsi, setdi, setsp, setbp, setcs, setss, setes, setds, setfs, setgs, seta, setb, setc, setd,
    jump]

/-- What the line is compared with, in ASCII. -/
def name : SetCommand → List Byte
  | setsi => [115, 101, 116, 115, 105]
  | setdi => [115, 101, 116, 100, 105]
  | setsp => [115, 101, 116, 115, 112]
  | setbp => [115, 101, 116, 98, 112]
  | setcs => [115, 101, 116, 99, 115]
  | setss => [115, 101, 116, 115, 115]
  | setes => [115, 101, 116, 101, 115]
  | setds => [115, 101, 116, 100, 115]
  | setfs => [115, 101, 116, 102, 115]
  | setgs => [115, 101, 116, 103, 115]
  | seta => [115, 101, 116, 97]
  | setb => [115, 101, 116, 98]
  | setc => [115, 101, 116, 99]
  | setd => [115, 101, 116, 100]
  | jump => [106, 117, 109, 112]

/-- The index in `buf` where the number is read. -/
def argument : SetCommand → Nat
  | seta | setb | setc | setd | jump => 5
  | _ => 6

/-- The assignment to a member of `regs`. -/
def set (regs : IntRegs) (v : Word) : SetCommand → IntRegs
  | setsi => { regs with esi := v }
  | setdi => { regs with edi := v }
  | setsp => { regs with esp := v }
  | setbp => { regs with ebp := v }
  | setcs => { regs with cs := v }
  | setss => { regs with ss := v }
  | setes => { regs with es := v }
  | setds => { regs with ds := v }
  | setfs => { regs with fs := v }
  | setgs => { regs with gs := v }
  | seta => { regs with eax := v }
  | setb => { regs with ebx := v }
  | setc => { regs with ecx := v }
  | setd => { regs with edx := v }
  | jump => { regs with eip := v }

/-- The register that a command names. -/
def get (regs : IntRegs) : SetCommand → Word
  | setsi => regs.esi
  | setdi => regs.edi
  | setsp => regs.esp
  | setbp => regs.ebp
  | setcs => regs.cs
  | setss => regs.ss
  | setes => regs.es
  | setds => regs.ds
  | setfs => regs.fs
  | setgs => regs.gs
  | seta => regs.eax
  | setb => regs.ebx
  | setc => regs.ecx
  | setd => regs.edx
  | jump => regs.eip

end SetCommand

/-- What a line leads to: the registers, what is printed, and whether the console
goes on. -/
structure DebuggerResult where
  regs : IntRegs
  out : List String
  goOn : Bool

/-- What `help` prints. -/
def debuggerHelp : String :=
  "List of commands:\n" ++ "\thelp cont regs\n" ++ "\tpeek <hex memory address>\n" ++
  "\tseta <value>\n" ++ "\tsetb <value>\n" ++ "\tsetc <value>\n" ++ "\tsetd <value>\n" ++
  "\tsetsi <value>\n" ++ "\tsetdi <value>\n" ++ "\tjump  <value>\n" ++
  "\tsetsp <value>\n" ++ "\tsetbp <value>\n" ++ "\tsetcs <value>\n" ++ "\tsetss <value>\n" ++
  "\tsetes <value>\n" ++ "\tsetds <value>\n" ++ "\tsetfs <value>\n" ++ "\tsetgs <value>\n"

/-- A string literal in memory. -/
def literal (s : List Byte) : Nat → Byte :=
  fun i => s.getD i 0

/-- The chain of comparisons on the line in `buf`, where `mem` holds the words of
the memory that `peek` shows. -/
def debuggerLine (mem : Word → Word) (regs : IntRegs) (buf : Nat → Byte) : DebuggerResult :=
  if buf 0 = 0 then ⟨regs, [], true⟩
  else if strcmp buf [104, 101, 108, 112] = 0 then ⟨regs, [debuggerHelp], true⟩
  else if strcmp buf [99, 111, 110, 116] = 0 then ⟨regs, [], false⟩
  else if strcmp buf [114, 101, 103, 115] = 0 then ⟨regs, [regs.report], true⟩
  else if memcmp buf (literal [112, 101, 101, 107]) 4 = 0 then
    if buf 4 = 32 then
      let ptr := readHex (stringIn buf 512 5)
      ⟨regs, ["*(size_t*)" ++ toString ptr.toInt ++ "=" ++ hexPadded 8 (mem ptr) ++ "\n"], true⟩
    else ⟨regs, [], true⟩
  else
    match SetCommand.all.find? (fun c => memcmp buf (literal c.name) c.name.length = 0) with
    | some c => ⟨c.set regs (readHex (stringIn buf 512 c.argument)), [], true⟩
    | none => ⟨regs, [], true⟩

/-- The loop, which waits for more when the lines run out. -/
def debuggerLoop (mem : Word → Word) : IntRegs → List TypedLine → DebuggerResult
  | regs, [] => ⟨regs, ["DBG$ "], true⟩
  | regs, line :: lines =>
      let r := debuggerLine mem regs line.buf
      if r.goOn then
        let rest := debuggerLoop mem r.regs lines
        { rest with out := "DBG$ " :: r.out ++ rest.out }
      else { r with out := "DBG$ " :: r.out }

/-- `x86_trap_breakpoint_impl`, with the lines that are typed. -/
def x86TrapBreakpointImpl (mem : Word → Word) (regs : IntRegs) (lines : List TypedLine) :
    DebuggerResult :=
  let r := debuggerLoop mem regs lines
  { r with
    out := ("\n\nDEBUG TRAP:\n" ++ regs.report ++ "Entering debugger console..\n") :: r.out }

/-- What a line should do: a command with a number sets the register that it
names and no other, and a line that begins with no command sets none. -/
structure CommandLaw (regs : IntRegs) (line : List Byte) (regs' : IntRegs) : Prop where
  named : ∀ (c : SetCommand) (digits : List Byte), line = c.name ++ 32 :: digits → IsHex digits →
    regs' = c.set regs (BitVec.ofNat 32 (hexNumber digits))
  unnamed : (∀ c : SetCommand, ¬ c.name <+: line) → regs' = regs

/-- The lines that are obeyed.  A command other than `setsi` and `jump` must find
its number in the register already, and so must `esi` the number behind the
sixth character; so must `esi` and `eip` for a line without a command that begins
with `s` or `j`. -/
structure Obeyed (regs : IntRegs) (line : List Byte) : Prop where
  named : ∀ (c : SetCommand) (digits : List Byte), line = c.name ++ 32 :: digits → IsHex digits →
    c ≠ .setsi → c ≠ .jump →
    c.get regs = BitVec.ofNat 32 (hexNumber digits) ∧
      regs.esi = BitVec.ofNat 32 (hexNumber (line.drop 6))
  unnamed : (∀ c : SetCommand, ¬ c.name <+: line) →
    (line.headD 0 = 115 → regs.esi = BitVec.ofNat 32 (hexNumber (line.drop 6))) ∧
    (line.headD 0 = 106 → regs.eip = BitVec.ofNat 32 (hexNumber (line.drop 5)))

/-- What the console does to the registers instead. -/
def lineEffect (regs : IntRegs) (line : List Byte) : IntRegs :=
  if line.headD 0 = 115 then
    SetCommand.setsi.set regs (BitVec.ofNat 32 (hexNumber (line.drop 6)))
  else if line.headD 0 = 106 then
    SetCommand.jump.set regs (BitVec.ofNat 32 (hexNumber (line.drop 5)))
  else regs

namespace SetCommand

variable {c d : SetCommand} {regs : IntRegs} {v w : Word}

@[simp] theorem get_set (c : SetCommand) (regs : IntRegs) (v : Word) :
    c.get (c.set regs v) = v := by
  cases c <;> rfl

theorem get_set_of_ne (regs : IntRegs) (v : Word)
    (h : d ≠ c) :
    d.get (c.set regs v) = d.get regs := by
  cases c <;> cases d <;> first | rfl | exact absurd rfl h

@[simp] theorem set_get (c : SetCommand) (regs : IntRegs) :
    c.set regs (c.get regs) = regs := by
  cases c <;> rfl

theorem set_eq_self_iff :
    c.set regs v = regs ↔ c.get regs = v := by
  constructor
  · intro h
    rw [← h, get_set]
  · rintro rfl
    exact set_get c regs

/-- Two assignments with the same effect have none. -/
theorem set_eq_set_iff
    (h : c ≠ d) :
    c.set regs v = d.set regs w ↔ c.get regs = v ∧ d.get regs = w := by
  constructor
  · intro heq
    constructor
    · rw [← get_set_of_ne regs w h, ← heq, get_set]
    · rw [← get_set_of_ne regs v h.symm, heq, get_set]
  · rintro ⟨rfl, rfl⟩
    rw [set_get, set_get]

/-- All names but one begin with `s`. -/
theorem headD_name
    (h : c ≠ jump)
    (l : List Byte) :
    (c.name ++ l).headD 0 = 115 := by
  cases c <;> first | rfl | exact absurd rfl h

end SetCommand

section Dispatch

variable {buf : Nat → Byte}

theorem strcmp_ne_zero {c : Byte} {cs : List Byte}
    (h : buf 0 ≠ c) :
    strcmp buf (c :: cs) ≠ 0 := by
  rw [strcmp, strcmpFrom, if_neg (fun hboth => h hboth.2), ne_eq, toInt_sub_eq_zero_iff]
  exact h

/-- The comparison that succeeds first. -/
theorem find_setCommand (buf : Nat → Byte) :
    SetCommand.all.find? (fun c => memcmp buf (literal c.name) c.name.length = 0) =
      if buf 0 = 115 then some .setsi else if buf 0 = 106 then some .jump else none := by
  simp only [memcmp_eq_zero_iff]
  by_cases hs : buf 0 = 115
  · rw [hs]
    rfl
  by_cases hj : buf 0 = 106
  · rw [hj]
    rfl
  · rw [if_neg hs, if_neg hj, List.find?_eq_none]
    intro c _
    cases c <;> simpa [literal, SetCommand.name]

/-- No comparison comes before those of the set commands. -/
theorem debuggerLine_of_first (mem : Word → Word) (regs : IntRegs) {first : Byte}
    (hbuf : buf 0 = first)
    (hfirst : first ∉ ([0, 104, 99, 114, 112] : List Byte)) :
    debuggerLine mem regs buf =
      match SetCommand.all.find? (fun c => memcmp buf (literal c.name) c.name.length = 0) with
      | some c => ⟨c.set regs (readHex (stringIn buf 512 c.argument)), [], true⟩
      | none => ⟨regs, [], true⟩ := by
  have hne : ∀ c ∈ ([0, 104, 99, 114, 112] : List Byte), buf 0 ≠ c := by
    rintro c hc heq
    rw [heq] at hbuf
    exact hfirst (hbuf ▸ hc)
  rw [debuggerLine, if_neg (hne 0 (by decide)), if_neg (strcmp_ne_zero (hne 104 (by decide))),
    if_neg (strcmp_ne_zero (hne 99 (by decide))), if_neg (strcmp_ne_zero (hne 114 (by decide))),
    if_neg (memcmp_eq_zero_iff.not.mpr (hne 112 (by decide)))]

/-- The registers after a line, by its first character. -/
theorem debuggerLine_buf (mem : Word → Word) (regs : IntRegs) (buf : Nat → Byte) :
    (debuggerLine mem regs buf).regs =
      if buf 0 = 115 then SetCommand.setsi.set regs (readHex (stringIn buf 512 6))
      else if buf 0 = 106 then SetCommand.jump.set regs (readHex (stringIn buf 512 5))
      else regs := by
  by_cases hs : buf 0 = 115
  · rw [debuggerLine_of_first mem regs hs (by decide), find_setCommand, if_pos hs, if_pos hs]
    rfl
  by_cases hj : buf 0 = 106
  · rw [debuggerLine_of_first mem regs hj (by decide), find_setCommand, if_neg hs, if_pos hj,
      if_neg hs, if_pos hj]
    rfl
  · rw [debuggerLine, find_setCommand, if_neg hs, if_neg hj, if_neg hs, if_neg hj]
    split_ifs <;> rfl

/-- **What a line does to the registers.** -/
theorem debuggerLine_regs (mem : Word → Word) (regs : IntRegs) (line : TypedLine) :
    (debuggerLine mem regs line.buf).regs = lineEffect regs (editLine 511 line.keys) := by
  have hlength := editLine_length_le 511 line.enter_free
  have hfirst : line.buf 0 = (editLine 511 line.keys).headD 0 := by
    obtain ⟨l, hbuf, hholds⟩ := typed_buf_eq line
    rw [hbuf, hholds.buf, List.headD_eq_head?_getD, List.head?_eq_getElem?,
      List.getD_eq_getElem?_getD]
  have hargument : ∀ i ≤ 511, stringIn line.buf 512 i = (editLine 511 line.keys).drop i := by
    intro i hi
    refine stringIn_eq (typed_buf_isString line i) ?_
    rw [List.length_drop]
    omega
  rw [debuggerLine_buf, hfirst, hargument 6 (by decide), hargument 5 (by decide), readHex_eq,
    readHex_eq]
  rfl

end Dispatch

section Run

/-- Registers of which all but `esi` and `eip` are the same. -/
def KeepsOthers (regs regs' : IntRegs) : Prop :=
  regs' = { regs with esi := regs'.esi, eip := regs'.eip }

theorem KeepsOthers.trans {regs regs' regs'' : IntRegs}
    (h : KeepsOthers regs regs')
    (h' : KeepsOthers regs' regs'') :
    KeepsOthers regs regs'' := by
  unfold KeepsOthers at h h' ⊢
  rw [h] at h'
  exact h'

theorem debuggerLine_keeps (mem : Word → Word) (regs : IntRegs) (buf : Nat → Byte) :
    KeepsOthers regs (debuggerLine mem regs buf).regs := by
  unfold KeepsOthers
  rw [debuggerLine_buf]
  split_ifs <;> rfl

theorem debuggerLoop_keeps (mem : Word → Word) (regs : IntRegs) (lines : List TypedLine) :
    KeepsOthers regs (debuggerLoop mem regs lines).regs := by
  induction lines generalizing regs with
  | nil =>
      rfl
  | cons line lines ih =>
      have hline := debuggerLine_keeps mem regs line.buf
      rw [debuggerLoop]
      by_cases hgo : (debuggerLine mem regs line.buf).goOn
      · rw [if_pos hgo]
        exact hline.trans (ih _)
      · rw [if_neg hgo]
        exact hline

/-- **No run of the console changes a register other than `esi` and `eip`.** -/
theorem breakpoint_keeps (mem : Word → Word) (regs : IntRegs) (lines : List TypedLine) :
    KeepsOthers regs (x86TrapBreakpointImpl mem regs lines).regs :=
  debuggerLoop_keeps mem regs lines

end Run

/-- What the console does is right for the lines that are obeyed. -/
theorem commandLaw_lineEffect_iff (regs : IntRegs) (text : List Byte) :
    CommandLaw regs text (lineEffect regs text) ↔ Obeyed regs text := by
  unfold lineEffect
  constructor
  · intro h
    constructor
    · intro c digits htext hhex hsetsi hjump
      have hhead : text.headD 0 = 115 := by
        rw [htext]
        exact SetCommand.headD_name hjump _
      have heq := h.named c digits htext hhex
      rw [if_pos hhead] at heq
      exact (SetCommand.set_eq_set_iff hsetsi).mp heq.symm
    · intro hnone
      have heq := h.unnamed hnone
      constructor
      · intro hs
        rw [if_pos hs] at heq
        exact SetCommand.set_eq_self_iff.mp heq
      · intro hj
        rw [if_neg (by rw [hj]; decide), if_pos hj] at heq
        exact SetCommand.set_eq_self_iff.mp heq
  · intro h
    constructor
    · intro c digits htext hhex
      by_cases hjump : c = .jump
      · subst hjump
        have hhead : text.headD 0 = 106 := by rw [htext]; rfl
        have hdrop : text.drop 5 = digits := by rw [htext]; rfl
        rw [if_neg (by rw [hhead]; decide), if_pos hhead, hdrop]
      have hhead : text.headD 0 = 115 := by
        rw [htext]
        exact SetCommand.headD_name hjump _
      rw [if_pos hhead]
      by_cases hsetsi : c = .setsi
      · subst hsetsi
        have hdrop : text.drop 6 = digits := by rw [htext]; rfl
        rw [hdrop]
      · obtain ⟨hget, hesi⟩ := h.named c digits htext hhex hsetsi hjump
        exact ((SetCommand.set_eq_set_iff hsetsi).mpr ⟨hget, hesi⟩).symm
    · intro hnone
      obtain ⟨hesi, heip⟩ := h.unnamed hnone
      by_cases hs : text.headD 0 = 115
      · rw [if_pos hs]
        exact SetCommand.set_eq_self_iff.mpr (hesi hs)
      by_cases hj : text.headD 0 = 106
      · rw [if_neg hs, if_pos hj]
        exact SetCommand.set_eq_self_iff.mpr (heip hj)
      · rw [if_neg hs, if_neg hj]

/-- **When the console obeys a line.**  It does what the command on the line says
exactly if the line is one of those that are obeyed. -/
theorem debugger_command_iff (mem : Word → Word) (regs : IntRegs) (line : TypedLine) :
    CommandLaw regs (editLine 511 line.keys) (debuggerLine mem regs line.buf).regs ↔
      Obeyed regs (editLine 511 line.keys) := by
  rw [debuggerLine_regs]
  exact commandLaw_lineEffect_iff regs _

/-- `seta 1` clears `esi`, which held 7, and leaves `eax` alone. -/
theorem seta_sets_esi :
    let regs : IntRegs := { (default : IntRegs) with esi := 7 }
    let line : TypedLine := ⟨[115, 101, 116, 97, 32, 49], by decide, by decide⟩
    (debuggerLine (fun _ => 0) regs line.buf).regs = { regs with esi := 0 } ∧
    ¬ CommandLaw regs (editLine 511 line.keys) (debuggerLine (fun _ => 0) regs line.buf).regs := by
  have hcleared : (debuggerLine (fun _ => 0) { (default : IntRegs) with esi := 7 }
      (TypedLine.buf ⟨[115, 101, 116, 97, 32, 49], by decide, by decide⟩)).regs =
      { (default : IntRegs) with esi := 0 } := by
    rw [debuggerLine_regs]
    decide
  refine ⟨hcleared, fun h => ?_⟩
  have hnamed := h.named .seta [49] (by decide) ⟨by decide, by decide, by decide⟩
  rw [hcleared] at hnamed
  exact absurd hnamed (by decide)

end Klyx
