import Klyx.Kernel.Clock
import Klyx.Kernel.LineEditor
import Klyx.Kernel.SchedulerInvariant
import Klyx.Kernel.StringFunctions
import Klyx.Lib.MaskedField

/-!
# Buffers of system calls

System calls 3, 5 and 6 (`tty_read`, `uname` and `time`) store through the
pointer in `ebx`, which the kernel does not check.  The machine of the module
on reactions leaves these stores out; here they are made, byte by byte.

A store into a variable of the scheduler changes that variable.  The kernel uses
more memory, the rest of its image and the frames of its handlers, which lie on
the stacks of the interrupted tasks.  What a store there does is not described,
and the run is then `astray`.

**Results.**
* `ttyRead_buf`, `sysUname_eq`: `readStores` and `unameStores` list the stores of
  `tty_read` and `uname`.
* `step_of_userStep`: with its buffer outside the kernel's memory, a call does
  what the machine without stores does.
* `reachable_of_userRun`: so every result on reachable states holds of runs of
  such calls.
* `scheduler_invariant`: the scheduler invariant is one of them.
-/

namespace Klyx

open HaltingRun

/-! ### Where the variables are -/

/-- `sizeof(task_t)`. -/
def taskSize : Nat := 292

/-- The variables that the scheduler reads. -/
inductive KernelVar where
  | tasks
  | currentTask
  | isTaskingAvaliable
  | useCurrentTty
  | currentTtyDispl
deriving DecidableEq

/-- The size of a variable in bytes. -/
def KernelVar.size : KernelVar → Nat
  | .tasks => tasksCap * taskSize
  | .currentTask => 4
  | .isTaskingAvaliable => 1
  | .useCurrentTty => 1
  | .currentTtyDispl => 4

/-- Where the linker has put the kernel's image and the variables in it. -/
structure Layout where
  image : Word → Bool
  address : KernelVar → Word
  image_address : ∀ v i, i < v.size → image (address v + BitVec.ofNat 32 i) = true

/-- The variable that a byte belongs to, and its number in the variable. -/
def Layout.locate (L : Layout) (a : Word) : Option (KernelVar × Nat) :=
  ([.tasks, .currentTask, .isTaskingAvaliable, .useCurrentTty, .currentTtyDispl].find?
    (fun v => (a - L.address v).toNat < v.size)).map (fun v => (v, (a - L.address v).toNat))

theorem locate_image {L : Layout} {a : Word} {p : KernelVar × Nat}
    (h : L.locate a = some p) :
    L.image a = true := by
  obtain ⟨v, hfind, -⟩ := Option.map_eq_some_iff.mp h
  have hsize : (a - L.address v).toNat < v.size := by
    simpa using List.find?_some hfind
  have himage := L.image_address v _ hsize
  rwa [BitVec.ofNat_toNat, BitVec.setWidth_eq, BitVec.add_comm, BitVec.sub_add_cancel] at himage

/-! ### Stores into variables -/

/-- Assign one byte of a word. -/
def setByte (w : Word) (i : Nat) (b : Byte) : Word :=
  MaskedField.merge (0xFF#32 <<< (8 * i)) w (b.setWidth 32 <<< (8 * i))

/-- The byte of a `bool`. -/
def boolOfByte (b : Byte) : Option Bool :=
  if b = 0 then some false else if b = 1 then some true else none

/-- `task_status_t` as a word. -/
def TaskStatus.toWord : TaskStatus → Word
  | .dead => 0
  | .new => 1
  | .active => 2

def TaskStatus.ofWord (w : Word) : Option TaskStatus :=
  [.dead, .new, .active].find? (fun s => s.toWord = w)

/-- Change the register with a number, in the order of `regs_t`. -/
def Regs.modify (r : Regs) (f : Word → Word) : Nat → Regs
  | 0 => { r with eax := f r.eax }
  | 1 => { r with ebx := f r.ebx }
  | 2 => { r with ecx := f r.ecx }
  | 3 => { r with edx := f r.edx }
  | 4 => { r with esi := f r.esi }
  | 5 => { r with edi := f r.edi }
  | 6 => { r with esp := f r.esp }
  | 7 => { r with ebp := f r.ebp }
  | 8 => { r with eip := f r.eip }
  | 9 => { r with fs := f r.fs }
  | 10 => { r with gs := f r.gs }
  | 11 => { r with ds := f r.ds }
  | 12 => { r with es := f r.es }
  | 13 => { r with ss := f r.ss }
  | 14 => { r with cs := f r.cs }
  | _ => { r with eflags := f r.eflags }

/-- Store a byte in a task structure.  There is no result when an enumeration or
a `bool` would get a value that it does not have. -/
def Task.poke (t : Task) (offset : Nat) (b : Byte) : Option Task :=
  let set (w : Word) : Word := setByte w (offset % 4) b
  let setNat (n : Nat) : Nat := (set (BitVec.ofNat 32 n)).toNat
  if offset < 64 then some { t with regs := t.regs.modify set (offset / 4) }
  else if offset < 68 then
    (TaskStatus.ofWord (set t.status.toWord)).map (fun s => { t with status := s })
  else if offset < 72 then some { t with tty := set t.tty }
  else if offset < 76 then some { t with parent := set t.parent }
  else if offset < 140 then
    some { t with signals := Function.update t.signals (offset - 76) b }
  -- `signal_handlers`, which no function reads
  else if offset < 252 then some t
  else if offset < 256 then some { t with signalsWriteHead := setNat t.signalsWriteHead }
  else if offset < 260 then some { t with signalsReadHead := setNat t.signalsReadHead }
  else if offset < 264 then some { t with signalsSize := setNat t.signalsSize }
  else if offset < 265 then (boolOfByte b).map (fun v => { t with paused := v })
  else if offset < 266 then (boolOfByte b).map (fun v => { t with yieldOnly := v })
  -- two bytes between the members
  else if offset < 268 then some t
  else if offset < 272 then some { t with uid := set t.uid }
  else if offset < 276 then some { t with euid := set t.euid }
  else if offset < 280 then some { t with suid := set t.suid }
  else if offset < 284 then some { t with gid := set t.gid }
  else if offset < 288 then some { t with egid := set t.egid }
  else some { t with sgid := set t.sgid }

/-- Store a byte in a variable. -/
def Kernel.pokeVar (k : Kernel) (i : Nat) (b : Byte) : KernelVar → Option Kernel
  | .tasks =>
      ((k.tasks (i / taskSize)).poke (i % taskSize) b).map (k.setTask (i / taskSize))
  | .currentTask =>
      some { k with currentTask := (setByte (BitVec.ofNat 32 k.currentTask) i b).toNat }
  | .isTaskingAvaliable =>
      (boolOfByte b).map (fun v => { k with isTaskingAvaliable := v })
  | .useCurrentTty => (boolOfByte b).map (fun v => { k with useCurrentTty := v })
  | .currentTtyDispl => some { k with currentTtyDispl := setByte k.currentTtyDispl i b }

/-- Store a byte anywhere; `frames` are the bytes of the frames and locals of
handlers that have not returned. -/
def Kernel.poke (L : Layout) (frames : Word → Bool) (k : Kernel) (a : Word) (b : Byte) :
    Option Kernel :=
  match L.locate a with
  | some (v, i) => k.pokeVar i b v
  | none => if L.image a || frames a then none else some k

/-- Store bytes one after the other. -/
def Kernel.pokes (L : Layout) (frames : Word → Bool) :
    Kernel → List (Word × Byte) → Option Kernel
  | k, [] => some k
  | k, (a, b) :: stores => (k.poke L frames a b).bind (fun k => k.pokes L frames stores)

section Pokes

variable {L : Layout} {frames : Word → Bool} {k : Kernel}

/-- A byte that the kernel does not use. -/
def Outside (L : Layout) (frames : Word → Bool) (a : Word) : Prop :=
  L.image a = false ∧ frames a = false

instance (L : Layout) (frames : Word → Bool) (a : Word) : Decidable (Outside L frames a) :=
  inferInstanceAs (Decidable (_ ∧ _))

/-- A store there changes nothing for the kernel. -/
theorem poke_outside {a : Word}
    (h : Outside L frames a)
    (b : Byte) :
    k.poke L frames a b = some k := by
  obtain ⟨himage, hframes⟩ := h
  have hnone : L.locate a = none := by
    rw [Option.eq_none_iff_forall_ne_some]
    intro p hp
    rw [locate_image hp] at himage
    cases himage
  simp [Kernel.poke, hnone, himage, hframes]

theorem pokes_outside {stores : List (Word × Byte)}
    (h : ∀ p ∈ stores, Outside L frames p.1) :
    k.pokes L frames stores = some k := by
  induction stores with
  | nil =>
      rfl
  | cons p stores ih =>
      rw [Kernel.pokes, poke_outside (h p List.mem_cons_self), Option.bind_some]
      exact ih (fun q hq => h q (List.mem_cons_of_mem _ hq))

end Pokes

/-! ### The stores of a call -/

/-- What `tty_read` stores for a character: an index of the buffer and a byte. -/
def keyStores (count : Nat) (l : LineBuf) (res : Int) : List (Nat × Byte) :=
  if res = 0 then []
  else if res = 8 then
    if l.textCur ≠ 0 then [(l.textCur - 1, 0)] else []
  else if l.textCur < count then [(l.textCur, BitVec.ofInt 8 res)]
  else []

/-- The stores of `tty_read`, oldest first. -/
def readStores (count : Nat) : LineBuf → List Int → List (Nat × Byte)
  | _, [] => []
  | l, res :: rest =>
      if res < 0 then readStores count l rest
      else if res = 10 then []
      else keyStores count l res ++ readStores count (readKey count l res) rest

section Read

variable {count : Nat} {l : LineBuf}

theorem readKey_buf (count : Nat) (l : LineBuf) (res : Int) :
    (readKey count l res).buf =
      (keyStores count l res).foldl (fun m p => Function.update m p.1 p.2) l.buf := by
  unfold readKey keyStores
  split
  · rfl
  split
  · split
    · rfl
    · rfl
  split
  · rfl
  · rfl

/-- The buffer that `tty_read` leaves has these stores in it. -/
theorem ttyRead_buf {keys rest : List Int} {l' : LineBuf}
    (h : ttyRead count l keys = some (l', rest)) :
    l'.buf = (readStores count l keys).foldl (fun m p => Function.update m p.1 p.2) l.buf := by
  induction keys generalizing l with
  | nil =>
      cases h
  | cons res keys ih =>
      rw [ttyRead] at h
      rw [readStores]
      split at h
      · rename_i hneg
        rw [if_pos hneg]
        exact ih h
      rename_i hneg
      split at h
      · rename_i henter
        rw [if_neg hneg, if_pos henter]
        cases h
        rfl
      · rename_i henter
        rw [if_neg hneg, if_neg henter, List.foldl_append, ← readKey_buf]
        exact ih h

theorem readKey_textCur_le (res : Int)
    (h : l.textCur ≤ count) :
    (readKey count l res).textCur ≤ count := by
  unfold readKey
  split
  · exact h
  split
  · split
    · exact (Nat.sub_le _ _).trans h
    · exact h
  split
  · assumption
  · exact h

/-- They lie in the buffer. -/
theorem keyStores_lt {res : Int} {p : Nat × Byte}
    (h : l.textCur ≤ count)
    (hp : p ∈ keyStores count l res) :
    p.1 < count := by
  unfold keyStores at hp
  split at hp
  · exact absurd hp List.not_mem_nil
  split at hp
  · split at hp
    · rw [List.mem_singleton.mp hp]
      dsimp only
      omega
    · exact absurd hp List.not_mem_nil
  split at hp
  · rw [List.mem_singleton.mp hp]
    assumption
  · exact absurd hp List.not_mem_nil

theorem readStores_lt {keys : List Int} {p : Nat × Byte}
    (h : l.textCur ≤ count)
    (hp : p ∈ readStores count l keys) :
    p.1 < count := by
  induction keys generalizing l with
  | nil =>
      exact absurd hp List.not_mem_nil
  | cons res keys ih =>
      rw [readStores] at hp
      split at hp
      · exact ih h hp
      split at hp
      · exact absurd hp List.not_mem_nil
      · rcases List.mem_append.mp hp with hfirst | hrest
        · exact keyStores_lt h hfirst
        · exact ih (readKey_textCur_le res h) hrest

end Read

/-- The stores of `uname`, member after member. -/
def unameStores (compiled : CompileTime) : List (Nat × Byte) :=
  [UtsField.sysname, .nodename, .release, .version, .machine].flatMap
    (fun f => CString.copyStores f.offset (f.text compiled))

/-- The structure that `uname` leaves has these stores in it. -/
theorem sysUname_eq (compiled : CompileTime) (out : Nat → Byte) :
    sysUname compiled out =
      (unameStores compiled).foldl (fun m p => Function.update m p.1 p.2) out := by
  unfold sysUname strcpy unameStores
  simp only [CString.copy_eq_foldl, List.flatMap_cons, List.flatMap_nil, List.foldl_append,
    List.foldl_nil]

/-- The strings lie in the structure. -/
theorem unameStores_lt {compiled : CompileTime} {p : Nat × Byte}
    (h : p ∈ unameStores compiled) :
    p.1 < 5 * utsnameNameCap := by
  obtain ⟨f, -, hp⟩ := List.mem_flatMap.mp h
  have hrange := CString.mem_copyStores hp
  have hlength := text_length_lt compiled f
  cases f <;> simp only [UtsField.offset] at hrange <;> omega

/-- The stores of `time`. -/
def timeStores (rtc : Nat → Byte) : List (Nat × Byte) :=
  CString.copyStores 0 ((List.range 4).map (fun i => (time rtc >>> (8 * i)).setWidth 8))

theorem timeStores_lt {rtc : Nat → Byte} {p : Nat × Byte}
    (h : p ∈ timeStores rtc) :
    p.1 < 4 := by
  simpa using (CString.mem_copyStores h).2

/-- Stores into an array at an address. -/
def storesAt (a : Word) (ps : List (Nat × Byte)) : List (Word × Byte) :=
  ps.map (fun p => (a + BitVec.ofNat 32 p.1, p.2))

/-- What the kernel reacts to.  To a system call belong the characters that are
typed before Enter while it waits, the registers of the clock, and where the
frames of handlers are. -/
inductive UserEvent where
  | call (regs : IntRegs) (keys : List Int) (rtc : Nat → Byte) (frames : Word → Bool)
  | other (e : Event) (h : ¬ e.IsSyscall)

namespace UserEvent

/-- The number of characters that `tty_read` returns. -/
def line (count : Nat) (keys : List Int) : Word :=
  match ttyRead count LineBuf.zeroed (keys ++ [10]) with
  | some (l, _) => BitVec.ofNat 32 l.textCur
  | none => 0

/-- The event without its stores. -/
def event : UserEvent → Event
  | .call regs keys _ _ => .syscall regs (line regs.ecx.toNat keys)
  | .other e _ => e

/-- The stores through the pointer in `ebx`. -/
def stores (compiled : CompileTime) (k : Kernel) : UserEvent → List (Word × Byte)
  | .call regs keys rtc _ =>
      match regs.eax.toNat with
      | 3 =>
          if k.current.tty.toNat ≥ ttysCap then []
          else storesAt regs.ebx (readStores regs.ecx.toNat LineBuf.zeroed (keys ++ [10]))
      | 5 => storesAt regs.ebx (unameStores compiled)
      -- `time` does nothing with a null pointer
      | 6 => if regs.ebx = 0 then [] else storesAt regs.ebx (timeStores rtc)
      | _ => []
  | .other _ _ => []

/-- The buffer at `ebx`: `ecx` characters, a `struct utsname`, or a `time_t`. -/
def bufferSize : UserEvent → Nat
  | .call regs _ _ _ =>
      match regs.eax.toNat with
      | 3 => regs.ecx.toNat
      | 5 => 5 * utsnameNameCap
      | 6 => if regs.ebx = 0 then 0 else 4
      | _ => 0
  | .other _ _ => 0

/-- The bytes of handlers' frames at the time of a call. -/
def frames : UserEvent → Word → Bool
  | .call _ _ _ frames => frames
  | .other _ _ => fun _ => false

/-- The kernel uses no byte of the buffer. -/
def BufferOutside (L : Layout) : UserEvent → Prop
  | .call regs keys rtc frames => ∀ i < (call regs keys rtc frames).bufferSize,
      Outside L frames (regs.ebx + BitVec.ofNat 32 i)
  | .other _ _ => True

instance (L : Layout) (e : UserEvent) : Decidable (e.BufferOutside L) :=
  match e with
  | .call regs keys rtc frames =>
      inferInstanceAs (Decidable (∀ i < (call regs keys rtc frames).bufferSize,
        Outside L frames (regs.ebx + BitVec.ofNat 32 i)))
  | .other _ _ => .isTrue trivial

end UserEvent

/-- Why a run with stores ends: kernel code that does not return, or a store with
an effect that is not described. -/
inductive Stop where
  | halt (h : Halt)
  | astray

/-- One reaction of the kernel, with the stores of the call. -/
def userStep (L : Layout) (compiled : CompileTime) (k : Kernel) (e : UserEvent) :
    Except Stop Kernel :=
  match step k e.event with
  | .error h => .error (.halt h)
  | .ok k' =>
      match k'.pokes L e.frames (e.stores compiled k) with
      | some k'' => .ok k''
      | none => .error .astray

/-- Booting, followed by events with stores. -/
def userRunFromBoot (L : Layout) (compiled : CompileTime) (img : Image) (regs : IntRegs)
    (es : List UserEvent) : Except Stop Kernel :=
  match kernelStart img regs with
  | .error h => .error (.halt h)
  | .ok (k, _) => run (userStep L compiled) k es

section Buffers

variable {L : Layout} {compiled : CompileTime}

theorem storesAt_mem {a : Word} {ps : List (Nat × Byte)} {n : Nat} {p : Word × Byte}
    (hps : ∀ q ∈ ps, q.1 < n)
    (h : p ∈ storesAt a ps) :
    ∃ i < n, p.1 = a + BitVec.ofNat 32 i := by
  obtain ⟨q, hq, rfl⟩ := List.mem_map.mp h
  exact ⟨q.1, hps q hq, rfl⟩

/-- A call stores in its buffer only. -/
theorem stores_mem {k : Kernel} {regs : IntRegs} {keys : List Int} {rtc : Nat → Byte}
    {frames : Word → Bool} {p : Word × Byte}
    (h : p ∈ (UserEvent.call regs keys rtc frames).stores compiled k) :
    ∃ i < (UserEvent.call regs keys rtc frames).bufferSize,
      p.1 = regs.ebx + BitVec.ofNat 32 i := by
  unfold UserEvent.stores at h
  unfold UserEvent.bufferSize
  dsimp only at h ⊢
  split at h
  · split at h
    · exact absurd h List.not_mem_nil
    · exact storesAt_mem (fun q hq => readStores_lt (Nat.zero_le _) hq) h
  · exact storesAt_mem (fun q => unameStores_lt) h
  · split at h
    · exact absurd h List.not_mem_nil
    · rename_i hnull
      rw [if_neg hnull]
      exact storesAt_mem (fun q => timeStores_lt) h
  · exact absurd h List.not_mem_nil

/-- With such a buffer a call stores nothing that the kernel uses. -/
theorem stores_outside {k : Kernel} {e : UserEvent}
    (houtside : e.BufferOutside L) :
    ∀ p ∈ e.stores compiled k, Outside L e.frames p.1 := by
  intro p hp
  cases e with
  | call regs keys rtc frames =>
      obtain ⟨i, hi, heq⟩ := stores_mem hp
      rw [heq]
      exact houtside i hi
  | other e h =>
      exact absurd hp List.not_mem_nil

/-- With such buffers the stores make no difference. -/
theorem step_of_userStep {k k' : Kernel} {e : UserEvent}
    (houtside : e.BufferOutside L)
    (h : userStep L compiled k e = .ok k') :
    step k e.event = .ok k' := by
  unfold userStep at h
  split at h
  · cases h
  · rename_i k₁ hstep
    rw [pokes_outside (stores_outside houtside)] at h
    rw [hstep, Except.ok.inj h]

theorem run_of_userRun {k k' : Kernel} {es : List UserEvent}
    (houtside : ∀ e ∈ es, e.BufferOutside L)
    (h : run (userStep L compiled) k es = .ok k') :
    run step k (es.map UserEvent.event) = .ok k' :=
  run_map_ok (fun e he _ _ => step_of_userStep (houtside e he)) h

/-- A run of such calls reaches what the machine without stores reaches. -/
theorem reachable_of_userRun {img : Image} {regs : IntRegs} {es : List UserEvent} {k : Kernel}
    (houtside : ∀ e ∈ es, e.BufferOutside L)
    (h : userRunFromBoot L compiled img regs es = .ok k) :
    Reachable k := by
  unfold userRunFromBoot at h
  split at h
  · cases h
  · rename_i k₀ regs₀ hstart
    exact ⟨img, regs, es.map UserEvent.event,
      runFromBoot_iff.mpr ⟨k₀, regs₀, hstart, run_of_userRun houtside h⟩⟩

end Buffers

/-! ### The scheduler invariant -/

/-- **The scheduler invariant holds in every state reached by calls with their
buffers outside the kernel's memory.** -/
theorem scheduler_invariant (L : Layout) (compiled : CompileTime) (img : Image) (regs : IntRegs)
    (es : List UserEvent) (k : Kernel)
    (houtside : ∀ e ∈ es, e.BufferOutside L)
    (h : userRunFromBoot L compiled img regs es = .ok k) :
    0 ≤ k.currentTask ∧ k.currentTask < tasksCap ∧
    (k.tasks k.currentTask).status ≠ .dead ∧
    (k.tasks k.currentTask).paused = false ∧
    (k.tasks 0).status ≠ .dead := by
  obtain ⟨hlt, hrunnable, hinit, -⟩ := (reachable_of_userRun houtside h).schedInv
  exact ⟨Nat.zero_le _, hlt, hrunnable.1, hrunnable.2, hinit⟩

/-- A kernel in the first 512 KiB, with its variables one after the other. -/
def Layout.sample : Layout where
  image := fun a => 0x7E00 ≤ a.toNat ∧ a.toNat < 0x80000
  address := fun
    | .tasks => 0x50000
    | .currentTask => 0x62400
    | .isTaskingAvaliable => 0x62404
    | .useCurrentTty => 0x62405
    | .currentTtyDispl => 0x62408
  image_address := by
    intro v i hi
    cases v <;> simp [KernelVar.size, tasksCap, taskSize, BitVec.toNat_add] at hi ⊢ <;> omega

/-- A kernel compiled on `Nov 12 2025` at `10:00:00`. -/
def CompileTime.sample : CompileTime where
  date := [78, 111, 118, 32, 49, 50, 32, 50, 48, 50, 53]
  time := [49, 48, 58, 48, 48, 58, 48, 48]
  date_length := rfl
  time_length := rfl
  date_nonzero := by decide
  time_nonzero := by decide

/-- The registers of the clock at noon of 12 November 2025. -/
def rtcSample (reg : Nat) : Byte :=
  [0x00, 0, 0x00, 0, 0x12, 0, 0, 0x12, 0x11, 0x25].getD reg 0

/-- A task makes a system call with two arguments, with its stack pointer at
`0x3FFFF000`; `abc` is typed if it reads. -/
def callWithStores (eax ebx ecx : Word) : UserEvent :=
  .call { (default : IntRegs) with eax := eax, ebx := ebx, ecx := ecx, esp := 0x3FFFEFF4 }
    [97, 98, 99] rtcSample (fun a => 0x3FFFEE00 ≤ a.toNat ∧ a.toNat < 0x3FFFF000)

/-- Init reads a line, asks for the name of the system and for the time, all to a
buffer on its stack, and yields. -/
def initUsesBuffer : List UserEvent :=
  [callWithStores 3 0x3FFFF000 16, callWithStores 5 0x3FFFF000 0, callWithStores 6 0x3FFFF000 0,
    callWithStores 4 0 0]

theorem scheduler_invariant_sample :
    ∃ k, userRunFromBoot Layout.sample CompileTime.sample Image.sample default initUsesBuffer =
        .ok k ∧
      k.currentTask = 1 ∧
      (k.tasks k.currentTask).status ≠ .dead ∧
      (k.tasks k.currentTask).paused = false ∧
      (k.tasks 0).status ≠ .dead := by
  obtain ⟨k, hrun, hcur⟩ := exists_of_returnsWith
    (x := userRunFromBoot Layout.sample CompileTime.sample Image.sample default initUsesBuffer)
    (p := fun k => k.currentTask = 1) (by decide +kernel)
  have houtside : ∀ e ∈ initUsesBuffer, e.BufferOutside Layout.sample := by
    decide +kernel
  obtain ⟨-, -, hrest⟩ := scheduler_invariant _ _ _ _ _ k houtside hrun
  exact ⟨k, hrun, hcur, hrest⟩

/-- Init asks for the time and gives the address of `current_task`: the number of
seconds since 1970 is not a slot. -/
theorem time_overwrites_current_task :
    ∃ k, userRunFromBoot Layout.sample CompileTime.sample Image.sample default
        [callWithStores 6 0x62400 0] = .ok k ∧
      ¬ (0 ≤ k.currentTask ∧ k.currentTask < tasksCap ∧
        (k.tasks k.currentTask).status ≠ .dead ∧
        (k.tasks k.currentTask).paused = false ∧
        (k.tasks 0).status ≠ .dead) := by
  obtain ⟨k, hrun, hcur⟩ := exists_of_returnsWith
    (x := userRunFromBoot Layout.sample CompileTime.sample Image.sample default
      [callWithStores 6 0x62400 0])
    (p := fun k => k.currentTask = 1762948800) (by decide +kernel)
  exact ⟨k, hrun, fun h => absurd h.2.1 (by rw [hcur]; decide)⟩

end Klyx
