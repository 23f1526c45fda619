import Klyx.Kernel.PushPop
import Klyx.Lib.StackMachine

/-!
# Emulated programs

The instructions of the emulator one after the other, on 32-bit registers and immediate
operands: a stack machine whose variables are the registers other than the stack
pointer, and whose stack lies in memory below some address.

**Results.**
* `represents_step`: one emulated instruction.
* `emulator_simulates`: straight-line programs, over both register structures.
* `emulated_save_restore`: registers that a program saves on the stack.
-/

namespace Klyx

open StackMemory

/-- A function of the emulator with both its operands. -/
structure EmuCall where
  func : I386Func
  arg0 : I386OperandLexpr
  arg1 : I386OperandRexpr

/-- Emulate instructions from the first one on. -/
def emulate {ρ : Type} (B : BackEnd ρ) (s : EmuState ρ) : List EmuCall → Option (EmuState ρ)
  | [] => some s
  | c :: cs => (mc B s c.arg0 c.arg1 c.func).bind (fun s' => emulate B s' cs)

/-- A 32-bit register other than the stack pointer. -/
abbrev FullReg : Type :=
  { r : I386Reg // r.part = .full ∧ r ≠ .esp }

/-- The operand that stands for a source. -/
def sourceOperand : StackMachine.Source FullReg Word → I386OperandRexpr
  | .var r => ⟨.reg, r.1.id⟩
  | .const w => ⟨.imm, w⟩

/-- The emulated instruction.  One operand of `push` and `pop` is not used. -/
def emuCall (arg0 : I386OperandLexpr) (arg1 : I386OperandRexpr) :
    StackMachine.Instr FullReg Word → EmuCall
  | .push e => ⟨.push, arg0, sourceOperand e⟩
  | .pop r => ⟨.pop, ⟨.reg, r.1.id⟩, arg1⟩
  | .add r e => ⟨.add, ⟨.reg, r.1.id⟩, sourceOperand e⟩
  | .sub r e => ⟨.sub, ⟨.reg, r.1.id⟩, sourceOperand e⟩

/-- The registers and the memory below `base` are a state of the stack machine, which
has room for `n` more values in `depth` bytes; the other bytes are those of `mem`. -/
structure Represents {ρ : Type} (B : BackEnd ρ) (base : Word) (depth : Nat)
    (mem : Word → Byte) (n : Nat) (s : EmuState ρ) (a : StackMachine.State FullReg Word) :
    Prop where
  regs : ∀ r : FullReg, B.rr s.regs r.1 = a.vars r
  esp : B.rr s.regs .esp = base - BitVec.ofNat 32 (4 * a.stack.length)
  stack : readWords s.mem (B.rr s.regs .esp) a.stack.length = a.stack
  room : 4 * (a.stack.length + n) ≤ depth
  depth_lt : depth < 2 ^ 32
  outside : ∀ x, (x - base).toNat + depth < 2 ^ 32 → s.mem x = mem x

section Registers

variable (t : Regs) (r r' : FullReg) (x : Word)

@[simp] theorem readRegByIdTr_write_reg :
    readRegByIdTr (writeRegByIdTr t r.1 x) r'.1 =
      if r' = r then x else readRegByIdTr t r'.1 := by
  split
  · rename_i heq
    rw [heq]
    exact readRegByIdTr_write_full t x r.2.1
  · rename_i hne
    refine readRegByIdTr_write_outside t x r.2.1 ?_
    rw [whole_of_full r'.2.1]
    exact fun heq => hne (Subtype.ext heq)

@[simp] theorem readRegByIdTr_write_reg_esp :
    readRegByIdTr (writeRegByIdTr t r.1 x) .esp = readRegByIdTr t .esp :=
  readRegByIdTr_write_outside t x r.2.1 (Ne.symm r.2.2)

@[simp] theorem readRegByIdTr_write_esp :
    readRegByIdTr (writeRegByIdTr t .esp x) r.1 = readRegByIdTr t r.1 := by
  refine readRegByIdTr_write_outside t x rfl ?_
  rw [whole_of_full r.2.1]
  exact r.2.2

@[simp] theorem readRegByIdTr_write_esp_self :
    readRegByIdTr (writeRegByIdTr t .esp x) .esp = x :=
  readRegByIdTr_write_full t x rfl

/-- An operand has the value of its source. -/
theorem regetTr_sourceOperand (s : EmuState Regs) (e : StackMachine.Source FullReg Word) :
    regetTr s (sourceOperand e) = some (e.value (fun r => readRegByIdTr s.regs r.1)) := by
  cases e with
  | var r =>
      simp [regetTr, sourceOperand, I386OperandRexpr.reg1, readIdTr, StackMachine.Source.value]
  | const w =>
      rfl

end Registers

section Instructions

variable {base : Word} {depth n : Nat} {mem : Word → Byte} {s : EmuState Regs}
  {a a' : StackMachine.State FullReg Word} {i : StackMachine.Instr FullReg Word}

/-- An operand has the value of its source in the stack machine. -/
theorem Represents.source
    (h : Represents taskRegsBackEnd base depth mem n s a)
    (e : StackMachine.Source FullReg Word) :
    regetTr s (sourceOperand e) = some (e.value a.vars) := by
  rw [regetTr_sourceOperand]
  exact congrArg (fun vars => some (e.value vars)) (funext h.regs)

/-- An assignment to one register. -/
theorem Represents.assign
    (h : Represents taskRegsBackEnd base depth mem (n + 1) s a)
    (r : FullReg)
    (x : Word) :
    Represents taskRegsBackEnd base depth mem n
      { s with regs := writeRegByIdTr s.regs r.1 x }
      { a with vars := Function.update a.vars r x } := by
  have hesp := readRegByIdTr_write_reg_esp s.regs r x
  have hroom := h.room
  refine ⟨?_, hesp.trans h.esp, ?_, ?_, h.depth_lt, h.outside⟩
  · intro r'
    refine (readRegByIdTr_write_reg s.regs r r' x).trans ?_
    have hreg : readRegByIdTr s.regs r'.1 = a.vars r' := h.regs r'
    rw [hreg]
    exact (Function.update_apply a.vars r x r').symm
  · exact (congrArg (fun p => readWords s.mem p a.stack.length) hesp).trans h.stack
  · dsimp only
    omega

/-- A value on top of the stack. -/
theorem Represents.push
    (h : Represents taskRegsBackEnd base depth mem (n + 1) s a)
    (w : Word) :
    Represents taskRegsBackEnd base depth mem n
      { regs := writeRegByIdTr s.regs .esp (readRegByIdTr s.regs .esp - 4)
        mem := write s.mem (readRegByIdTr s.regs .esp - 4) w }
      { a with stack := w :: a.stack } := by
  have hroom := h.room
  have hdepth := h.depth_lt
  have hesp : readRegByIdTr s.regs .esp = base - BitVec.ofNat 32 (4 * a.stack.length) := h.esp
  refine ⟨?_, ?_, ?_, ?_, hdepth, ?_⟩
  · intro r
    exact (readRegByIdTr_write_esp s.regs r _).trans (h.regs r)
  · refine (readRegByIdTr_write_esp_self s.regs _).trans ?_
    change readRegByIdTr s.regs .esp - 4 = base - BitVec.ofNat 32 (4 * (a.stack.length + 1))
    rw [hesp]
    bv_omega
  · have hbelow := readWords_write_below (m := s.mem) (a := readRegByIdTr s.regs .esp) (w := w)
      (n := a.stack.length) (by omega)
    have hnext : readRegByIdTr s.regs .esp - 4 + 4 = readRegByIdTr s.regs .esp :=
      BitVec.sub_add_cancel _ _
    have hstack : readWords s.mem (readRegByIdTr s.regs .esp) a.stack.length = a.stack := h.stack
    have hpointer := readRegByIdTr_write_esp_self s.regs (readRegByIdTr s.regs .esp - 4)
    refine (congrArg (fun p => readWords _ p (a.stack.length + 1)) hpointer).trans ?_
    change readWords (write s.mem (readRegByIdTr s.regs .esp - 4) w) _ (a.stack.length + 1) = _
    rw [readWords, read_write, hnext, hbelow, hstack]
  · simp only [List.length_cons]
    omega
  · intro x hx
    refine (write_of_above ?_).trans (h.outside x hx)
    rw [hesp]
    bv_omega

/-- The value on top of the stack is taken away. -/
theorem Represents.pop {w : Word} {ws : List Word}
    (h : Represents taskRegsBackEnd base depth mem n s a)
    (hstack : a.stack = w :: ws) :
    read s.mem (readRegByIdTr s.regs .esp) = w ∧
      Represents taskRegsBackEnd base depth mem n
        { s with regs := writeRegByIdTr s.regs .esp (readRegByIdTr s.regs .esp + 4) }
        { a with stack := ws } := by
  have hroom := h.room
  have hdepth := h.depth_lt
  have hesp : readRegByIdTr s.regs .esp = base - BitVec.ofNat 32 (4 * a.stack.length) := h.esp
  have hwords : readWords s.mem (readRegByIdTr s.regs .esp) a.stack.length = a.stack := h.stack
  rw [hstack, List.length_cons] at hesp hroom
  rw [hstack, List.length_cons, readWords] at hwords
  rcases List.cons.inj hwords with ⟨htop, hrest⟩
  refine ⟨htop, ?_, ?_, ?_, by dsimp only; omega, hdepth, h.outside⟩
  · intro r
    exact (readRegByIdTr_write_esp s.regs r _).trans (h.regs r)
  · refine (readRegByIdTr_write_esp_self s.regs _).trans ?_
    change readRegByIdTr s.regs .esp + 4 = base - BitVec.ofNat 32 (4 * ws.length)
    rw [hesp]
    bv_omega
  · refine Eq.trans ?_ hrest
    exact congrArg (fun p => readWords s.mem p ws.length) (readRegByIdTr_write_esp_self s.regs _)

theorem lesetTr_reg (s : EmuState Regs) (r : FullReg) (x : Word) :
    lesetTr s ⟨.reg, r.1.id⟩ x = some { s with regs := writeRegByIdTr s.regs r.1 x } := by
  simp [lesetTr, I386OperandLexpr.reg1, writeIdTr]

theorem Represents.legetTr_reg
    (h : Represents taskRegsBackEnd base depth mem n s a)
    (r : FullReg) :
    legetTr s ⟨.reg, r.1.id⟩ = some (a.vars r) := by
  rw [← h.regs r]
  simp [legetTr, I386OperandLexpr.reg1, readIdTr]
  rfl

/-- **One emulated instruction** is one instruction of the stack machine. -/
theorem represents_step (arg0 : I386OperandLexpr) (arg1 : I386OperandRexpr)
    (h : Represents taskRegsBackEnd base depth mem (n + 1) s a)
    (hstep : StackMachine.step a i = some a') :
    ∃ s', mc taskRegsBackEnd s (emuCall arg0 arg1 i).arg0 (emuCall arg0 arg1 i).arg1
        (emuCall arg0 arg1 i).func = some s' ∧
      Represents taskRegsBackEnd base depth mem n s' a' := by
  cases i with
  | push e =>
      cases hstep
      refine ⟨_, ?_, h.push (e.value a.vars)⟩
      -- the operand is not the stack pointer, which has moved already
      have hvars : (fun r : FullReg => readRegByIdTr
          (writeRegByIdTr s.regs .esp (readRegByIdTr s.regs .esp - 4)) r.1) = a.vars :=
        funext fun r => (readRegByIdTr_write_esp s.regs r _).trans (h.regs r)
      have hsource := regetTr_sourceOperand
        { s with regs := writeRegByIdTr s.regs .esp (readRegByIdTr s.regs .esp - 4) } e
      rw [hvars] at hsource
      simp only [emuCall, mc, taskRegsBackEnd, hsource]
      simp
  | pop r =>
      cases hstack : a.stack with
      | nil =>
          simp [StackMachine.step, hstack] at hstep
      | cons w ws =>
          simp only [StackMachine.step, hstack, Option.some_inj] at hstep
          subst hstep
          have hassign := h.assign r w
          rcases hassign.pop (show _ = w :: ws from hstack) with ⟨-, hpop⟩
          refine ⟨_, ?_, hpop⟩
          have htop := (h.pop hstack).1
          simp only [emuCall, mc, taskRegsBackEnd, htop, lesetTr_reg]
          rfl
  | add r e =>
      cases hstep
      refine ⟨_, ?_, h.assign r (a.vars r + e.value a.vars)⟩
      have hsource := h.source e
      have hold := h.legetTr_reg r
      simp only [emuCall, mc, taskRegsBackEnd, hsource, hold]
      exact lesetTr_reg s r _
  | sub r e =>
      cases hstep
      refine ⟨_, ?_, h.assign r (a.vars r - e.value a.vars)⟩
      have hsource := h.source e
      have hold := h.legetTr_reg r
      simp only [emuCall, mc, taskRegsBackEnd, hsource, hold]
      exact lesetTr_reg s r _

end Instructions

/-- Any state is one with nothing on its stack. -/
theorem represents_initial {ρ : Type} (B : BackEnd ρ) (s : EmuState ρ) {n : Nat}
    (hn : 4 * n < 2 ^ 32) :
    Represents B (B.rr s.regs .esp) (4 * n) s.mem n s ⟨fun r => B.rr s.regs r.1, []⟩ :=
  ⟨fun _ => rfl, (BitVec.sub_zero _).symm, rfl, by simp, hn, fun _ _ => rfl⟩

/-- Straight-line programs of the stack machine do in the emulator what they should. -/
def Simulates {ρ : Type} (B : BackEnd ρ) : Prop :=
  ∀ (base : Word) (depth : Nat) (mem : Word → Byte) (s : EmuState ρ)
    (a a' : StackMachine.State FullReg Word)
    (p : List (StackMachine.Instr FullReg Word))
    (arg0 : I386OperandLexpr) (arg1 : I386OperandRexpr),
    Represents B base depth mem p.length s a →
    StackMachine.run a p = some a' →
    ∃ s', emulate B s (p.map (emuCall arg0 arg1)) = some s' ∧
      Represents B base depth mem 0 s' a'

theorem taskRegs_simulates : Simulates taskRegsBackEnd := by
  intro base depth mem s a a' p arg0 arg1 hrel hrun
  refine @StackMachine.run_simulation _ _ _ _ _ _
    (fun s p => emulate taskRegsBackEnd s (p.map (emuCall arg0 arg1)))
    (Represents taskRegsBackEnd base depth mem) (fun _ => rfl) ?_ s a a' p hrel hrun
  intro s i p n a a' hrel hstep
  rcases represents_step arg0 arg1 hrel hstep with ⟨s', hcall, hrel'⟩
  refine ⟨s', ?_, hrel'⟩
  simp only [List.map_cons, emulate, hcall, Option.bind_some]

section BackEnds

variable {ρ ρ' : Type} {B : BackEnd ρ} {B' : BackEnd ρ'} {f : ρ → ρ'}

/-- Emulating commutes with a map between two back ends. -/
theorem emulate_map
    (h : B.MapsTo B' f)
    (s : EmuState ρ)
    (cs : List EmuCall) :
    emulate B' (s.map f) cs = (emulate B s cs).map (EmuState.map f) := by
  induction cs generalizing s with
  | nil =>
      rfl
  | cons c cs ih =>
      rw [emulate, emulate, mc_map h]
      cases mc B s c.arg0 c.arg1 c.func with
      | none =>
          rfl
      | some s' =>
          exact ih s'

theorem represents_map {base : Word} {depth n : Nat} {mem : Word → Byte} {s : EmuState ρ}
    {a : StackMachine.State FullReg Word}
    (h : B.MapsTo B' f) :
    Represents B' base depth mem n (s.map f) a ↔ Represents B base depth mem n s a := by
  constructor
  · rintro ⟨hregs, hesp, hstack, hroom, hdepth, hout⟩
    simp only [EmuState.map, h.rr] at hregs hesp hstack
    exact ⟨hregs, hesp, hstack, hroom, hdepth, hout⟩
  · rintro ⟨hregs, hesp, hstack, hroom, hdepth, hout⟩
    refine ⟨?_, ?_, ?_, hroom, hdepth, hout⟩
    · simpa only [EmuState.map, h.rr] using hregs
    · simpa only [EmuState.map, h.rr] using hesp
    · simpa only [EmuState.map, h.rr] using hstack

/-- A simulation over one register structure is one over another that looks the same. -/
theorem Simulates.map
    (h : B.MapsTo B' f)
    (hf : Function.Surjective f)
    (hsim : Simulates B) :
    Simulates B' := by
  rintro base depth mem ⟨regs, m⟩ a a' p arg0 arg1 hrel hrun
  rcases hf regs with ⟨t, rfl⟩
  have hrel' : Represents B base depth mem p.length ⟨t, m⟩ a :=
    (represents_map (s := ⟨t, m⟩) h).mp hrel
  rcases hsim base depth mem ⟨t, m⟩ a a' p arg0 arg1 hrel' hrun with ⟨s', hemu, hrep⟩
  refine ⟨s'.map f, ?_, (represents_map h).mpr hrep⟩
  have hmap := emulate_map h ⟨t, m⟩ (p.map (emuCall arg0 arg1))
  rw [hemu] at hmap
  exact hmap

end BackEnds

theorem frame_surjective : Function.Surjective Regs.frame :=
  fun regs => ⟨Regs.zero.saveFrom regs, frame_saveFrom Regs.zero regs⟩

theorem intRegs_simulates : Simulates intRegsBackEnd :=
  taskRegs_simulates.map taskRegsBackEnd_mapsTo frame_surjective

/-- **Straight-line programs are emulated rightly**, over task registers and over an
interrupt frame that lie outside the addressed memory: pushes, pops, additions and
subtractions on 32-bit registers other than the stack pointer and immediate operands do
what they do on a stack machine, and no byte outside of the depth that is set aside for the
stack, one word for each instruction, changes. -/
theorem emulator_simulates :
    Simulates taskRegsBackEnd ∧ Simulates intRegsBackEnd :=
  ⟨taskRegs_simulates, intRegs_simulates⟩

/-- `push 5`, `pop ebx` with nothing on the stack before. -/
theorem emulator_simulates_sample :
    ∃ s', emulate taskRegsBackEnd ⟨Regs.zero, fun _ => 0⟩
        ([.push (.const 5), .pop ⟨.ebx, rfl, by decide⟩].map (emuCall ⟨.reg, 0⟩ ⟨.reg, 0⟩)) =
          some s' ∧
      taskRegsBackEnd.rr s'.regs .ebx = 5 := by
  have hinit := represents_initial taskRegsBackEnd ⟨Regs.zero, fun _ => 0⟩
    (show 4 * 2 < 2 ^ 32 by decide)
  rcases emulator_simulates.1 _ _ _ _ _ _ [.push (.const 5), .pop ⟨.ebx, rfl, by decide⟩]
    ⟨.reg, 0⟩ ⟨.reg, 0⟩ hinit rfl with ⟨s', hemu, hrep⟩
  exact ⟨s', hemu, (hrep.regs ⟨.ebx, rfl, by decide⟩).trans (by simp [StackMachine.Source.value])⟩

/-- Registers that a program saves on the stack are restored: it pushes `rs`, goes on
with a body that leaves the stack as it finds it, and pops `rs` in the opposite order. -/
def SavesRegisters {ρ : Type} (B : BackEnd ρ) : Prop :=
  ∀ (s : EmuState ρ) (rs : List FullReg) (body : List (StackMachine.Instr FullReg Word))
    (vars' : FullReg → Word) (arg0 : I386OperandLexpr) (arg1 : I386OperandRexpr),
    4 * (2 * rs.length + body.length) < 2 ^ 32 →
    StackMachine.run ⟨fun r => B.rr s.regs r.1, []⟩ body = some ⟨vars', []⟩ →
    ∃ s', emulate B s ((StackMachine.pushAll Word rs ++
        (body ++ StackMachine.popAll Word rs.reverse)).map (emuCall arg0 arg1)) = some s' ∧
      (∀ r : FullReg, B.rr s'.regs r.1 = if r ∈ rs then B.rr s.regs r.1 else vars' r) ∧
      B.rr s'.regs .esp = B.rr s.regs .esp ∧
      ∀ x, (x - B.rr s.regs .esp).toNat + 4 * (2 * rs.length + body.length) < 2 ^ 32 →
        s'.mem x = s.mem x

theorem Simulates.savesRegisters {ρ : Type} {B : BackEnd ρ}
    (h : Simulates B) :
    SavesRegisters B := by
  intro s rs body vars' arg0 arg1 hroom hbody
  have hlen : (StackMachine.pushAll Word rs ++
      (body ++ StackMachine.popAll Word rs.reverse)).length = 2 * rs.length + body.length := by
    simp [StackMachine.pushAll, StackMachine.popAll]
    omega
  have hinit := represents_initial B s hroom
  rw [← hlen] at hinit
  have hrun := StackMachine.run_save_restore
    (s := (⟨fun r => B.rr s.regs r.1, []⟩ : StackMachine.State FullReg Word)) rs hbody
  rcases h _ _ _ _ _ _ _ arg0 arg1 hinit hrun with ⟨s', hemu, hrep⟩
  refine ⟨s', hemu, ?_, ?_, ?_⟩
  · intro r
    simp [hrep.regs r]
  · exact hrep.esp.trans (BitVec.sub_zero _)
  · rw [← hlen]
    exact hrep.outside

/-- **Saved registers are restored**, over task registers and over an interrupt frame that
lie outside the addressed memory. -/
theorem emulated_save_restore :
    SavesRegisters taskRegsBackEnd ∧ SavesRegisters intRegsBackEnd :=
  ⟨taskRegs_simulates.savesRegisters, intRegs_simulates.savesRegisters⟩

/-- `ecx` is saved, added to, and restored. -/
theorem emulated_save_restore_sample :
    ∃ s', emulate taskRegsBackEnd ⟨Regs.zero, fun _ => 0⟩
        (([.push (.var ⟨.ecx, rfl, by decide⟩), .add ⟨.ecx, rfl, by decide⟩ (.const 5),
          .pop ⟨.ecx, rfl, by decide⟩]).map (emuCall ⟨.reg, 0⟩ ⟨.reg, 0⟩)) = some s' ∧
      taskRegsBackEnd.rr s'.regs .ecx = 0 := by
  rcases emulated_save_restore.1 ⟨Regs.zero, fun _ => 0⟩ [⟨.ecx, rfl, by decide⟩]
    [.add ⟨.ecx, rfl, by decide⟩ (.const 5)] _ ⟨.reg, 0⟩ ⟨.reg, 0⟩ (by decide) rfl with
    ⟨s', hemu, hregs, -⟩
  exact ⟨s', hemu, (hregs ⟨.ecx, rfl, by decide⟩).trans (by simp; rfl)⟩

end Klyx
