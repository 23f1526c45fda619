import Klyx.Kernel.SlotScan
import Klyx.Lib.StackMemory

/-!
# The i386 emulator

`kernel/i386_emulator.c`: register access by id, the operands, and the five
instructions, each in two copies, over the interrupt frame (`Ir`) and over the
saved registers of a task (`Tr`).

The components `reg1`, `reg2`, `imm1` and `imm2` of an operand are members of
one union, so that an operand holds a single word.  A register id that is not in
the enumeration reads no value (`none`); writing it does nothing.  The register
structures lie outside the memory that operands address.

**Results.**
* `mc_map`: an instruction commutes with a map between two back ends.
* `back_ends_agree`: the two copies agree.
-/

namespace Klyx

open StackMemory

/-- `i386_reg_t`. -/
inductive I386Reg where
  | eax | ebx | ecx | edx | esi | edi | esp | ebp | eip
  | ax | bx | cx | dx | si | di | sp | bp | ip
  | al | bl | cl | dl
  | ah | bh | ch | dh
  | eflags
  | cs | ds | ss | es | fs | gs
deriving DecidableEq

/-- The registers in the order of their numbers. -/
def I386Reg.all : List I386Reg :=
  [.eax, .ebx, .ecx, .edx, .esi, .edi, .esp, .ebp, .eip,
    .ax, .bx, .cx, .dx, .si, .di, .sp, .bp, .ip,
    .al, .bl, .cl, .dl,
    .ah, .bh, .ch, .dh,
    .eflags,
    .cs, .ds, .ss, .es, .fs, .gs]

/-- The register with a number. -/
def I386Reg.ofId? (id : Word) : Option I386Reg :=
  I386Reg.all[id.toNat]?

/-- `i386_operand_type_lexpr_t`. -/
inductive LoperandType where
  | reg | mem | sibRrn | sibDrrn | sibDrn
deriving DecidableEq

/-- `i386_operand_type_rexpr_t`. -/
inductive RoperandType where
  | reg | mem | sibRrn | sibDrrn | sibDrn | imm
deriving DecidableEq

/-- `i386_operand_lexpr_t`, with the word of its union. -/
structure I386OperandLexpr where
  type : LoperandType
  word : Word
deriving DecidableEq

/-- `i386_operand_rexpr_t`, with the word of its union. -/
structure I386OperandRexpr where
  type : RoperandType
  word : Word
deriving DecidableEq

namespace I386OperandLexpr

def reg1 (le : I386OperandLexpr) : Word := le.word
def imm1 (le : I386OperandLexpr) : Word := le.word
def imm2 (le : I386OperandLexpr) : Word := le.word

end I386OperandLexpr

namespace I386OperandRexpr

def reg1 (re : I386OperandRexpr) : Word := re.word
def imm1 (re : I386OperandRexpr) : Word := re.word
def imm2 (re : I386OperandRexpr) : Word := re.word

end I386OperandRexpr

/-- A register structure and the memory that an instruction works on.  The structure lies
outside this memory: no address of an instruction leads to it. -/
structure EmuState (ρ : Type) where
  regs : ρ
  mem : Word → Byte

/-! ### Over `int_regs_t` -/

/-- `I386EM_READ_REG_BY_ID_IR`. -/
def readRegByIdIr (regs : IntRegs) : I386Reg → Word
  | .eax => regs.eax
  | .ebx => regs.ebx
  | .ecx => regs.ecx
  | .edx => regs.edx
  | .esi => regs.esi
  | .edi => regs.edi
  | .esp => regs.esp
  | .ebp => regs.ebp
  | .eip => regs.eip
  | .ax => regs.eax &&& 0xFFFF
  | .bx => regs.ebx &&& 0xFFFF
  | .cx => regs.ecx &&& 0xFFFF
  | .dx => regs.edx &&& 0xFFFF
  | .si => regs.esi &&& 0xFFFF
  | .di => regs.edi &&& 0xFFFF
  | .sp => regs.esp &&& 0xFFFF
  | .bp => regs.ebp &&& 0xFFFF
  | .ip => regs.eip &&& 0xFFFF
  | .al => regs.eax &&& 0xFF
  | .bl => regs.ebx &&& 0xFF
  | .cl => regs.ecx &&& 0xFF
  | .dl => regs.edx &&& 0xFF
  | .ah => (regs.eax &&& 0xFFFF) >>> 8
  | .bh => (regs.ebx &&& 0xFFFF) >>> 8
  | .ch => (regs.ecx &&& 0xFFFF) >>> 8
  | .dh => (regs.edx &&& 0xFFFF) >>> 8
  | .eflags => regs.eflags
  | .cs => regs.cs
  | .ds => regs.ds
  | .ss => regs.ss
  | .es => regs.es
  | .fs => regs.fs
  | .gs => regs.gs

/-- `I386EM_WRITE_REG_BY_ID_IR`. -/
def writeRegByIdIr (regs : IntRegs) (id : I386Reg) (value : Word) : IntRegs :=
  match id with
  | .eax => { regs with eax := value }
  | .ebx => { regs with ebx := value }
  | .ecx => { regs with ecx := value }
  | .edx => { regs with edx := value }
  | .esi => { regs with esi := value }
  | .edi => { regs with edi := value }
  | .esp => { regs with esp := value }
  | .ebp => { regs with ebp := value }
  | .eip => { regs with eip := value }
  | .ax => { regs with eax := (regs.eax &&& 0xFFFF0000) ||| (value &&& 0x0000FFFF) }
  | .bx => { regs with ebx := (regs.ebx &&& 0xFFFF0000) ||| (value &&& 0x0000FFFF) }
  | .cx => { regs with ecx := (regs.ecx &&& 0xFFFF0000) ||| (value &&& 0x0000FFFF) }
  | .dx => { regs with edx := (regs.edx &&& 0xFFFF0000) ||| (value &&& 0x0000FFFF) }
  | .si => { regs with esi := (regs.esi &&& 0xFFFF0000) ||| (value &&& 0x0000FFFF) }
  | .di => { regs with edi := (regs.edi &&& 0xFFFF0000) ||| (value &&& 0x0000FFFF) }
  | .sp => { regs with esp := (regs.esp &&& 0xFFFF0000) ||| (value &&& 0x0000FFFF) }
  | .bp => { regs with ebp := (regs.ebp &&& 0xFFFF0000) ||| (value &&& 0x0000FFFF) }
  | .ip => { regs with eip := (regs.eip &&& 0xFFFF0000) ||| (value &&& 0x0000FFFF) }
  | .al => { regs with eax := (regs.eax &&& 0xFFFFFF00) ||| (value &&& 0x0000FF00) }
  | .bl => { regs with ebx := (regs.ebx &&& 0xFFFFFF00) ||| (value &&& 0x0000FF00) }
  | .cl => { regs with ecx := (regs.ecx &&& 0xFFFFFF00) ||| (value &&& 0x0000FF00) }
  | .dl => { regs with edx := (regs.edx &&& 0xFFFFFF00) ||| (value &&& 0x0000FF00) }
  | .ah => { regs with eax := (regs.eax &&& 0xFFFF00FF) ||| (value &&& 0x000000FF) }
  | .bh => { regs with ebx := (regs.ebx &&& 0xFFFF00FF) ||| (value &&& 0x000000FF) }
  | .ch => { regs with ecx := (regs.ecx &&& 0xFFFF00FF) ||| (value &&& 0x000000FF) }
  | .dh => { regs with edx := (regs.edx &&& 0xFFFF00FF) ||| (value &&& 0x000000FF) }
  | .eflags => { regs with eflags := value }
  | .cs => { regs with cs := value }
  | .ds => { regs with ds := value }
  | .ss => { regs with ss := value }
  | .es => { regs with es := value }
  | .fs => { regs with fs := value }
  | .gs => { regs with gs := value }

/-- `I386EM_READ_REG_BY_ID_IR` on an arbitrary id. -/
def readIdIr (regs : IntRegs) (id : Word) : Option Word :=
  (I386Reg.ofId? id).map (readRegByIdIr regs)

/-- `I386EM_WRITE_REG_BY_ID_IR` on an arbitrary id. -/
def writeIdIr (regs : IntRegs) (id value : Word) : IntRegs :=
  match I386Reg.ofId? id with
  | some r => writeRegByIdIr regs r value
  | none => regs

/-- `I386EM_LESET_IR`. -/
def lesetIr (s : EmuState IntRegs) (le : I386OperandLexpr) (val : Word) :
    Option (EmuState IntRegs) :=
  match le.type with
  | .reg => some { s with regs := writeIdIr s.regs le.reg1 val }
  | .mem => do
      let addr ← readIdIr s.regs le.imm1
      return { s with mem := write s.mem addr val }
  | .sibRrn => do
      let base ← readIdIr s.regs le.reg1
      let index ← readIdIr s.regs le.reg1
      return { s with mem := write s.mem (base + index * le.imm1) val }
  | .sibDrrn => do
      let base ← readIdIr s.regs le.reg1
      let index ← readIdIr s.regs le.reg1
      return { s with mem := write s.mem (base + index * le.imm2 + le.imm1) val }
  | .sibDrn => do
      let index ← readIdIr s.regs le.reg1
      return { s with mem := write s.mem (index * le.imm2 + le.imm1) val }

/-- `I386EM_LEGET_IR`. -/
def legetIr (s : EmuState IntRegs) (le : I386OperandLexpr) : Option Word :=
  match le.type with
  | .reg => readIdIr s.regs le.reg1
  | .mem => do
      let addr ← readIdIr s.regs le.imm1
      return read s.mem addr
  | .sibRrn => do
      let base ← readIdIr s.regs le.reg1
      let index ← readIdIr s.regs le.reg1
      return read s.mem (base + index * le.imm1)
  | .sibDrrn => do
      let base ← readIdIr s.regs le.reg1
      let index ← readIdIr s.regs le.reg1
      return read s.mem (base + index * le.imm2 + le.imm1)
  | .sibDrn => do
      let index ← readIdIr s.regs le.reg1
      return read s.mem (index * le.imm2 + le.imm1)

/-- `I386EM_REGET_IR`. -/
def regetIr (s : EmuState IntRegs) (re : I386OperandRexpr) : Option Word :=
  match re.type with
  | .reg => readIdIr s.regs re.reg1
  | .mem => do
      let addr ← readIdIr s.regs re.imm1
      return read s.mem addr
  | .sibRrn => do
      let base ← readIdIr s.regs re.reg1
      let index ← readIdIr s.regs re.reg1
      return read s.mem (base + index * re.imm1)
  | .sibDrrn => do
      let base ← readIdIr s.regs re.reg1
      let index ← readIdIr s.regs re.reg1
      return read s.mem (base + index * re.imm2 + re.imm1)
  | .sibDrn => do
      let index ← readIdIr s.regs re.reg1
      return read s.mem (index * re.imm2 + re.imm1)
  | .imm => some re.imm1

/-! ### Over `regs_t` -/

/-- `I386EM_READ_REG_BY_ID_TR`. -/
def readRegByIdTr (regs : Regs) : I386Reg → Word
  | .eax => regs.eax
  | .ebx => regs.ebx
  | .ecx => regs.ecx
  | .edx => regs.edx
  | .esi => regs.esi
  | .edi => regs.edi
  | .esp => regs.esp
  | .ebp => regs.ebp
  | .eip => regs.eip
  | .ax => regs.eax &&& 0xFFFF
  | .bx => regs.ebx &&& 0xFFFF
  | .cx => regs.ecx &&& 0xFFFF
  | .dx => regs.edx &&& 0xFFFF
  | .si => regs.esi &&& 0xFFFF
  | .di => regs.edi &&& 0xFFFF
  | .sp => regs.esp &&& 0xFFFF
  | .bp => regs.ebp &&& 0xFFFF
  | .ip => regs.eip &&& 0xFFFF
  | .al => regs.eax &&& 0xFF
  | .bl => regs.ebx &&& 0xFF
  | .cl => regs.ecx &&& 0xFF
  | .dl => regs.edx &&& 0xFF
  | .ah => (regs.eax &&& 0xFFFF) >>> 8
  | .bh => (regs.ebx &&& 0xFFFF) >>> 8
  | .ch => (regs.ecx &&& 0xFFFF) >>> 8
  | .dh => (regs.edx &&& 0xFFFF) >>> 8
  | .eflags => regs.eflags
  | .cs => regs.cs
  | .ds => regs.ds
  | .ss => regs.ss
  | .es => regs.es
  | .fs => regs.fs
  | .gs => regs.gs

/-- `I386EM_WRITE_REG_BY_ID_TR`. -/
def writeRegByIdTr (regs : Regs) (id : I386Reg) (value : Word) : Regs :=
  match id with
  | .eax => { regs with eax := value }
  | .ebx => { regs with ebx := value }
  | .ecx => { regs with ecx := value }
  | .edx => { regs with edx := value }
  | .esi => { regs with esi := value }
  | .edi => { regs with edi := value }
  | .esp => { regs with esp := value }
  | .ebp => { regs with ebp := value }
  | .eip => { regs with eip := value }
  | .ax => { regs with eax := (regs.eax &&& 0xFFFF0000) ||| (value &&& 0x0000FFFF) }
  | .bx => { regs with ebx := (regs.ebx &&& 0xFFFF0000) ||| (value &&& 0x0000FFFF) }
  | .cx => { regs with ecx := (regs.ecx &&& 0xFFFF0000) ||| (value &&& 0x0000FFFF) }
  | .dx => { regs with edx := (regs.edx &&& 0xFFFF0000) ||| (value &&& 0x0000FFFF) }
  | .si => { regs with esi := (regs.esi &&& 0xFFFF0000) ||| (value &&& 0x0000FFFF) }
  | .di => { regs with edi := (regs.edi &&& 0xFFFF0000) ||| (value &&& 0x0000FFFF) }
  | .sp => { regs with esp := (regs.esp &&& 0xFFFF0000) ||| (value &&& 0x0000FFFF) }
  | .bp => { regs with ebp := (regs.ebp &&& 0xFFFF0000) ||| (value &&& 0x0000FFFF) }
  | .ip => { regs with eip := (regs.eip &&& 0xFFFF0000) ||| (value &&& 0x0000FFFF) }
  | .al => { regs with eax := (regs.eax &&& 0xFFFFFF00) ||| (value &&& 0x0000FF00) }
  | .bl => { regs with ebx := (regs.ebx &&& 0xFFFFFF00) ||| (value &&& 0x0000FF00) }
  | .cl => { regs with ecx := (regs.ecx &&& 0xFFFFFF00) ||| (value &&& 0x0000FF00) }
  | .dl => { regs with edx := (regs.edx &&& 0xFFFFFF00) ||| (value &&& 0x0000FF00) }
  | .ah => { regs with eax := (regs.eax &&& 0xFFFF00FF) ||| (value &&& 0x000000FF) }
  | .bh => { regs with ebx := (regs.ebx &&& 0xFFFF00FF) ||| (value &&& 0x000000FF) }
  | .ch => { regs with ecx := (regs.ecx &&& 0xFFFF00FF) ||| (value &&& 0x000000FF) }
  | .dh => { regs with edx := (regs.edx &&& 0xFFFF00FF) ||| (value &&& 0x000000FF) }
  | .eflags => { regs with eflags := value }
  | .cs => { regs with cs := value }
  | .ds => { regs with ds := value }
  | .ss => { regs with ss := value }
  | .es => { regs with es := value }
  | .fs => { regs with fs := value }
  | .gs => { regs with gs := value }

/-- `I386EM_READ_REG_BY_ID_TR` on an arbitrary id. -/
def readIdTr (regs : Regs) (id : Word) : Option Word :=
  (I386Reg.ofId? id).map (readRegByIdTr regs)

/-- `I386EM_WRITE_REG_BY_ID_TR` on an arbitrary id. -/
def writeIdTr (regs : Regs) (id value : Word) : Regs :=
  match I386Reg.ofId? id with
  | some r => writeRegByIdTr regs r value
  | none => regs

/-- `I386EM_LESET_TR`. -/
def lesetTr (s : EmuState Regs) (le : I386OperandLexpr) (val : Word) :
    Option (EmuState Regs) :=
  match le.type with
  | .reg => some { s with regs := writeIdTr s.regs le.reg1 val }
  | .mem => do
      let addr ← readIdTr s.regs le.imm1
      return { s with mem := write s.mem addr val }
  | .sibRrn => do
      let base ← readIdTr s.regs le.reg1
      let index ← readIdTr s.regs le.reg1
      return { s with mem := write s.mem (base + index * le.imm1) val }
  | .sibDrrn => do
      let base ← readIdTr s.regs le.reg1
      let index ← readIdTr s.regs le.reg1
      return { s with mem := write s.mem (base + index * le.imm2 + le.imm1) val }
  | .sibDrn => do
      let index ← readIdTr s.regs le.reg1
      return { s with mem := write s.mem (index * le.imm2 + le.imm1) val }

/-- `I386EM_LEGET_TR`. -/
def legetTr (s : EmuState Regs) (le : I386OperandLexpr) : Option Word :=
  match le.type with
  | .reg => readIdTr s.regs le.reg1
  | .mem => do
      let addr ← readIdTr s.regs le.imm1
      return read s.mem addr
  | .sibRrn => do
      let base ← readIdTr s.regs le.reg1
      let index ← readIdTr s.regs le.reg1
      return read s.mem (base + index * le.imm1)
  | .sibDrrn => do
      let base ← readIdTr s.regs le.reg1
      let index ← readIdTr s.regs le.reg1
      return read s.mem (base + index * le.imm2 + le.imm1)
  | .sibDrn => do
      let index ← readIdTr s.regs le.reg1
      return read s.mem (index * le.imm2 + le.imm1)

/-- `I386EM_REGET_TR`. -/
def regetTr (s : EmuState Regs) (re : I386OperandRexpr) : Option Word :=
  match re.type with
  | .reg => readIdTr s.regs re.reg1
  | .mem => do
      let addr ← readIdTr s.regs re.imm1
      return read s.mem addr
  | .sibRrn => do
      let base ← readIdTr s.regs re.reg1
      let index ← readIdTr s.regs re.reg1
      return read s.mem (base + index * re.imm1)
  | .sibDrrn => do
      let base ← readIdTr s.regs re.reg1
      let index ← readIdTr s.regs re.reg1
      return read s.mem (base + index * re.imm2 + re.imm1)
  | .sibDrn => do
      let index ← readIdTr s.regs re.reg1
      return read s.mem (index * re.imm2 + re.imm1)
  | .imm => some re.imm1

/-! ### The instructions -/

/-- The functions that `I386E_FUNC` hands to the body of an instruction. -/
structure BackEnd (ρ : Type) where
  les : EmuState ρ → I386OperandLexpr → Word → Option (EmuState ρ)
  leg : EmuState ρ → I386OperandLexpr → Option Word
  reg : EmuState ρ → I386OperandRexpr → Option Word
  rr : ρ → I386Reg → Word
  wr : ρ → I386Reg → Word → ρ

def intRegsBackEnd : BackEnd IntRegs :=
  ⟨lesetIr, legetIr, regetIr, readRegByIdIr, writeRegByIdIr⟩

def taskRegsBackEnd : BackEnd Regs :=
  ⟨lesetTr, legetTr, regetTr, readRegByIdTr, writeRegByIdTr⟩

/-- The instructions declared with `I386E_FUNC`. -/
inductive I386Func where
  | add | sub | jmpFar | push | pop
deriving DecidableEq

/-- The macro `MC` of each instruction. -/
def mc {ρ : Type} (B : BackEnd ρ) (s : EmuState ρ) (arg0 : I386OperandLexpr)
    (arg1 : I386OperandRexpr) : I386Func → Option (EmuState ρ)
  | .add => do
      let l ← B.leg s arg0
      let r ← B.reg s arg1
      B.les s arg0 (l + r)
  | .sub => do
      let l ← B.leg s arg0
      let r ← B.reg s arg1
      B.les s arg0 (l - r)
  | .jmpFar => do
      let r ← B.reg s arg1
      return { s with regs := B.wr s.regs .eip r }
  | .push => do
      let s := { s with regs := B.wr s.regs .esp (B.rr s.regs .esp - 4) }
      let r ← B.reg s arg1
      return { s with mem := write s.mem (B.rr s.regs .esp) r }
  | .pop => do
      let s ← B.les s arg0 (read s.mem (B.rr s.regs .esp))
      return { s with regs := B.wr s.regs .esp (B.rr s.regs .esp + 4) }

/-- `i386_emu_int_regs_X`. -/
def i386EmuIntRegs (X : I386Func) (s : EmuState IntRegs) (arg0 : I386OperandLexpr)
    (arg1 : I386OperandRexpr) : Option (EmuState IntRegs) :=
  mc intRegsBackEnd s arg0 arg1 X

/-- `i386_emu_task_regs_X`. -/
def i386EmuTaskRegs (X : I386Func) (s : EmuState Regs) (arg0 : I386OperandLexpr)
    (arg1 : I386OperandRexpr) : Option (EmuState Regs) :=
  mc taskRegsBackEnd s arg0 arg1 X

/-! ### Agreement -/

def EmuState.map {ρ ρ' : Type} (f : ρ → ρ') (s : EmuState ρ) : EmuState ρ' :=
  ⟨f s.regs, s.mem⟩

/-- The functions of one back end are those of another, seen through a map of
the register structures. -/
structure BackEnd.MapsTo {ρ ρ' : Type} (B : BackEnd ρ) (B' : BackEnd ρ') (f : ρ → ρ') :
    Prop where
  les : ∀ s le val, B'.les (s.map f) le val = (B.les s le val).map (EmuState.map f)
  leg : ∀ s le, B'.leg (s.map f) le = B.leg s le
  reg : ∀ s re, B'.reg (s.map f) re = B.reg s re
  rr : ∀ regs id, B'.rr (f regs) id = B.rr regs id
  wr : ∀ regs id value, B'.wr (f regs) id value = f (B.wr regs id value)

/-- An instruction does the same through both back ends. -/
theorem mc_map {ρ ρ' : Type} {B : BackEnd ρ} {B' : BackEnd ρ'} {f : ρ → ρ'}
    (h : B.MapsTo B' f) (X : I386Func) (s : EmuState ρ) (arg0 : I386OperandLexpr)
    (arg1 : I386OperandRexpr) :
    mc B' (s.map f) arg0 arg1 X = (mc B s arg0 arg1 X).map (EmuState.map f) := by
  cases X with
  | add | sub =>
      simp only [mc, h.leg, h.reg, h.les]
      cases B.leg s arg0 with
      | none => rfl
      | some l =>
          cases B.reg s arg1 with
          | none => rfl
          | some r => rfl
  | jmpFar =>
      simp only [mc, h.reg]
      cases B.reg s arg1 with
      | none => rfl
      | some r => simp [EmuState.map, h.wr]
  | push =>
      -- the source operand is read with the stack pointer already moved
      have hreg := h.reg { s with regs := B.wr s.regs .esp (B.rr s.regs .esp - 4) } arg1
      simp only [EmuState.map] at hreg
      simp only [mc, EmuState.map, h.rr, h.wr, hreg]
      cases B.reg { s with regs := B.wr s.regs .esp (B.rr s.regs .esp - 4) } arg1 with
      | none => rfl
      | some r => rfl
  | pop =>
      have hles := h.les s arg0 (read s.mem (B.rr s.regs .esp))
      have hmem : (s.map f).mem = s.mem := rfl
      have hregs : (s.map f).regs = f s.regs := rfl
      simp only [mc, hmem, hregs, h.rr, hles]
      cases B.les s arg0 (read s.mem (B.rr s.regs .esp)) with
      | none => rfl
      | some s' => simp [EmuState.map, h.rr, h.wr]

section Agreement

variable (t : Regs)

@[simp] theorem readRegById_frame (id : I386Reg) :
    readRegByIdIr t.frame id = readRegByIdTr t id := by
  cases id <;> rfl

@[simp] theorem writeRegById_frame (id : I386Reg) (value : Word) :
    writeRegByIdIr t.frame id value = (writeRegByIdTr t id value).frame := by
  cases id <;> rfl

@[simp] theorem readId_frame (id : Word) :
    readIdIr t.frame id = readIdTr t id := by
  unfold readIdIr readIdTr
  cases I386Reg.ofId? id with
  | none => rfl
  | some r => simp

@[simp] theorem writeId_frame (id value : Word) :
    writeIdIr t.frame id value = (writeIdTr t id value).frame := by
  unfold writeIdIr writeIdTr
  cases I386Reg.ofId? id with
  | none => rfl
  | some r => simp

theorem leset_frame (s : EmuState Regs) (le : I386OperandLexpr) (val : Word) :
    lesetIr (s.map Regs.frame) le val = (lesetTr s le val).map (EmuState.map Regs.frame) := by
  cases htype : le.type with
  | reg => simp [lesetIr, lesetTr, htype, EmuState.map]
  | mem =>
      simp only [lesetIr, lesetTr, htype, EmuState.map, readId_frame]
      cases readIdTr s.regs le.imm1 with
      | none => rfl
      | some addr => rfl
  | sibRrn | sibDrrn | sibDrn =>
      simp only [lesetIr, lesetTr, htype, EmuState.map, readId_frame]
      cases readIdTr s.regs le.reg1 with
      | none => rfl
      | some r => rfl

theorem leget_frame (s : EmuState Regs) (le : I386OperandLexpr) :
    legetIr (s.map Regs.frame) le = legetTr s le := by
  simp only [legetIr, legetTr, EmuState.map, readId_frame]

theorem reget_frame (s : EmuState Regs) (re : I386OperandRexpr) :
    regetIr (s.map Regs.frame) re = regetTr s re := by
  simp only [regetIr, regetTr, EmuState.map, readId_frame]

/-- The copies of every function are the same through `Regs.frame`. -/
theorem taskRegsBackEnd_mapsTo :
    taskRegsBackEnd.MapsTo intRegsBackEnd Regs.frame where
  les := leset_frame
  leg := leget_frame
  reg := reget_frame
  rr := readRegById_frame
  wr := writeRegById_frame

end Agreement

/-- Equally named registers hold equal values. -/
structure SameRegisters (r : IntRegs) (t : Regs) : Prop where
  gs : r.gs = t.gs
  fs : r.fs = t.fs
  es : r.es = t.es
  ss : r.ss = t.ss
  ds : r.ds = t.ds
  edi : r.edi = t.edi
  esi : r.esi = t.esi
  ebp : r.ebp = t.ebp
  esp : r.esp = t.esp
  ebx : r.ebx = t.ebx
  edx : r.edx = t.edx
  ecx : r.ecx = t.ecx
  eax : r.eax = t.eax
  eip : r.eip = t.eip
  cs : r.cs = t.cs
  eflags : r.eflags = t.eflags

theorem sameRegisters_frame (t : Regs) : SameRegisters t.frame t := by
  constructor <;> rfl

theorem SameRegisters.eq_frame {r : IntRegs} {t : Regs}
    (h : SameRegisters r t) :
    r = t.frame := by
  cases r
  obtain ⟨rfl, rfl, rfl, rfl, rfl, rfl, rfl, rfl, rfl, rfl, rfl, rfl, rfl, rfl, rfl, rfl⟩ := h
  rfl

/-- The word is used as a register id, and there is such a register. -/
def I386OperandLexpr.IdInEnum (le : I386OperandLexpr) : Prop :=
  (I386Reg.ofId? le.word).isSome = true

/-- An immediate may be any word. -/
def I386OperandRexpr.IdInEnum (re : I386OperandRexpr) : Prop :=
  re.type = .imm ∨ (I386Reg.ofId? re.word).isSome = true

section Defined

variable {s : EmuState Regs} {le : I386OperandLexpr} {re : I386OperandRexpr}

theorem readId_defined (regs : Regs) {id : Word}
    (h : (I386Reg.ofId? id).isSome) :
    ∃ v, readIdTr regs id = some v := by
  obtain ⟨r, hr⟩ := Option.isSome_iff_exists.mp h
  exact ⟨readRegByIdTr regs r, by simp [readIdTr, hr]⟩

theorem leset_defined (val : Word)
    (h : le.IdInEnum) :
    ∃ s', lesetTr s le val = some s' := by
  obtain ⟨v, hv⟩ := readId_defined s.regs h
  cases htype : le.type <;>
    simp [lesetTr, htype, I386OperandLexpr.reg1, I386OperandLexpr.imm1, hv]

theorem leget_defined
    (h : le.IdInEnum) :
    ∃ v, legetTr s le = some v := by
  obtain ⟨v, hv⟩ := readId_defined s.regs h
  cases htype : le.type <;>
    simp [legetTr, htype, I386OperandLexpr.reg1, I386OperandLexpr.imm1, hv]

theorem reget_defined
    (h : re.IdInEnum) :
    ∃ v, regetTr s re = some v := by
  rcases h with himm | hid
  · exact ⟨re.imm1, by simp [regetTr, himm]⟩
  · obtain ⟨v, hv⟩ := readId_defined s.regs hid
    cases htype : re.type <;>
      simp [regetTr, htype, I386OperandRexpr.reg1, I386OperandRexpr.imm1, hv]

/-- With register ids in the enumeration every instruction runs to its end. -/
theorem taskRegs_defined (X : I386Func) (s : EmuState Regs)
    (h0 : le.IdInEnum)
    (h1 : re.IdInEnum) :
    ∃ s', i386EmuTaskRegs X s le re = some s' := by
  unfold i386EmuTaskRegs
  cases X with
  | add | sub =>
      obtain ⟨l, hl⟩ := leget_defined (s := s) h0
      obtain ⟨r, hr⟩ := reget_defined (s := s) h1
      simpa [mc, taskRegsBackEnd, hl, hr] using leset_defined _ h0
  | jmpFar =>
      obtain ⟨r, hr⟩ := reget_defined (s := s) h1
      simp [mc, taskRegsBackEnd, hr]
  | push =>
      obtain ⟨r, hr⟩ := reget_defined
        (s := { s with regs := writeRegByIdTr s.regs .esp (readRegByIdTr s.regs .esp - 4) }) h1
      simp only [mc, taskRegsBackEnd, hr]
      exact ⟨_, rfl⟩
  | pop =>
      obtain ⟨s', hs'⟩ := leset_defined (s := s) (read s.mem (readRegByIdTr s.regs .esp)) h0
      simp [mc, taskRegsBackEnd, hs']

end Defined

/-- **The two back ends agree.**  From registers that hold equal values under
equal names, both copies of an instruction end with such registers again and
with the same memory. -/
theorem back_ends_agree (X : I386Func) (arg0 : I386OperandLexpr) (arg1 : I386OperandRexpr)
    (r : IntRegs) (t : Regs) (mem : Word → Byte)
    (hsame : SameRegisters r t)
    (h0 : arg0.IdInEnum)
    (h1 : arg1.IdInEnum) :
    ∃ sr st,
      i386EmuIntRegs X ⟨r, mem⟩ arg0 arg1 = some sr ∧
      i386EmuTaskRegs X ⟨t, mem⟩ arg0 arg1 = some st ∧
      SameRegisters sr.regs st.regs ∧
      sr.mem = st.mem := by
  obtain ⟨st, hst⟩ := taskRegs_defined X ⟨t, mem⟩ h0 h1
  have hmap : i386EmuIntRegs X ⟨t.frame, mem⟩ arg0 arg1 =
      (i386EmuTaskRegs X ⟨t, mem⟩ arg0 arg1).map (EmuState.map Regs.frame) :=
    mc_map taskRegsBackEnd_mapsTo X ⟨t, mem⟩ arg0 arg1
  refine ⟨st.map Regs.frame, st, ?_, hst, sameRegisters_frame st.regs, rfl⟩
  rw [hsame.eq_frame, hmap, hst]
  rfl

/-- `pop` into the dword at `esp`, with registers that are all different. -/
theorem back_ends_agree_sample :
    ∃ sr st,
      i386EmuIntRegs .pop ⟨.numbered, fun a => a.setWidth 8⟩ ⟨.mem, 6⟩ ⟨.imm, 77⟩ = some sr ∧
      i386EmuTaskRegs .pop ⟨Regs.zero.saveFrom .numbered, fun a => a.setWidth 8⟩ ⟨.mem, 6⟩
        ⟨.imm, 77⟩ = some st ∧
      SameRegisters sr.regs st.regs ∧
      sr.mem = st.mem :=
  back_ends_agree .pop ⟨.mem, 6⟩ ⟨.imm, 77⟩ .numbered (Regs.zero.saveFrom .numbered)
    (fun a => a.setWidth 8) (sameRegisters_frame (Regs.zero.saveFrom .numbered)) rfl (Or.inl rfl)

end Klyx
