import Klyx.Kernel.SubRegisters

/-!
# Push and pop

The emulated `push` moves the stack pointer before it reads its operand, and
`pop` moves it back after it has written its own.  So a value goes from one
register to another by way of the stack, except that `push` of the stack pointer
itself pushes the pointer that was moved.

**Results.**
* `pushPop_spec`: the state after both instructions.
* `push_pop_iff`: for which source the value arrives.
-/

namespace Klyx

open StackMemory

/-- The number of a register. -/
def I386Reg.id (r : I386Reg) : Word :=
  BitVec.ofNat 32 (I386Reg.all.idxOf r)

/-- Emulate `push` of a register, and then `pop` to a register.  Each instruction
leaves one of its operands alone. -/
def pushPop {ρ : Type} (B : BackEnd ρ) (s : EmuState ρ) (src dst : I386Reg)
    (arg0 : I386OperandLexpr) (arg1 : I386OperandRexpr) : Option (EmuState ρ) := do
  let s ← mc B s arg0 ⟨.reg, src.id⟩ .push
  mc B s ⟨.reg, dst.id⟩ arg1 .pop

/-- The value of one register has got to another, and nothing else has changed
but the word below the stack. -/
structure Transfers {ρ : Type} (B : BackEnd ρ) (s s' : EmuState ρ) (src dst : I386Reg) :
    Prop where
  value : B.rr s'.regs dst = B.rr s.regs src
  esp : B.rr s'.regs .esp = B.rr s.regs .esp
  others : ∀ id, id.whole ≠ dst → B.rr s'.regs id = B.rr s.regs id
  mem : ∀ a, 4 ≤ (a - (B.rr s.regs .esp - 4)).toNat → s'.mem a = s.mem a

section Registers

variable {id id' : I386Reg} (t : Regs) (x : Word)

@[simp] theorem ofId?_id (r : I386Reg) : I386Reg.ofId? r.id = some r := by
  cases r <;> rfl

theorem whole_of_full
    (h : id.part = .full) :
    id.whole = id := by
  cases id <;> first | rfl | cases h

/-- A 32-bit register holds what was written to it. -/
theorem readRegByIdTr_write_full
    (h : id.part = .full) :
    readRegByIdTr (writeRegByIdTr t id x) id = x := by
  have hread := readRegByIdTr_write_whole t id x
  rwa [whole_of_full h] at hread

/-- What lies outside of a 32-bit register stays. -/
theorem readRegByIdTr_write_outside
    (h : id.part = .full)
    (hother : id'.whole ≠ id) :
    readRegByIdTr (writeRegByIdTr t id x) id' = readRegByIdTr t id' := by
  have hne : id.whole ≠ id'.whole := by
    rw [whole_of_full h]
    exact hother.symm
  have hread := readRegByIdTr_write_other t x hne
  rwa [whole_of_full h] at hread

end Registers

section Tasks

variable (s : EmuState Regs) {src dst : I386Reg} (arg0 : I386OperandLexpr)
  (arg1 : I386OperandRexpr)

/-- The registers when `push` reads its operand. -/
def EmuState.pushed (s : EmuState Regs) : Regs :=
  writeRegByIdTr s.regs .esp (readRegByIdTr s.regs .esp - 4)

theorem pushed_esp : readRegByIdTr s.pushed .esp = readRegByIdTr s.regs .esp - 4 := rfl

/-- The state after both instructions. -/
theorem pushPop_spec
    (hdst : dst.part = .full)
    (hesp : dst ≠ .esp) :
    pushPop taskRegsBackEnd s src dst arg0 arg1 =
      some
        { regs := writeRegByIdTr (writeRegByIdTr s.pushed dst (readRegByIdTr s.pushed src)) .esp
            (readRegByIdTr s.regs .esp)
          mem := write s.mem (readRegByIdTr s.regs .esp - 4) (readRegByIdTr s.pushed src) } := by
  have hpush : mc taskRegsBackEnd s arg0 ⟨.reg, src.id⟩ .push =
      some
        { regs := s.pushed
          mem := write s.mem (readRegByIdTr s.regs .esp - 4) (readRegByIdTr s.pushed src) } := by
    simp only [mc, taskRegsBackEnd, regetTr, I386OperandRexpr.reg1, readIdTr, ofId?_id,
      Option.map_some]
    rfl
  have hkept : readRegByIdTr (writeRegByIdTr s.pushed dst (readRegByIdTr s.pushed src)) .esp =
      readRegByIdTr s.regs .esp - 4 :=
    readRegByIdTr_write_outside s.pushed _ hdst hesp.symm
  rw [pushPop, hpush]
  simp only [mc, taskRegsBackEnd, lesetTr, I386OperandLexpr.reg1, writeIdTr, ofId?_id, pushed_esp,
    read_write, Option.bind_eq_bind, Option.bind_some, hkept, BitVec.sub_add_cancel]
  rfl

/-- The value arrives unless it is the stack pointer. -/
theorem taskRegs_transfers_iff
    (hsrc : src.part = .full)
    (hdst : dst.part = .full)
    (hesp : dst ≠ .esp) :
    ∃ s', pushPop taskRegsBackEnd s src dst arg0 arg1 = some s' ∧
      (Transfers taskRegsBackEnd s s' src dst ↔ src ≠ .esp) := by
  refine ⟨_, pushPop_spec s arg0 arg1 hdst hesp, ?_⟩
  have hvalue : readRegByIdTr (writeRegByIdTr
      (writeRegByIdTr s.pushed dst (readRegByIdTr s.pushed src)) .esp
        (readRegByIdTr s.regs .esp)) dst = readRegByIdTr s.pushed src := by
    rw [readRegByIdTr_write_outside _ _ rfl (by rwa [whole_of_full hdst]),
      readRegByIdTr_write_full _ _ hdst]
  constructor
  · rintro h rfl
    have hsame : readRegByIdTr s.regs .esp - 4 = readRegByIdTr s.regs .esp :=
      hvalue.symm.trans h.value
    bv_omega
  · intro hother
    constructor
    · refine hvalue.trans ?_
      exact readRegByIdTr_write_outside s.regs _ rfl (by rwa [whole_of_full hsrc])
    · rfl
    · intro id hid
      by_cases hstack : id.whole = .esp
      · cases id <;> first | rfl | cases hstack
      · refine (readRegByIdTr_write_outside _ _ rfl hstack).trans ?_
        rw [readRegByIdTr_write_outside _ _ hdst hid]
        exact readRegByIdTr_write_outside s.regs _ rfl hstack
    · intro a ha
      exact write_of_above ha

end Tasks

section Maps

variable {ρ ρ' : Type} {B : BackEnd ρ} {B' : BackEnd ρ'} {f : ρ → ρ'}

theorem BackEnd.MapsTo.pushPop
    (h : B.MapsTo B' f)
    (s : EmuState ρ) (src dst : I386Reg) (arg0 : I386OperandLexpr) (arg1 : I386OperandRexpr) :
    pushPop B' (s.map f) src dst arg0 arg1 =
      (pushPop B s src dst arg0 arg1).map (EmuState.map f) := by
  unfold Klyx.pushPop
  rw [mc_map h]
  cases mc B s arg0 ⟨.reg, src.id⟩ .push with
  | none => rfl
  | some s' => exact mc_map h .pop s' _ arg1

theorem BackEnd.MapsTo.transfers_iff
    (h : B.MapsTo B' f)
    (s s' : EmuState ρ) (src dst : I386Reg) :
    Transfers B' (s.map f) (s'.map f) src dst ↔ Transfers B s s' src dst := by
  constructor
  · rintro ⟨hvalue, hesp, hothers, hmem⟩
    simp only [EmuState.map, h.rr] at hvalue hesp hothers hmem
    exact ⟨hvalue, hesp, hothers, hmem⟩
  · rintro ⟨hvalue, hesp, hothers, hmem⟩
    constructor <;> simp only [EmuState.map, h.rr] <;> assumption

end Maps

/-- **When a value is transferred over the stack**, from and to 32-bit registers,
by the emulator of the interrupt frame and by that of a task: exactly when it is
not the stack pointer.  The register structure lies outside the addressed memory. -/
theorem push_pop_iff (src dst : I386Reg) (arg0 : I386OperandLexpr) (arg1 : I386OperandRexpr)
    (hsrc : src.part = .full)
    (hdst : dst.part = .full)
    (hesp : dst ≠ .esp) :
    (∀ s : EmuState IntRegs, ∃ s', pushPop intRegsBackEnd s src dst arg0 arg1 = some s' ∧
      (Transfers intRegsBackEnd s s' src dst ↔ src ≠ .esp)) ∧
    ∀ s : EmuState Regs, ∃ s', pushPop taskRegsBackEnd s src dst arg0 arg1 = some s' ∧
      (Transfers taskRegsBackEnd s s' src dst ↔ src ≠ .esp) := by
  refine ⟨?_, fun s => taskRegs_transfers_iff s arg0 arg1 hsrc hdst hesp⟩
  rintro ⟨r, mem⟩
  let s : EmuState Regs := ⟨Regs.zero.saveFrom r, mem⟩
  have hframe : (⟨r, mem⟩ : EmuState IntRegs) = s.map Regs.frame := by
    simp only [s, EmuState.map, frame_saveFrom]
  obtain ⟨s', hrun, hiff⟩ := taskRegs_transfers_iff s arg0 arg1 hsrc hdst hesp
  refine ⟨s'.map Regs.frame, ?_, ?_⟩
  · rw [hframe, taskRegsBackEnd_mapsTo.pushPop, hrun]
    rfl
  · rw [hframe, taskRegsBackEnd_mapsTo.transfers_iff]
    exact hiff

/-- The theorem applies to `push eax` and `pop ebx`. -/
theorem push_pop_iff_sample :
    let s : EmuState Regs := ⟨Regs.zero.saveFrom .numbered, fun a => a.setWidth 8⟩
    ∃ s', pushPop taskRegsBackEnd s .eax .ebx ⟨.reg, 0⟩ ⟨.reg, 0⟩ = some s' ∧
      (Transfers taskRegsBackEnd s s' .eax .ebx ↔ I386Reg.eax ≠ .esp) :=
  (push_pop_iff .eax .ebx ⟨.reg, 0⟩ ⟨.reg, 0⟩ rfl rfl (by decide)).2
    ⟨Regs.zero.saveFrom .numbered, fun a => a.setWidth 8⟩

/-- `push esp` and `pop eax` with the stack pointer 0 leave -4 in `eax`. -/
theorem push_esp_pushes_moved_pointer :
    ∃ s', pushPop intRegsBackEnd ⟨Regs.zero.frame, fun _ => 0⟩ .esp .eax ⟨.reg, 0⟩ ⟨.reg, 0⟩ =
        some s' ∧
      s'.regs.eax = 0xFFFFFFFC ∧
      ¬ Transfers intRegsBackEnd ⟨Regs.zero.frame, fun _ => 0⟩ s' .esp .eax := by
  refine ⟨_, rfl, by decide, ?_⟩
  intro h
  exact absurd h.value (by decide)

end Klyx
