import Klyx.Kernel.PrintfField

/-!
# The register block

Faults, panics, the debugger and unknown system calls print fifteen registers with
one format, each as sixteen hexadecimal digits.

**Results.**
* `text_hex`: the digits of one register.
* `fault_report_reads_back`: `x86_error_trap` prints its report, and the debugger's
  `__read_hex` reads every register back from it.
-/

namespace Klyx

open OutputStream

/-! ### The format -/

/-- The registers in the order of the format, with what stands in front of each. -/
def reportFields : List (List Byte × (IntRegs → Word)) :=
  [(asciiOf "\tEAX: ", IntRegs.eax), (asciiOf "\tEBX: ", IntRegs.ebx),
    (asciiOf "\n\tECX: ", IntRegs.ecx), (asciiOf "\tEDX: ", IntRegs.edx),
    (asciiOf "\n\tESI: ", IntRegs.esi), (asciiOf "\tEDI: ", IntRegs.edi),
    (asciiOf "\n\tEIP: ", IntRegs.eip), (asciiOf "\tESP: ", IntRegs.esp),
    (asciiOf "\n\tEBP: ", IntRegs.ebp),
    (asciiOf "\n\tCS: ", IntRegs.cs), (asciiOf "\tSS: ", IntRegs.ss),
    (asciiOf "\n\tES: ", IntRegs.es), (asciiOf "\tDS: ", IntRegs.ds),
    (asciiOf "\n\tFS: ", IntRegs.fs), (asciiOf "\tGS: ", IntRegs.gs)]

/-- The format of the block: sixteen digits behind each name. -/
def reportFormat : List Byte :=
  reportFields.flatMap (fun f => f.1 ++ asciiOf "%016X") ++ asciiOf "\n"

/-- The format of `x86_error_trap`. -/
def errorTrapFormat : List Byte :=
  asciiOf "\n\n" ++ asciiOf "%s" ++ asciiOf ":\n" ++ reportFormat

/-- The arguments behind the format: the name of the fault and the registers. -/
def errorTrapArgs (name : Word) (regs : IntRegs) : List Word :=
  name :: reportFields.map fun f => f.2 regs

/-- Read registers back: skip what stands in front of each and read sixteen digits. -/
def readReport : List (List Byte × (IntRegs → Word)) → List Byte → List Word
  | [], _ => []
  | f :: fs, s =>
      readHex ((s.drop f.1.length).take 16) :: readReport fs ((s.drop f.1.length).drop 16)

namespace Printf

/-! ### Sixteen digits -/

/-- The text of `%016X`. -/
def hexText (w : Word) : List Byte :=
  List.replicate (16 - (digitText true 16 w.toNat).length) (ascii '0') ++
    digitText true 16 w.toNat

section Hex

theorem digitText_le_eight (w : Word) :
    (digitText true 16 w.toNat).length ≤ 8 := by
  by_cases hzero : w.toNat = 0
  · rw [digitText, if_pos hzero]
    decide
  · rw [digitText_length hzero, Nat.digits_length_le_iff (by decide)]
    exact Nat.lt_of_lt_of_eq w.isLt (by decide)

theorem hexText_length (w : Word) :
    (hexText w).length = 16 := by
  have hle := digitText_le_eight w
  rw [hexText, List.length_append, List.length_replicate]
  omega

theorem readHex_hexText (w : Word) :
    readHex (hexText w) = w := by
  have hnumber : hexNumber (hexText w) = w.toNat := by
    change numberIn 16 (hexText w) = w.toNat
    rw [hexText, numberIn_zeros, numberIn_digitText _ (by decide) (by decide)]
  rw [readHex_eq, hnumber, BitVec.ofNat_toNat, BitVec.setWidth_eq]

/-- The flags of `%016X` once the specifier is known. -/
def hexFlags : Flags :=
  { Flags.none with zeropad := true, uppercase := true }

theorem ntoaText_hex (w : Word) :
    ntoaText w false 16 0 16 hexFlags = hexText w := by
  have hflags : (if w = 0 then { hexFlags with hash := false } else hexFlags) = hexFlags :=
    ite_self _
  have hdigits : digitsOf w 16 hexFlags = digitText true 16 w.toNat :=
    digitsOf_eq (by decide)
  have hpad : padCount (digitText true 16 w.toNat).length 0 (zeropadWidth false 16 hexFlags)
      hexFlags = 16 - (digitText true 16 w.toNat).length := rfl
  unfold ntoaText
  rw [hflags]
  dsimp only
  rw [hdigits, formatted_plain _ _ _ _ rfl, hpad]
  -- no sign and no spaces
  exact (List.append_nil _).trans (List.nil_append _)

/-- One register. -/
theorem text_hex (va : Nat → Word) (mem : AddressSpace) (args : Nat) :
    text va mem (asciiOf "%016X") args = .ok (hexText (va args), args + 1) := by
  have hscan : evalFields va (asciiOf "016X") args =
      ⟨{ Flags.none with zeropad := true }, 16, 0, [ascii 'X'], args⟩ := rfl
  have hsplit : asciiOf "%016X" = ascii '%' :: asciiOf "016X" := by decide
  have htext : (conversionText va mem
      ⟨{ Flags.none with zeropad := true }, 16, 0, [ascii 'X'], args⟩ (ascii 'X')) =
        (ntoaText (va args) false 16 0 16 hexFlags, 1) := rfl
  rw [hsplit, text_directive, hscan, specifierText]
  dsimp only
  rw [htext, ntoaText_hex, if_neg (by decide)]
  dsimp only
  rw [text_nil, Except.map]
  dsimp only
  rw [List.append_nil]

/-- Registers with something in front of each. -/
theorem text_registers (va : Nat → Word) (mem : AddressSpace)
    (fs : List (List Byte × (IntRegs → Word))) (regs : IntRegs) (args : Nat)
    (hplain : ∀ f ∈ fs, ∀ c ∈ f.1, c ≠ ascii '%')
    (hva : ∀ i, i < fs.length → va (args + i) = ((fs.map fun f => f.2 regs).getD i 0)) :
    text va mem (fs.flatMap fun f => f.1 ++ asciiOf "%016X") args =
      .ok (fs.flatMap fun f => f.1 ++ hexText (f.2 regs), args + fs.length) := by
  induction fs generalizing args with
  | nil =>
      rfl
  | cons f fs ih =>
      have hfirst : va args = f.2 regs := hva 0 (Nat.zero_lt_succ _)
      have hrest := ih (args + 1) (fun f' hf' => hplain f' (List.mem_cons_of_mem _ hf'))
        fun i hi => by
          have hnext := hva (i + 1) (Nat.succ_lt_succ hi)
          rw [Nat.add_right_comm]
          exact hnext
      rw [List.flatMap_cons, List.append_assoc,
        text_append _ (text_plain args (hplain f List.mem_cons_self)),
        text_append _ (text_hex va mem args), hrest, hfirst]
      simp only [Except.map, List.flatMap_cons, List.length_cons, List.append_assoc]
      rw [Nat.add_assoc, Nat.add_comm 1]

/-- Registers are read back. -/
theorem readReport_registers (fs : List (List Byte × (IntRegs → Word))) (regs : IntRegs)
    (s : List Byte) :
    readReport fs (fs.flatMap (fun f => f.1 ++ hexText (f.2 regs)) ++ s) =
      fs.map fun f => f.2 regs := by
  induction fs with
  | nil =>
      rfl
  | cons f fs ih =>
      have hsplit : (f :: fs).flatMap (fun f => f.1 ++ hexText (f.2 regs)) ++ s =
          f.1 ++ (hexText (f.2 regs) ++
            (fs.flatMap (fun f => f.1 ++ hexText (f.2 regs)) ++ s)) := by
        simp only [List.flatMap_cons, List.append_assoc]
      have hlength := hexText_length (f.2 regs)
      rw [readReport, hsplit, List.drop_left, List.take_left' hlength, List.drop_left' hlength, ih,
        readHex_hexText, List.map_cons]

end Hex

/-! ### The report of the model -/

section Report

theorem asciiOf_append (s t : String) :
    asciiOf (s ++ t) = asciiOf s ++ asciiOf t := by
  unfold asciiOf
  rw [String.toList_append, List.map_append]

/-- The digits that the report is made of. -/
theorem toDigits_map (n : Nat) :
    ((Nat.toDigits 16 n).map Char.toUpper).map ascii = digitText true 16 n := by
  have hdigit : ∀ d < 16, ascii (Nat.digitChar d).toUpper = digitChar true (BitVec.ofNat 8 d) := by
    decide +kernel
  induction n using Nat.strong_induction_on with
  | _ n ih =>
      rw [Nat.toDigits_eq_if (by decide), digitText_step n (by decide)]
      split
      · next hlt =>
          rw [if_pos (Nat.div_eq_of_lt hlt), Nat.mod_eq_of_lt hlt, ← hdigit n hlt]
          rfl
      · next hge =>
          have hne : n / 16 ≠ 0 := by omega
          rw [if_neg hne, List.map_append, List.map_append, ih (n / 16) (by omega),
            ← hdigit (n % 16) (Nat.mod_lt _ (by decide))]
          rfl

theorem asciiOf_hexPadded (w : Word) :
    asciiOf (hexPadded 16 w) = hexText w := by
  unfold asciiOf hexPadded
  dsimp only
  rw [String.toList_ofList, List.map_append, toDigits_map, List.map_replicate, hexText,
    ← toDigits_map]
  simp only [List.length_map]

/-- The report of the model, character by character. -/
theorem asciiOf_report (regs : IntRegs) :
    asciiOf regs.report =
      reportFields.flatMap (fun f => f.1 ++ hexText (f.2 regs)) ++ asciiOf "\n" := by
  unfold IntRegs.report reportFields
  simp only [asciiOf_append, asciiOf_hexPadded, List.flatMap_cons, List.flatMap_nil,
    List.append_assoc, List.nil_append]

/-- A string without a width and a precision. -/
theorem text_string (va : Nat → Word) (mem : AddressSpace) (args : Nat) :
    text va mem (asciiOf "%s") args = .ok (stringText mem (2 ^ 32) (va args), args + 1) := by
  have hscan : evalFields va (asciiOf "s") args = ⟨Flags.none, 0, 0, [ascii 's'], args⟩ := rfl
  have hsplit : asciiOf "%s" = ascii '%' :: asciiOf "s" := by decide
  have hfield : conversionText va mem ⟨Flags.none, 0, 0, [ascii 's'], args⟩ (ascii 's') =
      (stringText mem (2 ^ 32) (va args), 1) := by
    rw [conversionText, if_neg (by decide), if_neg (by decide), if_pos rfl]
    dsimp only
    simp [fieldText, Flags.none, spaces]
  rw [hsplit, text_directive, hscan, specifierText]
  dsimp only
  rw [hfield, if_neg (by decide)]
  dsimp only
  rw [text_nil, Except.map]
  dsimp only
  rw [List.append_nil]

/-- **The report of a fault can be read**: whatever the registers and the name of the
fault are, the format of `x86_error_trap` prints the name and the report of the model,
and `__read_hex` reads every register back from its sixteen digits. -/
theorem fault_report_reads_back (va : Nat → Word) (mem : AddressSpace) (regs : IntRegs)
    (name : String) (address : Word)
    (hname : stringText mem (2 ^ 32) address = asciiOf name)
    (hva : ∀ i, i < 16 → va i = (errorTrapArgs address regs).getD i 0) :
    text va mem errorTrapFormat 0 =
        .ok (asciiOf ("\n\n" ++ name ++ ":\n" ++ regs.report), 16) ∧
      readReport reportFields (asciiOf regs.report) = reportFields.map fun f => f.2 regs := by
  have hnewlines : ∀ c ∈ asciiOf "\n\n", c ≠ ascii '%' := by decide
  have hcolon : ∀ c ∈ asciiOf ":\n", c ≠ ascii '%' := by decide
  have hnewline : ∀ c ∈ asciiOf "\n", c ≠ ascii '%' := by decide
  have hlabels : reportFields.all (fun f => f.1.all (· ≠ ascii '%')) = true := by
    decide +kernel
  have hplain : ∀ f ∈ reportFields, ∀ c ∈ f.1, c ≠ ascii '%' := by
    simpa using hlabels
  have hregisters := text_registers va mem reportFields regs 1 hplain fun i hi => by
    rw [Nat.add_comm]
    exact hva (i + 1) (Nat.succ_lt_succ hi)
  have haddress : va 0 = address := hva 0 (by decide)
  constructor
  · unfold errorTrapFormat reportFormat
    rw [List.append_assoc, List.append_assoc, text_append _ (text_plain 0 hnewlines),
      text_append _ (text_string va mem 0), text_append _ (text_plain (0 + 1) hcolon),
      text_append _ hregisters, text_plain _ hnewline, haddress, hname]
    simp only [Except.map, asciiOf_append, asciiOf_report, List.append_assoc]
    rfl
  · rw [asciiOf_report]
    exact readReport_registers reportFields regs (asciiOf "\n")

/-- An address space that holds a string at address 256. -/
def AddressSpace.ofString (s : List Byte) : AddressSpace where
  byte := fun a => if 256 ≤ a.toNat then s.getD (a.toNat - 256) 0 else 0
  hasZero := ⟨0, rfl⟩

/-- A division by zero, with registers that are all different. -/
theorem fault_report_sample :
    let mem := AddressSpace.ofString (asciiOf "divide by 0")
    text (fun i => (errorTrapArgs 256 .numbered).getD i 0) mem errorTrapFormat 0 =
        .ok (asciiOf ("\n\n" ++ "divide by 0" ++ ":\n" ++ IntRegs.numbered.report), 16) ∧
      readReport reportFields (asciiOf IntRegs.numbered.report) =
        reportFields.map fun f => f.2 .numbered :=
  fault_report_reads_back _ _ .numbered "divide by 0" 256 (by decide +kernel) fun _ _ => rfl

end Report

end Printf

end Klyx
