import Klyx.Kernel.Hardware
import Klyx.Lib.CString
import Mathlib.Data.BitVec

/-!
# Functions on strings and blocks

`memcmp` and `strcpy` of `string.h`, and the system call `uname`, which copies
five strings.

The loop of `memcmp` compares the bytes at `si1` and `si2` but moves `s1` and
`s2`, so it looks at the first byte of each block again and again.  `strcpy`
stops at the terminator of its source and does not copy it.

**Results.**
* `memcmp_eq`: the value of `memcmp`.
* `memcmp_law_iff`: when it compares all bytes.
* `copied_strings_terminated_iff`: when the copies of `strcpy` and `uname` end.
-/

namespace Klyx

open CString

/-! ### Comparison of blocks -/

/-- The loop of `memcmp` on the memory at each block, where the four pointers are
indices. -/
def memcmpLoop (m1 m2 : Nat → Byte) (si1 si2 : Nat) : Nat → Nat → Nat → Int
  | 0, _, _ => (m1 si1).toNat - (m2 si2).toNat
  | n + 1, s1, s2 =>
      if m1 si1 = m2 si2 then memcmpLoop m1 m2 si1 si2 n (s1 + 1) (s2 + 1)
      else (m1 si1).toNat - (m2 si2).toNat

/-- `memcmp`. -/
def memcmp (m1 m2 : Nat → Byte) (n : Nat) : Int :=
  memcmpLoop m1 m2 0 0 n 0 0

/-- What comparing the first `n` bytes should give. -/
structure MemcmpLaw (m1 m2 : Nat → Byte) (n : Nat) (result : Int) : Prop where
  zero : result = 0 ↔ ∀ i < n, m1 i = m2 i
  difference : ∀ i < n, (∀ j < i, m1 j = m2 j) → m1 i ≠ m2 i →
    result = (m1 i).toNat - (m2 i).toNat

section Comparison

variable {m1 m2 : Nat → Byte}

theorem memcmpLoop_eq (m1 m2 : Nat → Byte) (si1 si2 n s1 s2 : Nat) :
    memcmpLoop m1 m2 si1 si2 n s1 s2 = (m1 si1).toNat - (m2 si2).toNat := by
  induction n generalizing s1 s2 with
  | zero =>
      rfl
  | succ n ih =>
      rw [memcmpLoop, ih, ite_self]

/-- Only the first bytes are compared, for every length. -/
theorem memcmp_eq (m1 m2 : Nat → Byte) (n : Nat) :
    memcmp m1 m2 n = (m1 0).toNat - (m2 0).toNat :=
  memcmpLoop_eq m1 m2 0 0 n 0 0

theorem memcmp_eq_zero_iff {n : Nat} :
    memcmp m1 m2 n = 0 ↔ m1 0 = m2 0 := by
  rw [memcmp_eq, ← BitVec.toNat_inj]
  omega

end Comparison

/-- **When `memcmp` compares all bytes**: exactly if the first bytes of the blocks
are equal just when the first `n` bytes are. -/
theorem memcmp_law_iff (m1 m2 : Nat → Byte) (n : Nat) :
    MemcmpLaw m1 m2 n (memcmp m1 m2 n) ↔ (m1 0 = m2 0 ↔ ∀ i < n, m1 i = m2 i) := by
  constructor
  · intro h
    rw [← h.zero, memcmp_eq_zero_iff]
  · intro h
    refine ⟨memcmp_eq_zero_iff.trans h, ?_⟩
    intro i hi hbefore hdiffer
    -- the first bytes differ, so the first difference is theirs
    have hfirst : m1 0 ≠ m2 0 := fun heq => hdiffer (h.mp heq i hi)
    have hzero : i = 0 := by
      by_contra hne
      exact hfirst (hbefore 0 (Nat.pos_of_ne_zero hne))
    rw [memcmp_eq, hzero]

/-- Blocks of two bytes that differ in the second one. -/
theorem memcmp_misses_difference :
    let m1 : Nat → Byte := fun i => [115, 97].getD i 0
    let m2 : Nat → Byte := fun i => [115, 98].getD i 0
    memcmp m1 m2 2 = 0 ∧ ¬ MemcmpLaw m1 m2 2 (memcmp m1 m2 2) := by
  refine ⟨by decide, ?_⟩
  intro h
  exact absurd (h.zero.mp (by decide) 1 (by decide)) (by decide)

/-! ### Copies of strings -/

/-- `strcpy`, to an index of an array: the loop stores characters as long as
they are not zero, and nothing behind them. -/
def strcpy (s1 : Nat → Byte) (start : Nat) (s2 : List Byte) : Nat → Byte :=
  copy s1 start s2

/-- A copy to the start of an array. -/
theorem strcpy_start_inside (s1 : Nat → Byte) {s2 : List Byte} {i : Nat}
    (h : i < s2.length) :
    strcpy s1 0 s2 i = s2.getD i 0 := by
  have hinside := copy_inside (m := s1) (a := 0) h
  rwa [Nat.zero_add] at hinside

/-- `UTSNAME_NAME_CAP`. -/
def utsnameNameCap : Nat := 128

/-- The members of `struct utsname`. -/
inductive UtsField where
  | sysname | nodename | release | version | machine
deriving DecidableEq

/-- `KLYX_VERSION_STR`, `"0.0.1"`. -/
def klyxVersionStr : List Byte := [48, 46, 48, 46, 49]

/-- The date and the time at which the kernel was compiled, which the
preprocessor puts in as `__DATE__` and `__TIME__`. -/
structure CompileTime where
  date : List Byte
  time : List Byte
  date_length : date.length = 11
  time_length : time.length = 8
  date_nonzero : ∀ c ∈ date, c ≠ 0
  time_nonzero : ∀ c ∈ time, c ≠ 0

namespace UtsField

/-- The index of a member in the structure. -/
def offset : UtsField → Nat
  | .sysname => 0
  | .nodename => utsnameNameCap
  | .release => 2 * utsnameNameCap
  | .version => 3 * utsnameNameCap
  | .machine => 4 * utsnameNameCap

/-- What is copied to it: `klyx`, `No node name.`, the version twice, and `i386`. -/
def text (compiled : CompileTime) : UtsField → List Byte
  | .sysname => [107, 108, 121, 120]
  | .nodename => [78, 111, 32, 110, 111, 100, 101, 32, 110, 97, 109, 101, 46]
  | .release => klyxVersionStr
  | .version => klyxVersionStr ++ [32] ++ compiled.date ++ [32] ++ compiled.time
  | .machine => [105, 51, 56, 54]

end UtsField

/-- The system call `uname`, on the bytes of the structure at `ebx`. -/
def sysUname (compiled : CompileTime) (out : Nat → Byte) : Nat → Byte :=
  let out := strcpy out UtsField.sysname.offset (UtsField.sysname.text compiled)
  let out := strcpy out UtsField.nodename.offset (UtsField.nodename.text compiled)
  let out := strcpy out UtsField.release.offset (UtsField.release.text compiled)
  let out := strcpy out UtsField.version.offset (UtsField.version.text compiled)
  strcpy out UtsField.machine.offset (UtsField.machine.text compiled)

section Uname

variable (compiled : CompileTime) (out : Nat → Byte)

/-- The strings are shorter than the members. -/
theorem text_length_lt (f : UtsField) : (f.text compiled).length < utsnameNameCap := by
  have hdate := compiled.date_length
  have htime := compiled.time_length
  cases f <;> simp [UtsField.text, klyxVersionStr, utsnameNameCap, hdate, htime]

theorem text_nonzero (f : UtsField) : ∀ c ∈ f.text compiled, c ≠ 0 := by
  have hversion : ∀ c ∈ klyxVersionStr, c ≠ 0 := by decide
  have hblank : ∀ c ∈ [(32 : Byte)], c ≠ 0 := by decide
  cases f with
  | version =>
      intro c hc
      simp only [UtsField.text, List.mem_append] at hc
      rcases hc with (((hc | hc) | hc) | hc) | hc
      · exact hversion c hc
      · exact hblank c hc
      · exact compiled.date_nonzero c hc
      · exact hblank c hc
      · exact compiled.time_nonzero c hc
  | release => exact hversion
  | _ => simp [UtsField.text]

/-- A string that is copied to another member leaves this one alone. -/
theorem strcpy_other {f g : UtsField}
    (hne : g ≠ f) {i : Nat}
    (hi : i < utsnameNameCap) :
    strcpy out g.offset (g.text compiled) (f.offset + i) = out (f.offset + i) := by
  have hlength := text_length_lt compiled g
  apply copy_outside
  unfold utsnameNameCap at hi hlength
  cases f <;> cases g <;>
    simp only [UtsField.offset, utsnameNameCap, ne_eq, not_true_eq_false] at hne ⊢ <;> omega

/-- The copies to some of the members. -/
theorem foldl_strcpy_other {f : UtsField} {fs : List UtsField}
    (hf : f ∉ fs) {i : Nat}
    (hi : i < utsnameNameCap) :
    fs.foldl (fun out g => strcpy out g.offset (g.text compiled)) out (f.offset + i) =
      out (f.offset + i) := by
  induction fs generalizing out with
  | nil =>
      rfl
  | cons g fs ih =>
      obtain ⟨hne, hrest⟩ := not_or.mp (List.mem_cons.not.mp hf)
      rw [List.foldl_cons, ih _ hrest]
      exact strcpy_other compiled out (Ne.symm hne) hi

/-- Each member is left as the one copy to it leaves it. -/
theorem foldl_strcpy_self {f : UtsField} (fs : List UtsField)
    (hnodup : fs.Nodup)
    (hf : f ∈ fs) {i : Nat}
    (hi : i < utsnameNameCap) :
    fs.foldl (fun out g => strcpy out g.offset (g.text compiled)) out (f.offset + i) =
      strcpy out f.offset (f.text compiled) (f.offset + i) := by
  induction fs generalizing out with
  | nil =>
      exact absurd hf List.not_mem_nil
  | cons g fs ih =>
      obtain ⟨hg, hnodup⟩ := List.nodup_cons.mp hnodup
      rw [List.foldl_cons]
      by_cases heq : g = f
      · subst heq
        exact foldl_strcpy_other compiled _ hg hi
      · have hmem : f ∈ fs := (List.mem_cons.mp hf).resolve_left (Ne.symm heq)
        rw [ih _ hnodup hmem]
        by_cases hin : i < (f.text compiled).length
        · exact (copy_inside hin).trans (copy_inside hin).symm
        · have hkept : ∀ m, strcpy m f.offset (f.text compiled) (f.offset + i) = m (f.offset + i) :=
            fun m => copy_outside (Or.inr (by omega))
          rw [hkept, hkept]
          exact strcpy_other compiled out heq hi

/-- Each member holds its string if the byte behind it was zero. -/
theorem sysUname_isString_iff (f : UtsField) :
    IsString (sysUname compiled out) f.offset (f.text compiled) ↔
      out (f.offset + (f.text compiled).length) = 0 := by
  have hfield : ∀ i < utsnameNameCap, sysUname compiled out (f.offset + i) =
      strcpy out f.offset (f.text compiled) (f.offset + i) := by
    intro i hi
    exact foldl_strcpy_self compiled out [.sysname, .nodename, .release, .version, .machine]
      (by decide) (by cases f <;> decide) hi
  have hlength := text_length_lt compiled f
  rw [← isString_copy_iff (text_nonzero compiled f)]
  constructor
  · intro h
    refine ⟨h.nonzero, fun i => copy_inside, ?_⟩
    exact (hfield _ hlength).symm.trans h.nul
  · intro h
    refine ⟨h.nonzero, fun i hi => ?_, (hfield _ hlength).trans h.nul⟩
    exact (hfield i (by omega)).trans (h.chars i hi)

end Uname

/-- **When copied strings are terminated**: a copy of `strcpy` reads as the string
exactly if there was a zero behind it before, and so does each member that
`uname` fills. -/
theorem copied_strings_terminated_iff (s1 : Nat → Byte) (start : Nat) (compiled : CompileTime)
    (out : Nat → Byte) :
    (∀ s2 : List Byte, (∀ c ∈ s2, c ≠ 0) →
      (IsString (strcpy s1 start s2) start s2 ↔ s1 (start + s2.length) = 0)) ∧
    ∀ f : UtsField,
      IsString (sysUname compiled out) f.offset (f.text compiled) ↔
        out (f.offset + (f.text compiled).length) = 0 :=
  ⟨fun _ => isString_copy_iff, sysUname_isString_iff compiled out⟩

/-- In memory full of ones neither a copy of `klyx` nor the name of the system
ends, in a kernel compiled on `Nov 12 2025` at `10:00:00`. -/
theorem copied_string_runs_on :
    let compiled : CompileTime :=
      { date := [78, 111, 118, 32, 49, 50, 32, 50, 48, 50, 53]
        time := [49, 48, 58, 48, 48, 58, 48, 48]
        date_length := rfl
        time_length := rfl
        date_nonzero := by decide
        time_nonzero := by decide }
    ¬ IsString (strcpy (fun _ => 1) 0 [107, 108, 121, 120]) 0 [107, 108, 121, 120] ∧
    ¬ IsString (sysUname compiled (fun _ => 1)) 0 (UtsField.sysname.text compiled) := by
  refine ⟨fun h => ?_, fun h => ?_⟩
  · exact absurd h.nul (by decide)
  · exact absurd ((sysUname_isString_iff _ _ .sysname).mp h) (by decide)

end Klyx
