import Klyx.Kernel.PrintfText
import Klyx.Kernel.Debugger
import Mathlib.Data.Nat.Digits.Lemmas

/-!
# What integer conversions show

`_ntoa_long` stores the digits of a number, last digit first, in a buffer of 32
characters, and `_ntoa_format` pads them with zeros and adds a prefix and a sign as
long as there is room.

**Results.**
* `ntoaDigits_eq`: the digits are those of the number in its base.
* `signed_reads_back_iff`: when the text of `%d` and `%i` reads as the argument.
* `unsigned_reads_back_iff`: when the text of the other conversions does.
-/

namespace Klyx

open OutputStream

namespace Printf

/-! ### Reading a number -/

/-- A digit of a base up to 16, in either case. -/
def isDigitIn (base : Nat) (c : Byte) : Bool :=
  ((48 ≤ c.toNat && c.toNat ≤ 57) || (65 ≤ c.toNat && c.toNat ≤ 70) ||
    (97 ≤ c.toNat && c.toNat ≤ 102)) && hexDigit c < base

/-- The number that digits write. -/
def numberIn (base : Nat) (s : List Byte) : Nat :=
  s.foldl (fun n c => base * n + hexDigit c) 0

/-- A number without anything around it. -/
def readDigits (base : Nat) (s : List Byte) : Option Nat :=
  if s.all (isDigitIn base) then some (numberIn base s) else none

/-- The letter of a prefix. -/
def isMark (base : Nat) (c : Byte) : Bool :=
  (base = 16 && (c = ascii 'x' || c = ascii 'X')) || (base = 2 && c = ascii 'b')

/-- Skip a prefix, or the letter alone. -/
def skipPrefix (base : Nat) : List Byte → List Byte
  | [] => []
  | [c] => if isMark base c then [] else [c]
  | c :: p :: s =>
      if isMark base c then p :: s else if c = ascii '0' && isMark base p then s else c :: p :: s

/-- What stands between the spaces of a field. -/
def unpad (s : List Byte) : List Byte :=
  (s.dropWhile (· = ascii ' ')).takeWhile (· ≠ ascii ' ')

/-- Read a number in a field: a sign, a prefix and digits. -/
def readInt (base : Nat) (s : List Byte) : Option Int :=
  match unpad s with
  | [] => some 0
  | c :: d =>
      if c = ascii '-' then (readDigits base (skipPrefix base d)).map fun n => -(n : Int)
      else if c = ascii '+' then (readDigits base (skipPrefix base d)).map Int.ofNat
      else (readDigits base (skipPrefix base (c :: d))).map Int.ofNat

section Reading

variable {base : Nat} {s : List Byte}

theorem numberIn_append (s t : List Byte) :
    numberIn base (s ++ t) = numberIn base s * base ^ t.length + numberIn base t := by
  induction t using List.reverseRecOn with
  | nil =>
      simp [numberIn]
  | append_singleton t c ih =>
      have hlast : ∀ u, numberIn base (u ++ [c]) = base * numberIn base u + hexDigit c := by
        intro u
        rw [numberIn, List.foldl_append]
        rfl
      rw [← List.append_assoc, hlast, hlast, ih, List.length_append, List.length_singleton,
        Nat.pow_succ]
      ring

theorem numberIn_zeros (n : Nat) :
    numberIn base (List.replicate n (ascii '0') ++ s) = numberIn base s := by
  induction n with
  | zero =>
      rfl
  | succ n ih =>
      rw [List.replicate_succ, List.cons_append, ← ih]
      have hzero : hexDigit (ascii '0') = 0 := by decide
      unfold numberIn
      rw [List.foldl_cons, hzero, Nat.mul_zero]

theorem numberIn_lt
    (h : ∀ c ∈ s, isDigitIn base c) :
    numberIn base s < base ^ s.length := by
  induction s using List.reverseRecOn with
  | nil =>
      exact Nat.one_pos
  | append_singleton s c ih =>
      have hdigit : hexDigit c < base := by
        have hc := h c (List.mem_append_right _ List.mem_cons_self)
        unfold isDigitIn at hc
        simpa using (Bool.and_eq_true_iff.mp hc).2
      have hrest := ih fun d hd => h d (List.mem_append_left _ hd)
      have hone : numberIn base [c] = hexDigit c := by
        simp [numberIn]
      rw [numberIn_append, List.length_append, List.length_singleton, hone, Nat.pow_one,
        Nat.pow_succ]
      nlinarith

theorem unpad_spaces (a b : Nat)
    (h : ∀ c ∈ s, c ≠ ascii ' ') :
    unpad (spaces a ++ s ++ spaces b) = s := by
  have hspace : ∀ n, ∀ c ∈ spaces n, decide (c = ascii ' ') := fun n c hc =>
    decide_eq_true (List.eq_of_mem_replicate hc)
  have hleft : unpad (spaces a ++ s ++ spaces b) = unpad (s ++ spaces b) := by
    rw [unpad, List.append_assoc, List.dropWhile_append_of_pos (hspace a)]
    rfl
  rw [hleft, unpad]
  cases s with
  | nil =>
      have hall : (spaces b).dropWhile (· = ascii ' ') = [] := by
        rw [← List.append_nil (spaces b), List.dropWhile_append_of_pos (hspace b)]
        rfl
      rw [List.nil_append, hall]
      rfl
  | cons c s =>
      have hc : decide (c = ascii ' ') = false := decide_eq_false (h c List.mem_cons_self)
      rw [List.cons_append, List.dropWhile_cons_of_neg (by rw [hc]; decide), ← List.cons_append,
        List.takeWhile_append_of_pos fun d hd => decide_eq_true (h d hd)]
      have hrest : (spaces b).takeWhile (· ≠ ascii ' ') = [] := by
        cases b with
        | zero => rfl
        | succ b => exact List.takeWhile_cons_of_neg (by simp)
      rw [hrest, List.append_nil]

theorem not_isMark {c : Byte}
    (h : isDigitIn base c) :
    isMark base c = false := by
  have hcases : base = 16 ∨ base = 2 ∨ (base ≠ 16 ∧ base ≠ 2) := by omega
  rcases hcases with rfl | rfl | ⟨h16, h2⟩
  · revert h
    revert c
    decide +kernel
  · revert h
    revert c
    decide +kernel
  · simp [isMark, h16, h2]

/-- Digits have no prefix. -/
theorem skipPrefix_digits
    (h : ∀ c ∈ s, isDigitIn base c) :
    skipPrefix base s = s := by
  match s with
  | [] => rfl
  | [c] =>
      rw [skipPrefix, not_isMark (h c List.mem_cons_self)]
      rfl
  | c :: p :: s =>
      rw [skipPrefix, not_isMark (h c List.mem_cons_self),
        not_isMark (h p (List.mem_cons_of_mem _ List.mem_cons_self)), Bool.and_false]
      rfl

theorem readDigits_digits
    (h : ∀ c ∈ s, isDigitIn base c) :
    readDigits base s = some (numberIn base s) :=
  if_pos (List.all_eq_true.mpr h)

/-- A digit is neither a space nor a sign. -/
theorem isDigitIn_char {c : Byte}
    (h : isDigitIn base c) :
    c ≠ ascii ' ' ∧ c ≠ ascii '-' ∧ c ≠ ascii '+' := by
  have hrange : 48 ≤ c.toNat := by
    unfold isDigitIn at h
    simp only [Bool.and_eq_true, Bool.or_eq_true, decide_eq_true_eq] at h
    omega
  refine ⟨?_, ?_, ?_⟩ <;> rintro rfl <;> exact absurd hrange (by decide)

end Reading

/-! ### The digits that are stored -/

/-- The digits of a number, first digit first. -/
def digitText (uppercase : Bool) (base n : Nat) : List Byte :=
  if n = 0 then [ascii '0']
  else (Nat.digits base n).reverse.map fun d => digitChar uppercase (BitVec.ofNat 8 d)

section Digits

variable {uppercase : Bool} {base : Nat}

theorem digitChar_spec (uppercase : Bool) :
    ∀ d < 16, hexDigit (digitChar uppercase (BitVec.ofNat 8 d)) = d ∧
      isDigitIn 16 (digitChar uppercase (BitVec.ofNat 8 d)) := by
  cases uppercase <;> decide +kernel

theorem isDigitIn_digitChar {d : Nat}
    (hbase : base ≤ 16)
    (hd : d < base) :
    isDigitIn base (digitChar uppercase (BitVec.ofNat 8 d)) := by
  have hspec := digitChar_spec uppercase d (by omega)
  have hchar := hspec.2
  unfold isDigitIn at hchar ⊢
  rw [hspec.1] at hchar ⊢
  simp only [Bool.and_eq_true, decide_eq_true_eq] at hchar ⊢
  exact ⟨hchar.1, hd⟩

theorem digitText_digits (n : Nat)
    (hbase : 1 < base)
    (hle : base ≤ 16) :
    ∀ c ∈ digitText uppercase base n, isDigitIn base c := by
  intro c hc
  unfold digitText at hc
  split at hc
  · have hzero : ascii '0' = digitChar uppercase (BitVec.ofNat 8 0) := by
      cases uppercase <;> decide
    rw [List.mem_singleton.mp hc, hzero]
    exact isDigitIn_digitChar hle (by omega)
  · obtain ⟨d, hd, rfl⟩ := List.mem_map.mp hc
    exact isDigitIn_digitChar hle (Nat.digits_lt_base hbase (List.mem_reverse.mp hd))

/-- The digits write the number. -/
theorem numberIn_digitText (n : Nat)
    (hbase : 1 < base)
    (hle : base ≤ 16) :
    numberIn base (digitText uppercase base n) = n := by
  unfold digitText
  split
  · next hzero =>
      rw [hzero]
      rfl
  · have hfold : ∀ ds : List Nat, (∀ d ∈ ds, d < 16) →
        numberIn base (ds.reverse.map fun d => digitChar uppercase (BitVec.ofNat 8 d)) =
          Nat.ofDigits base ds := by
      intro ds
      induction ds with
      | nil =>
          intro _
          rfl
      | cons d ds ih =>
          intro hds
          have hd := (digitChar_spec uppercase d (hds d List.mem_cons_self)).1
          have hlast : numberIn base [digitChar uppercase (BitVec.ofNat 8 d)] = d := by
            simp [numberIn, hd]
          rw [List.reverse_cons, List.map_append, numberIn_append,
            ih fun e he => hds e (List.mem_cons_of_mem _ he), List.map_singleton, hlast,
            List.length_singleton, Nat.ofDigits_cons, Nat.pow_one]
          ring
    rw [hfold _ fun d hd => Nat.lt_of_lt_of_le (Nat.digits_lt_base hbase hd) hle,
      Nat.ofDigits_digits]

theorem digitText_length {n : Nat}
    (hn : n ≠ 0) :
    (digitText uppercase base n).length = (Nat.digits base n).length := by
  rw [digitText, if_neg hn, List.length_map, List.length_reverse]

/-- The last digit and those in front of it. -/
theorem digitText_step (n : Nat)
    (hbase : 1 < base) :
    digitText uppercase base n =
      (if n / base = 0 then [] else digitText uppercase base (n / base)) ++
        [digitChar uppercase (BitVec.ofNat 8 (n % base))] := by
  by_cases hn : n = 0
  · subst hn
    rw [Nat.zero_div, Nat.zero_mod, if_pos rfl, digitText, if_pos rfl]
    cases uppercase <;> decide
  · rw [digitText, if_neg hn, Nat.digits_def' hbase (Nat.pos_of_ne_zero hn), List.reverse_cons,
      List.map_append]
    congr 1
    split
    · next hzero =>
        rw [hzero, Nat.digits_zero]
        rfl
    · next hne =>
        rw [digitText, if_neg hne]

/-- The loop stores the digits, if there is room. -/
theorem ntoaDigits_eq {b : Word} {room : Nat} {value : Word} (buf : List Byte)
    (hbase : 1 < b.toNat)
    (hroom : value.toNat < b.toNat ^ (room + 1)) :
    ntoaDigits uppercase b (room + 1) value buf =
      digitText uppercase b.toNat value.toNat ++ buf := by
  have hdigit : ∀ v : Word, (v % b).setWidth 8 = BitVec.ofNat 8 (v.toNat % b.toNat) := by
    intro v
    apply BitVec.eq_of_toNat_eq
    rw [BitVec.toNat_setWidth, BitVec.toNat_umod, BitVec.toNat_ofNat]
  have hquot : ∀ v : Word, (v / b).toNat = v.toNat / b.toNat := fun v => BitVec.toNat_udiv
  have hzero : ∀ v : Word, v / b = 0 ↔ v.toNat / b.toNat = 0 := by
    intro v
    rw [← hquot, ← BitVec.toNat_inj]
    rfl
  induction room generalizing value buf with
  | zero =>
      have hsmall : value.toNat / b.toNat = 0 := by
        rw [Nat.zero_add, Nat.pow_one] at hroom
        exact Nat.div_eq_of_lt hroom
      rw [ntoaDigits, if_pos ((hzero value).mpr hsmall), digitText_step _ hbase, if_pos hsmall,
        hdigit]
      rfl
  | succ room ih =>
      rw [ntoaDigits, digitText_step _ hbase, hdigit]
      by_cases hlast : value.toNat / b.toNat = 0
      · rw [if_pos ((hzero value).mpr hlast), if_pos hlast]
        rfl
      · have hless : (value / b).toNat < b.toNat ^ (room + 1) := by
          rw [hquot]
          exact Nat.div_lt_of_lt_mul (by rwa [← Nat.pow_succ'])
        rw [if_neg fun h => hlast ((hzero value).mp h), if_neg hlast, ih _ hless, hquot,
          List.append_assoc]
        rfl

/-- The buffer has room for the digits of a word, in every base. -/
theorem digitsOf_eq {value b : Word} {flags : Flags}
    (hbase : 1 < b.toNat) :
    digitsOf value b flags =
      if !flags.precision || value ≠ 0 then digitText flags.uppercase b.toNat value.toNat
      else [] := by
  have hroom : value.toNat < b.toNat ^ (31 + 1) :=
    Nat.lt_of_lt_of_le value.isLt (Nat.pow_le_pow_left hbase 32)
  unfold digitsOf
  rw [show ntoaBufferSize = 31 + 1 from rfl, ntoaDigits_eq [] hbase hroom, List.append_nil]

/-- A number that is not 0 has its first digit in front. -/
theorem numberIn_drop_lt {n j : Nat}
    (hbase : 1 < base)
    (hle : base ≤ 16)
    (hn : n ≠ 0)
    (hj : 0 < j) :
    numberIn base ((digitText uppercase base n).drop j) < n := by
  have hdigits : ∀ c ∈ (digitText uppercase base n).drop j, isDigitIn base c :=
    fun c hc => digitText_digits n hbase hle c (List.mem_of_mem_drop hc)
  have hlt := numberIn_lt hdigits
  rw [List.length_drop, digitText_length hn] at hlt
  have hpos : 0 < (Nat.digits base n).length :=
    List.length_pos_of_ne_nil (Nat.digits_ne_nil_iff_ne_zero.mpr hn)
  have hpow : base ^ ((Nat.digits base n).length - 1) ≤ n :=
    (Nat.lt_digits_length_iff hbase n).mp (by omega)
  have hexp : base ^ ((Nat.digits base n).length - j) ≤
      base ^ ((Nat.digits base n).length - 1) :=
    Nat.pow_le_pow_right (by omega) (by omega)
  omega

end Digits

/-! ### The text around the digits -/

/-- How many zeros are put in front of `len` digits. -/
def padCount (len : Nat) (prec width : Word) (flags : Flags) : Nat :=
  if flags.left then 0
  else max (min prec.toNat ntoaBufferSize)
    (if flags.zeropad then min width.toNat ntoaBufferSize else 0) - len

theorem padLeadingZeros_eq (buf : List Byte) (prec width : Word) (flags : Flags) :
    padLeadingZeros buf prec width flags =
      List.replicate (padCount buf.length prec width flags) (ascii '0') ++ buf := by
  unfold padLeadingZeros padCount
  simp only [pushZeros_eq]
  split
  · rfl
  split
  · rw [← List.append_assoc, List.replicate_append_replicate, List.length_append,
      List.length_replicate]
    congr 2
    omega
  · rw [Nat.max_zero]

/-- A field is its characters between spaces. -/
theorem revText_field (buf : List Byte) (width : Word) (flags : Flags) :
    ∃ a b, revText buf width flags = spaces a ++ buf ++ spaces b := by
  unfold revText
  split
  · split
    · exact ⟨_, _, rfl⟩
    · exact ⟨_, 0, rfl⟩
  · split
    · exact ⟨0, _, rfl⟩
    · exact ⟨0, 0, rfl⟩

section Fields

variable {base : Nat} {ds : List Byte} (a b : Nat)

theorem no_space
    (h : ∀ c ∈ ds, isDigitIn base c) :
    ∀ c ∈ ds, c ≠ ascii ' ' :=
  fun c hc => (isDigitIn_char (h c hc)).1

/-- Digits in a field. -/
theorem readInt_digits
    (h : ∀ c ∈ ds, isDigitIn base c) :
    readInt base (spaces a ++ ds ++ spaces b) = some (numberIn base ds : Int) := by
  rw [readInt, unpad_spaces a b (no_space h)]
  cases ds with
  | nil =>
      rfl
  | cons c ds =>
      have hc := isDigitIn_char (h c List.mem_cons_self)
      dsimp only
      rw [if_neg hc.2.1, if_neg hc.2.2, skipPrefix_digits h, readDigits_digits h]
      rfl

theorem readInt_minus
    (h : ∀ c ∈ ds, isDigitIn base c) :
    readInt base (spaces a ++ (ascii '-' :: ds) ++ spaces b) =
      some (-(numberIn base ds : Int)) := by
  rw [readInt, unpad_spaces a b (List.forall_mem_cons.mpr ⟨by decide, no_space h⟩)]
  dsimp only
  rw [if_pos rfl, skipPrefix_digits h, readDigits_digits h]
  rfl

theorem readInt_plus
    (h : ∀ c ∈ ds, isDigitIn base c) :
    readInt base (spaces a ++ (ascii '+' :: ds) ++ spaces b) =
      some (numberIn base ds : Int) := by
  rw [readInt, unpad_spaces a b (List.forall_mem_cons.mpr ⟨by decide, no_space h⟩)]
  dsimp only
  rw [if_neg (by decide), if_pos rfl, skipPrefix_digits h, readDigits_digits h]
  rfl

theorem readInt_space
    (h : ∀ c ∈ ds, isDigitIn base c) :
    readInt base (spaces a ++ (ascii ' ' :: ds) ++ spaces b) =
      some (numberIn base ds : Int) := by
  have hspace : spaces a ++ (ascii ' ' :: ds) = spaces (a + 1) ++ ds := by
    unfold spaces
    rw [List.replicate_succ', List.append_assoc]
    rfl
  rw [hspace, readInt_digits (a + 1) b h]

/-- Digits with a sign, which a full buffer has no room for. -/
theorem readInt_signed (negative : Bool) (flags : Flags)
    (h : ∀ c ∈ ds, isDigitIn base c) :
    readInt base (spaces a ++ pushSign ds negative flags ++ spaces b) =
      some (if negative ∧ ds.length < ntoaBufferSize then -(numberIn base ds : Int)
        else numberIn base ds) := by
  unfold pushSign pushIfRoom
  by_cases hroom : ds.length < ntoaBufferSize
  · cases negative with
    | true =>
        simpa [hroom] using readInt_minus a b h
    | false =>
        simp only [hroom, Bool.false_eq_true, if_false, if_true, false_and]
        split
        · exact readInt_plus a b h
        split
        · exact readInt_space a b h
        · exact readInt_digits a b h
  · simp only [hroom, if_false, and_false]
    repeat' split
    all_goals exact readInt_digits a b h

end Fields

/-! ### Signed conversions -/

section Spec

variable {value b : Word} {flags : Flags}

theorem digitsOf_digits
    (hbase : 1 < b.toNat)
    (hle : b.toNat ≤ 16) :
    ∀ c ∈ digitsOf value b flags, isDigitIn b.toNat c := by
  rw [digitsOf_eq hbase]
  split
  · exact digitText_digits _ hbase hle
  · exact fun c hc => absurd hc List.not_mem_nil

theorem numberIn_digitsOf
    (hbase : 1 < b.toNat)
    (hle : b.toNat ≤ 16) :
    numberIn b.toNat (digitsOf value b flags) = value.toNat := by
  rw [digitsOf_eq hbase]
  split
  · exact numberIn_digitText _ hbase hle
  · next h =>
      -- no digits stand for 0
      have hnone : flags.precision = true ∧ value = 0 := by simpa using h
      rw [hnone.2]
      rfl

theorem zeros_digits {z : Nat} {base : Nat} {ds : List Byte}
    (hbase : 1 < base)
    (h : ∀ c ∈ ds, isDigitIn base c) :
    ∀ c ∈ List.replicate z (ascii '0') ++ ds, isDigitIn base c := by
  intro c hc
  rcases List.mem_append.mp hc with hc | hc
  · have hzero : hexDigit (ascii '0') = 0 := by decide
    rw [List.eq_of_mem_replicate hc, isDigitIn, hzero]
    simpa using Nat.lt_trans Nat.zero_lt_one hbase
  · exact h c hc

/-- Without `#` the number is zeros and digits behind a sign. -/
theorem formatted_plain {buf : List Byte} (negative : Bool) (base prec width : Word)
    (h : flags.hash = false) :
    formatted buf negative base prec width flags =
      pushSign (List.replicate
        (padCount buf.length prec (zeropadWidth negative width flags) flags) (ascii '0') ++ buf)
        negative flags := by
  unfold formatted handleHash
  simp only [h, Bool.false_eq_true, if_false]
  rw [padLeadingZeros_eq]

/-- The text without `#`. -/
theorem readInt_plain {negative : Bool} {prec width : Word}
    (hbase : 1 < b.toNat)
    (hle : b.toNat ≤ 16)
    (h : flags.hash = false) :
    let len := (digitsOf value b flags).length
    let pad := padCount len prec (zeropadWidth negative width flags) flags
    readInt b.toNat (ntoaText value negative b prec width flags) =
      some (if negative ∧ pad + len < ntoaBufferSize then -(value.toNat : Int)
        else value.toNat) := by
  have hflags : (if value = 0 then { flags with hash := false } else flags) = flags := by
    rw [← h, ite_self]
  unfold ntoaText
  dsimp only
  rw [hflags, formatted_plain _ _ _ _ h]
  obtain ⟨x, y, hfield⟩ := revText_field (pushSign (List.replicate (padCount
    (digitsOf value b flags).length prec (zeropadWidth negative width flags) flags) (ascii '0') ++
    digitsOf value b flags) negative flags) (zeropadWidth negative width flags) flags
  rw [hfield, readInt_signed x y negative flags
    (zeros_digits hbase (digitsOf_digits hbase hle)), numberIn_zeros,
    numberIn_digitsOf hbase hle, List.length_append, List.length_replicate]

end Spec

section Flags

variable (c : Byte) (flags : Flags)

@[simp] theorem integerFlags_left : (integerFlags c flags).left = flags.left := by
  simp only [integerFlags]
  split_ifs <;> rfl

@[simp] theorem integerFlags_precision :
    (integerFlags c flags).precision = flags.precision := by
  simp only [integerFlags]
  split_ifs <;> rfl

@[simp] theorem integerFlags_zeropad :
    (integerFlags c flags).zeropad = (flags.zeropad && !flags.precision) := by
  have hprecision := integerFlags_precision c flags
  simp only [integerFlags] at *
  split_ifs at * <;> simp_all

@[simp] theorem integerFlags_hash :
    (integerFlags c flags).hash = (flags.hash && decide (baseOf c ≠ 10)) := by
  simp only [integerFlags]
  split_ifs <;> simp_all

theorem signedValue_integerFlags (arg : Word) :
    signedValue (integerFlags c flags) arg = signedValue flags arg := by
  simp only [signedValue, integerFlags]
  split_ifs <;> rfl

theorem unsignedValue_integerFlags (arg : Word) :
    unsignedValue (integerFlags c flags) arg = unsignedValue flags arg := by
  simp only [unsignedValue, integerFlags]
  split_ifs <;> rfl

end Flags

section Signed

/-- The magnitude that a signed conversion passes on. -/
theorem magnitude_toNat (v : Word) :
    (if 0 < v.toInt then v else 0 - v).toNat = v.toInt.natAbs := by
  have hv := BitVec.toInt_eq_toNat_cond v
  have hlt := v.isLt
  split
  · split at hv <;> omega
  · rw [BitVec.toNat_sub]
    have hzero : (0 : Word).toNat = 0 := rfl
    rw [hzero]
    split at hv <;> omega

/-- A decimal number has at most ten digits. -/
theorem digitsOf_ten (value : Word) (flags : Flags) :
    (digitsOf value 10 flags).length ≤ 10 := by
  rw [digitsOf_eq (by decide)]
  split
  · by_cases hzero : value.toNat = 0
    · rw [digitText, if_pos hzero]
      decide
    · rw [digitText_length hzero, Nat.digits_length_le_iff (by decide)]
      exact Nat.lt_trans value.isLt (by decide)
  · exact Nat.zero_le _

/-- A negative number is padded with zeros up to the end of the buffer. -/
def SignLost (s : Scan) (v : Word) : Prop :=
  v.toInt < 0 ∧ s.flags.left = false ∧
    (32 ≤ s.prec.toNat ∨
      (s.flags.zeropad = true ∧ s.flags.precision = false ∧ 33 ≤ s.width.toNat))

theorem pad_full_iff {s : Scan} {c : Byte} {len : Nat}
    (hlen : len ≤ 10) :
    (¬ padCount len s.prec (zeropadWidth true s.width (integerFlags c s.flags))
        (integerFlags c s.flags) + len < ntoaBufferSize) ↔
      s.flags.left = false ∧
        (32 ≤ s.prec.toNat ∨
          (s.flags.zeropad = true ∧ s.flags.precision = false ∧ 33 ≤ s.width.toNat)) := by
  have hsize : ntoaBufferSize = 32 := rfl
  unfold padCount
  rw [integerFlags_left, integerFlags_zeropad]
  cases hleft : s.flags.left with
  | true =>
      rw [if_pos rfl]
      constructor
      · intro h
        omega
      · rintro ⟨h, _⟩
        cases h
  | false =>
      cases hzero : (s.flags.zeropad && !s.flags.precision) with
      | false =>
          have hnot : ¬ (s.flags.zeropad = true ∧ s.flags.precision = false ∧
              33 ≤ s.width.toNat) := by
            rintro ⟨hz, hp, _⟩
            rw [hz, hp] at hzero
            cases hzero
          rw [or_iff_left hnot, if_neg Bool.false_ne_true, if_neg Bool.false_ne_true]
          simp only [true_and]
          omega
      | true =>
          have hboth : s.flags.zeropad = true ∧ s.flags.precision = false := by simpa using hzero
          have hwidth : (zeropadWidth true s.width (integerFlags c s.flags)).toNat =
              s.width.toNat - 1 := by
            unfold zeropadWidth
            rw [integerFlags_left, integerFlags_zeropad, hzero, hleft]
            by_cases hw : s.width = 0
            · rw [hw]
              rfl
            · have hone : (1 : Word).toNat = 1 := rfl
              have hpos : 0 < s.width.toNat := Nat.pos_of_ne_zero fun h0 =>
                hw (BitVec.eq_of_toNat_eq h0)
              simp only [hw, ne_eq, not_false_eq_true, decide_true, Bool.true_or, Bool.and_true,
                Bool.not_false, if_true]
              rw [BitVec.toNat_sub_of_le (by rw [BitVec.le_def]; omega), hone]
          rw [if_neg Bool.false_ne_true, if_pos rfl, hwidth]
          simp only [hboth.1, hboth.2, true_and]
          omega

/-- **What a signed conversion shows**: for every directive with `d` or `i`, every
argument and every output function, the text reads as the argument exactly if the
sign of a negative number finds room behind the zeros. -/
theorem signed_reads_back_iff (va : Nat → Word) (mem : AddressSpace) (s : Scan) (c : Byte)
    (rest : List Byte)
    (hformat : s.format = c :: rest)
    (hc : isSigned c = true)
    (hlong : s.flags.longLong = false) :
    ∃ t, (∀ (β : Type) (out : OutFct β) (maxlen : Word) (o : Output β 32),
        evalSpecifier va mem out maxlen s o = .ok (write out maxlen o t, rest, s.args + 1)) ∧
      (readInt 10 t = some (signedValue s.flags (va s.args)).toInt ↔
        ¬ SignLost s (signedValue s.flags (va s.args))) := by
  have hint : isInteger c = true := by
    unfold isSigned at hc
    unfold isInteger
    simp only [Bool.or_eq_true, decide_eq_true_eq] at hc ⊢
    tauto
  have hbase : baseOf c = 10 := by
    unfold isSigned at hc
    simp only [Bool.or_eq_true, decide_eq_true_eq] at hc
    rcases hc with rfl | rfl <;> decide
  have htext : conversionText va mem s c =
      (ntoaText (if 0 < (signedValue s.flags (va s.args)).toInt
          then signedValue s.flags (va s.args) else 0 - signedValue s.flags (va s.args))
        ((signedValue s.flags (va s.args)).toInt < 0) 10 s.prec s.width
        (integerFlags c s.flags), 1) := by
    rw [conversionText, if_pos hint]
    dsimp only
    rw [if_pos hc, signedValue_integerFlags, hbase]
  generalize signedValue s.flags (va s.args) = v at htext
  refine ⟨(conversionText va mem s c).1, ?_, ?_⟩
  · intro β out maxlen o
    rw [evalSpecifier_eq, specifierText, hformat]
    dsimp only
    rw [hlong, Bool.and_false, if_neg Bool.false_ne_true, htext]
    rfl
  · have hhash : (integerFlags c s.flags).hash = false := by
      rw [integerFlags_hash, hbase]
      simp
    have hread := @readInt_plain (if 0 < v.toInt then v else 0 - v) 10 _
      (decide (v.toInt < 0)) s.prec s.width (by decide) (by decide) hhash
    have hten : (10 : Word).toNat = 10 := rfl
    rw [hten, magnitude_toNat] at hread
    rw [htext, hread]
    have hfull := pad_full_iff (s := s) (c := c)
      (digitsOf_ten (if 0 < v.toInt then v else 0 - v) (integerFlags c s.flags))
    unfold SignLost
    rw [← hfull, Option.some_inj]
    by_cases hneg : v.toInt < 0
    · rw [decide_eq_true hneg]
      simp only [hneg, true_and, not_not]
      constructor
      · intro heq
        by_contra hno
        rw [if_neg hno] at heq
        omega
      · intro hroom
        rw [if_pos hroom]
        omega
    · rw [decide_eq_false hneg, if_neg fun h => Bool.false_ne_true h.1]
      refine ⟨fun _ h => hneg h.1, fun _ => ?_⟩
      omega

/-- A width of 40 with zeros leaves no room for the sign of -5. -/
theorem signed_reads_back_sample :
    let s : Scan := ⟨{ Flags.none with zeropad := true }, 40, 0, asciiOf "d", 0⟩
    ∃ t, (∀ (β : Type) (out : OutFct β) (maxlen : Word) (o : Output β 32),
        evalSpecifier (fun _ => -5) ⟨fun _ => 0, 0, rfl⟩ out maxlen s o =
          .ok (write out maxlen o t, [], s.args + 1)) ∧
      (readInt 10 t = some (signedValue s.flags (-5)).toInt ↔
        ¬ SignLost s (signedValue s.flags (-5))) :=
  signed_reads_back_iff (fun _ => -5) ⟨fun _ => 0, 0, rfl⟩ _ (ascii 'd') [] rfl (by decide) rfl

end Signed

/-! ### Unsigned conversions -/

section Unsigned

theorem readInt_plain_unsigned {value b prec width : Word} {flags : Flags}
    (hbase : 1 < b.toNat)
    (hle : b.toNat ≤ 16)
    (h : value ≠ 0 → flags.hash = false) :
    readInt b.toNat (ntoaText value false b prec width flags) = some (value.toNat : Int) := by
  suffices hplain : ∃ flags' : Flags, flags'.hash = false ∧
      ntoaText value false b prec width flags = ntoaText value false b prec width flags' by
    obtain ⟨flags', hhash, heq⟩ := hplain
    have hread := @readInt_plain value b flags' false prec width hbase hle hhash
    rw [heq, hread, if_neg fun hno => Bool.false_ne_true hno.1]
  by_cases hzero : value = 0
  · refine ⟨{ flags with hash := false }, rfl, ?_⟩
    unfold ntoaText
    rw [if_pos hzero, if_pos hzero]
  · exact ⟨flags, h hzero, rfl⟩

/-- How many characters make room for the prefix. -/
def dropCount (len : Nat) (base prec width : Word) (flags : Flags) : Nat :=
  if flags.precision = false ∧ 0 < len ∧ (len = prec.toNat ∨ len = width.toNat) then
    if base = 16 ∧ 2 ≤ len then 2 else 1
  else 0

theorem dropForHash_eq (buf : List Byte) (base prec width : Word) (flags : Flags) :
    dropForHash buf base prec width flags =
      buf.drop (dropCount buf.length base prec width flags) := by
  unfold dropForHash dropCount
  match buf with
  | [] => simp
  | [c] =>
      simp
      split_ifs <;> rfl
  | c :: d :: buf =>
      simp
      split_ifs <;> rfl

/-- Zeros in front of a number can be dropped, its digits cannot. -/
theorem numberIn_drop_iff {uppercase : Bool} {base n z j : Nat}
    (hbase : 1 < base)
    (hle : base ≤ 16)
    (hn : n ≠ 0) :
    numberIn base ((List.replicate z (ascii '0') ++ digitText uppercase base n).drop j) = n ↔
      j ≤ z := by
  by_cases hj : j ≤ z
  · rw [List.drop_append_of_le_length (by rwa [List.length_replicate]), List.drop_replicate,
      numberIn_zeros, numberIn_digitText n hbase hle]
    exact iff_of_true rfl hj
  · have hrest : (List.replicate z (ascii '0') ++ digitText uppercase base n).drop j =
        (digitText uppercase base n).drop (j - z) := by
      rw [List.drop_append, List.length_replicate,
        List.drop_eq_nil_of_le (by rw [List.length_replicate]; omega), List.nil_append]
    rw [hrest]
    have hlt := @numberIn_drop_lt uppercase base n (j - z) hbase hle hn (by omega)
    exact iff_of_false (by omega) hj

/-- A field without a sign. -/
theorem readInt_unsigned {base : Nat} {s : List Byte} (x y : Nat)
    (hspace : ∀ c ∈ s, c ≠ ascii ' ')
    (hsign : ∀ c ∈ s, c ≠ ascii '-' ∧ c ≠ ascii '+') :
    readInt base (spaces x ++ s ++ spaces y) =
      (readDigits base (skipPrefix base s)).map Int.ofNat := by
  rw [readInt, unpad_spaces x y hspace]
  cases s with
  | nil =>
      rfl
  | cons c s =>
      have hc := hsign c List.mem_cons_self
      dsimp only
      rw [if_neg hc.1, if_neg hc.2]

/-- The letter of a prefix in front of digits, with or without its 0. -/
theorem readInt_mark {base : Nat} {mark : Byte} {buf : List Byte} (x y : Nat)
    (hmark : isMark base mark = true)
    (h : ∀ c ∈ buf, isDigitIn base c) :
    readInt base (spaces x ++ (mark :: buf) ++ spaces y) = some (numberIn base buf : Int) ∧
      readInt base (spaces x ++ (ascii '0' :: mark :: buf) ++ spaces y) =
        some (numberIn base buf : Int) := by
  have hletter : mark = ascii 'x' ∨ mark = ascii 'X' ∨ mark = ascii 'b' := by
    unfold isMark at hmark
    simp only [Bool.or_eq_true, Bool.and_eq_true, decide_eq_true_eq] at hmark
    tauto
  have hchar : mark ≠ ascii ' ' ∧ mark ≠ ascii '-' ∧ mark ≠ ascii '+' := by
    rcases hletter with rfl | rfl | rfl <;> decide
  have hzero : isMark base (ascii '0') = false := by
    unfold isMark
    simp
    exact ⟨fun _ => by decide, fun _ => by decide⟩
  have hbuf : ∀ c ∈ buf, c ≠ ascii ' ' ∧ c ≠ ascii '-' ∧ c ≠ ascii '+' :=
    fun c hc => isDigitIn_char (h c hc)
  have hskip : skipPrefix base (mark :: buf) = buf := by
    cases buf with
    | nil => exact if_pos hmark
    | cons p buf => exact if_pos hmark
  have hskip' : skipPrefix base (ascii '0' :: mark :: buf) = buf := by
    rw [skipPrefix, hzero, hmark]
    rfl
  constructor
  · rw [readInt_unsigned x y
      (List.forall_mem_cons.mpr ⟨hchar.1, fun c hc => (hbuf c hc).1⟩)
      (List.forall_mem_cons.mpr ⟨hchar.2, fun c hc => (hbuf c hc).2⟩), hskip, readDigits_digits h]
    rfl
  · rw [readInt_unsigned x y
      (List.forall_mem_cons.mpr ⟨by decide,
        List.forall_mem_cons.mpr ⟨hchar.1, fun c hc => (hbuf c hc).1⟩⟩)
      (List.forall_mem_cons.mpr ⟨by decide,
        List.forall_mem_cons.mpr ⟨hchar.2, fun c hc => (hbuf c hc).2⟩⟩), hskip',
      readDigits_digits h]
    rfl

/-- The letter and the 0 of a prefix, as far as there is room for them. -/
theorem readInt_marked {base : Nat} {mark : Byte} {buf : List Byte} (x y : Nat)
    (hmark : isMark base mark = true)
    (h : ∀ c ∈ buf, isDigitIn base c) :
    readInt base (spaces x ++ pushIfRoom (ascii '0') (pushIfRoom mark buf) ++ spaces y) =
      some (numberIn base buf : Int) := by
  have hread := readInt_mark x y hmark h
  unfold pushIfRoom
  by_cases hroom : buf.length < ntoaBufferSize
  · rw [if_pos hroom]
    split
    · exact hread.2
    · exact hread.1
  · rw [if_neg hroom, if_neg hroom]
    exact readInt_digits x y h

/-- A prefix that is there as a whole or in part is skipped. -/
theorem readInt_prefix {b : Word} {buf : List Byte} {flags : Flags} (x y : Nat)
    (hb : b = 16 ∨ b = 8 ∨ b = 2)
    (h : ∀ c ∈ buf, isDigitIn b.toNat c) :
    let marked :=
      if b = 16 then pushIfRoom (if flags.uppercase then ascii 'X' else ascii 'x') buf
      else if b = 2 then pushIfRoom (ascii 'b') buf
      else buf
    readInt b.toNat (spaces x ++ pushIfRoom (ascii '0') marked ++ spaces y) =
      some (numberIn b.toNat buf : Int) := by
  dsimp only
  rcases hb with rfl | rfl | rfl
  · rw [if_pos rfl]
    refine readInt_marked x y ?_ h
    cases flags.uppercase <;> decide
  · -- the prefix is a digit
    rw [if_neg (by decide), if_neg (by decide), pushIfRoom]
    split
    · have hzeros := @zeros_digits 1 (8 : Word).toNat _ (by decide) h
      exact (readInt_digits x y hzeros).trans (congrArg (fun n : Nat => some (n : Int))
        (numberIn_zeros 1))
    · exact readInt_digits x y h
  · rw [if_neg (by decide), if_pos rfl]
    exact readInt_marked x y (by decide) h

/-- The specifiers with a prefix. -/
theorem baseOf_cases (c : Byte) :
    baseOf c = 10 ∨ baseOf c = 16 ∨ baseOf c = 8 ∨ baseOf c = 2 := by
  unfold baseOf
  split_ifs <;> simp

/-- Room for the prefix is made where digits stand. -/
def DigitsLost (s : Scan) (c : Byte) (v : Word) : Prop :=
  let len := (Nat.digits (baseOf c).toNat v.toNat).length
  s.flags.hash = true ∧ s.flags.precision = false ∧ baseOf c ≠ 10 ∧ v ≠ 0 ∧
    (s.width.toNat = len ∨
      (s.width.toNat = len + 1 ∧ baseOf c = 16 ∧ s.flags.zeropad = true ∧ s.flags.left = false))

/-- How many characters are dropped, against the zeros that are there. -/
theorem dropCount_le_iff {s : Scan} {c : Byte} {len : Nat}
    (hlen : 0 < len)
    (hmax : len ≤ 32)
    (hsixteen : baseOf c = 16 → len ≤ 8)
    (hprec : s.flags.precision = false → s.prec = 0) :
    let flags := integerFlags c s.flags
    let pad := padCount len s.prec s.width flags
    dropCount (pad + len) (baseOf c) s.prec s.width flags ≤ pad ↔
      ¬ (s.flags.precision = false ∧
        (s.width.toNat = len ∨
          (s.width.toNat = len + 1 ∧ baseOf c = 16 ∧ s.flags.zeropad = true ∧
            s.flags.left = false))) := by
  have hsize : ntoaBufferSize = 32 := rfl
  dsimp only
  unfold padCount dropCount
  simp only [integerFlags_left, integerFlags_zeropad, integerFlags_precision, hsize]
  cases hp : s.flags.precision with
  | true => simp
  | false =>
      have hzero : s.prec.toNat = 0 := by
        rw [hprec hp]
        rfl
      simp only [hzero, true_and, Bool.not_false, Bool.and_true]
      by_cases hb : baseOf c = 16
      · have hle := hsixteen hb
        cases hleft : s.flags.left with
        | true =>
            simp only [hb, if_true, true_and, Bool.true_eq_false, and_false, or_false]
            split_ifs <;> omega
        | false =>
            cases hz : s.flags.zeropad with
            | true =>
                simp only [hb, if_true, if_false, true_and, Bool.false_eq_true, and_true]
                split_ifs <;> omega
            | false =>
                simp only [hb, if_false, true_and, Bool.false_eq_true, false_and, and_false,
                  or_false]
                split_ifs <;> omega
      · cases hleft : s.flags.left with
        | true =>
            simp only [hb, if_true, if_false, false_and, and_false, or_false]
            split_ifs <;> omega
        | false =>
            cases hz : s.flags.zeropad with
            | true =>
                simp only [hb, if_true, if_false, Bool.false_eq_true, false_and, and_false,
                  or_false]
                split_ifs <;> omega
            | false =>
                simp only [hb, if_false, Bool.false_eq_true, false_and, and_false, or_false]
                split_ifs <;> omega

/-- The flags of a conversion without a sign. -/
theorem integerFlags_sign {c : Byte} (flags : Flags)
    (hc : isSigned c = false) :
    (integerFlags c flags).plus = false ∧ (integerFlags c flags).space = false := by
  simp only [integerFlags, hc, Bool.not_false, if_true]
  split_ifs <;> exact ⟨rfl, rfl⟩

/-- The text with a prefix. -/
theorem ntoaText_hash {v b prec width : Word} {flags : Flags}
    (hv : v ≠ 0)
    (hhash : flags.hash = true)
    (hsign : flags.plus = false ∧ flags.space = false) :
    let ds := digitsOf v b flags
    let pad := padCount ds.length prec width flags
    let buf := (List.replicate pad (ascii '0') ++ ds).drop
      (dropCount (pad + ds.length) b prec width flags)
    let marked :=
      if b = 16 then pushIfRoom (if flags.uppercase then ascii 'X' else ascii 'x') buf
      else if b = 2 then pushIfRoom (ascii 'b') buf
      else buf
    ntoaText v false b prec width flags = revText (pushIfRoom (ascii '0') marked) width flags := by
  have hwidth : zeropadWidth false width flags = width := by
    unfold zeropadWidth
    rw [hsign.1, hsign.2]
    simp
  unfold ntoaText formatted pushSign handleHash
  simp only [hv, hhash, hsign.1, hsign.2, hwidth, if_false, if_true, Bool.false_eq_true]
  rw [dropForHash_eq, padLeadingZeros_eq, List.length_append, List.length_replicate]

theorem unsigned_text_iff (va : Nat → Word) (mem : AddressSpace) (s : Scan) (c : Byte)
    (rest : List Byte)
    (hformat : s.format = c :: rest)
    (hint : isInteger c = true)
    (hc : isSigned c = false)
    (hlong : s.flags.longLong = false)
    (hprec : s.flags.precision = false → s.prec = 0) :
    ∃ t, (∀ (β : Type) (out : OutFct β) (maxlen : Word) (o : Output β 32),
        evalSpecifier va mem out maxlen s o = .ok (write out maxlen o t, rest, s.args + 1)) ∧
      (readInt (baseOf c).toNat t = some ((unsignedValue s.flags (va s.args)).toNat : Int) ↔
        ¬ DigitsLost s c (unsignedValue s.flags (va s.args))) := by
  have htext : conversionText va mem s c =
      (ntoaText (unsignedValue s.flags (va s.args)) false (baseOf c) s.prec s.width
        (integerFlags c s.flags), 1) := by
    rw [conversionText, if_pos hint]
    dsimp only
    rw [hc, if_neg Bool.false_ne_true, unsignedValue_integerFlags]
  generalize unsignedValue s.flags (va s.args) = v at htext
  refine ⟨(conversionText va mem s c).1, ?_, ?_⟩
  · intro β out maxlen o
    rw [evalSpecifier_eq, specifierText, hformat]
    dsimp only
    rw [hlong, Bool.and_false, if_neg Bool.false_ne_true, htext]
    rfl
  have hbase : 1 < (baseOf c).toNat ∧ (baseOf c).toNat ≤ 16 := by
    rcases baseOf_cases c with h | h | h | h <;> rw [h] <;> decide
  rw [htext]
  by_cases hhash : v ≠ 0 ∧ (integerFlags c s.flags).hash = true
  · obtain ⟨hv, hhash⟩ := hhash
    have hflag : s.flags.hash = true ∧ baseOf c ≠ 10 := by
      rw [integerFlags_hash] at hhash
      simpa using hhash
    have hb : baseOf c = 16 ∨ baseOf c = 8 ∨ baseOf c = 2 :=
      (baseOf_cases c).resolve_left hflag.2
    have hnat : v.toNat ≠ 0 := fun h0 => hv (BitVec.eq_of_toNat_eq h0)
    have hds : digitsOf v (baseOf c) (integerFlags c s.flags) =
        digitText (integerFlags c s.flags).uppercase (baseOf c).toNat v.toNat := by
      rw [digitsOf_eq hbase.1, if_pos (by rw [decide_eq_true hv, Bool.or_true])]
    have hlen : (digitsOf v (baseOf c) (integerFlags c s.flags)).length =
        (Nat.digits (baseOf c).toNat v.toNat).length := by
      rw [hds, digitText_length hnat]
    have hpos : 0 < (Nat.digits (baseOf c).toNat v.toNat).length :=
      List.length_pos_of_ne_nil (Nat.digits_ne_nil_iff_ne_zero.mpr hnat)
    have hmax : (Nat.digits (baseOf c).toNat v.toNat).length ≤ 32 :=
      (Nat.digits_length_le_iff hbase.1 _).mpr
        (Nat.lt_of_lt_of_le v.isLt (Nat.pow_le_pow_left hbase.1 32))
    have hsixteen : baseOf c = 16 → (Nat.digits (baseOf c).toNat v.toNat).length ≤ 8 := by
      intro h16
      rw [h16, Nat.digits_length_le_iff (by decide)]
      exact Nat.lt_of_lt_of_eq v.isLt (by decide)
    have hdrop := dropCount_le_iff hpos hmax hsixteen hprec
    dsimp only at hdrop
    rw [ntoaText_hash hv hhash (integerFlags_sign s.flags hc)]
    obtain ⟨x, y, hfield⟩ := revText_field (pushIfRoom (ascii '0') _) s.width
      (integerFlags c s.flags)
    rw [hfield, readInt_prefix x y hb fun d hd => zeros_digits hbase.1
      (digitsOf_digits hbase.1 hbase.2) d (List.mem_of_mem_drop hd), hlen, hds]
    rw [Option.some_inj, Nat.cast_inj, numberIn_drop_iff hbase.1 hbase.2 hnat, hdrop]
    unfold DigitsLost
    simp only [hflag.1, hflag.2, hv, ne_eq, not_false_eq_true, true_and]
  · -- no prefix
    have hread := @readInt_plain_unsigned v _ s.prec s.width (integerFlags c s.flags) hbase.1
      hbase.2
      fun hv => Bool.eq_false_of_not_eq_true fun hh => hhash ⟨hv, hh⟩
    refine iff_of_true hread ?_
    rintro ⟨hh, _, hten, hv, _⟩
    refine hhash ⟨hv, ?_⟩
    rw [integerFlags_hash, hh, decide_eq_true hten]
    rfl

/-- A precision other than 0 is given with a point. -/
theorem evalFields_prec (va : Nat → Word) (format : List Byte) (args : Nat) :
    (evalFields va format args).flags.precision = false → (evalFields va format args).prec = 0 := by
  have hwidth : ∀ s : Scan, s.prec = 0 → (evalWidth va s).prec = 0 := by
    intro s hs
    unfold evalWidth
    dsimp only
    split
    · exact hs
    · split_ifs <;> exact hs
  have hprecision : ∀ s : Scan, s.prec = 0 →
      (evalPrecision va s).flags.precision = false → (evalPrecision va s).prec = 0 := by
    rintro ⟨flags, width, prec, _ | ⟨c, _ | ⟨d, rest⟩⟩, args⟩ hs
    · exact fun _ => hs
    · unfold evalPrecision
      dsimp only
      split_ifs
      · exact fun _ => hs
      · exact fun _ => hs
    · unfold evalPrecision
      dsimp only
      split_ifs
      · exact fun h => absurd h (by simp)
      · exact fun h => absurd h (by simp)
      · exact fun h => absurd h (by simp)
      · exact fun h => absurd h (by simp)
      · exact fun _ => hs
  have hlength : ∀ s : Scan, (evalLength s).flags.precision = s.flags.precision ∧
      (evalLength s).prec = s.prec := by
    rintro ⟨flags, width, prec, _ | ⟨c, _ | ⟨d, rest⟩⟩, args⟩
    · exact ⟨rfl, rfl⟩
    · unfold evalLength
      dsimp only
      split_ifs <;> exact ⟨rfl, rfl⟩
    · unfold evalLength
      dsimp only
      split_ifs <;> exact ⟨rfl, rfl⟩
  unfold evalFields
  dsimp only
  rw [(hlength _).1, (hlength _).2]
  exact hprecision _ (hwidth _ rfl)

/-- **What an unsigned conversion shows**: for every directive of a format with `u`,
`x`, `X`, `o` or `b` and without `ll` and `j`, every argument and every output function, the
text reads as the argument exactly if `#` does not make room for its prefix among the
digits. -/
theorem unsigned_reads_back_iff (va : Nat → Word) (mem : AddressSpace) (format : List Byte)
    (args : Nat) (c : Byte) (rest : List Byte)
    (hformat : (evalFields va format args).format = c :: rest)
    (hint : isInteger c = true)
    (hc : isSigned c = false)
    (hlong : (evalFields va format args).flags.longLong = false) :
    let s := evalFields va format args
    ∃ t, (∀ (β : Type) (out : OutFct β) (maxlen : Word) (o : Output β 32),
        evalSpecifier va mem out maxlen s o = .ok (write out maxlen o t, rest, s.args + 1)) ∧
      (readInt (baseOf c).toNat t = some ((unsignedValue s.flags (va s.args)).toNat : Int) ↔
        ¬ DigitsLost s c (unsignedValue s.flags (va s.args))) :=
  unsigned_text_iff va mem _ c rest hformat hint hc hlong (evalFields_prec va format args)

/-- `%#4x` of 0x1234 makes room for `0x` where `12` stands. -/
theorem unsigned_reads_back_sample :
    let va : Nat → Word := fun _ => 0x1234
    let s := evalFields va (asciiOf "#4x") 0
    ∃ t, (∀ (β : Type) (out : OutFct β) (maxlen : Word) (o : Output β 32),
        evalSpecifier va ⟨fun _ => 0, 0, rfl⟩ out maxlen s o =
          .ok (write out maxlen o t, [], s.args + 1)) ∧
      (readInt (baseOf (ascii 'x')).toNat t =
          some ((unsignedValue s.flags (va s.args)).toNat : Int) ↔
        ¬ DigitsLost s (ascii 'x') (unsignedValue s.flags (va s.args))) :=
  unsigned_reads_back_iff (fun _ => 0x1234) ⟨fun _ => 0, 0, rfl⟩ (asciiOf "#4x") 0 (ascii 'x') []
    (by decide) (by decide) (by decide) (by decide)

end Unsigned

end Printf

end Klyx
