import Klyx.Kernel.PrintfInteger

/-!
# The width of fields

A conversion is padded to its width, with spaces by the output loop or with zeros
in the buffer of 32 characters.

**Results.**
* `field_width_iff`: when a conversion is as wide as its directive says.
-/

namespace Klyx

open OutputStream

namespace Printf

section Length

theorem spaces_length (n : Nat) :
    (spaces n).length = n := List.length_replicate

theorem fieldText_length (s : List Byte) (pad : Nat) (flags : Flags) :
    (fieldText s pad flags).length = s.length + pad := by
  unfold fieldText
  cases flags.left
  · simp only [Bool.not_false, if_true, Bool.false_eq_true, if_false, List.length_append,
      spaces_length, List.length_nil]
    omega
  · simp only [Bool.not_true, if_true, Bool.false_eq_true, if_false, List.length_append,
      spaces_length, List.length_nil]
    omega

theorem stringText_length (mem : AddressSpace) (n : Nat) (p : Word) :
    (stringText mem n p).length = strnlenS mem n p := by
  induction n generalizing p with
  | zero =>
      rfl
  | succ n ih =>
      rw [stringText, strnlenS]
      split
      · rfl
      · rw [List.length_cons, ih]

theorem strnlenS_mono (mem : AddressSpace) {n m : Nat} (p : Word)
    (h : n ≤ m) :
    strnlenS mem n p ≤ strnlenS mem m p := by
  induction n generalizing m p with
  | zero =>
      exact Nat.zero_le _
  | succ n ih =>
      cases m with
      | zero => exact absurd h (Nat.not_succ_le_zero _)
      | succ m =>
          rw [strnlenS, strnlenS]
          split
          · exact Nat.le_refl _
          · exact Nat.succ_le_succ (ih _ (Nat.le_of_succ_le_succ h))

theorem pushIfRoom_grows (ch : Byte) (s : List Byte) :
    (pushIfRoom ch s).length = if s.length < ntoaBufferSize then s.length + 1 else s.length := by
  unfold pushIfRoom
  split <;> rfl

theorem dropCount_le (len : Nat) (b prec width : Word) (flags : Flags) :
    dropCount len b prec width flags ≤ 2 ∧
      (b ≠ 16 → dropCount len b prec width flags ≤ 1) := by
  unfold dropCount
  by_cases h16 : b = 16
  · simp only [h16, true_and]
    split_ifs <;> simp
  · simp only [h16, false_and, if_false]
    split_ifs <;> simp

/-- Making room for a prefix and adding it does not shorten a number. -/
theorem handleHash_grows {buf : List Byte} {b prec width : Word} {flags : Flags}
    (hlen : buf.length ≤ ntoaBufferSize) :
    buf.length ≤ (handleHash buf b prec width flags).length := by
  have hsize : ntoaBufferSize = 32 := rfl
  unfold handleHash
  split
  · have hdrop := dropCount_le buf.length b prec width flags
    rw [dropForHash_eq]
    dsimp only
    generalize dropCount buf.length b prec width flags = j at hdrop
    by_cases h16 : b = 16
    · rw [if_pos h16, pushIfRoom_grows, pushIfRoom_grows, List.length_drop]
      split_ifs <;> omega
    · have hone := hdrop.2 h16
      rw [if_neg h16]
      by_cases h2 : b = 2
      · rw [if_pos h2, pushIfRoom_grows, pushIfRoom_grows, List.length_drop]
        split_ifs <;> omega
      · rw [if_neg h2, pushIfRoom_grows, List.length_drop]
        split_ifs <;> omega
  · exact Nat.le_refl _

theorem pushSign_grows {buf : List Byte} {negative : Bool} {flags : Flags}
    (hsign : (negative || flags.plus || flags.space) = true)
    (hroom : buf.length < ntoaBufferSize) :
    (pushSign buf negative flags).length = buf.length + 1 := by
  unfold pushSign pushIfRoom
  simp only [hroom, if_true]
  cases negative <;> cases hp : flags.plus <;> cases hs : flags.space <;> simp_all

theorem le_pushSign (buf : List Byte) (negative : Bool) (flags : Flags) :
    buf.length ≤ (pushSign buf negative flags).length := by
  unfold pushSign pushIfRoom
  split_ifs <;> simp

end Length

section Width

/-- A number with zeros is as wide as it should be, or fills the buffer. -/
theorem zeropad_length {buf : List Byte} {negative : Bool} {b prec width : Word} {flags : Flags}
    (hlen : buf.length ≤ ntoaBufferSize)
    (hleft : flags.left = false)
    (hzero : flags.zeropad = true) :
    min width.toNat ntoaBufferSize ≤ (formatted buf negative b prec width flags).length := by
  have hsize : ntoaBufferSize = 32 := rfl
  have hone : (1 : Word).toNat = 1 := rfl
  have hpad : ∀ w : Word, min w.toNat ntoaBufferSize ≤
      (handleHash (padLeadingZeros buf prec w flags) b prec w flags).length := by
    intro w
    refine Nat.le_trans ?_ (handleHash_grows (padLeadingZeros_length hlen))
    rw [padLeadingZeros_eq, List.length_append, List.length_replicate, padCount, hleft, hzero,
      if_neg Bool.false_ne_true, if_pos rfl]
    omega
  unfold formatted
  dsimp only
  have hbefore := hpad (zeropadWidth negative width flags)
  generalize hbuf : handleHash (padLeadingZeros buf prec (zeropadWidth negative width flags) flags)
    b prec (zeropadWidth negative width flags) flags = buf' at hbefore ⊢
  have hafter := le_pushSign buf' negative flags
  unfold zeropadWidth at hbefore
  simp only [hleft, hzero, Bool.not_false, Bool.true_and, Bool.and_true] at hbefore
  by_cases hsign : (negative || flags.plus || flags.space) = true
  · by_cases hw : width = 0
    · rw [hw]
      exact Nat.zero_le _
    · -- one character less is left for the digits, and the sign takes it
      have hpos : 0 < width.toNat := Nat.pos_of_ne_zero fun h0 => hw (BitVec.eq_of_toNat_eq h0)
      rw [if_pos (by rw [decide_eq_true hw, hsign]; rfl),
        BitVec.toNat_sub_of_le (by rw [BitVec.le_def]; omega), hone] at hbefore
      by_cases hroom : buf'.length < ntoaBufferSize
      · rw [pushSign_grows hsign hroom]
        omega
      · omega
  · rw [if_neg (by simp [hsign])] at hbefore
    omega

theorem revText_length (buf : List Byte) (width : Word) (flags : Flags) :
    (revText buf width flags).length =
      if flags.left = false ∧ flags.zeropad = true then buf.length
      else max width.toNat buf.length := by
  unfold revText
  cases flags.left <;> cases flags.zeropad <;>
    simp [spaces_length] <;> omega

/-- The width of a number. -/
theorem ntoaText_width_iff (value : Word) (negative : Bool) (b prec width : Word)
    (flags : Flags) :
    width.toNat ≤ (ntoaText value negative b prec width flags).length ↔
      ¬ (flags.left = false ∧ flags.zeropad = true ∧ 32 < width.toNat) := by
  have hsize : ntoaBufferSize = 32 := rfl
  obtain ⟨flags', buf, hleft, hzero, hlen, htext⟩ : ∃ (flags' : Flags) (buf : List Byte),
      flags'.left = flags.left ∧ flags'.zeropad = flags.zeropad ∧
        buf.length ≤ ntoaBufferSize ∧
        ntoaText value negative b prec width flags =
          revText (formatted buf negative b prec width flags')
            (zeropadWidth negative width flags') flags' := by
    refine ⟨_, _, ?_, ?_, digitsOf_length value b _, rfl⟩
    · split <;> rfl
    · split <;> rfl
  rw [htext, revText_length, hleft, hzero]
  by_cases hpad : flags.left = false ∧ flags.zeropad = true
  · have hmax := @formatted_length buf negative b prec width flags' hlen
    have hmin := @zeropad_length buf negative b prec width flags' hlen (hleft.trans hpad.1)
      (hzero.trans hpad.2)
    rw [if_pos hpad]
    simp only [hpad.1, hpad.2, true_and]
    omega
  · have hwidth : zeropadWidth negative width flags' = width := by
      unfold zeropadWidth
      rw [hleft, hzero]
      cases hl : flags.left <;> cases hz : flags.zeropad <;> simp_all
    rw [if_neg hpad, hwidth]
    refine iff_of_true (Nat.le_max_left _ _) ?_
    rintro ⟨hl, hz, _⟩
    exact hpad ⟨hl, hz⟩

/-- **The width of a field**: for every directive of a format with an integer, `c` or
`s` and without `ll` and `j`, every argument and every output function, the text is as wide
as the directive says exactly if it is not an integer that is padded with zeros to more than 32
characters. -/
theorem field_width_iff (va : Nat → Word) (mem : AddressSpace) (format : List Byte)
    (args : Nat) (c : Byte) (rest : List Byte)
    (hformat : (evalFields va format args).format = c :: rest)
    (hc : isInteger c = true ∨ c = ascii 'c' ∨ c = ascii 's')
    (hlong : (evalFields va format args).flags.longLong = false) :
    let s := evalFields va format args
    ∃ t, (∀ (β : Type) (out : OutFct β) (maxlen : Word) (o : Output β 32),
        evalSpecifier va mem out maxlen s o = .ok (write out maxlen o t, rest, s.args + 1)) ∧
      (s.width.toNat ≤ t.length ↔
        ¬ (isInteger c = true ∧ s.flags.left = false ∧ s.flags.zeropad = true ∧
          s.flags.precision = false ∧ 32 < s.width.toNat)) := by
  have hprec := evalFields_prec va format args
  generalize evalFields va format args = s at hformat hlong hprec
  have hone : (conversionText va mem s c).2 = 1 := by
    unfold conversionText
    rcases hc with h | rfl | rfl
    · rw [if_pos h]
    · rw [if_neg (by decide), if_pos rfl]
    · rw [if_neg (by decide), if_neg (by decide), if_pos rfl]
  refine ⟨(conversionText va mem s c).1, ?_, ?_⟩
  · intro β out maxlen o
    rw [evalSpecifier_eq, specifierText, hformat]
    dsimp only
    rw [hlong, Bool.and_false, if_neg Bool.false_ne_true, hone]
    rfl
  rcases hc with hint | rfl | rfl
  · -- an integer
    have hwidth : ∀ value negative, s.width.toNat ≤
        (ntoaText value negative (baseOf c) s.prec s.width (integerFlags c s.flags)).length ↔
        ¬ (isInteger c = true ∧ s.flags.left = false ∧ s.flags.zeropad = true ∧
          s.flags.precision = false ∧ 32 < s.width.toNat) := by
      intro value negative
      rw [ntoaText_width_iff, integerFlags_left, integerFlags_zeropad]
      simp only [hint, true_and, Bool.and_eq_true, Bool.not_eq_true', and_assoc]
    unfold conversionText
    rw [if_pos hint]
    dsimp only
    split
    · exact hwidth _ _
    · exact hwidth _ _
  · -- one character
    have hno : isInteger (ascii 'c') = false := by decide
    rw [conversionText, if_neg (by decide), if_pos rfl, fieldText_length, List.length_singleton,
      hno]
    simp only [Bool.false_eq_true, false_and, not_false_eq_true, iff_true]
    omega
  · -- a string, of which `l` counts no more characters than are shown
    have hno : isInteger (ascii 's') = false := by decide
    rw [conversionText, if_neg (by decide), if_neg (by decide), if_pos rfl]
    dsimp only
    rw [fieldText_length, stringText_length, hno]
    simp only [Bool.false_eq_true, false_and, not_false_eq_true, iff_true]
    cases hp : s.flags.precision with
    | false =>
        have hmono := strnlenS_mono mem (n := 2 ^ 32 - 1) (m := 2 ^ 32) (va s.args) (by omega)
        rw [hprec hp]
        simp only [Bool.false_eq_true, if_false, ne_eq, not_true_eq_false]
        omega
    | true =>
        rw [if_pos rfl, if_pos rfl]
        by_cases hzero : s.prec = 0
        · rw [hzero]
          simp
        · rw [if_pos hzero]
          omega

/-- `%040d` of 7 is 32 characters wide. -/
theorem field_width_sample :
    let va : Nat → Word := fun _ => 7
    let s := evalFields va (asciiOf "040d") 0
    ∃ t, (∀ (β : Type) (out : OutFct β) (maxlen : Word) (o : Output β 32),
        evalSpecifier va ⟨fun _ => 0, 0, rfl⟩ out maxlen s o =
          .ok (write out maxlen o t, [], s.args + 1)) ∧
      (s.width.toNat ≤ t.length ↔
        ¬ (isInteger (ascii 'd') = true ∧ s.flags.left = false ∧ s.flags.zeropad = true ∧
          s.flags.precision = false ∧ 32 < s.width.toNat)) :=
  field_width_iff (fun _ => 7) ⟨fun _ => 0, 0, rfl⟩ (asciiOf "040d") 0 (ascii 'd') []
    (by decide) (Or.inl (by decide)) (by decide)

end Width

end Printf

end Klyx
