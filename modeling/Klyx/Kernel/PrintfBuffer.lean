import Klyx.Kernel.PrintfText

/-!
# Formatted output to a buffer

`sprintf_` and `snprintf_` store the text of a format in a buffer.

**Results.**
* `snprintf_law`: the buffer holds the text, cut off before the last character
  of the buffer, with a zero behind it; the number returned does not depend on
  the buffer.
* `snprintf_frame`: no supported format reaches past the end of the buffer, not even one
  whose text is so long that the index wraps.
-/

namespace Klyx

open OutputStream

namespace Printf

section Buffer

variable (va : Nat → Word) (mem : AddressSpace)

/-- `snprintf_`.  The buffer lies apart from the format and the strings. -/
def snprintf (buffer : Nat → Byte) (count : Word) (format : List Byte) :
    Except Stop ((Nat → Byte) × Int) :=
  vsnprintf va mem outBuffer count buffer format

/-- `snprintf_` with a null pointer for the buffer. -/
def snprintfNull (count : Word) (format : List Byte) : Except Stop Int :=
  (vsnprintf va mem outNull count () format).map Prod.snd

/-- `sprintf_`. -/
def sprintf (buffer : Nat → Byte) (format : List Byte) : Except Stop ((Nat → Byte) × Int) :=
  vsnprintf va mem outBuffer (-1) buffer format

/-- What is left of a text in a buffer of `count` characters. -/
structure IsStored (t : List Byte) (count : Nat) (before after : Nat → Byte) : Prop where
  shown : ∀ i, i < t.length → i + 1 < count → after i = t.getD i 0
  terminated : 0 < count → after (min t.length (count - 1)) = 0
  untouched : ∀ i, count ≤ i ∨ t.length < i → after i = before i

/-- The law of `snprintf_`: the same number for every buffer, and the text in the
buffer. -/
structure SnprintfLaw (format : List Byte) (t : List Byte) : Prop where
  stored : ∀ (buffer : Nat → Byte) (count : Word), ∃ after,
    snprintf va mem buffer count format = .ok (after, t.length) ∧
      IsStored t count.toNat buffer after
  null : ∀ count, snprintfNull va mem count format = .ok t.length
  unbounded : ∀ buffer : Nat → Byte, ∃ after,
    sprintf va mem buffer format = .ok (after, t.length) ∧
      IsStored t (2 ^ 32 - 1) buffer after

variable {va mem}

/-- What `_vsnprintf` does, in terms of the text. -/
theorem vsnprintf_eq {β : Type} (out : OutFct β) (maxlen : Word) (buffer : β)
    (format : List Byte) :
    vsnprintf va mem out maxlen buffer format =
      (text va mem format 0).map fun r =>
        let o := write out maxlen ⟨buffer, 0⟩ r.1
        (out 0 o.buffer (if o.idx.toNat < maxlen.toNat then o.idx else maxlen - 1) maxlen,
          o.idx.toInt) := by
  rw [vsnprintf, vsnprintfLoop_eq, text]
  cases textLoop va mem format.length format 0 <;> rfl

theorem write_idx {β : Type} (out : OutFct β) (maxlen : Word) (buffer : β) {t : List Byte}
    (h : t.length < 2 ^ 31) :
    (write out maxlen ⟨buffer, 0⟩ t).idx.toNat = t.length ∧
      (write out maxlen ⟨buffer, 0⟩ t).idx.toInt = t.length := by
  have hnat : (write out maxlen ⟨buffer, 0⟩ t).idx.toNat = t.length := by
    have hidx := @emit_idx_toNat Byte β 32 (fun c b i => out c b i maxlen) ⟨buffer, 0⟩ t
      (by simp; omega)
    simpa [write] using hidx
  refine ⟨hnat, ?_⟩
  rw [BitVec.toInt_eq_toNat_of_lt (by omega), hnat]

/-- The text and the zero behind it, in a buffer. -/
theorem write_outBuffer {t : List Byte} (count : Word) (buffer : Nat → Byte)
    (h : t.length < 2 ^ 31) :
    let o := write outBuffer count ⟨buffer, 0⟩ t
    IsStored t count.toNat buffer
      (outBuffer 0 o.buffer (if o.idx.toNat < count.toNat then o.idx else count - 1) count) := by
  dsimp only
  have hidx := (write_idx outBuffer count buffer h).1
  have hbuffer : (write outBuffer count ⟨buffer, 0⟩ t).buffer =
      CString.copy buffer 0 (t.take count.toNat) := by
    have hstore := emit_store (n := count) (o := (⟨buffer, 0⟩ : Output (Nat → Byte) 32)) (s := t)
      (by simp; omega)
    simpa [write, outBuffer] using hstore
  have hlength : (t.take count.toNat).length = min count.toNat t.length := List.length_take
  rw [hbuffer, hidx]
  by_cases hzero : count.toNat = 0
  · have hlast : ¬ (count - 1).toNat < count.toNat := by omega
    rw [if_neg (by omega), outBuffer, store, if_neg hlast, hzero]
    exact ⟨fun i _ h' => absurd h' (Nat.not_lt_zero _), fun h' => absurd h' (Nat.lt_irrefl _),
      fun i _ => rfl⟩
  · have hpred : (count - 1).toNat = count.toNat - 1 := by
      have hone : (1 : Word).toNat = 1 := rfl
      rw [BitVec.toNat_sub_of_le (by rw [BitVec.le_def]; omega), hone]
    have hlast : (if t.length < count.toNat then (write outBuffer count ⟨buffer, 0⟩ t).idx
        else count - 1).toNat = min t.length (count.toNat - 1) := by
      split <;> omega
    rw [outBuffer, store, hlast, if_pos (by omega)]
    constructor
    · intro i hi hroom
      have hinside := CString.copy_inside (m := buffer) (a := 0) (s := t.take count.toNat) (i := i)
        (by omega)
      rw [Function.update_of_ne (by omega)]
      rw [Nat.zero_add] at hinside
      rw [hinside, List.getD_eq_getElem?_getD, List.getD_eq_getElem?_getD,
        List.getElem?_take_of_lt (by omega)]
    · intro _
      exact Function.update_self _ _ _
    · intro i hi
      rw [Function.update_of_ne (by omega)]
      exact CString.copy_outside (Or.inr (by omega))

/-- **What `snprintf_` stores**: every supported format has a text, and where that is not
longer than an `int` can tell, the number returned is the length of the text, whatever the
size of the buffer, and the buffer holds what fits of it, a zero behind, and what it held
before. -/
theorem snprintf_law {format : List Byte}
    (h : Supported va format) :
    ∃ t args, text va mem format 0 = .ok (t, args) ∧
      (t.length < 2 ^ 31 → SnprintfLaw va mem format t) := by
  rcases (supported_iff va mem format).mp h with ⟨⟨t, args⟩, htext⟩
  refine ⟨t, args, htext, ?_⟩
  intro hlength
  constructor
  · intro buffer count
    refine ⟨_, ?_, write_outBuffer count buffer hlength⟩
    rw [snprintf, vsnprintf_eq, htext]
    exact congrArg (fun n => Except.ok (_, n)) (write_idx outBuffer count buffer hlength).2
  · intro count
    rw [snprintfNull, vsnprintf_eq, htext]
    exact congrArg Except.ok (write_idx outNull count () hlength).2
  · intro buffer
    refine ⟨_, ?_, write_outBuffer (-1) buffer hlength⟩
    rw [sprintf, vsnprintf_eq, htext]
    exact congrArg (fun n => Except.ok (_, n)) (write_idx outBuffer (-1) buffer hlength).2

/-- Five characters in a buffer of three. -/
theorem snprintf_law_sample :
    SnprintfLaw (fun _ => 42) ⟨fun _ => 0, 0, rfl⟩ (asciiOf "%d-%x") (asciiOf "42-2a") := by
  have hsupported : Supported (fun _ => 42) (asciiOf "%d-%x") := by
    decide +kernel
  rcases @snprintf_law _ ⟨fun _ => 0, 0, rfl⟩ _ hsupported with ⟨t, args, htext, hlaw⟩
  have hsample : text (fun _ => 42) ⟨fun _ => 0, 0, rfl⟩ (asciiOf "%d-%x") 0 =
      .ok (asciiOf "42-2a", 2) := by
    decide +kernel
  rw [hsample] at htext
  cases htext
  exact hlaw (by decide)

/-- The zero behind the text is stored inside the buffer, wherever the index is. -/
theorem terminator_frame (count : Word) (o : Output (Nat → Byte) 32) :
    let after := outBuffer 0 o.buffer
      (if o.idx.toNat < count.toNat then o.idx else count - 1) count
    (∀ i, count.toNat ≤ i → after i = o.buffer i) ∧
      (0 < count.toNat → ∃ i < count.toNat, after i = 0) := by
  have hlast : 0 < count.toNat →
      (if o.idx.toNat < count.toNat then o.idx else count - 1).toNat < count.toNat := by
    intro hpos
    split
    · assumption
    · have hone : (1 : Word).toNat = 1 := rfl
      rw [BitVec.toNat_sub_of_le (by rw [BitVec.le_def]; omega), hone]
      omega
  dsimp only
  generalize (if o.idx.toNat < count.toNat then o.idx else count - 1) = last at hlast
  unfold outBuffer store
  constructor
  · intro i hi
    split
    · exact Function.update_of_ne (by omega) _ _
    · rfl
  · intro hpos
    refine ⟨last.toNat, hlast hpos, ?_⟩
    rw [if_pos (hlast hpos)]
    exact Function.update_self _ _ _

/-- **No supported format reaches past the end of the buffer**, and a buffer of one
character or more holds a zero afterwards. -/
theorem snprintf_frame (va : Nat → Word) (mem : AddressSpace) (buffer : Nat → Byte)
    (count : Word) (format : List Byte)
    (h : Supported va format) :
    ∃ after n, snprintf va mem buffer count format = .ok (after, n) ∧
      (∀ i, count.toNat ≤ i → after i = buffer i) ∧
      (0 < count.toNat → ∃ i < count.toNat, after i = 0) := by
  rcases (supported_iff va mem format).mp h with ⟨r, htext⟩
  let o := write outBuffer count ⟨buffer, 0⟩ r.1
  have hcall : snprintf va mem buffer count format =
      .ok (outBuffer 0 o.buffer (if o.idx.toNat < count.toNat then o.idx else count - 1) count,
        o.idx.toInt) := by
    rw [snprintf, vsnprintf_eq, htext]
    rfl
  have hend := terminator_frame count o
  exact ⟨_, _, hcall, fun i hi => (hend.1 i hi).trans (emit_store_outside hi), hend.2⟩

/-- A buffer of two characters. -/
theorem snprintf_frame_sample :
    ∃ after n, snprintf (fun _ => 1234) ⟨fun _ => 0, 0, rfl⟩ (fun _ => 7) 2 (asciiOf "%5d") =
        .ok (after, n) ∧ (∀ i, 2 ≤ i → after i = 7) ∧ ∃ i < 2, after i = 0 := by
  have hsupported : Supported (fun _ => 1234) (asciiOf "%5d") := by
    decide +kernel
  rcases snprintf_frame (fun _ => 1234) ⟨fun _ => 0, 0, rfl⟩ (fun _ => 7) 2 (asciiOf "%5d")
    hsupported with ⟨after, n, hcall, houtside, hzero⟩
  exact ⟨after, n, hcall, houtside, hzero (by decide)⟩

end Buffer

end Printf

end Klyx
