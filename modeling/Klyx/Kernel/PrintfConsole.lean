import Klyx.Kernel.PrintfText
import Klyx.Kernel.Console

/-!
# Formatted output to the console

`printf_` hands each character of its text to `con_putchar`, which makes one call
of `tty_write` for it, on the terminal that is shown until tasking starts and on
the terminal of the current task from then on.

**Results.**
* `ttyWrite_append`: two writes one after the other are one write.
* `printf_writes_text`: `printf_` is one write of the text, without its zeros.
-/

namespace Klyx

open OutputStream

namespace Console

/-- The terminal that `con_putchar` writes to. -/
def putcharTty (c : Console) (useCurrentTty : Bool) (taskTty : Nat) : Nat :=
  if useCurrentTty then c.currentTtyDispl else taskTty

/-- `con_putchar`. -/
def conPutchar (useCurrentTty : Bool) (taskTty : Nat) (c : Console) (ch : Byte) : Console :=
  (c.ttyWrite (c.putcharTty useCurrentTty taskTty) [ch]).1

section Write

variable {c : Console} {td : Nat}

theorem putGlyph_errno (place : Nat → Nat) (tty : Nat) (ch : Byte) :
    (putGlyph place c tty ch).errno = c.errno := by
  rcases putGlyph_cases c tty place ch with ⟨cur, heq⟩ | ⟨cur, heq⟩ <;> rw [heq] <;> rfl

theorem putChar_errno (place : Nat → Nat) (tty : Nat) (ch : Byte) :
    (putChar place tty c ch).errno = c.errno := by
  unfold putChar scrollIfPast
  split
  · exact putGlyph_errno place tty ch
  · exact putGlyph_errno place tty ch

theorem putChar_currentTtyDispl (place : Nat → Nat) (tty : Nat) (ch : Byte) :
    (putChar place tty c ch).currentTtyDispl = c.currentTtyDispl := by
  have hglyph : (putGlyph place c tty ch).currentTtyDispl = c.currentTtyDispl := by
    rcases putGlyph_cases c tty place ch with ⟨cur, heq⟩ | ⟨cur, heq⟩ <;> rw [heq] <;> rfl
  unfold putChar scrollIfPast
  split
  · exact hglyph
  · exact hglyph

theorem ttyWrite_errno (s : List Byte) :
    (c.ttyWrite td s).1.errno = if td < ttysCap then .eno else .efault := by
  split
  · next h =>
      rw [ttyWrite_eq c h]
      exact putStr_invariant (fun c => c.errno = .eno) rfl
        fun c ch hc => (putChar_errno _ _ ch).trans hc
  · next h =>
      rw [ttyWrite_efault c h]

theorem ttyWrite_currentTtyDispl (s : List Byte) :
    (c.ttyWrite td s).1.currentTtyDispl = c.currentTtyDispl := by
  by_cases h : td < ttysCap
  · rw [ttyWrite_eq c h]
    exact putStr_invariant (fun c' => c'.currentTtyDispl = c.currentTtyDispl) rfl
      fun c' ch hc => (putChar_currentTtyDispl _ _ ch).trans hc
  · rw [ttyWrite_efault c h]

/-- Two writes one after the other are one write. -/
theorem ttyWrite_append (s t : List Byte) :
    ((c.ttyWrite td s).1.ttyWrite td t).1 = (c.ttyWrite td (s ++ t)).1 := by
  by_cases h : td < ttysCap
  · -- the second write finds `errno` clear
    have herrno : (c.ttyWrite td s).1.errno = .eno := (ttyWrite_errno s).trans (if_pos h)
    have hclear : { (c.ttyWrite td s).1 with errno := .eno } = (c.ttyWrite td s).1 := by
      rw [← herrno]
    rw [ttyWrite_eq _ h, hclear, ttyWrite_eq c h, ttyWrite_eq c h]
    exact List.foldl_append.symm
  · rw [ttyWrite_efault _ h, ttyWrite_efault c h, ttyWrite_efault c h]

/-- Calls of `con_putchar` on a text that is not empty. -/
theorem foldl_conPutchar (useCurrentTty : Bool) (taskTty : Nat) (ch : Byte) (s : List Byte) :
    (ch :: s).foldl (conPutchar useCurrentTty taskTty) c =
      (c.ttyWrite (c.putcharTty useCurrentTty taskTty) (ch :: s)).1 := by
  induction s using List.reverseRecOn with
  | nil =>
      rfl
  | append_singleton s d ih =>
      have htty : ∀ s', (c.ttyWrite (c.putcharTty useCurrentTty taskTty) s').1.putcharTty
          useCurrentTty taskTty = c.putcharTty useCurrentTty taskTty := by
        intro s'
        unfold putcharTty
        rw [ttyWrite_currentTtyDispl]
      rw [← List.cons_append, List.foldl_append, ih, List.foldl_cons, List.foldl_nil, conPutchar,
        htty, ttyWrite_append]

end Write

end Console

namespace Printf

/-- `_out_char`. -/
def outConsole (useCurrentTty : Bool) (taskTty : Nat) : OutFct Console :=
  fun ch c _ _ => if ch ≠ 0 then c.conPutchar useCurrentTty taskTty ch else c

section Console

variable (va : Nat → Word) (mem : AddressSpace) (useCurrentTty : Bool) (taskTty : Nat)

/-- `printf_`. -/
def printf (c : Console) (format : List Byte) : Except Stop (Console × Int) :=
  vsnprintf va mem (outConsole useCurrentTty taskTty) (-1) c format

/-- `fctprintf`, whose callback is `fct`. -/
def fctprintf {β : Type} (fct : Byte → β → β) (arg : β) (format : List Byte) :
    Except Stop (β × Int) :=
  vsnprintf va mem (outFct fct) (-1) arg format

variable {va mem useCurrentTty taskTty}

/-- The callback is called on the characters of the text, and on no zero. -/
theorem fctprintf_eq {β : Type} (fct : Byte → β → β) (arg : β) (format : List Byte) :
    fctprintf va mem fct arg format =
      (text va mem format 0).map fun r =>
        ((r.1.filter (· ≠ 0)).foldl (fun b ch => fct ch b) arg,
          (BitVec.ofNat 32 r.1.length).toInt) := by
  rw [fctprintf, vsnprintf, vsnprintfLoop_eq, text]
  cases textLoop va mem format.length format 0 with
  | error e =>
      rfl
  | ok r =>
      have hbuffer : (write (outFct fct) (-1) ⟨arg, 0⟩ r.1).buffer =
          (r.1.filter (· ≠ 0)).foldl (fun b ch => fct ch b) arg := by
        rw [List.foldl_filter, ← emit_fold (o := ⟨arg, 0⟩)]
        simp only [write, outFct, decide_eq_true_eq]
        rfl
      have hidx : (write (outFct fct) (-1) ⟨arg, 0⟩ r.1).idx = BitVec.ofNat 32 r.1.length := by
        have hemit := @emit_idx Byte β 32 (fun c b i => outFct fct c b i (-1)) ⟨arg, 0⟩ r.1
        exact hemit.trans (BitVec.zero_add _)
      dsimp only [Except.map]
      rw [hidx, outFct, if_neg (fun h => h rfl), hbuffer]

/-- **`printf_` is one write of its text**: for every supported format, the screens, cursors
and `errno` are left as by one `tty_write` of the characters other than zero, and nothing
changes where there are none; the number returned is the length of the text, as an `int`
has it. -/
theorem printf_writes_text (c : Console) (format : List Byte)
    (h : Supported va format) :
    ∃ t args, text va mem format 0 = .ok (t, args) ∧
      printf va mem useCurrentTty taskTty c format =
        .ok (if t.filter (· ≠ 0) = [] then c
            else (c.ttyWrite (c.putcharTty useCurrentTty taskTty) (t.filter (· ≠ 0))).1,
          (BitVec.ofNat 32 t.length).toInt) := by
  rcases (supported_iff va mem format).mp h with ⟨⟨t, args⟩, htext⟩
  refine ⟨t, args, htext, ?_⟩
  have hfct : printf va mem useCurrentTty taskTty c format =
      fctprintf va mem (fun ch c => c.conPutchar useCurrentTty taskTty ch) c format := rfl
  rw [hfct, fctprintf_eq, htext]
  dsimp only [Except.map]
  cases hshown : t.filter (· ≠ 0) with
  | nil => rfl
  | cons ch s =>
      rw [if_neg (List.cons_ne_nil ch s)]
      exact congrArg (fun c' => Except.ok (c', _)) (Console.foldl_conPutchar _ _ ch s)

/-- A number on the first terminal. -/
theorem printf_writes_text_sample :
    printf (fun _ => 42) ⟨fun _ => 0, 0, rfl⟩ true 3 Console.boot (asciiOf "%d\n") =
      .ok ((Console.boot.ttyWrite 0 [52, 50, 10]).1, 3) := by
  have hsupported : Supported (fun _ => 42) (asciiOf "%d\n") := by
    decide +kernel
  rcases @printf_writes_text _ ⟨fun _ => 0, 0, rfl⟩ true 3 Console.boot _ hsupported with
    ⟨t, args, htext, hprintf⟩
  have hsample : text (fun _ => 42) ⟨fun _ => 0, 0, rfl⟩ (asciiOf "%d\n") 0 =
      .ok ([52, 50, 10], 1) := by
    decide +kernel
  rw [hsample] at htext
  cases htext
  exact hprintf

end Console

end Printf

end Klyx
