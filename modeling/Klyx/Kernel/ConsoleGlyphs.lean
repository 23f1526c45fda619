import Klyx.Kernel.ConsoleBounds
import Klyx.Kernel.ConsoleControls

/-!
# The cells that characters leave

`0x0F00 | ch` is computed with a signed `char`: a byte below 0x80 keeps the
console's colour in the upper half of its cell, and a byte from 0x80 on
overwrites it with ones.

**Results.**
* `OwnColour.put`: what one character does to the cells.
* `characters_shown_iff`: every sequence of calls of the two write routines.
-/

namespace Klyx

/-- A call of `con_putstr_rev` or `con_putstr`. -/
structure PutCall where
  isRev : Bool
  tty : Nat
  buf : List Byte
deriving DecidableEq

/-- One character of such a call. -/
structure PutChar where
  isRev : Bool
  tty : Nat
  ch : Byte
deriving DecidableEq

/-- The characters of a call. -/
def PutCall.chars (call : PutCall) : List PutChar :=
  call.buf.map fun ch => ⟨call.isRev, call.tty, ch⟩

/-- The characters of a sequence of calls. -/
def charsOf (calls : List PutCall) : List PutChar :=
  calls.flatMap PutCall.chars

/-- Where the write routine shows the character at a cursor. -/
def PutChar.place (w : PutChar) : Nat → Nat :=
  if w.isRev then Console.mirrored else id

namespace Console

/-- Execute a call. -/
def putCall (c : Console) (call : PutCall) : Console :=
  if call.isRev then (c.conPutstrRev call.tty call.buf).1 else (c.conPutstr call.tty call.buf).1

/-- The console after calls from the boot state. -/
def afterCalls (calls : List PutCall) : Console :=
  calls.foldl putCall boot

/-- The loop body of the routine that writes the character. -/
def put (c : Console) (w : PutChar) : Console :=
  c.putChar w.place w.tty w.ch

/-- The console after characters from the boot state. -/
def afterChars (chars : List PutChar) : Console :=
  chars.foldl put boot

end Console

/-- A cell of a terminal is blank or shows a byte that was written to it. -/
def OwnColour (chars : List PutChar) (tty : Nat) (cell : Cell) : Prop :=
  cell = 0 ∨ ∃ w ∈ chars, w.tty = tty ∧ cell = 0x0F00 + w.ch.setWidth 16

instance (chars : List PutChar) (tty : Nat) (cell : Cell) :
    Decidable (OwnColour chars tty cell) :=
  inferInstanceAs (Decidable (_ ∨ ∃ w ∈ chars, _))

/-- A byte that is no control is stored as itself. -/
def StoresItself (c : Console) (w : PutChar) : Prop :=
  ¬ IsControl w.ch →
    (Console.putGlyph w.place c w.tty w.ch).cell w.tty (w.place (c.conCursors w.tty).toNat) =
      0x0F00 + w.ch.setWidth 16

/-- The state of the console after characters below 0x80. -/
structure Coloured (chars : List PutChar) (c : Console) : Prop where
  inBounds : InBounds c
  cells : ∀ tty, ∀ i < 80 * 25, OwnColour chars tty (c.cell tty i)

theorem glyph_eq_iff : ∀ ch : Byte, glyph ch = 0x0F00 + ch.setWidth 16 ↔ ch.toNat < 0x80 := by
  decide +kernel

/-- Calls write their characters one after the other. -/
theorem afterCalls_eq (calls : List PutCall) :
    Console.afterCalls calls = Console.afterChars (charsOf calls) := by
  have hcall : ∀ (c : Console) (call : PutCall),
      c.putCall call = call.chars.foldl Console.put c := by
    intro c call
    unfold PutCall.chars Console.putCall
    rw [List.foldl_map]
    cases call.isRev <;> rfl
  unfold Console.afterCalls Console.afterChars charsOf
  generalize Console.boot = c
  induction calls generalizing c with
  | nil =>
      rfl
  | cons call calls ih =>
      rw [List.foldl_cons, List.flatMap_cons, List.foldl_append, hcall]
      exact ih _

section Cells

variable {chars : List PutChar} {c : Console} {w : PutChar} {tty i : Nat} {cell : Cell}

theorem PutChar.place_lt (w : PutChar) {cur : Nat}
    (h : cur < 80 * 25) :
    w.place cur < 80 * 25 := by
  unfold PutChar.place
  split_ifs
  · exact Console.mirrored_lt h
  · exact h

theorem OwnColour.mono
    (h : OwnColour chars tty cell) :
    OwnColour (chars ++ [w]) tty cell := by
  rcases h with hblank | ⟨v, hmem, hv⟩
  · exact Or.inl hblank
  · exact Or.inr ⟨v, List.mem_append_left _ hmem, hv⟩

/-- The cell that a character is stored in. -/
theorem storesItself_iff
    (hcursor : (c.conCursors w.tty).toNat < 80 * 25) :
    StoresItself c w ↔ (¬ IsControl w.ch → w.ch.toNat < 0x80) := by
  have hlt := w.place_lt hcursor
  refine forall_congr' fun hstored => ?_
  rw [putGlyph_of_not_control hstored, Console.moveCursor_cell,
    Console.cell_store _ _ _ _ hlt hlt, if_pos ⟨rfl, rfl⟩]
  exact glyph_eq_iff w.ch

/-- The switch leaves every cell blank or in its colour. -/
theorem OwnColour.putGlyph
    (h : ∀ tty, ∀ i < 80 * 25, OwnColour chars tty (c.cell tty i))
    (hcursor : (c.conCursors w.tty).toNat < 80 * 25)
    (hw : ¬ IsControl w.ch → w.ch.toNat < 0x80)
    (hi : i < 80 * 25) :
    OwnColour (chars ++ [w]) tty ((Console.putGlyph w.place c w.tty w.ch).cell tty i) := by
  by_cases hcontrol : IsControl w.ch
  · obtain ⟨cur, hmove⟩ := putGlyph_of_control w.place c w.tty hcontrol
    rw [hmove]
    exact (h tty i hi).mono
  · rw [putGlyph_of_not_control hcontrol, Console.moveCursor_cell,
      Console.cell_store _ _ _ _ (w.place_lt hcursor) hi]
    split_ifs with hhere
    · exact Or.inr ⟨w, List.mem_append_right _ List.mem_cons_self, hhere.1.symm,
        (glyph_eq_iff w.ch).mpr (hw hcontrol)⟩
    · exact (h tty i hi).mono

/-- Scrolling moves cells and clears some. -/
theorem OwnColour.scrollIfPast {t : Nat}
    (h : ∀ tty, ∀ i < 80 * 25, OwnColour chars tty (c.cell tty i))
    (hi : i < 80 * 25) :
    OwnColour chars tty ((c.scrollIfPast t).cell tty i) := by
  unfold Console.scrollIfPast
  split_ifs
  · rw [c.cell_scroll t hi]
    split_ifs
    · exact h tty (i + 80) (by omega)
    · exact Or.inl rfl
    · exact h tty i hi
  · exact h tty i hi

/-- One character. -/
theorem Coloured.put
    (h : Coloured chars c)
    (htty : w.tty < ttysCap)
    (hw : ¬ IsControl w.ch → w.ch.toNat < 0x80) :
    Coloured (chars ++ [w]) (c.put w) where
  inBounds := h.inBounds.putChar (fun _ => w.place_lt) htty w.ch
  cells := fun _ _ hi => OwnColour.scrollIfPast
    (fun _ _ hi => OwnColour.putGlyph h.cells (h.inBounds.cursor w.tty htty) hw hi) hi

end Cells

section Runs

variable {chars before : List PutChar} {calls : List PutCall} {c : Console} {w : PutChar}

theorem mem_charsOf :
    w ∈ charsOf calls ↔
      ∃ call ∈ calls, w.isRev = call.isRev ∧ w.tty = call.tty ∧ w.ch ∈ call.buf := by
  simp only [charsOf, List.mem_flatMap, PutCall.chars, List.mem_map]
  constructor
  · rintro ⟨call, hcall, ch, hch, rfl⟩
    exact ⟨call, hcall, rfl, rfl, hch⟩
  · rintro ⟨call, hcall, hrev, htty, hch⟩
    exact ⟨call, hcall, w.ch, hch, by cases w; simp_all⟩

/-- Characters stay on the screen. -/
theorem inBounds_afterChars
    (hchars : ∀ w ∈ chars, w.tty < ttysCap) :
    InBounds (Console.afterChars chars) := by
  have hrun : ∀ c, InBounds c → InBounds (chars.foldl Console.put c) := by
    induction chars with
    | nil =>
        exact fun _ h => h
    | cons w chars ih =>
        intro c h
        exact ih (fun v hv => hchars v (List.mem_cons_of_mem _ hv)) _
          (h.putChar (fun _ => w.place_lt) (hchars w List.mem_cons_self) w.ch)
  exact hrun _ InBounds.boot

/-- Characters below 0x80 from a state that earlier ones left. -/
theorem Coloured.run
    (h : Coloured before c)
    (htty : ∀ w ∈ chars, w.tty < ttysCap)
    (hchars : ∀ w ∈ chars, ¬ IsControl w.ch → w.ch.toNat < 0x80) :
    Coloured (before ++ chars) (chars.foldl Console.put c) := by
  induction chars generalizing before c with
  | nil =>
      rw [List.append_nil]
      exact h
  | cons w chars ih =>
      have hnext := h.put (htty w List.mem_cons_self) (hchars w List.mem_cons_self)
      have hrest := ih hnext (fun v hv => htty v (List.mem_cons_of_mem _ hv))
        (fun v hv => hchars v (List.mem_cons_of_mem _ hv))
      rw [List.append_assoc] at hrest
      exact hrest

theorem Coloured.boot : Coloured [] Console.boot :=
  ⟨InBounds.boot, fun _ _ _ => Or.inl rfl⟩

end Runs

/-- **When every character is shown as itself.**  After calls from the boot
state all cells are blank or show a byte that was written to their terminal, and
each byte that is no control was stored as itself, exactly when these bytes are
below 0x80. -/
theorem characters_shown_iff (calls : List PutCall)
    (hcalls : ∀ call ∈ calls, call.tty < ttysCap) :
    ((∀ tty < ttysCap, ∀ i < 80 * 25,
        OwnColour (charsOf calls) tty ((Console.afterCalls calls).cell tty i)) ∧
      ∀ before w after, charsOf calls = before ++ w :: after →
        StoresItself (Console.afterChars before) w) ↔
    ∀ call ∈ calls, ∀ ch ∈ call.buf, ¬ IsControl ch → ch.toNat < 0x80 := by
  have htty : ∀ w ∈ charsOf calls, w.tty < ttysCap := by
    intro w hw
    obtain ⟨call, hcall, -, heq, -⟩ := mem_charsOf.mp hw
    rw [heq]
    exact hcalls call hcall
  have hstored : ∀ before w after, charsOf calls = before ++ w :: after →
      (StoresItself (Console.afterChars before) w ↔ (¬ IsControl w.ch → w.ch.toNat < 0x80)) := by
    intro before w after hsplit
    rw [hsplit] at htty
    have hbefore : ∀ v ∈ before, v.tty < ttysCap :=
      fun v hv => htty v (List.mem_append_left _ hv)
    have hbounds := inBounds_afterChars hbefore
    exact storesItself_iff (hbounds.cursor w.tty (htty w (by simp)))
  constructor
  · rintro ⟨-, hstores⟩ call hcall ch hch
    have hmem : (⟨call.isRev, call.tty, ch⟩ : PutChar) ∈ charsOf calls :=
      mem_charsOf.mpr ⟨call, hcall, rfl, rfl, hch⟩
    obtain ⟨before, after, hsplit⟩ := List.append_of_mem hmem
    exact (hstored before _ after hsplit).mp (hstores before _ after hsplit)
  · intro hbytes
    have hchars : ∀ w ∈ charsOf calls, ¬ IsControl w.ch → w.ch.toNat < 0x80 := by
      intro w hw
      obtain ⟨call, hcall, -, -, hch⟩ := mem_charsOf.mp hw
      exact hbytes call hcall w.ch hch
    have hcoloured := Coloured.boot.run htty hchars
    refine ⟨?_, ?_⟩
    · intro tty _ i hi
      rw [afterCalls_eq]
      exact hcoloured.cells tty i hi
    · intro before w after hsplit
      exact (hstored before w after hsplit).mpr (hchars w (by rw [hsplit]; simp))

/-- The theorem applies to a call of each routine. -/
theorem characters_shown_iff_sample :
    ((∀ tty < ttysCap, ∀ i < 80 * 25,
        OwnColour (charsOf [⟨false, 0, [65, 10]⟩, ⟨true, 3, [0x80]⟩]) tty
          ((Console.afterCalls [⟨false, 0, [65, 10]⟩, ⟨true, 3, [0x80]⟩]).cell tty i)) ∧
      ∀ before w after,
        charsOf [⟨false, 0, [65, 10]⟩, ⟨true, 3, [0x80]⟩] = before ++ w :: after →
        StoresItself (Console.afterChars before) w) ↔
    ∀ call ∈ [PutCall.mk false 0 [65, 10], ⟨true, 3, [0x80]⟩],
      ∀ ch ∈ call.buf, ¬ IsControl ch → ch.toNat < 0x80 :=
  characters_shown_iff [⟨false, 0, [65, 10]⟩, ⟨true, 3, [0x80]⟩] (by decide)

/-- The byte 0x80 is stored as 0xFF80. -/
theorem high_byte_changes_colour :
    (Console.afterCalls [⟨false, 0, [0x80]⟩]).cell 0 0 = 0xFF80 ∧
    ¬ ∀ tty < ttysCap, ∀ i < 80 * 25,
      OwnColour (charsOf [⟨false, 0, [0x80]⟩]) tty
        ((Console.afterCalls [⟨false, 0, [0x80]⟩]).cell tty i) := by
  refine ⟨by decide, ?_⟩
  intro h
  exact absurd (h 0 (by decide) 0 (by decide)) (by decide)

end Klyx
