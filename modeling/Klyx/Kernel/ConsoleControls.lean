import Klyx.Kernel.ConsolePage
import Klyx.Lib.LawfulRun

/-!
# Backspace and vertical tab

Both controls only move the 16-bit cursor.  The check behind the switch takes
every cursor past the screen for one that left it at the bottom: Backspace in
the first cell wraps around and ends in the last row, and a vertical tab in the
last row ends in its first column.  In every other position they do what their
names say.

**Results.**
* `controlKept_of_not_lost`, `not_lost_of_controlKept`: one character.
* `controls_keep_text_iff`: every string.
-/

namespace Klyx

open LawfulRun

/-- A character with a case of its own in the switch. -/
def IsControl (ch : Byte) : Prop :=
  ch = 10 ∨ ch = 13 ∨ ch = 9 ∨ ch = 11 ∨ ch = 8

instance (ch : Byte) : Decidable (IsControl ch) :=
  inferInstanceAs (Decidable (_ ∨ _))

/-- No cell of a screen or of the display differs. -/
structure SameCells (c c' : Console) : Prop where
  vgaCopies : c'.vgaCopies = c.vgaCopies
  conAddr : c'.conAddr = c.conAddr

/-- The screen of a terminal, and the display if it shows the terminal, moved up
by one row. -/
structure ScrolledOneRow (tty : Nat) (c c' : Console) : Prop where
  cells : ∀ t, ∀ i < 80 * 25, c'.cell t i =
    if t = tty then if i < 80 * 24 then c.cell t (i + 80) else 0 else c.cell t i
  conAddr : ∀ i < 80 * 25, c'.conAddr i =
    if c.currentTtyDispl = tty then if i < 80 * 24 then c.conAddr (i + 80) else 0
    else c.conAddr i

/-- Vertical tab moves the cursor down a row, and Backspace back a cell. -/
structure ControlKept (tty : Nat) (c : Console) (ch : Byte) (c' : Console) : Prop where
  down : ch = 11 → (c.conCursors tty).toNat < 80 * 24 →
    (c'.conCursors tty).toNat = (c.conCursors tty).toNat + 80 ∧ SameCells c c'
  downLast : ch = 11 → 80 * 24 ≤ (c.conCursors tty).toNat →
    (c'.conCursors tty).toNat = (c.conCursors tty).toNat ∧ ScrolledOneRow tty c c'
  back : ch = 8 →
    (c'.conCursors tty).toNat = (c.conCursors tty).toNat - 1 ∧ SameCells c c'

/-- A printable character, Backspace or vertical tab. -/
def TextOrControl (ch : Byte) : Prop :=
  ch = 8 ∨ ch = 11 ∨ 32 ≤ ch.toNat ∧ ch.toNat ≤ 126

instance (ch : Byte) : Decidable (TextOrControl ch) :=
  inferInstanceAs (Decidable (_ ∨ _))

/-- Where a character takes the cursor by the rules for the controls. -/
def ruledCursor (cursor : Nat) (ch : Byte) : Nat :=
  if ch = 8 then cursor - 1
  else if ch = 11 then if cursor < 80 * 24 then cursor + 80 else cursor
  else if cursor + 1 < 80 * 25 then cursor + 1
  else 80 * 24

/-- Backspace in the first cell, or vertical tab in the last row but not in the
first column. -/
def ControlLost (cursor : Nat) (ch : Byte) : Prop :=
  ch = 8 ∧ cursor = 0 ∨ ch = 11 ∧ 80 * 24 < cursor

instance (cursor : Nat) (ch : Byte) : Decidable (ControlLost cursor ch) :=
  inferInstanceAs (Decidable (_ ∨ _))

section Characters

variable {place : Nat → Nat} {c : Console} {tty : Nat} {ch : Byte}

theorem scrollIfPast_of_lt
    (h : (c.conCursors tty).toNat < 80 * 25) :
    c.scrollIfPast tty = c :=
  if_neg (by omega)

theorem scrollIfPast_of_le
    (h : 80 * 25 ≤ (c.conCursors tty).toNat) :
    c.scrollIfPast tty = c.scroll tty :=
  if_pos h

/-- The other characters are stored. -/
theorem putGlyph_of_not_control
    (h : ¬ IsControl ch) :
    Console.putGlyph place c tty ch =
      (c.store tty (place (c.conCursors tty).toNat) (glyph ch)).moveCursor tty
        (c.conCursors tty + 1) := by
  obtain ⟨hnewline, hreturn, htab, hdown, hback⟩ := by
    simpa only [IsControl, not_or] using h
  unfold Console.putGlyph
  rw [if_neg hnewline, if_neg hreturn, if_neg htab, if_neg hdown, if_neg hback]

theorem putGlyph_of_control (place : Nat → Nat) (c : Console) (tty : Nat)
    (h : IsControl ch) :
    ∃ cur, Console.putGlyph place c tty ch = c.moveCursor tty cur := by
  rcases h with rfl | rfl | rfl | rfl | rfl
  · exact ⟨_, rfl⟩
  · exact ⟨_, rfl⟩
  · exact ⟨_, rfl⟩
  · exact ⟨_, rfl⟩
  · exact ⟨_, rfl⟩

theorem not_isControl_of_le
    (h : 32 ≤ ch.toNat) :
    ¬ IsControl ch := by
  rintro (rfl | rfl | rfl | rfl | rfl)
  all_goals exact absurd h (by decide)

theorem putGlyph_print
    (h : 32 ≤ ch.toNat) :
    Console.putGlyph place c tty ch =
      (c.store tty (place (c.conCursors tty).toNat) (glyph ch)).moveCursor tty
        (c.conCursors tty + 1) :=
  putGlyph_of_not_control (not_isControl_of_le h)

/-- A move of the cursor that stays on the screen. -/
theorem moveCursor_inside {cur : BitVec 16}
    (h : cur.toNat < 80 * 25) :
    (c.moveCursor tty cur).scrollIfPast tty = c.moveCursor tty cur := by
  refine scrollIfPast_of_lt ?_
  rw [Console.moveCursor_conCursors, Function.update_self]
  exact h

/-- A move of the cursor that leaves the screen, or seems to. -/
theorem moveCursor_past {cur : BitVec 16}
    (h : 80 * 25 ≤ cur.toNat) :
    (c.moveCursor tty cur).scrollIfPast tty = (c.moveCursor tty cur).scroll tty := by
  refine scrollIfPast_of_le ?_
  rw [Console.moveCursor_conCursors, Function.update_self]
  exact h

/-- Backspace behind the first cell. -/
theorem putChar_back {cur : BitVec 16}
    (hcur : c.conCursors tty = cur)
    (hpos : cur.toNat ≠ 0)
    (hcursor : cur.toNat < 80 * 25) :
    Console.putChar place tty c 8 = c.moveCursor tty (cur - 1) := by
  have hback : (cur - 1).toNat = cur.toNat - 1 := by bv_omega
  subst hcur
  exact moveCursor_inside (by omega)

theorem scrolledOneRow_moveCursor (c : Console) (tty : Nat) (cur : BitVec 16) :
    ScrolledOneRow tty c ((c.moveCursor tty cur).scroll tty) where
  cells := fun _ _ hi => (c.moveCursor tty cur).cell_scroll tty hi
  conAddr := fun _ hi => (c.moveCursor tty cur).conAddr_scroll tty hi

end Characters

section Controls

variable {place : Nat → Nat} {c : Console} {tty : Nat} {ch : Byte}

theorem scroll_cursor (c : Console) (tty : Nat) :
    ((c.scroll tty).conCursors tty).toNat = 80 * 24 := by
  rw [Console.scroll_conCursors, Function.update_self]
  rfl

theorem moveCursor_cursor (c : Console) (tty : Nat) (cur : BitVec 16) :
    (c.moveCursor tty cur).conCursors tty = cur := by
  rw [Console.moveCursor_conCursors, Function.update_self]

/-- Vertical tab. -/
theorem putChar_down
    (hcursor : (c.conCursors tty).toNat < 80 * 25) :
    Console.putChar place tty c 11 =
      if (c.conCursors tty).toNat < 80 * 24 then c.moveCursor tty (c.conCursors tty + 80)
      else (c.moveCursor tty (c.conCursors tty + 80)).scroll tty := by
  have hdown : (c.conCursors tty + 80).toNat = (c.conCursors tty).toNat + 80 := by bv_omega
  change (c.moveCursor tty (c.conCursors tty + 80)).scrollIfPast tty = _
  split_ifs with hrow
  · exact moveCursor_inside (by omega)
  · exact moveCursor_past (by omega)

/-- Backspace in the first cell takes the cursor to the last row. -/
theorem putChar_back_first
    (hcursor : (c.conCursors tty).toNat = 0) :
    ((Console.putChar place tty c 8).conCursors tty).toNat = 80 * 24 := by
  have hwrap : (c.conCursors tty - 1).toNat = 65535 := by bv_omega
  change (((c.moveCursor tty (c.conCursors tty - 1)).scrollIfPast tty).conCursors tty).toNat = _
  rw [moveCursor_past (by omega), scroll_cursor]

theorem pos_of_not_lost {cursor : Nat}
    (h : ¬ ControlLost cursor 8) :
    cursor ≠ 0 :=
  fun hfirst => h (Or.inl ⟨rfl, hfirst⟩)

theorem le_of_not_lost {cursor : Nat}
    (h : ¬ ControlLost cursor 11) :
    cursor ≤ 80 * 24 :=
  Nat.le_of_not_lt fun hlast => h (Or.inr ⟨rfl, hlast⟩)

/-- The cursor after a character, by the rules. -/
theorem cursor_of_not_lost (place : Nat → Nat)
    (hch : TextOrControl ch)
    (hcursor : (c.conCursors tty).toNat < 80 * 25)
    (hlost : ¬ ControlLost (c.conCursors tty).toNat ch) :
    ((Console.putChar place tty c ch).conCursors tty).toNat =
      ruledCursor (c.conCursors tty).toNat ch := by
  rcases hch with rfl | rfl | ⟨hlow, hhigh⟩
  · have hpos := pos_of_not_lost hlost
    have hback : (c.conCursors tty - 1).toNat = (c.conCursors tty).toNat - 1 := by bv_omega
    rw [putChar_back rfl hpos hcursor, moveCursor_cursor]
    exact hback
  · have hle := le_of_not_lost hlost
    have hdown : (c.conCursors tty + 80).toNat = (c.conCursors tty).toNat + 80 := by bv_omega
    rw [putChar_down hcursor]
    change _ = if (c.conCursors tty).toNat < 80 * 24 then _ else _
    split_ifs with hrow
    · rw [moveCursor_cursor]
      exact hdown
    · rw [scroll_cursor]
      omega
  · have hnext := toNat_next hcursor
    have hback : ch ≠ 8 := by
      rintro rfl
      exact absurd hlow (by decide)
    have hdown : ch ≠ 11 := by
      rintro rfl
      exact absurd hlow (by decide)
    unfold Console.putChar ruledCursor
    rw [putGlyph_print hlow, if_neg hback, if_neg hdown]
    split_ifs with hlast
    · rw [moveCursor_inside (by omega), moveCursor_cursor]
      exact hnext
    · rw [moveCursor_past (by omega), scroll_cursor]

theorem ruledCursor_lt {cursor : Nat}
    (h : cursor < 80 * 25) :
    ruledCursor cursor ch < 80 * 25 := by
  unfold ruledCursor
  split_ifs
  · omega
  · omega
  · omega
  · omega
  · decide

/-- Apart from two positions the controls do what they are for. -/
theorem controlKept_of_not_lost
    (hcursor : (c.conCursors tty).toNat < 80 * 25)
    (hlost : ¬ ControlLost (c.conCursors tty).toNat ch) :
    ControlKept tty c ch (Console.putChar place tty c ch) := by
  constructor
  · rintro rfl hrow
    have hdown : (c.conCursors tty + 80).toNat = (c.conCursors tty).toNat + 80 := by bv_omega
    rw [putChar_down hcursor, if_pos hrow, moveCursor_cursor]
    exact ⟨hdown, rfl, rfl⟩
  · rintro rfl hrow
    have hle := le_of_not_lost hlost
    rw [putChar_down hcursor, if_neg (by omega), scroll_cursor]
    exact ⟨by omega, scrolledOneRow_moveCursor c tty _⟩
  · rintro rfl
    have hpos := pos_of_not_lost hlost
    have hback : (c.conCursors tty - 1).toNat = (c.conCursors tty).toNat - 1 := by bv_omega
    rw [putChar_back rfl hpos hcursor, moveCursor_cursor]
    exact ⟨hback, rfl, rfl⟩

/-- In these two positions they do not. -/
theorem not_lost_of_controlKept
    (hcursor : (c.conCursors tty).toNat < 80 * 25)
    (hkept : ControlKept tty c ch (Console.putChar place tty c ch)) :
    ¬ ControlLost (c.conCursors tty).toNat ch := by
  rintro (⟨rfl, hfirst⟩ | ⟨rfl, hlast⟩)
  · have hback := (hkept.back rfl).1
    rw [putChar_back_first hfirst] at hback
    omega
  · have hdown := (hkept.downLast rfl hlast.le).1
    rw [putChar_down hcursor, if_neg (by omega), scroll_cursor] at hdown
    omega

end Controls

/-- **When the controls do not destroy text.**  Along a string of printable
characters, Backspaces and vertical tabs, each control does what it is for
exactly when no Backspace comes in the first cell and no vertical tab in the
last row outside its first column. -/
theorem controls_keep_text_iff (tty : Nat) (c : Console) (text : List Byte)
    (hcursor : (c.conCursors tty).toNat < 80 * 25)
    (htext : ∀ ch ∈ text, TextOrControl ch) :
    (∀ n < text.length,
      ControlKept tty (c.conPutstr tty (text.take n)).1 (text.getD n 0)
        (c.conPutstr tty (text.take (n + 1))).1) ↔
      ∀ n < text.length,
        ¬ ControlLost ((text.take n).foldl ruledCursor (c.conCursors tty).toNat)
          (text.getD n 0) := by
  have hlaw : ∀ (c : Console) (cursor : Nat) (ch : Byte),
      (c.conCursors tty).toNat = cursor ∧ cursor < 80 * 25 → TextOrControl ch →
      (ControlKept tty c ch (c.putChar id tty ch) ↔ ¬ ControlLost cursor ch) := by
    rintro c _ ch ⟨rfl, hlt⟩ _
    exact ⟨not_lost_of_controlKept hlt, controlKept_of_not_lost hlt⟩
  have hnext : ∀ (c : Console) (cursor : Nat) (ch : Byte),
      (c.conCursors tty).toNat = cursor ∧ cursor < 80 * 25 → TextOrControl ch →
      ¬ ControlLost cursor ch →
      ((c.putChar id tty ch).conCursors tty).toNat = ruledCursor cursor ch ∧
        ruledCursor cursor ch < 80 * 25 := by
    rintro c _ ch ⟨rfl, hlt⟩ hch hlost
    exact ⟨cursor_of_not_lost id hch hlt hlost, ruledCursor_lt hlt⟩
  have hchars : Along (Console.putChar id tty) (fun _ ch => TextOrControl ch) c text := by
    rw [along_iff_forall 0]
    intro n hn
    rw [List.getD_eq_getElem _ _ hn]
    exact htext _ (List.getElem_mem hn)
  rw [← along_iff_forall (P := fun cursor ch => ¬ ControlLost cursor ch),
    ← along_iff hlaw hnext ⟨rfl, hcursor⟩ hchars, along_iff_forall 0]
  refine forall_congr' fun n => forall_congr' fun hn => ?_
  have hput : (c.conPutstr tty (text.take (n + 1))).1 =
      (c.conPutstr tty (text.take n)).1.putChar id tty (text.getD n 0) :=
    foldl_take_succ 0 hn
  rw [hput]
  rfl

/-- The theorem applies to two characters and two controls on a blank screen. -/
theorem controls_keep_text_iff_sample :
    let c := Console.boot
    (∀ n < [65, 11, 8, 66].length,
      ControlKept 0 (c.conPutstr 0 ([65, 11, 8, 66].take n)).1 ([65, 11, 8, 66].getD n 0)
        (c.conPutstr 0 ([65, 11, 8, 66].take (n + 1))).1) ↔
      ∀ n < [65, 11, 8, 66].length,
        ¬ ControlLost (([65, 11, 8, 66].take n).foldl ruledCursor 0) ([65, 11, 8, 66].getD n 0) :=
  controls_keep_text_iff 0 Console.boot [65, 11, 8, 66] (by decide) (by decide)

/-- Backspace in the first cell of a screen scrolls it. -/
theorem backspace_at_origin_scrolls :
    ¬ ControlKept 0 Console.boot 8 (Console.boot.conPutstr 0 [8]).1 := by
  intro hkept
  exact absurd (hkept.back rfl).1 (by decide)

end Klyx
