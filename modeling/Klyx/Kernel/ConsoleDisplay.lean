import Klyx.Kernel.ConsoleBounds

/-!
# The display shows the selected terminal

VGA memory is kept equal to the screen of the terminal that is shown
(`DisplayInv`).  Storing a character and scrolling do the same to both, and
showing another terminal copies its whole screen.  The bound on the cursors
keeps a character inside the screen of its terminal.

**Results.**
* `display_shows_selected_terminal`: the display in every run, and what a call
  of `tty_write` leaves alone.
-/

namespace Klyx

/-- VGA memory holds the screen of the terminal that is shown. -/
def ShowsSelected (c : Console) : Prop :=
  ∀ i, i < 80 * 25 → c.conAddr i = c.cell c.currentTtyDispl i

/-- The invariant of the display. -/
structure DisplayInv (c : Console) : Prop where
  inBounds : InBounds c
  shown_lt : c.currentTtyDispl < ttysCap
  same : ShowsSelected c

/-- A terminal may have changed, and VGA memory only if that terminal is shown. -/
structure TouchesOnly (tty : Nat) (c c' : Console) : Prop where
  shown : c'.currentTtyDispl = c.currentTtyDispl
  cursor : ∀ t, t ≠ tty → c'.conCursors t = c.conCursors t
  cells : ∀ t i, t ≠ tty → i < 80 * 25 → c'.cell t i = c.cell t i
  display : c.currentTtyDispl ≠ tty → c'.conAddr = c.conAddr

namespace TouchesOnly

variable {tty : Nat} {c c' c'' : Console}

theorem refl : TouchesOnly tty c c :=
  ⟨rfl, fun _ _ => rfl, fun _ _ _ _ => rfl, fun _ => rfl⟩

theorem trans
    (h : TouchesOnly tty c c')
    (h' : TouchesOnly tty c' c'') :
    TouchesOnly tty c c'' where
  shown := h'.shown.trans h.shown
  cursor := fun t ht => (h'.cursor t ht).trans (h.cursor t ht)
  cells := fun t i ht hi => (h'.cells t i ht hi).trans (h.cells t i ht hi)
  display := fun hne => (h'.display (h.shown ▸ hne)).trans (h.display hne)

theorem moveCursor (c : Console) (tty : Nat) (cur : BitVec 16) :
    TouchesOnly tty c (c.moveCursor tty cur) :=
  ⟨rfl, fun _ ht => Function.update_of_ne ht _ _, fun _ _ _ _ => rfl, fun _ => rfl⟩

/-- A character stored inside the screen. -/
theorem store {i : Nat}
    (c : Console)
    (tty : Nat)
    (hi : i < 80 * 25)
    (cell : Cell) :
    TouchesOnly tty c (c.store tty i cell) where
  shown := rfl
  cursor := fun _ _ => rfl
  cells := by
    intro t j ht hj
    rw [Console.cell_store _ _ _ _ hi hj, if_neg (fun h => ht h.1)]
  display := fun hne => if_neg hne

theorem scroll (c : Console) (tty : Nat) :
    TouchesOnly tty c (c.scroll tty) where
  shown := rfl
  cursor := fun _ ht => Function.update_of_ne ht _ _
  cells := by
    intro t j ht hj
    rw [c.cell_scroll tty hj, if_neg ht]
  display := fun hne => if_neg hne

theorem scrollIfPast (c : Console) (tty : Nat) :
    TouchesOnly tty c (c.scrollIfPast tty) := by
  unfold Console.scrollIfPast
  split_ifs
  · exact scroll c tty
  · exact refl

theorem putChar {place : Nat → Nat} {ch : Byte}
    (hcell : place (c.conCursors tty).toNat < 80 * 25) :
    TouchesOnly tty c (c.putChar place tty ch) := by
  unfold Console.putChar
  rcases c.putGlyph_cases tty place ch with ⟨cur, heq⟩ | ⟨cur, heq⟩ <;> rw [heq]
  · exact (moveCursor c tty cur).trans (scrollIfPast _ tty)
  · exact ((store c tty hcell (glyph ch)).trans (moveCursor _ tty cur)).trans (scrollIfPast _ tty)

end TouchesOnly

namespace ShowsSelected

variable {c : Console} {tty : Nat}

theorem moveCursor
    (h : ShowsSelected c)
    (tty : Nat)
    (cur : BitVec 16) :
    ShowsSelected (c.moveCursor tty cur) :=
  h

/-- A character goes to the same cell of both memories. -/
theorem store {i : Nat}
    (h : ShowsSelected c)
    (hi : i < 80 * 25)
    (cell : Cell) :
    ShowsSelected (c.store tty i cell) := by
  intro j hj
  rw [Console.cell_store _ _ _ _ hi hj, Console.store_conAddr,
    Console.store_currentTtyDispl]
  by_cases hshown : c.currentTtyDispl = tty
  · rw [if_pos hshown, Function.update_apply, h j hj]
    exact if_congr (by simp [hshown]) rfl rfl
  · rw [if_neg hshown, if_neg (fun hboth => hshown hboth.1)]
    exact h j hj

/-- Both memories scroll together. -/
theorem scroll
    (h : ShowsSelected c) :
    ShowsSelected (c.scroll tty) := by
  intro j hj
  rw [c.cell_scroll tty hj, c.conAddr_scroll tty hj, Console.scroll_currentTtyDispl]
  by_cases hshown : c.currentTtyDispl = tty
  · rw [if_pos hshown, if_pos hshown]
    by_cases hrows : j < 80 * 24
    · rw [if_pos hrows, if_pos hrows]
      exact h (j + 80) (by omega)
    · rw [if_neg hrows, if_neg hrows]
  · rw [if_neg hshown, if_neg hshown]
    exact h j hj

theorem scrollIfPast
    (h : ShowsSelected c) :
    ShowsSelected (c.scrollIfPast tty) := by
  unfold Console.scrollIfPast
  split_ifs
  · exact h.scroll
  · exact h

theorem putChar {place : Nat → Nat} {ch : Byte}
    (h : ShowsSelected c)
    (hcell : place (c.conCursors tty).toNat < 80 * 25) :
    ShowsSelected (c.putChar place tty ch) := by
  unfold Console.putChar
  rcases c.putGlyph_cases tty place ch with ⟨cur, heq⟩ | ⟨cur, heq⟩ <;> rw [heq]
  · exact (h.moveCursor tty cur).scrollIfPast
  · exact ((h.store hcell (glyph ch)).moveCursor tty cur).scrollIfPast

/-- Showing a terminal copies its screen. -/
theorem display (c : Console) (tty : Nat) :
    ShowsSelected (c.display tty) := by
  intro i hi
  have hin : 0 ≤ i ∧ i < 0 + 80 * 25 := by omega
  simp only [Console.display, Console.cell, ForwardCopy.copyInto_apply, if_pos hin, Nat.sub_zero]

end ShowsSelected

namespace DisplayInv

variable {c : Console}

/-- Writing a string keeps the display right and touches one terminal only. -/
theorem putStr {place : Nat → Nat} {tty : Nat}
    (h : DisplayInv c)
    (hplace : ∀ cur, cur < 80 * 25 → place cur < 80 * 25)
    (htty : tty < ttysCap)
    (buf : List Byte) :
    DisplayInv (c.putStr place tty buf).1 ∧ TouchesOnly tty c (c.putStr place tty buf).1 := by
  refine Console.putStr_invariant (fun c' => DisplayInv c' ∧ TouchesOnly tty c c')
    ⟨h, TouchesOnly.refl⟩ ?_
  rintro c' ch ⟨hinv, htouch⟩
  have hcell : place (c'.conCursors tty).toNat < 80 * 25 :=
    hplace _ (hinv.inBounds.cursor tty htty)
  have hchar : TouchesOnly tty c' (c'.putChar place tty ch) := TouchesOnly.putChar hcell
  refine ⟨⟨hinv.inBounds.putChar hplace htty ch, ?_, hinv.same.putChar hcell⟩, htouch.trans hchar⟩
  rw [hchar.shown]
  exact hinv.shown_lt

/-- A call of `tty_write` for any terminal number. -/
theorem ttyWrite
    (h : DisplayInv c)
    (td : Nat)
    (buf : List Byte) :
    DisplayInv (c.ttyWrite td buf).1 ∧ TouchesOnly td c (c.ttyWrite td buf).1 := by
  by_cases htd : td < ttysCap
  · rw [c.ttyWrite_eq htd]
    have hclear : DisplayInv { c with errno := .eno } :=
      ⟨h.inBounds.transfer rfl rfl, h.shown_lt, h.same⟩
    obtain ⟨hinv, htouch⟩ := hclear.putStr (fun _ => Console.placeOf_lt td) htd buf
    exact ⟨hinv, htouch.shown, htouch.cursor, htouch.cells, htouch.display⟩
  · rw [c.ttyWrite_efault htd]
    exact ⟨⟨h.inBounds.transfer rfl rfl, h.shown_lt, h.same⟩, rfl, fun _ _ => rfl,
      fun _ _ _ _ => rfl, fun _ => rfl⟩

theorem transfer {c' : Console}
    (h : DisplayInv c)
    (hsame : SameScreens c c') :
    DisplayInv c' := by
  refine ⟨h.inBounds.transfer hsame.conCursors hsame.stores, ?_, ?_⟩
  · rw [hsame.currentTtyDispl]
    exact h.shown_lt
  · intro i hi
    rw [hsame.conAddr, hsame.currentTtyDispl, Console.cell, hsame.vgaCopies]
    exact h.same i hi

theorem display {tty : Nat}
    (h : DisplayInv c)
    (htty : tty < ttysCap) :
    DisplayInv (c.display tty) :=
  ⟨h.inBounds.transfer rfl rfl, htty, ShowsSelected.display c tty⟩

theorem step {e : ConsoleEvent}
    (h : DisplayInv c)
    (hkeeps : e.KeepsCursor) :
    DisplayInv (c.step e) := by
  cases e with
  | keyboard status code =>
      have hinput := h.transfer (c.conHandleInput_sameScreens status code)
      rw [Console.step, Console.intKeyboardImpl]
      rcases (c.conHandleInput status code).1.keySwitch_cases (c.conHandleInput status code).2 with
        hnone | ⟨tty, htty, hshow⟩
      · rw [hnone]
        exact hinput
      · rw [hshow]
        exact hinput.display htty
  | read tty =>
      have hclear : DisplayInv { c with errno := .eno } :=
        ⟨h.inBounds.transfer rfl rfl, h.shown_lt, h.same⟩
      exact hclear.transfer (Console.conRead_sameScreens _ tty)
  | write td buf =>
      exact (h.ttyWrite td buf).1
  | setcur td cur =>
      refine ⟨h.inBounds.step hkeeps, ?_, ?_⟩
      all_goals
        simp only [Console.step, Console.ttySetcur, Console.conSetcur]
        split_ifs
      · exact h.shown_lt
      · exact h.shown_lt
      · exact h.shown_lt
      · exact h.same
      · exact h.same
      · exact h.same.moveCursor td _

theorem boot : DisplayInv Console.boot :=
  ⟨InBounds.boot, Nat.zero_lt_succ _, fun _ _ => rfl⟩

theorem run {es : List ConsoleEvent}
    (h : DisplayInv c)
    (hes : ∀ e ∈ es, e.KeepsCursor) :
    DisplayInv (c.run es) :=
  Console.run_invariant h (fun e he _ h => h.step (hes e he))

end DisplayInv

/-- **VGA memory shows the selected terminal, and terminals are isolated.** -/
theorem display_shows_selected_terminal (es : List ConsoleEvent)
    (hes : ∀ e ∈ es, e.KeepsCursor) :
    (Console.boot.run es).currentTtyDispl < ttysCap ∧
    (∀ i, i < 80 * 25 →
      (Console.boot.run es).conAddr i =
        (Console.boot.run es).cell (Console.boot.run es).currentTtyDispl i) ∧
    -- a further call of `tty_write` leaves every other terminal alone
    (∀ td buf t, t ≠ td →
      ((Console.boot.run es).ttyWrite td buf).1.conCursors t =
        (Console.boot.run es).conCursors t ∧
      ∀ i, i < 80 * 25 →
        ((Console.boot.run es).ttyWrite td buf).1.cell t i = (Console.boot.run es).cell t i) ∧
    -- and VGA memory, unless its terminal is shown
    (∀ td buf, (Console.boot.run es).currentTtyDispl ≠ td →
      ((Console.boot.run es).ttyWrite td buf).1.conAddr = (Console.boot.run es).conAddr) := by
  have hinv : DisplayInv (Console.boot.run es) := DisplayInv.boot.run hes
  refine ⟨hinv.shown_lt, hinv.same, ?_, ?_⟩
  · intro td buf t ht
    have htouch := (hinv.ttyWrite td buf).2
    exact ⟨htouch.cursor t ht, fun i hi => htouch.cells t i ht hi⟩
  · intro td buf hne
    exact (hinv.ttyWrite td buf).2.display hne

/-- Terminals 0 and 3 are written, and F4 shows the mirrored one. -/
theorem display_shows_selected_terminal_sample :
    (Console.boot.run [.write 0 [65], .write 3 [66], .keyboard 1 62]).currentTtyDispl = 3 ∧
    (Console.boot.run [.write 0 [65], .write 3 [66], .keyboard 1 62]).conAddr 79 = 0x0F42 ∧
    (Console.boot.run [.write 0 [65], .write 3 [66], .keyboard 1 62]).conAddr 79 =
      (Console.boot.run [.write 0 [65], .write 3 [66], .keyboard 1 62]).cell
        (Console.boot.run [.write 0 [65], .write 3 [66], .keyboard 1 62]).currentTtyDispl 79 :=
  ⟨by decide +kernel, by decide +kernel,
    (display_shows_selected_terminal _ (by decide +kernel)).2.1 79 (by decide)⟩

end Klyx
