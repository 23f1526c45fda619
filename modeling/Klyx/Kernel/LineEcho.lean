import Klyx.Kernel.LineEditor
import Klyx.Kernel.ConsoleControls
import Klyx.Lib.LawfulRun

/-!
# The echo of a line

`tty_read` echoes every key that it keeps and `"\b \b"` for every character
that it removes.  `Reading` is such a call together with the console that it
echoes to.  Nothing scrolls here, so the cell of a character is found by adding
up the characters before it (`lineEnd`).

While no Tab of more than one cell is removed, the cursor is where the line ends
and the cells up to there show it (`Matched`).  Removing a wider Tab takes the
cursor back by one cell only.

**Results.**
* `Matched.typeKey`: one key.
* `echo_matches_buffer_iff`: when every key leaves the echo in step.
-/

namespace Klyx

open LawfulRun

/-- A call of `tty_read` and the console that it echoes to. -/
structure Reading where
  vars : LineBuf
  console : Console

/-- The strings that a key echoes. -/
def newEcho (count : Nat) (l : LineBuf) (res : Int) : List (List Byte) :=
  (readKey count l res).echo.drop l.echo.length

namespace Reading

/-- A key is delivered to the call. -/
def typeKey (count td : Nat) (s : Reading) (res : Int) : Reading where
  vars := readKey count s.vars res
  console := (newEcho count s.vars res).foldl (fun c text => (c.ttyWrite td text).1) s.console

/-- Keys are delivered from the left. -/
def typeKeys (count td : Nat) (s : Reading) (keys : List Int) : Reading :=
  keys.foldl (typeKey count td) s

/-- The line in the buffer. -/
def line (s : Reading) : List Byte :=
  (List.range s.vars.textCur).map s.vars.buf

end Reading

/-- No character of a text takes the cursor off the screen. -/
def Console.NoScroll (td : Nat) (c : Console) (text : List Byte) : Prop :=
  ∀ n < text.length,
    ((putGlyph (placeOf td) (c.putStr (placeOf td) td (text.take n)).1 td
      (text.getD n 0)).conCursors td).toNat < 80 * 25

/-- The echo of a key does not scroll the screen. -/
def Reading.NoScroll (count td : Nat) (s : Reading) (res : Int) : Prop :=
  ∀ text ∈ newEcho count s.vars res, s.console.NoScroll td text

/-- Backspace, Tab and the printable keys. -/
def TypedKey (res : Int) : Prop :=
  res = 8 ∨ res = 9 ∨ 32 ≤ res ∧ res ≤ 126

instance (res : Int) : Decidable (TypedKey res) :=
  inferInstanceAs (Decidable (_ ∨ _))

/-- What such keys leave in a line. -/
def LineChar (ch : Byte) : Prop :=
  ch = 9 ∨ 32 ≤ ch.toNat ∧ ch.toNat ≤ 126

/-- The cell after a character. -/
def nextCell (p : Nat) (ch : Byte) : Nat :=
  if ch = 9 then p / 8 * 8 + 8 else p + 1

/-- The cell after a line. -/
def lineEnd (start : Nat) (line : List Byte) : Nat :=
  line.foldl nextCell start

/-- Where the terminal's write routine leaves the cursor after a text. -/
def cursorAfter (c : Console) (td : Nat) (text : List Byte) : Nat :=
  ((c.ttyWrite td text).1.conCursors td).toNat

/-- The cell of a cursor shows a character, on the screen of the terminal and on
the display. -/
structure ShowsAt (td : Nat) (c : Console) (cursor : Nat) (ch : Byte) : Prop where
  cell : c.cell td (Console.placeOf td cursor) = 0x0F00 ||| ch.setWidth 16
  conAddr : c.conAddr (Console.placeOf td cursor) = 0x0F00 ||| ch.setWidth 16

/-- The echo is in step with the buffer: the cursor is where writing the line to
the console `c₀` of the start leaves it, and every character is shown at the
cursor that it is written at.  A Tab shows nothing. -/
structure EchoMatches (td : Nat) (c₀ : Console) (s : Reading) : Prop where
  cursor : (s.console.conCursors td).toNat = cursorAfter c₀ td s.line
  cells : ∀ i < s.line.length, s.line.getD i 0 ≠ 9 →
    ShowsAt td s.console (cursorAfter c₀ td (s.line.take i)) (s.line.getD i 0)

/-- If the key is Backspace and the line ends with a Tab, then the Tab takes one
cell. -/
def TabTakesOneCell (start : Nat) (line : List Byte) (res : Int) : Prop :=
  res = 8 → line.getLast? = some 9 → lineEnd start line.dropLast % 8 = 7

/-- The console shows a line that starts at a cursor, and its own cursor is at
the end of the line. -/
structure LineShown (td start : Nat) (c : Console) (line : List Byte) : Prop where
  shown : c.currentTtyDispl = td
  cursor : (c.conCursors td).toNat = lineEnd start line
  inside : lineEnd start line < 80 * 25
  cells : ∀ i < line.length, line.getD i 0 ≠ 9 →
    ShowsAt td c (lineEnd start (line.take i)) (line.getD i 0)

/-- The state of a call whose echo is in step: `start` is the cursor that it
began with, and `buf₀` the buffer. -/
structure Matched (td count start : Nat) (buf₀ : Nat → Byte) (s : Reading) (line : List Byte) :
    Prop where
  vars : HoldsOver buf₀ count s.vars line
  chars : ∀ ch ∈ line, LineChar ch
  console : LineShown td start s.console line

section Cells

variable {p : Nat} {text : List Byte}

theorem lineEnd_append (p : Nat) (text : List Byte) (ch : Byte) :
    lineEnd p (text ++ [ch]) = nextCell (lineEnd p text) ch := by
  rw [lineEnd, List.foldl_append]
  rfl

theorem lt_nextCell (p : Nat) (ch : Byte) : p < nextCell p ch := by
  unfold nextCell
  split_ifs
  · omega
  · omega

/-- A Tab takes one cell in the last column before a tab stop. -/
theorem nextCell_eq_succ_iff {p : Nat} {ch : Byte} :
    nextCell p ch = p + 1 ↔ (ch = 9 → p % 8 = 7) := by
  unfold nextCell
  split_ifs with htab
  · simp only [htab, true_implies]
    omega
  · exact iff_of_true rfl (fun h => absurd h htab)

theorem le_lineEnd (p : Nat) (text : List Byte) : p ≤ lineEnd p text := by
  induction text generalizing p with
  | nil =>
      exact Nat.le_refl p
  | cons ch text ih =>
      exact Nat.le_trans (lt_nextCell p ch).le (ih (nextCell p ch))

/-- A character stands before the cells of what follows it. -/
theorem lineEnd_take_lt {i : Nat}
    (h : i < text.length) :
    lineEnd p (text.take i) < lineEnd p text := by
  have hsplit : text = text.take i ++ text[i] :: text.drop (i + 1) := by
    rw [List.getElem_cons_drop, List.take_append_drop]
  have hrest : lineEnd p text =
      lineEnd (nextCell (lineEnd p (text.take i)) (text.get ⟨i, h⟩)) (text.drop (i + 1)) := by
    conv_lhs => rw [hsplit]
    exact List.foldl_append
  rw [hrest]
  exact Nat.lt_of_lt_of_le (lt_nextCell _ _) (le_lineEnd _ _)

end Cells

section Writing

variable {place : Nat → Nat} {c : Console} {td : Nat} {ch : Byte}

theorem LineChar.lt
    (h : LineChar ch) :
    ch.toNat < 0x80 := by
  rcases h with rfl | h
  · decide
  · omega

/-- The cursor position after a character that is not scrolled away. -/
theorem toNat_tabStop {cur : BitVec 16}
    (h : cur.toNat < 80 * 25) :
    (cur + (8 - cur % 80 % 8)).toNat = cur.toNat / 8 * 8 + 8 := by
  rw [toNat_tab h]
  omega

theorem putGlyph_tab :
    Console.putGlyph place c td 9 =
      c.moveCursor td (c.conCursors td + (8 - c.conCursors td % 80 % 8)) := rfl

/-- Where a character of a line takes the cursor. -/
theorem putGlyph_cursor (place : Nat → Nat)
    (hch : LineChar ch)
    (hcursor : (c.conCursors td).toNat < 80 * 25) :
    ((Console.putGlyph place c td ch).conCursors td).toNat =
      nextCell (c.conCursors td).toNat ch := by
  unfold nextCell
  rcases hch with rfl | ⟨hlow, -⟩
  · rw [putGlyph_tab, Console.moveCursor_conCursors, Function.update_self, toNat_tabStop hcursor,
      if_pos rfl]
  · have hne : ch ≠ 9 := by
      rintro rfl
      exact absurd hlow (by decide)
    rw [putGlyph_print hlow, Console.moveCursor_conCursors, Function.update_self,
      toNat_next hcursor, if_neg hne]

/-- A text that fits on the screen takes the cursor to its end. -/
theorem putStr_cursor {text : List Byte}
    (htext : ∀ ch ∈ text, LineChar ch)
    (hfits : lineEnd (c.conCursors td).toNat text < 80 * 25) :
    ((c.putStr place td text).1.conCursors td).toNat =
      lineEnd (c.conCursors td).toNat text := by
  unfold Console.putStr
  induction text generalizing c with
  | nil =>
      rfl
  | cons ch text ih =>
      have hch := htext ch List.mem_cons_self
      have hend : nextCell (c.conCursors td).toNat ch < 80 * 25 :=
        Nat.lt_of_le_of_lt (le_lineEnd _ text) hfits
      have hcursor := putGlyph_cursor place hch
        (Nat.lt_trans (lt_nextCell _ ch) hend)
      have hput : Console.putChar place td c ch = Console.putGlyph place c td ch :=
        scrollIfPast_of_lt (by omega)
      rw [List.foldl_cons, hput, ih (fun ch hmem => htext ch (List.mem_cons_of_mem _ hmem)),
        hcursor]
      · rfl
      · rw [hcursor]
        exact hfits

/-- The echo of Backspace puts a space into the cell before the cursor. -/
theorem putStr_erase {cur : BitVec 16}
    (hcur : c.conCursors td = cur)
    (hpos : cur.toNat ≠ 0)
    (hcursor : cur.toNat < 80 * 25) :
    (c.putStr place td [8, 32, 8]).1 =
      (((c.moveCursor td (cur - 1)).store td (place (cur.toNat - 1)) (glyph 32)).moveCursor td
        cur).moveCursor td (cur - 1) := by
  have hback : (cur - 1).toNat = cur.toNat - 1 := by bv_omega
  have hagain : cur - 1 + 1 = cur := BitVec.sub_add_cancel cur 1
  have hspace : Console.putChar place td (c.moveCursor td (cur - 1)) 32 =
      ((c.moveCursor td (cur - 1)).store td (place (cur.toNat - 1)) (glyph 32)).moveCursor td
        cur := by
    unfold Console.putChar
    rw [putGlyph_print (by decide), Console.moveCursor_conCursors, Function.update_self, hback,
      hagain]
    refine scrollIfPast_of_lt ?_
    rw [Console.moveCursor_conCursors, Function.update_self]
    exact hcursor
  simp only [Console.putStr, List.foldl_cons, List.foldl_nil]
  rw [putChar_back hcur hpos hcursor, hspace]
  exact putChar_back (Function.update_self _ _ _) hpos hcursor

end Writing

section Shown

variable {c : Console} {td p q : Nat} {ch : Byte}

theorem ShowsAt.store_of_ne
    (h : ShowsAt td c p ch)
    (hne : p ≠ q)
    (hp : p < 80 * 25)
    (hq : q < 80 * 25)
    (cell : Cell) :
    ShowsAt td (c.store td (Console.placeOf td q) cell) p ch := by
  have hplace : Console.placeOf td p ≠ Console.placeOf td q :=
    fun heq => hne ((Console.placeOf_inj td).mp heq)
  constructor
  · rw [Console.cell_store _ _ _ _ (Console.placeOf_lt td hq) (Console.placeOf_lt td hp),
      if_neg (fun heq => hplace heq.2)]
    exact h.cell
  · rw [Console.store_conAddr]
    split_ifs
    · rw [Function.update_of_ne hplace]
      exact h.conAddr
    · exact h.conAddr

theorem showsAt_store
    (hshown : c.currentTtyDispl = td)
    (hch : ch.toNat < 0x80)
    (hq : q < 80 * 25) :
    ShowsAt td (c.store td (Console.placeOf td q) (glyph ch)) q ch := by
  have hlt := Console.placeOf_lt td hq
  constructor
  · rw [Console.cell_store _ _ _ _ hlt hlt, if_pos ⟨rfl, rfl⟩]
    exact glyph_of_lt ch hch
  · rw [Console.store_conAddr, if_pos hshown, Function.update_self]
    exact glyph_of_lt ch hch

end Shown

section Echoes

variable {count : Nat} {l : LineBuf} {res : Int}

theorem newEcho_ignored
    (h : readKey count l res = l) :
    newEcho count l res = [] := by
  rw [newEcho, h, List.drop_length]

theorem newEcho_erase
    (hcur : l.textCur ≠ 0) :
    newEcho count l 8 = [[8, 32, 8]] := by
  unfold newEcho readKey
  rw [if_neg (by decide), if_pos rfl, if_pos hcur]
  exact List.drop_left

theorem newEcho_keep
    (hzero : res ≠ 0)
    (hback : res ≠ 8)
    (hroom : l.textCur < count) :
    newEcho count l res = [[BitVec.ofInt 8 res]] := by
  unfold newEcho readKey
  rw [if_neg hzero, if_neg hback, if_pos hroom]
  exact List.drop_left

theorem Reading.typeKey_ignored {s : Reading} {td : Nat}
    (h : readKey count s.vars res = s.vars) :
    s.typeKey count td res = s := by
  unfold Reading.typeKey
  rw [newEcho_ignored h, h]
  rfl

/-- What a key puts into the line. -/
theorem lineChar_ofInt
    (h : TypedKey res)
    (hback : res ≠ 8) :
    LineChar (BitVec.ofInt 8 res) := by
  rcases h with heq | rfl | ⟨hlow, hhigh⟩
  · exact absurd heq hback
  · exact Or.inl rfl
  · right
    rw [BitVec.toNat_ofInt]
    omega

end Echoes

namespace LineShown

variable {td start : Nat} {c : Console} {line : List Byte} {ch : Byte}

theorem cursor_lt
    (h : LineShown td start c line) :
    (c.conCursors td).toNat < 80 * 25 :=
  h.cursor ▸ h.inside

theorem setErrno
    (h : LineShown td start c line)
    (errno : Errno) :
    LineShown td start { c with errno := errno } line :=
  ⟨h.shown, h.cursor, h.inside, fun i hi htab => ⟨(h.cells i hi htab).cell,
    (h.cells i hi htab).conAddr⟩⟩

/-- The characters of the line and the one behind it. -/
theorem cells_append {c' : Console}
    (hold : ∀ i < line.length, line.getD i 0 ≠ 9 →
      ShowsAt td c' (lineEnd start (line.take i)) (line.getD i 0))
    (hnew : ch ≠ 9 → ShowsAt td c' (lineEnd start line) ch) :
    ∀ i < (line ++ [ch]).length, (line ++ [ch]).getD i 0 ≠ 9 →
      ShowsAt td c' (lineEnd start ((line ++ [ch]).take i)) ((line ++ [ch]).getD i 0) := by
  intro i hi htab
  rw [List.length_append, List.length_singleton] at hi
  by_cases hlast : i = line.length
  · subst hlast
    have hget : (line ++ [ch]).getD line.length 0 = ch := by simp
    rw [hget] at htab ⊢
    rw [List.take_left]
    exact hnew htab
  · have hlt : i < line.length := by omega
    rw [List.getD_append _ _ _ _ hlt] at htab ⊢
    rw [List.take_append_of_le_length hlt.le]
    exact hold i hlt htab

/-- A character is written behind the line. -/
theorem put
    (h : LineShown td start c line)
    (hch : LineChar ch)
    (hfits : nextCell (lineEnd start line) ch < 80 * 25) :
    LineShown td start (c.putStr (Console.placeOf td) td [ch]).1 (line ++ [ch]) := by
  have hcursor := putGlyph_cursor (Console.placeOf td) hch h.cursor_lt
  rw [h.cursor] at hcursor
  have hput : (c.putStr (Console.placeOf td) td [ch]).1 =
      Console.putGlyph (Console.placeOf td) c td ch :=
    scrollIfPast_of_lt (hcursor ▸ hfits)
  rw [hput]
  have hend := lineEnd_append start line ch
  rcases hch with rfl | ⟨hlow, hhigh⟩
  · refine ⟨h.shown, hcursor.trans hend.symm, hend ▸ hfits, cells_append ?_ ?_⟩
    · intro i hi htab
      exact ⟨(h.cells i hi htab).cell, (h.cells i hi htab).conAddr⟩
    · intro htab
      exact absurd rfl htab
  · rw [putGlyph_print hlow, h.cursor] at hcursor ⊢
    refine ⟨h.shown, hcursor.trans hend.symm, hend ▸ hfits, cells_append ?_ ?_⟩
    · intro i hi htab
      have hbefore := lineEnd_take_lt (p := start) hi
      have hold := (h.cells i hi htab).store_of_ne hbefore.ne
        (Nat.lt_trans hbefore h.inside) h.inside (glyph ch)
      exact ⟨hold.cell, hold.conAddr⟩
    · intro _
      have hlt : ch.toNat < 0x80 := by omega
      have hnew := showsAt_store h.shown hlt h.inside
      exact ⟨hnew.cell, hnew.conAddr⟩

/-- The echo of Backspace leaves the characters before the last one, and moves
the cursor back by one cell. -/
theorem erase
    (h : LineShown td start c (line ++ [ch])) :
    let c' := (c.putStr (Console.placeOf td) td [8, 32, 8]).1
    c'.currentTtyDispl = td ∧
    (c'.conCursors td).toNat + 1 = nextCell (lineEnd start line) ch ∧
    ∀ i < line.length, line.getD i 0 ≠ 9 →
      ShowsAt td c' (lineEnd start (line.take i)) (line.getD i 0) := by
  have hend := lineEnd_append start line ch
  have hnext := lt_nextCell (lineEnd start line) ch
  have hcursor := h.cursor.trans hend
  have hpos : (c.conCursors td).toNat ≠ 0 := by omega
  have hback : (c.conCursors td - 1).toNat = (c.conCursors td).toNat - 1 := by bv_omega
  have hlt := h.cursor_lt
  dsimp only
  rw [putStr_erase rfl hpos hlt]
  refine ⟨h.shown, ?_, ?_⟩
  · rw [Console.moveCursor_conCursors, Function.update_self]
    omega
  · intro i hi htab
    have hbefore := lineEnd_take_lt (p := start) hi
    have hget : (line ++ [ch]).getD i 0 = line.getD i 0 := List.getD_append _ _ _ _ hi
    have htake : (line ++ [ch]).take i = line.take i := List.take_append_of_le_length hi.le
    have hold := h.cells i (by rw [List.length_append]; omega) (by rwa [hget])
    rw [hget, htake] at hold
    have hkept := (show ShowsAt td (c.moveCursor td (c.conCursors td - 1)) _ _ from
      ⟨hold.cell, hold.conAddr⟩).store_of_ne (q := (c.conCursors td).toNat - 1)
        (by omega) (by omega) (by omega) (glyph 32)
    exact ⟨hkept.cell, hkept.conAddr⟩

end LineShown

namespace Matched

variable {td count start : Nat} {buf₀ : Nat → Byte} {s : Reading} {line : List Byte} {res : Int}

theorem begin (td count : Nat) (buf₀ : Nat → Byte) {c : Console}
    (hshown : c.currentTtyDispl = td)
    (hcursor : (c.conCursors td).toNat < 80 * 25) :
    Matched td count (c.conCursors td).toNat buf₀ ⟨⟨buf₀, 0, []⟩, c⟩ [] where
  vars := HoldsOver.start buf₀ count
  chars := fun _ hmem => absurd hmem List.not_mem_nil
  console := ⟨hshown, rfl, hcursor, fun _ hi => absurd hi (Nat.not_lt_zero _)⟩

/-- The state after a key that echoes one string. -/
theorem typeKey_echo {text : List Byte}
    (htd : td < ttysCap)
    (hecho : newEcho count s.vars res = [text]) :
    s.typeKey count td res =
      ⟨readKey count s.vars res,
        ({ s.console with errno := .eno }.putStr (Console.placeOf td) td text).1⟩ := by
  unfold Reading.typeKey
  rw [hecho]
  simp only [List.foldl_cons, List.foldl_nil]
  rw [Console.ttyWrite_eq _ htd]

/-- A character that is kept. -/
theorem keep
    (h : Matched td count start buf₀ s line)
    (htd : td < ttysCap)
    (hkey : TypedKey res)
    (hback : res ≠ 8)
    (hroom : s.vars.textCur < count)
    (hscroll : s.NoScroll count td res) :
    Matched td count start buf₀ (s.typeKey count td res) (line ++ [BitVec.ofInt 8 res]) := by
  have hpos : ¬ res ≤ 0 := by
    unfold TypedKey at hkey
    omega
  have hch := lineChar_ofInt hkey hback
  have hecho := newEcho_keep (by omega) hback hroom
  have hnonneg : ¬ res < 0 := by omega
  have hread := h.vars.readKey hnonneg
  have hedit : editKey count line res = line ++ [BitVec.ofInt 8 res] := by
    unfold editKey
    rw [if_neg hpos, if_neg hback, if_pos (h.vars.textCur ▸ hroom)]
  have hfits : nextCell (lineEnd start line) (BitVec.ofInt 8 res) < 80 * 25 := by
    have hmem : [BitVec.ofInt 8 res] ∈ newEcho count s.vars res := by simp [hecho]
    have hfirst := hscroll _ hmem 0 Nat.one_pos
    rw [← h.console.cursor, ← putGlyph_cursor (Console.placeOf td) hch
      h.console.cursor_lt]
    exact hfirst
  rw [typeKey_echo htd hecho]
  refine ⟨hedit ▸ hread, ?_, (h.console.setErrno .eno).put hch hfits⟩
  intro ch hmem
  rcases List.mem_append.mp hmem with hold | hnew
  · exact h.chars ch hold
  · rw [List.mem_singleton.mp hnew]
    exact hch

/-- A character that is removed: the buffer holds the rest of the line. -/
theorem erase_vars {ch : Byte}
    (h : Matched td count start buf₀ s (line ++ [ch])) :
    HoldsOver buf₀ count (readKey count s.vars 8) line := by
  have hread := h.vars.readKey (show ¬ (8 : Int) < 0 by decide)
  have hedit : editKey count (line ++ [ch]) 8 = line := List.dropLast_concat
  rwa [hedit] at hread

theorem erase_echo {ch : Byte}
    (h : Matched td count start buf₀ s (line ++ [ch])) :
    newEcho count s.vars 8 = [[8, 32, 8]] := by
  refine newEcho_erase ?_
  rw [h.vars.textCur, List.length_append, List.length_singleton]
  omega

/-- Removing a character that takes one cell. -/
theorem erase {ch : Byte}
    (h : Matched td count start buf₀ s (line ++ [ch]))
    (htd : td < ttysCap)
    (hcell : nextCell (lineEnd start line) ch = lineEnd start line + 1) :
    Matched td count start buf₀ (s.typeKey count td 8) line := by
  obtain ⟨hshown, hcursor, hcells⟩ := (h.console.setErrno .eno).erase
  have hinside := h.console.inside
  rw [lineEnd_append] at hinside
  rw [typeKey_echo htd h.erase_echo]
  exact ⟨h.erase_vars, fun ch hmem => h.chars ch (List.mem_append_left _ hmem), hshown,
    Nat.succ.inj (hcursor.trans hcell), by omega, hcells⟩

/-- Writing a line from the start takes the cursor to its end. -/
theorem cursorAfter_eq {c₀ : Console} {text : List Byte}
    (htd : td < ttysCap)
    (htext : ∀ ch ∈ text, LineChar ch)
    (hfits : lineEnd (c₀.conCursors td).toNat text < 80 * 25) :
    cursorAfter c₀ td text = lineEnd (c₀.conCursors td).toNat text := by
  rw [cursorAfter, Console.ttyWrite_eq _ htd]
  exact putStr_cursor (c := { c₀ with errno := .eno }) htext hfits

/-- While the echo is in step, it shows the buffer. -/
theorem echoMatches {c₀ : Console}
    (h : Matched td count (c₀.conCursors td).toNat buf₀ s line)
    (htd : td < ttysCap) :
    EchoMatches td c₀ s := by
  have hline : s.line = line := h.vars.line_eq
  constructor
  · rw [hline, cursorAfter_eq htd h.chars h.console.inside]
    exact h.console.cursor
  · rw [hline]
    intro i hi htab
    have hbefore := lineEnd_take_lt (p := (c₀.conCursors td).toNat) hi
    rw [cursorAfter_eq htd (fun ch hmem => h.chars ch (List.mem_of_mem_take hmem))
      (Nat.lt_trans hbefore h.console.inside)]
    exact h.console.cells i hi htab

/-- The echo of Backspace is in step only if the character took one cell. -/
theorem one_cell_of_echoMatches {c₀ : Console} {ch : Byte}
    (h : Matched td count (c₀.conCursors td).toNat buf₀ s (line ++ [ch]))
    (htd : td < ttysCap)
    (hmatch : EchoMatches td c₀ (s.typeKey count td 8)) :
    nextCell (lineEnd (c₀.conCursors td).toNat line) ch =
      lineEnd (c₀.conCursors td).toNat line + 1 := by
  obtain ⟨-, hcursor, -⟩ := (h.console.setErrno .eno).erase
  have hinside := h.console.inside
  have hnext := lt_nextCell (lineEnd (c₀.conCursors td).toNat line) ch
  rw [lineEnd_append] at hinside
  have hafter := hmatch.cursor
  rw [typeKey_echo htd h.erase_echo] at hafter
  have hline : Reading.line ⟨readKey count s.vars 8, ({ s.console with errno := .eno }.putStr
      (Console.placeOf td) td [8, 32, 8]).1⟩ = line := h.erase_vars.line_eq
  rw [hline, cursorAfter_eq htd (fun ch hmem => h.chars ch (List.mem_append_left _ hmem))
    (Nat.lt_trans hnext hinside)] at hafter
  exact hcursor.symm.trans (congrArg Nat.succ hafter)

/-- One key, when Backspace does not remove a Tab of more than one cell. -/
theorem typeKey
    (h : Matched td count start buf₀ s line)
    (htd : td < ttysCap)
    (hkey : TypedKey res)
    (hscroll : s.NoScroll count td res)
    (htab : TabTakesOneCell start line res) :
    Matched td count start buf₀ (s.typeKey count td res) (editKey count line res) := by
  by_cases hback : res = 8
  · subst hback
    rcases List.eq_nil_or_concat line with rfl | ⟨line, ch, rfl⟩
    · have hcur : ¬ s.vars.textCur ≠ 0 := not_not.mpr h.vars.textCur
      have hread : readKey count s.vars 8 = s.vars := by
        unfold readKey
        rw [if_neg (by decide), if_pos rfl, if_neg hcur]
      rw [Reading.typeKey_ignored hread]
      exact h
    · rw [List.concat_eq_append] at h htab ⊢
      have hedit : editKey count (line ++ [ch]) 8 = line := List.dropLast_concat
      rw [hedit]
      refine h.erase htd ?_
      rw [TabTakesOneCell, List.getLast?_concat, List.dropLast_concat] at htab
      rw [nextCell_eq_succ_iff]
      rintro rfl
      exact htab rfl rfl
  · by_cases hroom : s.vars.textCur < count
    · have hpos : ¬ res ≤ 0 := by
        unfold TypedKey at hkey
        omega
      have hedit : editKey count line res = line ++ [BitVec.ofInt 8 res] := by
        unfold editKey
        rw [if_neg hpos, if_neg hback, if_pos (h.vars.textCur ▸ hroom)]
      rw [hedit]
      exact h.keep htd hkey hback hroom hscroll
    · have hread : readKey count s.vars res = s.vars := by
        unfold readKey
        rw [if_neg hback, if_neg hroom, ite_self]
      have hfull : ¬ line.length < count := h.vars.textCur ▸ hroom
      have hedit : editKey count line res = line := by
        unfold editKey
        rw [if_neg hback, if_neg hfull, ite_self]
      rw [Reading.typeKey_ignored hread, hedit]
      exact h

end Matched

instance (s : Reading) (count td : Nat) (res : Int) : Decidable (s.NoScroll count td res) :=
  inferInstanceAs (Decidable (∀ text ∈ _, ∀ n < _, _))

/-- The variables of the call go through the loop of `tty_read`. -/
theorem ttyRead_typeKeys {keys : List Int} (count td : Nat) (s : Reading)
    (hkeys : ∀ res ∈ keys, TypedKey res)
    (rest : List Int) :
    ttyRead count s.vars (keys ++ rest) = ttyRead count (s.typeKeys count td keys).vars rest := by
  induction keys generalizing s with
  | nil =>
      rfl
  | cons res keys ih =>
      have hkey := hkeys res List.mem_cons_self
      unfold TypedKey at hkey
      rw [List.cons_append, ttyRead, if_neg (by omega), if_neg (by omega)]
      exact ih (s.typeKey count td res) (fun res hmem => hkeys res (List.mem_cons_of_mem _ hmem))

section Runs

variable {td count : Nat} {buf₀ : Nat → Byte} {c₀ : Console} {s : Reading} {line : List Byte}
  {res : Int}

/-- After a key from a state in step, the echo is in step again exactly if the
key does not remove a wider Tab. -/
theorem Matched.echoMatches_typeKey_iff
    (h : Matched td count (c₀.conCursors td).toNat buf₀ s line)
    (htd : td < ttysCap)
    (hkey : TypedKey res ∧ s.NoScroll count td res) :
    EchoMatches td c₀ (s.typeKey count td res) ↔
      TabTakesOneCell (c₀.conCursors td).toNat line res := by
  constructor
  · rintro hmatch rfl hlast
    obtain ⟨line', rfl⟩ := List.getLast?_eq_some_iff.mp hlast
    rw [List.dropLast_concat]
    exact nextCell_eq_succ_iff.mp (h.one_cell_of_echoMatches htd hmatch) rfl
  · intro htab
    exact (h.typeKey htd hkey.1 hkey.2 htab).echoMatches htd

/-- Keys from a state in which the echo is in step. -/
theorem Matched.typeKeys_iff {keys : List Int}
    (h : Matched td count (c₀.conCursors td).toNat buf₀ s line)
    (htd : td < ttysCap)
    (hkeys : ∀ res ∈ keys, TypedKey res)
    (hscroll : ∀ n < keys.length,
      (s.typeKeys count td (keys.take n)).NoScroll count td (keys.getD n 0)) :
    (∀ n, EchoMatches td c₀ (s.typeKeys count td (keys.take n))) ↔
      ∀ n < keys.length, TabTakesOneCell (c₀.conCursors td).toNat
        ((keys.take n).foldl (editKey count) line) (keys.getD n 0) := by
  have hsteps : Along (Reading.typeKey count td)
      (fun s res => TypedKey res ∧ s.NoScroll count td res) s keys := by
    rw [along_iff_forall 0]
    intro n hn
    refine ⟨?_, hscroll n hn⟩
    rw [List.getD_eq_getElem _ _ hn]
    exact hkeys _ (List.getElem_mem hn)
  have hlaw : ∀ (s : Reading) (line : List Byte) (res : Int),
      Matched td count (c₀.conCursors td).toNat buf₀ s line →
      TypedKey res ∧ s.NoScroll count td res →
      (EchoMatches td c₀ (s.typeKey count td res) ↔
        TabTakesOneCell (c₀.conCursors td).toNat line res) :=
    fun _ _ _ h hkey => h.echoMatches_typeKey_iff htd hkey
  have hnext : ∀ (s : Reading) (line : List Byte) (res : Int),
      Matched td count (c₀.conCursors td).toNat buf₀ s line →
      TypedKey res ∧ s.NoScroll count td res →
      TabTakesOneCell (c₀.conCursors td).toNat line res →
      Matched td count (c₀.conCursors td).toNat buf₀ (s.typeKey count td res)
        (editKey count line res) :=
    fun _ _ _ h hkey htab => h.typeKey htd hkey.1 hkey.2 htab
  unfold Reading.typeKeys
  rw [forall_take_iff, along_iff hlaw hnext h hsteps, along_iff_forall 0]
  exact and_iff_right (h.echoMatches htd)

end Runs

/-- **When the echo shows what is in the buffer.**  The two are in step
after every key exactly when no Backspace removes a Tab of more than one cell. -/
theorem echo_matches_buffer_iff (count td : Nat) (buf₀ : Nat → Byte) (c₀ : Console)
    (keys : List Int)
    (htd : td < ttysCap)
    (hshown : c₀.currentTtyDispl = td)
    (hcursor : (c₀.conCursors td).toNat < 80 * 25)
    (hkeys : ∀ res ∈ keys, TypedKey res)
    (hscroll : ∀ n < keys.length,
      (Reading.typeKeys count td ⟨⟨buf₀, 0, []⟩, c₀⟩ (keys.take n)).NoScroll count td
        (keys.getD n 0)) :
    (∀ n, EchoMatches td c₀ (Reading.typeKeys count td ⟨⟨buf₀, 0, []⟩, c₀⟩ (keys.take n))) ↔
      ∀ n < keys.length, TabTakesOneCell (c₀.conCursors td).toNat
        (editLine count (keys.take n)) (keys.getD n 0) :=
  (Matched.begin td count buf₀ hshown hcursor).typeKeys_iff htd hkeys hscroll

/-- The theorem applies to Tab and Backspace from cell 7. -/
theorem echo_matches_buffer_iff_sample :
    let c := Console.boot.moveCursor 0 7
    (∀ n, EchoMatches 0 c (Reading.typeKeys 5 0 ⟨LineBuf.zeroed, c⟩ ([9, 8].take n))) ↔
      ∀ n < [9, 8].length, TabTakesOneCell 7 (editLine 5 ([9, 8].take n)) ([9, 8].getD n 0) :=
  echo_matches_buffer_iff 5 0 (fun _ => 0) (Console.boot.moveCursor 0 7) [9, 8] (by decide) rfl
    (by decide) (by decide) (by decide)

/-- Tab and Backspace in the first column leave the cursor in cell 7, with an
empty line. -/
theorem erased_tab_leaves_cells :
    (∀ n < [9, 8].length,
      (Reading.typeKeys 5 0 ⟨LineBuf.zeroed, Console.boot⟩ ([9, 8].take n)).NoScroll 5 0
        ([9, 8].getD n 0)) ∧
    ¬ ∀ n, EchoMatches 0 Console.boot
      (Reading.typeKeys 5 0 ⟨LineBuf.zeroed, Console.boot⟩ ([9, 8].take n)) := by
  refine ⟨by decide, ?_⟩
  intro hmatch
  exact absurd (hmatch 2).cursor (by decide)

end Klyx
