import Klyx.Kernel.KeyboardInput
import Klyx.Kernel.LineEcho

/-!
# The end of a read

`tty_read` as it runs next to the keyboard: `con_handle_input` queues keys of
the terminal that is shown while the loop of `tty_read` polls for them.  `keys`
records the keys that arrived, ESC among them.

ESC is declared as the key that ends the input (`TTY_CC_EOF`) and has a case in
the switch of `tty_read`.  But it counts as a special key, which
`con_handle_input` does not queue, and the loop skips negative codes before the
switch.  So what is queued and consumed are the other keys (`ReadInv`), and only
Enter ends the read.

**Results.**
* `ReadInv.step`, `ReadInv.run`: one event and every run.
* `ReadInv.turns_settle`: the call takes every key from the queue or returns.
* `end_of_input_iff`: when the read ends at its first Enter or ESC.
-/

namespace Klyx

/-- A call of `tty_read` next to the keyboard. -/
structure KeyedRead where
  reading : Reading
  hasReturned : Bool
  /-- Ghost record: the characters of the keys that arrived. -/
  keys : List Int

/-- A keyboard interrupt, with the bytes on its two ports, or a turn of the loop
of `tty_read`. -/
inductive ReadEvent where
  | key (status code : Byte)
  | turn
deriving DecidableEq

/-- The character of a key that goes down: one that is queued, or ESC.  An
ordinary key that finds the queue full is lost and does not arrive; ESC does not
need room. -/
def Console.arriving (c : Console) (status code : Byte) : List Int :=
  if status &&& 1 ≠ 0 ∧ code &&& 0x80 = 0 ∧ c.keysState code.toNat = false ∧
      (ordinary code ∧ c.shownQueue.size ≠ inputBufCap - 1 ∨ keyChar code = ttyCcEof) then
    [keyChar code]
  else []

/-- One turn of the loop of `tty_read`, and whether the call returns. -/
def Reading.turn (count td : Nat) (s : Reading) : Reading × Bool :=
  let c := (s.console.readResult td).1
  let res := (s.console.readResult td).2
  if c.errno = .eagain then ({ s with console := c }, false)
  else if res < 0 then ({ s with console := c }, false)
  else if res = 10 then
    (⟨{ s.vars with echo := s.vars.echo ++ [[10]] }, (c.ttyWrite td [10]).1⟩, true)
  else if res = ttyCcEof then ({ s with console := c }, true)
  else (({ s with console := c } : Reading).typeKey count td res, false)

namespace KeyedRead

/-- Execute one event.  After the call has returned there are only keys. -/
def step (count td : Nat) (s : KeyedRead) : ReadEvent → KeyedRead
  | .key status code =>
      { s with
        reading := { s.reading with console := (s.reading.console.conHandleInput status code).1 }
        keys := s.keys ++ s.reading.console.arriving status code }
  | .turn =>
      if s.hasReturned then s
      else
        { s with
          reading := (s.reading.turn count td).1
          hasReturned := (s.reading.turn count td).2 }

/-- Execute events from the left. -/
def run (count td : Nat) (s : KeyedRead) (es : List ReadEvent) : KeyedRead :=
  es.foldl (step count td) s

/-- The call begins; the keys that are queued already count as arrived. -/
def start (td : Nat) (buf : Nat → Byte) (c : Console) : KeyedRead where
  reading := ⟨⟨buf, 0, []⟩, c⟩
  hasReturned := false
  keys := c.queued td

end KeyedRead

/-- Enter or ESC. -/
def endsRead (res : Int) : Bool :=
  res == 10 || res == ttyCcEof

/-- What the end of a read should be.  A call that returned did so at the first
Enter or ESC: it returns the line typed before that key, and what arrived later
is still queued.  A call that has taken every key from the queue and did not
return has seen neither of them. -/
structure EndOfInputLaw (count td : Nat) (s : KeyedRead) : Prop where
  returned : s.hasReturned = true → ∃ before key after,
    s.keys = before ++ key :: after ∧
    (∀ res ∈ before, endsRead res = false) ∧
    endsRead key = true ∧
    s.reading.line = editLine count before ∧
    s.reading.console.queued td = after.filter (0 ≤ ·)
  waiting : s.hasReturned = false → s.reading.console.queued td = [] →
    ∀ res ∈ s.keys, endsRead res = false

/-- The first Enter or ESC among the keys is ESC. -/
def EscFirst (keys : List Int) : Prop :=
  keys.find? endsRead = some ttyCcEof

instance (keys : List Int) : Decidable (EscFirst keys) :=
  inferInstanceAs (Decidable (_ = _))

/-- A terminal that is shown, with a well-formed queue of ordinary keys. -/
structure QueueReady (td : Nat) (c : Console) : Prop where
  shown : c.currentTtyDispl = td
  valid : RingBuffer.Valid inputBufCap (c.input td)
  ordinary : ∀ sc ∈ RingBuffer.contents inputBufCap (c.input td), ordinary sc

/-- The state of a read: the keys that were consumed and those that are queued
are all the keys that arrived, except ESC. -/
structure ReadInv (count td : Nat) (buf₀ : Nat → Byte) (s : KeyedRead) : Prop where
  queue : QueueReady td s.reading.console
  consumed : ∃ before, 10 ∉ before ∧ HoldsOver buf₀ count s.reading.vars (editLine count before) ∧
    s.keys.filter (0 ≤ ·) =
      before ++ (if s.hasReturned then [10] else []) ++ s.reading.console.queued td

section Input

variable {c c' : Console} {td : Nat}

/-- What does not touch the keyboard. -/
def SameInput (c c' : Console) : Prop :=
  c'.input = c.input ∧ c'.currentTtyDispl = c.currentTtyDispl

theorem ttyWrite_sameInput (c : Console) (td : Nat) (buf : List Byte) :
    SameInput c (c.ttyWrite td buf).1 := by
  have hstep : ∀ place tty ch (c' : Console), SameInput c c' →
      SameInput c (c'.putChar place tty ch) := by
    intro place tty ch c' h
    have hglyph : SameInput c (c'.putGlyph place tty ch) := by
      rcases c'.putGlyph_cases tty place ch with ⟨cur, heq⟩ | ⟨cur, heq⟩
      · rw [heq]
        exact h
      · rw [heq]
        exact h
    unfold Console.putChar Console.scrollIfPast
    split_ifs
    · exact hglyph
    · exact hglyph
  by_cases htd : td < ttysCap
  · rw [c.ttyWrite_eq htd]
    exact Console.putStr_invariant (SameInput c) ⟨rfl, rfl⟩ (fun c' ch => hstep _ _ ch c')
  · rw [c.ttyWrite_efault htd]
    exact ⟨rfl, rfl⟩

theorem typeKey_sameInput (count td : Nat) (s : Reading) (res : Int) :
    SameInput s.console (s.typeKey count td res).console := by
  unfold Reading.typeKey
  generalize newEcho count s.vars res = texts
  have hrun : ∀ c, SameInput s.console c →
      SameInput s.console (texts.foldl (fun c text => (c.ttyWrite td text).1) c) := by
    induction texts with
    | nil =>
        exact fun _ h => h
    | cons text texts ih =>
        intro c h
        obtain ⟨hinput, hshown⟩ := ttyWrite_sameInput c td text
        exact ih _ ⟨hinput.trans h.1, hshown.trans h.2⟩
  exact hrun _ ⟨rfl, rfl⟩

theorem SameInput.queued
    (h : SameInput c c')
    (td : Nat) :
    c'.queued td = c.queued td := by
  rw [Console.queued, Console.queued, h.1]

namespace QueueReady

theorem of_sameInput
    (h : QueueReady td c)
    (hsame : SameInput c c') :
    QueueReady td c' := by
  refine ⟨hsame.2.trans h.shown, ?_, ?_⟩
  · rw [hsame.1]
    exact h.valid
  · rw [hsame.1]
    exact h.ordinary

theorem shownQueue_eq
    (h : QueueReady td c) :
    c.shownQueue = c.input td := by
  rw [Console.shownQueue, h.shown]

theorem setShownQueue_input
    (h : QueueReady td c)
    (ring : RingBuffer.Ring Byte) :
    (c.setShownQueue ring).input td = ring := by
  rw [Console.setShownQueue, h.shown]
  exact Function.update_self _ _ _

/-- An ordinary key finds room. -/
theorem push {code : Byte}
    (h : QueueReady td c)
    (hroom : c.shownQueue.size ≠ inputBufCap - 1)
    (hcode : Klyx.ordinary code) :
    QueueReady td (c.pushScancode code).1 ∧
    (c.pushScancode code).1.queued td = c.queued td ++ [keyChar code] := by
  obtain ⟨ring, hpush, hvalid, hcontents⟩ :=
    pushScancode_room (h.shownQueue_eq ▸ h.valid) hroom code
  have hinput := h.setShownQueue_input ring
  rw [h.shownQueue_eq] at hcontents
  rw [hpush]
  refine ⟨⟨h.shown, ?_, ?_⟩, ?_⟩
  · rw [hinput]
    exact hvalid
  · rw [hinput, hcontents]
    intro sc hmem
    rcases List.mem_append.mp hmem with hold | hnew
    · exact h.ordinary sc hold
    · rw [List.mem_singleton.mp hnew]
      exact hcode
  · rw [Console.queued, hinput, hcontents, List.map_append, keyChar_of_ordinary hcode]
    rfl

/-- A keyboard interrupt queues the key that arrives, unless it is ESC. -/
theorem conHandleInput
    (h : QueueReady td c)
    (status code : Byte) :
    QueueReady td (c.conHandleInput status code).1 ∧
    (c.conHandleInput status code).1.queued td =
      c.queued td ++ (c.arriving status code).filter (0 ≤ ·) := by
  have hkept : ∀ c' : Console, SameInput c c' → c.arriving status code = [] →
      QueueReady td c' ∧
      c'.queued td = c.queued td ++ (c.arriving status code).filter (0 ≤ ·) := by
    intro c' hsame hnone
    rw [hnone, hsame.queued td]
    exact ⟨h.of_sameInput hsame, (List.append_nil _).symm⟩
  unfold Console.conHandleInput
  by_cases hstatus : status &&& 1 = 0
  · rw [if_pos hstatus]
    exact hkept c ⟨rfl, rfl⟩ (if_neg (fun harr => harr.1 hstatus))
  rw [if_neg hstatus]
  by_cases hmake : code &&& 0x80 = 0
  swap
  · rw [if_pos hmake]
    exact hkept _ ⟨rfl, rfl⟩ (if_neg (fun harr => hmake harr.2.1))
  rw [if_neg (not_not_intro hmake)]
  by_cases hheld : c.keysState code.toNat = true
  · rw [if_pos hheld]
    refine hkept c ⟨rfl, rfl⟩ (if_neg (fun harr => ?_))
    rw [hheld] at harr
    exact Bool.noConfusion harr.2.2.1
  rw [if_neg hheld]
  by_cases hcode : scanCodeTableSpecial code = 0
  swap
  · -- a special key is not queued, and as a key that arrives it is ESC
    rw [if_neg hcode]
    refine ⟨h.of_sameInput ⟨rfl, rfl⟩, ?_⟩
    have hnone : (c.arriving status code).filter (0 ≤ ·) = [] := by
      unfold Console.arriving
      split_ifs with harr
      · have heof : keyChar code = ttyCcEof := harr.2.2.2.resolve_left (fun h => hcode h.1)
        rw [heof]
        rfl
      · rfl
    rw [hnone, List.append_nil]
    rfl
  have hnonneg : 0 ≤ keyChar code := by
    rw [keyChar_of_ordinary hcode]
    exact scanCodeTableDefault_nonneg code
  rw [if_pos hcode]
  by_cases hfull : c.shownQueue.size = inputBufCap - 1
  · have hdrop : ((c.setKey code.toNat true).pushScancode code).1 = c.setKey code.toNat true :=
      pushScancode_full (c := c.setKey code.toNat true) hfull code
    rw [hdrop]
    refine hkept _ ⟨rfl, rfl⟩ (if_neg ?_)
    rintro ⟨-, -, -, ⟨-, hroom⟩ | heof⟩
    · exact hroom hfull
    · rw [heof] at hnonneg
      exact absurd hnonneg (by decide)
  · have hdown : QueueReady td (c.setKey code.toNat true) := h.of_sameInput ⟨rfl, rfl⟩
    obtain ⟨hready, hqueued⟩ := hdown.push hfull hcode
    have harr : c.arriving status code = [keyChar code] :=
      if_pos ⟨hstatus, hmake, Bool.not_eq_true _ ▸ hheld, Or.inl ⟨hcode, hfull⟩⟩
    have hfilter : [keyChar code].filter (0 ≤ ·) = [keyChar code] :=
      List.filter_eq_self.mpr (by simpa using hnonneg)
    rw [harr, hfilter]
    exact ⟨hready, hqueued⟩

/-- A poll that finds no key. -/
theorem readResult_nil
    (h : QueueReady td c)
    (hempty : c.queued td = []) :
    c.readResult td = ({ c with errno := .eagain }, keyChar 0) := by
  refine readResult_empty h.shown.symm ?_
  rw [h.shownQueue_eq, ← RingBuffer.contents_eq_nil_iff inputBufCap]
  exact List.map_eq_nil_iff.mp hempty

/-- A poll that finds a key. -/
theorem readResult_cons {res : Int} {rest : List Int}
    (h : QueueReady td c)
    (hqueue : c.queued td = res :: rest) :
    (c.readResult td).2 = res ∧
    (c.readResult td).1.errno = .eno ∧
    QueueReady td (c.readResult td).1 ∧
    (c.readResult td).1.queued td = rest := by
  have hsome : (c.input td).size ≠ 0 := by
    intro hzero
    rw [Console.queued, (RingBuffer.contents_eq_nil_iff inputBufCap _).mpr hzero] at hqueue
    exact absurd hqueue.symm (List.cons_ne_nil _ _)
  have hcons := RingBuffer.contents_pop inputBufCap h.valid hsome
  rw [Console.queued, hcons, List.map_cons, List.cons.injEq] at hqueue
  have hfront : Klyx.ordinary ((c.input td).buf (c.input td).readHead) :=
    h.ordinary _ (by rw [hcons]; exact List.mem_cons_self)
  have hclear : QueueReady td { c with errno := .eno } := h.of_sameInput ⟨rfl, rfl⟩
  have hinput := hclear.setShownQueue_input (RingBuffer.pop inputBufCap (c.input td))
  rw [readResult_pop h.shown.symm (h.shownQueue_eq ▸ hsome), h.shownQueue_eq]
  refine ⟨(keyChar_of_ordinary hfront).trans hqueue.1, rfl, ⟨h.shown, ?_, ?_⟩, ?_⟩
  · rw [hinput]
    exact RingBuffer.valid_pop inputBufCap h.valid hsome
  · rw [hinput]
    exact fun sc hmem => h.ordinary sc (by rw [hcons]; exact List.mem_cons_of_mem _ hmem)
  · rw [Console.queued, hinput]
    exact hqueue.2

theorem queued_nonneg
    (c : Console)
    (td : Nat) :
    ∀ res ∈ c.queued td, 0 ≤ res := by
  intro res hmem
  obtain ⟨sc, -, rfl⟩ := List.mem_map.mp hmem
  exact scanCodeTableDefault_nonneg sc

end QueueReady

end Input

namespace KeyedRead

variable {s : KeyedRead} (count td : Nat)

/-- A call that returned takes no more turns. -/
theorem turn_of_returned
    (h : s.hasReturned = true) :
    s.step count td .turn = s :=
  if_pos h

theorem turns_of_returned {n : Nat}
    (h : s.hasReturned = true) :
    s.run count td (List.replicate n .turn) = s := by
  induction n with
  | zero =>
      rfl
  | succ n ih =>
      change (s.step count td .turn).run count td (List.replicate n .turn) = s
      rw [turn_of_returned count td h, ih]

/-- No key arrives by a turn of `tty_read`. -/
theorem turns_keys (s : KeyedRead) (n : Nat) :
    (s.run count td (List.replicate n .turn)).keys = s.keys := by
  induction n generalizing s with
  | zero =>
      rfl
  | succ n ih =>
      have hstep : (s.step count td .turn).keys = s.keys := by
        unfold KeyedRead.step
        dsimp only
        split_ifs <;> rfl
      exact (ih (s.step count td .turn)).trans hstep

end KeyedRead

namespace ReadInv

variable {count td : Nat} {buf₀ : Nat → Byte} {s : KeyedRead}

theorem start {c : Console}
    (h : QueueReady td c) :
    ReadInv count td buf₀ (KeyedRead.start td buf₀ c) where
  queue := h
  consumed := ⟨[], List.not_mem_nil, HoldsOver.start buf₀ count,
    List.filter_eq_self.mpr (fun res hmem => decide_eq_true
      (QueueReady.queued_nonneg c td res hmem))⟩

/-- A keyboard interrupt. -/
theorem key
    (h : ReadInv count td buf₀ s)
    (status code : Byte) :
    ReadInv count td buf₀ (s.step count td (.key status code)) := by
  obtain ⟨hready, hqueued⟩ := h.queue.conHandleInput status code
  obtain ⟨before, hbefore, hholds, hkeys⟩ := h.consumed
  refine ⟨hready, before, hbefore, hholds, ?_⟩
  change (s.keys ++ s.reading.console.arriving status code).filter (0 ≤ ·) =
    before ++ (if s.hasReturned then [10] else []) ++
      (s.reading.console.conHandleInput status code).1.queued td
  rw [List.filter_append, hkeys, hqueued, List.append_assoc, List.append_assoc]

/-- A turn that finds no key. -/
theorem turn_nil
    (h : ReadInv count td buf₀ s)
    (hdone : s.hasReturned = false)
    (hempty : s.reading.console.queued td = []) :
    ReadInv count td buf₀ (s.step count td .turn) ∧
    (s.step count td .turn).reading.console.queued td = [] := by
  have hturn : s.reading.turn count td =
      ({ s.reading with console := { s.reading.console with errno := .eagain } }, false) := by
    unfold Reading.turn
    rw [h.queue.readResult_nil hempty]
    rfl
  have hstep : s.step count td .turn =
      { s with reading :=
        { s.reading with console := { s.reading.console with errno := .eagain } } } := by
    simp only [KeyedRead.step, hdone, hturn, Bool.false_eq_true, if_false]
  obtain ⟨before, hbefore, hholds, hkeys⟩ := h.consumed
  rw [hstep]
  exact ⟨⟨h.queue.of_sameInput ⟨rfl, rfl⟩, before, hbefore, hholds, hkeys⟩, hempty⟩

/-- A turn that finds a key consumes it. -/
theorem turn_cons {res : Int} {rest : List Int}
    (h : ReadInv count td buf₀ s)
    (hdone : s.hasReturned = false)
    (hqueue : s.reading.console.queued td = res :: rest) :
    ReadInv count td buf₀ (s.step count td .turn) ∧
    (s.step count td .turn).reading.console.queued td = rest := by
  obtain ⟨hres, herrno, hready, hrest⟩ := h.queue.readResult_cons hqueue
  have hnonneg : ¬ res < 0 := by
    have := QueueReady.queued_nonneg s.reading.console td res (by rw [hqueue]; simp)
    omega
  have hnotEof : res ≠ ttyCcEof := by
    unfold ttyCcEof
    omega
  have hagain : (s.reading.console.readResult td).1.errno ≠ .eagain := by
    rw [herrno]
    decide
  obtain ⟨before, hbefore, hholds, hkeys⟩ := h.consumed
  rw [hdone, hqueue] at hkeys
  simp only [KeyedRead.step, hdone, Bool.false_eq_true, if_false]
  unfold Reading.turn
  dsimp only
  rw [hres, if_neg hagain, if_neg hnonneg]
  by_cases henter : res = 10
  · subst henter
    rw [if_pos rfl]
    have hwrite := ttyWrite_sameInput (s.reading.console.readResult td).1 td [10]
    refine ⟨⟨hready.of_sameInput hwrite, before, hbefore,
      ⟨hholds.textCur, hholds.room, hholds.kept, hholds.beyond, hholds.zeros⟩, ?_⟩,
      (hwrite.queued td).trans hrest⟩
    dsimp only
    rw [hwrite.queued td, hrest, hkeys]
    simp
  · rw [if_neg henter, if_neg hnotEof]
    have hwrite := typeKey_sameInput count td
      { s.reading with console := (s.reading.console.readResult td).1 } res
    refine ⟨⟨hready.of_sameInput hwrite, before ++ [res], ?_, ?_, ?_⟩,
      (hwrite.queued td).trans hrest⟩
    · rw [List.mem_append, List.mem_singleton]
      exact not_or.mpr ⟨hbefore, Ne.symm henter⟩
    · have hedit : editLine count (before ++ [res]) =
          editKey count (editLine count before) res := by
        rw [editLine, List.foldl_append]
        rfl
      rw [hedit]
      exact hholds.readKey hnonneg
    · dsimp only
      rw [hwrite.queued td, hrest, hkeys]
      simp

/-- One event. -/
theorem step
    (h : ReadInv count td buf₀ s)
    (e : ReadEvent) :
    ReadInv count td buf₀ (s.step count td e) := by
  cases e with
  | key status code =>
      exact h.key status code
  | turn =>
      by_cases hdone : s.hasReturned = true
      · rw [KeyedRead.turn_of_returned count td hdone]
        exact h
      · rw [Bool.not_eq_true] at hdone
        cases hqueue : s.reading.console.queued td with
        | nil =>
            exact (h.turn_nil hdone hqueue).1
        | cons res rest =>
            exact (h.turn_cons hdone hqueue).1

/-- Every run. -/
theorem run
    (h : ReadInv count td buf₀ s)
    (es : List ReadEvent) :
    ReadInv count td buf₀ (s.run count td es) := by
  unfold KeyedRead.run
  induction es generalizing s with
  | nil =>
      exact h
  | cons e es ih =>
      exact ih (h.step e)

/-- With enough turns the call returns or empties the queue. -/
theorem turns_settle {n : Nat}
    (h : ReadInv count td buf₀ s)
    (hn : (s.reading.console.queued td).length ≤ n) :
    let t := s.run count td (List.replicate n .turn)
    t.hasReturned = true ∨ t.reading.console.queued td = [] := by
  induction n generalizing s with
  | zero =>
      exact Or.inr (List.length_eq_zero_iff.mp (Nat.le_zero.mp hn))
  | succ n ih =>
      by_cases hdone : s.hasReturned = true
      · rw [KeyedRead.turns_of_returned count td hdone]
        exact Or.inl hdone
      · rw [Bool.not_eq_true] at hdone
        refine ih (h.step .turn) ?_
        cases hqueue : s.reading.console.queued td with
        | nil =>
            rw [(h.turn_nil hdone hqueue).2]
            exact Nat.zero_le n
        | cons res rest =>
            rw [hqueue, List.length_cons] at hn
            rw [(h.turn_cons hdone hqueue).2]
            exact Nat.le_of_succ_le_succ hn

end ReadInv

section Law

variable {count td : Nat} {buf₀ : Nat → Byte} {s : KeyedRead} {keys : List Int} {res : Int}

/-- Control codes are not part of the line. -/
theorem editLine_filter (count : Nat) (keys : List Int) :
    editLine count (keys.filter (0 ≤ ·)) = editLine count keys := by
  rw [editLine, editLine, List.foldl_filter]
  congr 1
  funext line res
  by_cases hres : 0 ≤ res
  · rw [if_pos (decide_eq_true hres)]
  · have hskip : editKey count line res = line := if_pos (by omega)
    rw [if_neg (by simpa using hres), hskip]

/-- A list is split in one way at the first occurrence of an element. -/
theorem append_cons_inj_of_not_mem {x y x' y' : List Int}
    (hx : res ∉ x)
    (hx' : res ∉ x')
    (h : x ++ res :: y = x' ++ res :: y') :
    x = x' ∧ y = y' := by
  induction x generalizing x' with
  | nil =>
      cases x' with
      | nil =>
          exact ⟨rfl, (List.cons.inj h).2⟩
      | cons a x' =>
          exact absurd (List.cons.inj h).1 (fun heq => hx' (heq ▸ List.mem_cons_self))
  | cons a x ih =>
      cases x' with
      | nil =>
          exact absurd (List.cons.inj h).1 (fun heq => hx (heq ▸ List.mem_cons_self))
      | cons a' x' =>
          obtain ⟨hhead, htail⟩ := List.cons.inj h
          obtain ⟨hsame, hrest⟩ := ih (fun hmem => hx (List.mem_cons_of_mem _ hmem))
            (fun hmem => hx' (List.mem_cons_of_mem _ hmem)) htail
          exact ⟨by rw [hhead, hsame], hrest⟩

theorem eq_of_endsRead
    (h : endsRead res = true) :
    res = 10 ∨ res = ttyCcEof := by
  simpa [endsRead] using h

/-- Enter is among the keys, and the first key that ends a read is not ESC. -/
theorem enter_first
    (henter : 10 ∈ keys)
    (hesc : ¬ EscFirst keys) :
    ∃ before after, keys = before ++ 10 :: after ∧ ∀ res ∈ before, endsRead res = false := by
  cases hfind : keys.find? endsRead with
  | none =>
      exact absurd rfl (List.find?_eq_none.mp hfind 10 henter)
  | some key =>
      obtain ⟨hkey, before, after, hkeys, hbefore⟩ := List.find?_eq_some_iff_append.mp hfind
      rcases eq_of_endsRead hkey with rfl | rfl
      · exact ⟨before, after, hkeys, fun res hmem => by simpa using hbefore res hmem⟩
      · exact absurd hfind hesc

/-- What is consumed tells whether the read ends as it should. -/
theorem law_iff
    (h : ReadInv count td buf₀ s) :
    EndOfInputLaw count td s ↔
      (s.hasReturned = true ∨ s.reading.console.queued td = [] → ¬ EscFirst s.keys) := by
  obtain ⟨consumed, hconsumed, hholds, hkeys⟩ := h.consumed
  constructor
  · intro hlaw hsettled hesc
    cases hdone : s.hasReturned with
    | false =>
        have hempty := hsettled.resolve_left (by rw [hdone]; decide)
        have hnone := hlaw.waiting hdone hempty ttyCcEof (List.mem_of_find?_eq_some hesc)
        exact absurd hnone (by decide)
    | true =>
        obtain ⟨before, key, after, hsplit, hbefore, hkey, -, hqueue⟩ := hlaw.returned hdone
        have hfind : s.keys.find? endsRead = some key :=
          List.find?_eq_some_iff_append.mpr
            ⟨hkey, before, after, hsplit, fun res hmem => by simpa using hbefore res hmem⟩
        have heof : key = ttyCcEof := Option.some.inj (hfind.symm.trans hesc)
        -- ESC is not consumed, so Enter was consumed before it
        rw [hdone, hsplit, heof, hqueue, List.filter_append, if_pos rfl] at hkeys
        have hsame : before.filter (0 ≤ ·) = consumed ++ [10] := List.append_cancel_right hkeys
        have henter : (10 : Int) ∈ before.filter (0 ≤ ·) := by
          rw [hsame]
          simp
        exact absurd (hbefore 10 (List.mem_filter.mp henter).1) (by decide)
  · intro hsettled
    constructor
    · intro hdone
      rw [hdone, if_pos rfl, List.append_assoc, List.singleton_append] at hkeys
      have henter : (10 : Int) ∈ s.keys := by
        have hmem : (10 : Int) ∈ s.keys.filter (0 ≤ ·) := by
          rw [hkeys]
          simp
        exact (List.mem_filter.mp hmem).1
      obtain ⟨before, after, hsplit, hbefore⟩ := enter_first henter (hsettled (Or.inl hdone))
      have hnot : (10 : Int) ∉ before.filter (0 ≤ ·) := fun hmem =>
        absurd (hbefore 10 (List.mem_filter.mp hmem).1) (by decide)
      rw [hsplit, List.filter_append] at hkeys
      obtain ⟨hsame, hrest⟩ := append_cons_inj_of_not_mem hnot hconsumed hkeys
      refine ⟨before, 10, after, hsplit, hbefore, rfl, ?_, hrest.symm⟩
      have hline : s.reading.line = editLine count consumed := hholds.line_eq
      rw [hline, ← hsame, editLine_filter]
    · intro hdone hempty res hmem
      rw [hdone, hempty] at hkeys
      have hfiltered : s.keys.filter (0 ≤ ·) = consumed := by
        simpa using hkeys
      by_contra hends
      rw [Bool.not_eq_false] at hends
      have henter : (10 : Int) ∉ s.keys := fun hmem =>
        hconsumed (hfiltered ▸ List.mem_filter.mpr ⟨hmem, rfl⟩)
      have hfind : s.keys.find? endsRead = some ttyCcEof := by
        obtain ⟨key, hkey⟩ := Option.isSome_iff_exists.mp (List.find?_isSome.mpr ⟨res, hmem, hends⟩)
        rcases eq_of_endsRead (List.find?_some hkey) with rfl | rfl
        · exact absurd (List.mem_of_find?_eq_some hkey) henter
        · exact hkey
      exact hsettled (Or.inr hempty) hfind

end Law

/-- **When the end of input ends a read.**  After any keyboard interrupts and
turns of `tty_read` on the terminal that is shown, and for as many turns as
follow, the read ends as it should exactly when ESC does not come first among
the keys that end a read. -/
theorem end_of_input_iff (count td : Nat) (buf : Nat → Byte) (c : Console) (es : List ReadEvent)
    (hready : QueueReady td c) :
    let s := (KeyedRead.start td buf c).run count td es
    (∀ n, EndOfInputLaw count td (s.run count td (List.replicate n .turn))) ↔
      ¬ EscFirst s.keys := by
  intro s
  have hinv : ReadInv count td buf s := (ReadInv.start hready).run es
  constructor
  · intro hlaw
    have hsettled := hinv.turns_settle (Nat.le_refl _)
    have hesc := (law_iff (hinv.run _)).mp (hlaw _) hsettled
    rwa [KeyedRead.turns_keys] at hesc
  · intro hesc n
    refine (law_iff (hinv.run _)).mpr (fun _ => ?_)
    rwa [KeyedRead.turns_keys]

theorem queueReady_boot : QueueReady 0 Console.boot where
  shown := rfl
  valid := ⟨Nat.zero_le _, Nat.zero_lt_succ _, Nat.zero_lt_succ _, rfl⟩
  ordinary := fun _ hmem => nomatch hmem

/-- The theorem applies to the keys `a` and Enter. -/
theorem end_of_input_iff_sample :
    let s := (KeyedRead.start 0 (fun _ => 0) Console.boot).run 16 0
      [.key 1 30, .turn, .key 1 28, .turn]
    (∀ n, EndOfInputLaw 16 0 (s.run 16 0 (List.replicate n .turn))) ↔ ¬ EscFirst s.keys :=
  end_of_input_iff 16 0 (fun _ => 0) Console.boot [.key 1 30, .turn, .key 1 28, .turn]
    queueReady_boot

/-- ESC is pressed and the loop polls: the call has not returned. -/
theorem esc_does_not_end_read :
    let s := (KeyedRead.start 0 (fun _ => 0) Console.boot).run 16 0 [.key 1 1, .turn]
    s.keys = [ttyCcEof] ∧ s.hasReturned = false ∧ ¬ EndOfInputLaw 16 0 s := by
  refine ⟨by decide, by decide, ?_⟩
  intro hlaw
  exact absurd (hlaw.waiting (by decide) (by decide) ttyCcEof (by decide)) (by decide)

end Klyx
