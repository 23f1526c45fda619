import Klyx.Kernel.Console

/-!
# Keyboard input refines one bounded queue for each terminal

`KeyQueues` says what the keyboard is for: it keeps the keys that are held down,
the terminal that is shown, and for each terminal the characters that were
accepted and those that were delivered.  What was accepted and not delivered is
pending.  A key counts when it goes down, and it is accepted for the terminal
that is shown while less than `inputBufCap - 1` characters are pending there.

The scan code buffers of the console hold exactly the pending characters
(`InputRefines`); every event keeps this.

**Results.**
* `step_inputRefines`: one event.
* `keyboard_input_refines_fifo`: every run of keyboard interrupts and reads.
-/

namespace Klyx

/-- A key without a control code. -/
def ordinary (sc : Byte) : Prop :=
  scanCodeTableSpecial sc = 0

instance (sc : Byte) : Decidable (ordinary sc) :=
  inferInstanceAs (Decidable (_ = _))

/-- The terminal that is shown after a key: F1 to F4 select one. -/
def shownAfter (ch : Int) (shown : Nat) : Nat :=
  if ch = -12 then 0
  else if ch = -13 then 1
  else if ch = -14 then 2
  else if ch = -15 then 3
  else shown

/-- Keyboard interrupts and reads. -/
def ConsoleEvent.IsInput : ConsoleEvent → Prop
  | .keyboard _ _ => True
  | .read _ => True
  | .write _ _ => False
  | .setcur _ _ => False

instance : DecidablePred ConsoleEvent.IsInput
  | .keyboard _ _ | .read _ => .isTrue trivial
  | .write _ _ | .setcur _ _ => .isFalse id

/-- The abstract keyboard. -/
structure KeyQueues where
  down : Nat → Bool
  shown : Nat
  accepted : Nat → List Int
  delivered : Nat → List Int

namespace KeyQueues

/-- No key was pressed yet. -/
def boot : KeyQueues where
  down := fun _ => false
  shown := 0
  accepted := fun _ => []
  delivered := fun _ => []

/-- Characters accepted for a terminal and not delivered, oldest first. -/
def pending (s : KeyQueues) (tty : Nat) : List Int :=
  (s.accepted tty).drop (s.delivered tty).length

/-- A key goes down or up. -/
def setKey (s : KeyQueues) (key : Nat) (isDown : Bool) : KeyQueues :=
  { s with down := Function.update s.down key isDown }

/-- Accept a character for the terminal that is shown, or drop it. -/
def accept (s : KeyQueues) (ch : Int) : KeyQueues :=
  if (s.pending s.shown).length < inputBufCap - 1 then
    { s with accepted := Function.update s.accepted s.shown (s.accepted s.shown ++ [ch]) }
  else s

/-- The code of a key, which is repeated while the key is held. -/
def press (s : KeyQueues) (sc : Byte) : KeyQueues :=
  if s.down sc.toNat then s
  else if ordinary sc then (s.setKey sc.toNat true).accept (scanCodeTableDefault sc)
  else { s.setKey sc.toNat true with shown := shownAfter (scanCodeTableSpecial sc) s.shown }

/-- Deliver the oldest pending character of the terminal that is shown. -/
def deliver (s : KeyQueues) (tty : Nat) : KeyQueues :=
  if tty = s.shown then
    match s.pending tty with
    | [] => s
    | ch :: _ => { s with delivered := Function.update s.delivered tty (s.delivered tty ++ [ch]) }
  else s

/-- One event.  A code from 0x80 on reports that a key went up. -/
def step (s : KeyQueues) : ConsoleEvent → KeyQueues
  | .keyboard status code =>
      if status &&& 1 = 0 then s
      else if 128 ≤ code.toNat then s.setKey (code.toNat - 128) false
      else s.press code
  | .read tty => s.deliver tty
  | .write _ _ => s
  | .setcur _ _ => s

/-- Execute events from the left. -/
def run (s : KeyQueues) (es : List ConsoleEvent) : KeyQueues :=
  es.foldl step s

@[simp] theorem accept_delivered (s : KeyQueues) (ch : Int) :
    (s.accept ch).delivered = s.delivered := by
  unfold accept
  split_ifs <;> rfl

@[simp] theorem press_delivered (s : KeyQueues) (sc : Byte) :
    (s.press sc).delivered = s.delivered := by
  unfold press
  split_ifs
  · rfl
  · rw [accept_delivered]
    rfl
  · rfl

theorem step_keyboard_delivered (s : KeyQueues) (status code : Byte) :
    (s.step (.keyboard status code)).delivered = s.delivered := by
  simp only [step]
  split_ifs
  · rfl
  · rfl
  · exact press_delivered s code

end KeyQueues

namespace Console

/-- The result of `con_read` in one turn of the loop of `tty_read`. -/
def readResult (c : Console) (tty : Nat) : Console × Int :=
  { c with errno := .eno }.conRead tty

/-- What an event returns to a reader of a terminal, unless the call reports
`EAGAIN` or the end of the file. -/
def returned (tty : Nat) (c : Console) : ConsoleEvent → List Int
  | .read t =>
      if t = tty ∧ (c.readResult t).1.errno ≠ .eagain ∧ (c.readResult t).2 ≠ ttyCcEof then
        [(c.readResult t).2]
      else []
  | .keyboard _ _ => []
  | .write _ _ => []
  | .setcur _ _ => []

/-- What a run returns to the readers of a terminal. -/
def returnedBy (tty : Nat) : Console → List ConsoleEvent → List Int
  | _, [] => []
  | c, e :: es => returned tty c e ++ returnedBy tty (c.step e) es

/-- The characters in the queue of a terminal, oldest first. -/
def queued (c : Console) (tty : Nat) : List Int :=
  (RingBuffer.contents inputBufCap (c.input tty)).map scanCodeTableDefault

end Console

/-- The buffers of the console hold the pending characters. -/
structure InputRefines (c : Console) (s : KeyQueues) : Prop where
  down : c.keysState = s.down
  shown : c.currentTtyDispl = s.shown
  valid : ∀ tty, RingBuffer.Valid inputBufCap (c.input tty)
  ordinary : ∀ tty, ∀ sc ∈ RingBuffer.contents inputBufCap (c.input tty), ordinary sc
  queue : ∀ tty, s.accepted tty = s.delivered tty ++ c.queued tty

section Tables

theorem scanCodeTableDefault_nonneg : ∀ sc, 0 ≤ scanCodeTableDefault sc := by
  decide +kernel

theorem keyChar_of_ordinary {sc : Byte}
    (h : ordinary sc) :
    keyChar sc = scanCodeTableDefault sc :=
  if_neg (not_not_intro h)

theorem keyChar_of_not_ordinary {sc : Byte}
    (h : ¬ ordinary sc) :
    keyChar sc = scanCodeTableSpecial sc :=
  if_pos h

/-- The top bit of a code tells a release from a press. -/
theorem releaseBit_eq_zero_iff : ∀ code : Byte, code &&& 0x80 = 0 ↔ code.toNat < 128 := by
  decide +kernel

theorem releasedKey_toNat : ∀ code : Byte, (code &&& 0x7F).toNat = code.toNat % 128 := by
  decide +kernel

/-- An ordinary key shows no other terminal. -/
theorem shownAfter_nonneg {ch : Int} {shown : Nat}
    (h : 0 ≤ ch) :
    shownAfter ch shown = shown := by
  unfold shownAfter
  rw [if_neg (by omega), if_neg (by omega), if_neg (by omega), if_neg (by omega)]

end Tables

section Reading

variable {c : Console} {t : Nat}

theorem readResult_not_shown
    (h : t ≠ c.currentTtyDispl) :
    c.readResult t = ({ c with errno := .eno }, ttyCcEof) :=
  if_pos h

theorem readResult_empty
    (h : t = c.currentTtyDispl)
    (hempty : c.shownQueue.size = 0) :
    c.readResult t = ({ c with errno := .eagain }, keyChar 0) := by
  have hpop : ({ c with errno := .eno } : Console).popScancode =
      ({ c with errno := .eagain }, 0) := if_pos hempty
  rw [Console.readResult, Console.conRead, if_neg (not_not_intro h), hpop]

theorem readResult_pop
    (h : t = c.currentTtyDispl)
    (hsome : c.shownQueue.size ≠ 0) :
    c.readResult t =
      ({ c with errno := .eno }.setShownQueue (RingBuffer.pop inputBufCap c.shownQueue),
        keyChar (c.shownQueue.buf c.shownQueue.readHead)) := by
  have hpop : ({ c with errno := .eno } : Console).popScancode =
      ({ c with errno := .eno }.setShownQueue (RingBuffer.pop inputBufCap c.shownQueue),
        c.shownQueue.buf c.shownQueue.readHead) := if_neg hsome
  rw [Console.readResult, Console.conRead, if_neg (not_not_intro h), hpop]

end Reading

section Pushing

variable {c : Console}

theorem pushScancode_full
    (h : c.shownQueue.size = inputBufCap - 1)
    (sc : Byte) :
    (c.pushScancode sc).1 = c :=
  congrArg Prod.fst (if_pos h)

/-- A code that finds room is appended. -/
theorem pushScancode_room
    (hvalid : RingBuffer.Valid inputBufCap c.shownQueue)
    (hroom : c.shownQueue.size ≠ inputBufCap - 1)
    (sc : Byte) :
    ∃ ring, (c.pushScancode sc).1 = c.setShownQueue ring ∧
      RingBuffer.Valid inputBufCap ring ∧
      RingBuffer.contents inputBufCap ring =
        RingBuffer.contents inputBufCap c.shownQueue ++ [sc] := by
  have hlt : c.shownQueue.size < inputBufCap - 1 := by
    have := hvalid.size_le
    omega
  exact ⟨_, congrArg Prod.fst (if_neg hroom), RingBuffer.valid_push inputBufCap hvalid hlt sc,
    RingBuffer.contents_push inputBufCap hvalid hlt sc⟩

end Pushing

section Projections

variable (c : Console) (ch : Int)

@[simp] theorem Console.keySwitch_input : (c.keySwitch ch).input = c.input := by
  unfold Console.keySwitch
  split_ifs <;> rfl

@[simp] theorem Console.keySwitch_keysState : (c.keySwitch ch).keysState = c.keysState := by
  unfold Console.keySwitch
  split_ifs <;> rfl

@[simp] theorem Console.keySwitch_currentTtyDispl :
    (c.keySwitch ch).currentTtyDispl = shownAfter ch c.currentTtyDispl := by
  unfold Console.keySwitch shownAfter
  split_ifs <;> rfl

end Projections

namespace InputRefines

variable {c c' : Console} {s : KeyQueues}

theorem pending_eq
    (h : InputRefines c s)
    (tty : Nat) :
    s.pending tty = c.queued tty := by
  rw [KeyQueues.pending, h.queue, List.drop_left]

theorem length_pending
    (h : InputRefines c s)
    (tty : Nat) :
    (s.pending tty).length = (c.input tty).size := by
  rw [h.pending_eq, Console.queued, List.length_map, RingBuffer.length_contents]

/-- The relation only looks at the keys, the queues and the logs. -/
theorem transfer {s' : KeyQueues}
    (h : InputRefines c s)
    (hdown : c'.keysState = s'.down)
    (hshown : c'.currentTtyDispl = s'.shown)
    (hinput : c'.input = c.input)
    (haccepted : s'.accepted = s.accepted)
    (hdelivered : s'.delivered = s.delivered) :
    InputRefines c' s' := by
  refine ⟨hdown, hshown, ?_, ?_, ?_⟩
  · rw [hinput]
    exact h.valid
  · rw [hinput]
    exact h.ordinary
  · rw [haccepted, hdelivered]
    simp only [Console.queued, hinput]
    exact h.queue

/-- The queue of the terminal that is shown changes together with its logs. -/
theorem setShownQueue {s' : KeyQueues} {ring : RingBuffer.Ring Byte}
    (h : InputRefines c s)
    (hvalid : RingBuffer.Valid inputBufCap ring)
    (hordinary : ∀ sc ∈ RingBuffer.contents inputBufCap ring, Klyx.ordinary sc)
    (hdown : s'.down = s.down)
    (hshown : s'.shown = s.shown)
    (hqueue : s'.accepted s.shown =
      s'.delivered s.shown ++ (RingBuffer.contents inputBufCap ring).map scanCodeTableDefault)
    (hother : ∀ tty, tty ≠ s.shown →
      s'.accepted tty = s.accepted tty ∧ s'.delivered tty = s.delivered tty) :
    InputRefines (c.setShownQueue ring) s' := by
  have hhere : (c.setShownQueue ring).input s.shown = ring := by
    rw [Console.setShownQueue, h.shown]
    exact Function.update_self _ _ _
  have hthere : ∀ tty, tty ≠ s.shown → (c.setShownQueue ring).input tty = c.input tty := by
    intro tty hne
    rw [Console.setShownQueue, h.shown]
    exact Function.update_of_ne hne _ _
  refine ⟨h.down.trans hdown.symm, h.shown.trans hshown.symm, ?_, ?_, ?_⟩
  all_goals
    intro tty
    by_cases htty : tty = s.shown
  · rw [htty, hhere]
    exact hvalid
  · rw [hthere tty htty]
    exact h.valid tty
  · rw [htty, hhere]
    exact hordinary
  · rw [hthere tty htty]
    exact h.ordinary tty
  · rw [htty, Console.queued, hhere]
    exact hqueue
  · rw [Console.queued, hthere tty htty, (hother tty htty).1, (hother tty htty).2]
    exact h.queue tty

/-- A code is stored exactly when its character is accepted. -/
theorem pushScancode {sc : Byte}
    (h : InputRefines c s)
    (hsc : Klyx.ordinary sc) :
    InputRefines (c.pushScancode sc).1 (s.accept (scanCodeTableDefault sc)) := by
  have hring : c.shownQueue = c.input s.shown := by rw [Console.shownQueue, h.shown]
  have hvalid : RingBuffer.Valid inputBufCap c.shownQueue := hring ▸ h.valid s.shown
  have hsize : (s.pending s.shown).length = c.shownQueue.size := by
    rw [h.length_pending, hring]
  unfold KeyQueues.accept
  rw [hsize]
  by_cases hfull : c.shownQueue.size = inputBufCap - 1
  · have hnot : ¬ c.shownQueue.size < inputBufCap - 1 := by omega
    rw [pushScancode_full hfull, if_neg hnot]
    exact h
  · have hroom : c.shownQueue.size < inputBufCap - 1 := by
      have := hvalid.size_le
      omega
    obtain ⟨ring, hpush, hring', hcontents⟩ := pushScancode_room hvalid hfull sc
    rw [hpush, if_pos hroom]
    refine h.setShownQueue hring' ?_ rfl rfl ?_ ?_
    · intro sc' hmem
      rw [hcontents, List.mem_append, List.mem_singleton, hring] at hmem
      rcases hmem with hold | rfl
      · exact h.ordinary s.shown sc' hold
      · exact hsc
    · rw [hcontents, hring]
      simp only [Function.update_self, h.queue s.shown, Console.queued, List.map_append,
        List.map_cons, List.map_nil, List.append_assoc]
    · intro tty hne
      exact ⟨Function.update_of_ne hne _ _, rfl⟩

/-- The switch of the keyboard handler only selects a terminal. -/
theorem keySwitch
    (h : InputRefines c s)
    (ch : Int) :
    InputRefines (c.keySwitch ch) { s with shown := shownAfter ch s.shown } := by
  refine h.transfer ?_ ?_ (Console.keySwitch_input c ch) rfl rfl
  · rw [Console.keySwitch_keysState, h.down]
  · rw [Console.keySwitch_currentTtyDispl, h.shown]

theorem keySwitch_nonneg {ch : Int}
    (h : InputRefines c s)
    (hch : 0 ≤ ch) :
    InputRefines (c.keySwitch ch) s := by
  have hsame := h.keySwitch ch
  rwa [shownAfter_nonneg hch] at hsame

theorem setKey
    (h : InputRefines c s)
    (key : Nat)
    (isDown : Bool) :
    InputRefines (c.setKey key isDown) (s.setKey key isDown) :=
  h.transfer (by rw [Console.setKey, KeyQueues.setKey, h.down]) h.shown rfl rfl rfl

/-- A make code. -/
theorem press
    (h : InputRefines c s)
    {status code : Byte}
    (hstatus : ¬ status &&& 1 = 0)
    (hmake : code &&& 0x80 = 0) :
    InputRefines (c.intKeyboardImpl status code) (s.press code) := by
  unfold Console.intKeyboardImpl Console.conHandleInput KeyQueues.press
  rw [if_neg hstatus, if_neg (not_not_intro hmake), ← h.down]
  by_cases hheld : c.keysState code.toNat
  · rw [if_pos hheld, if_pos hheld]
    exact h.keySwitch_nonneg (Int.le_refl 0)
  · rw [if_neg hheld, if_neg hheld]
    have hdown := h.setKey code.toNat true
    by_cases hord : Klyx.ordinary code
    · have hzero : scanCodeTableSpecial code = 0 := hord
      rw [if_pos hord, if_pos hzero, keyChar_of_ordinary hord]
      exact (hdown.pushScancode hord).keySwitch_nonneg (scanCodeTableDefault_nonneg code)
    · have hcode : ¬ scanCodeTableSpecial code = 0 := hord
      rw [if_neg hord, if_neg hcode, keyChar_of_not_ordinary hord]
      exact hdown.keySwitch _

/-- A keyboard interrupt, whatever bytes it finds. -/
theorem keyboard
    (h : InputRefines c s)
    (status code : Byte) :
    InputRefines (c.step (.keyboard status code)) (s.step (.keyboard status code)) := by
  simp only [Console.step, KeyQueues.step]
  by_cases hstatus : status &&& 1 = 0
  · rw [if_pos hstatus, Console.intKeyboardImpl, Console.conHandleInput, if_pos hstatus]
    exact h.keySwitch_nonneg (Int.le_refl 0)
  rw [if_neg hstatus]
  by_cases hmake : code &&& 0x80 = 0
  · have hlt := (releaseBit_eq_zero_iff code).mp hmake
    rw [if_neg (by omega)]
    exact h.press hstatus hmake
  · have hge : 128 ≤ code.toNat := by
      have := mt (releaseBit_eq_zero_iff code).mpr hmake
      omega
    have hkey : (code &&& 0x7F).toNat = code.toNat - 128 := by
      have := releasedKey_toNat code
      have := code.isLt
      omega
    rw [if_pos hge, Console.intKeyboardImpl, Console.conHandleInput, if_neg hstatus, if_pos hmake,
      hkey]
    exact (h.setKey (code.toNat - 128) false).keySwitch_nonneg (Int.le_refl 0)

/-- A read of a terminal returns the oldest pending character, if there is one. -/
theorem read
    (h : InputRefines c s)
    (tty t : Nat) :
    InputRefines (c.step (.read t)) (s.step (.read t)) ∧
    (s.step (.read t)).delivered tty = s.delivered tty ++ c.returned tty (.read t) := by
  simp only [Console.step, KeyQueues.step, Console.returned]
  change InputRefines (c.readResult t).1 _ ∧ _
  unfold KeyQueues.deliver
  by_cases hshown : t = c.currentTtyDispl
  swap
  · rw [if_neg (h.shown ▸ hshown), readResult_not_shown hshown]
    exact ⟨h.transfer h.down h.shown rfl rfl rfl, by simp⟩
  have hspec : t = s.shown := hshown.trans h.shown
  have hring : c.shownQueue = c.input t := by rw [Console.shownQueue, hshown]
  rw [if_pos hspec, h.pending_eq, Console.queued, ← hring]
  by_cases hempty : c.shownQueue.size = 0
  · have hnil := (RingBuffer.contents_eq_nil_iff inputBufCap c.shownQueue).mpr hempty
    rw [readResult_empty hshown hempty, hnil]
    exact ⟨h.transfer h.down h.shown rfl rfl rfl, by simp⟩
  · have hvalid : RingBuffer.Valid inputBufCap c.shownQueue := hring ▸ h.valid t
    have hcons := RingBuffer.contents_pop inputBufCap hvalid hempty
    have hord : ∀ sc ∈ RingBuffer.contents inputBufCap c.shownQueue, Klyx.ordinary sc :=
      hring ▸ h.ordinary t
    have hfront : Klyx.ordinary (c.shownQueue.buf c.shownQueue.readHead) :=
      hord _ (by rw [hcons]; exact List.mem_cons_self)
    have hchar := scanCodeTableDefault_nonneg (c.shownQueue.buf c.shownQueue.readHead)
    have hnotEof : scanCodeTableDefault (c.shownQueue.buf c.shownQueue.readHead) ≠ ttyCcEof := by
      unfold ttyCcEof
      omega
    rw [readResult_pop hshown hempty, hcons, keyChar_of_ordinary hfront, List.map_cons]
    have hclear : InputRefines { c with errno := .eno } s := h.transfer h.down h.shown rfl rfl rfl
    have hvalid' := RingBuffer.valid_pop inputBufCap hvalid hempty
    refine ⟨hclear.setShownQueue hvalid' ?_ rfl rfl ?_ ?_, ?_⟩
    · intro sc hmem
      exact hord sc (by rw [hcons]; exact List.mem_cons_of_mem _ hmem)
    · have hqueue := h.queue t
      rw [Console.queued, ← hring, hcons, List.map_cons] at hqueue
      simp only [← hspec, Function.update_self, hqueue, List.append_assoc, List.singleton_append]
    · intro tty' hne
      exact ⟨rfl, Function.update_of_ne (hspec ▸ hne) _ _⟩
    · by_cases htty : tty = t
      · subst htty
        simp [Console.setShownQueue, hnotEof]
      · simp [Function.update_of_ne htty, Ne.symm htty]

theorem boot : InputRefines Console.boot KeyQueues.boot where
  down := rfl
  shown := rfl
  valid := fun _ => ⟨Nat.zero_le _, Nat.zero_lt_succ _, Nat.zero_lt_succ _, rfl⟩
  ordinary := fun _ _ hmem => nomatch hmem
  queue := fun _ => rfl

end InputRefines

section Runs

variable {c : Console} {s : KeyQueues} {es : List ConsoleEvent}

/-- One event of the keyboard or of a reader. -/
theorem step_inputRefines {e : ConsoleEvent}
    (h : InputRefines c s)
    (he : e.IsInput)
    (tty : Nat) :
    InputRefines (c.step e) (s.step e) ∧
    (s.step e).delivered tty = s.delivered tty ++ c.returned tty e := by
  cases e with
  | keyboard status code =>
      refine ⟨h.keyboard status code, ?_⟩
      rw [KeyQueues.step_keyboard_delivered]
      exact (List.append_nil _).symm
  | read t =>
      exact h.read tty t
  | write | setcur =>
      exact he.elim

theorem run_inputRefines
    (h : InputRefines c s)
    (hes : ∀ e ∈ es, e.IsInput)
    (tty : Nat) :
    InputRefines (c.run es) (s.run es) ∧
    (s.run es).delivered tty = s.delivered tty ++ c.returnedBy tty es := by
  induction es generalizing c s with
  | nil =>
      exact ⟨h, (List.append_nil _).symm⟩
  | cons e es ih =>
      obtain ⟨hnext, hdelivered⟩ := step_inputRefines h (hes e (by simp)) tty
      obtain ⟨hend, hrest⟩ := ih hnext (fun e he => hes e (List.mem_cons_of_mem _ he))
      refine ⟨hend, ?_⟩
      change ((s.step e).run es).delivered tty = _
      rw [hrest, hdelivered, Console.returnedBy, List.append_assoc]

/-- A key that is held, or one that finds the queue full, changes no queue. -/
theorem step_keyboard_input {status code : Byte}
    (h : c.keysState code.toNat = true ∨ c.shownQueue.size = inputBufCap - 1) :
    (c.step (.keyboard status code)).input = c.input := by
  simp only [Console.step, Console.intKeyboardImpl, Console.keySwitch_input]
  unfold Console.conHandleInput
  split_ifs with hstatus hbreak hheld hord
  · rfl
  · rfl
  · rfl
  · have hfull : c.shownQueue.size = inputBufCap - 1 := h.resolve_left hheld
    have hdrop := pushScancode_full (c := c.setKey code.toNat true) hfull code
    dsimp only
    rw [hdrop]
    rfl
  · rfl

/-- A read of an empty queue, or of a terminal that is not shown, changes no
queue. -/
theorem step_read_input {t : Nat}
    (h : t ≠ c.currentTtyDispl ∨ (c.input t).size = 0) :
    (c.step (.read t)).input = c.input := by
  change (c.readResult t).1.input = c.input
  by_cases hshown : t = c.currentTtyDispl
  · have hempty : c.shownQueue.size = 0 := by
      rw [Console.shownQueue, ← hshown]
      exact h.resolve_left (not_not_intro hshown)
    rw [readResult_empty hshown hempty]
  · rw [readResult_not_shown hshown]

end Runs

/-- **Keyboard input refines one bounded FIFO queue for each terminal.** -/
theorem keyboard_input_refines_fifo (es : List ConsoleEvent) (tty : Nat)
    (hes : ∀ e ∈ es, e.IsInput) :
    -- the accepted characters are those returned to the readers, then those in the queue
    (KeyQueues.boot.run es).accepted tty =
      Console.boot.returnedBy tty es ++ (Console.boot.run es).queued tty ∧
    -- the console agrees with the abstract keyboard on its keys, its screen and its queues
    (Console.boot.run es).keysState = (KeyQueues.boot.run es).down ∧
    (Console.boot.run es).currentTtyDispl = (KeyQueues.boot.run es).shown ∧
    (Console.boot.run es).queued tty = (KeyQueues.boot.run es).pending tty ∧
    -- the indices of the queue
    (((Console.boot.run es).input tty).size ≤ inputBufCap - 1 ∧
      ((Console.boot.run es).input tty).writeHead =
        (((Console.boot.run es).input tty).readHead + ((Console.boot.run es).input tty).size) %
          inputBufCap) ∧
    -- a repeated key adds nothing, and a full queue drops the newest key
    (∀ status code,
      (Console.boot.run es).keysState code.toNat = true ∨
        (Console.boot.run es).shownQueue.size = inputBufCap - 1 →
      ((Console.boot.run es).step (.keyboard status code)).input = (Console.boot.run es).input) ∧
    -- a read that finds nothing, or that is for another terminal, takes nothing
    (∀ t,
      t ≠ (Console.boot.run es).currentTtyDispl ∨ ((Console.boot.run es).input t).size = 0 →
      ((Console.boot.run es).step (.read t)).input = (Console.boot.run es).input) := by
  obtain ⟨href, hdelivered⟩ := run_inputRefines InputRefines.boot hes tty
  have hreturned : (KeyQueues.boot.run es).delivered tty = Console.boot.returnedBy tty es :=
    hdelivered
  refine ⟨?_, href.down, href.shown, (href.pending_eq tty).symm, ⟨(href.valid tty).size_le,
    (href.valid tty).write_eq⟩, fun _ _ => step_keyboard_input, fun _ => step_read_input⟩
  rw [href.queue tty, hreturned]

/-- A key is held, F2 shows terminal 1, two keys go there and one is read. -/
theorem keyboard_input_refines_fifo_sample :
    Console.boot.returnedBy 1 [.keyboard 1 30, .keyboard 1 30, .keyboard 1 60, .keyboard 1 31,
      .keyboard 1 32, .read 0, .read 1] = [115] ∧
    (KeyQueues.boot.run [.keyboard 1 30, .keyboard 1 30, .keyboard 1 60, .keyboard 1 31,
      .keyboard 1 32, .read 0, .read 1]).accepted 1 =
      Console.boot.returnedBy 1 [.keyboard 1 30, .keyboard 1 30, .keyboard 1 60, .keyboard 1 31,
        .keyboard 1 32, .read 0, .read 1] ++
      (Console.boot.run [.keyboard 1 30, .keyboard 1 30, .keyboard 1 60, .keyboard 1 31,
        .keyboard 1 32, .read 0, .read 1]).queued 1 :=
  ⟨by decide +kernel, (keyboard_input_refines_fifo _ 1 (by decide)).1⟩

end Klyx
