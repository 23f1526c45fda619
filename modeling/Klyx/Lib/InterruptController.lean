import Mathlib.Data.BitVec
import Mathlib.Data.Fin.Basic
import Mathlib.Data.List.FinRange
import Mathlib.Logic.Function.Basic

/-!
# A pair of interrupt controllers

Two 8259A controllers in a cascade, in 8086 mode with normal end of interrupt.  A
controller remembers which of its eight inputs are requested and which are in service.  It
passes on the most urgent request, input 0 before input 1 and so on, unless one that is as
urgent is in service.  The slave requests an input of the master.

**Results.**
* `Pic.first_eq_some`, `Pic.first_eq_none`: with nothing in service, the most urgent
  request is passed on.
* `Pic.eoi_idle`: the end of the only interrupt in service.
* `Pair.acknowledge_law`: what an idle pair hands to the processor.
-/

namespace InterruptController

/-- The initialisation words that a controller still expects. -/
inductive Icw where
  | two
  | three
  | four
deriving DecidableEq

/-- A controller. -/
structure Pic where
  requested : Fin 8 → Bool
  inService : Fin 8 → Bool
  mask : BitVec 8
  base : BitVec 8
  cascade : BitVec 8
  awaits : List Icw

namespace Pic

/-- The most urgent input in service ends. -/
def eoi (p : Pic) : Pic :=
  match (List.finRange 8).find? (fun n => p.inService n) with
  | none => p
  | some n => { p with inService := Function.update p.inService n false }

/-- A write to the first port: the first initialisation word, or an end of interrupt. -/
def command (p : Pic) (data : BitVec 8) : Pic :=
  if data.getLsbD 4 then
    { p with
      requested := fun _ => false
      inService := fun _ => false
      mask := 0
      awaits := .two :: (if data.getLsbD 1 then [] else [.three]) ++
        (if data.getLsbD 0 then [.four] else []) }
  else if data.extractLsb' 3 5 = 0b00100#5 then p.eoi
  else p

/-- A write to the second port: the other initialisation words, or the mask. -/
def write (p : Pic) (data : BitVec 8) : Pic :=
  match p.awaits with
  | .two :: rest => { p with base := data &&& 0xF8, awaits := rest }
  | .three :: rest => { p with cascade := data, awaits := rest }
  | .four :: rest => { p with awaits := rest }
  | [] => { p with mask := data }

/-- An input is requested and not masked. -/
def wants (p : Pic) (n : Fin 8) : Bool :=
  p.requested n && !p.mask.getLsbD n

/-- The request that is passed on, if any. -/
def first (p : Pic) : Option (Fin 8) :=
  match (List.finRange 8).find? (fun n => p.inService n || p.wants n) with
  | none => none
  | some n => if p.inService n then none else some n

/-- The processor takes a request. -/
def take (p : Pic) (n : Fin 8) : Pic :=
  { p with
    requested := Function.update p.requested n false
    inService := Function.update p.inService n true }

/-- A device raises an input. -/
def request (p : Pic) (n : Fin 8) : Pic :=
  { p with requested := Function.update p.requested n true }

/-- Nothing is in service. -/
def Idle (p : Pic) : Prop :=
  ∀ n, p.inService n = false

/-- At most one input is in service. -/
def ServesOne (p : Pic) : Prop :=
  ∀ m n, p.inService m = true → p.inService n = true → m = n

variable {p : Pic} {m n : Fin 8}

/-- The first input in the order of urgency that has a property. -/
theorem find_finRange_eq_some {f : Fin 8 → Bool}
    (h : (List.finRange 8).find? f = some n) :
    f n = true ∧ ∀ m, m < n → f m = false := by
  rw [List.find?_eq_some_iff_getElem] at h
  rcases h with ⟨hn, i, hi, heq, hbefore⟩
  refine ⟨hn, ?_⟩
  intro m hm
  rw [List.getElem_finRange] at heq
  have hmi : m.1 < i := by
    rw [← heq] at hm
    exact hm
  have hfalse := hbefore m.1 hmi
  rw [List.getElem_finRange] at hfalse
  simpa using hfalse

/-- With nothing in service, the request passed on is the most urgent one. -/
theorem first_eq_some
    (hidle : p.Idle)
    (h : p.first = some n) :
    p.wants n = true ∧ ∀ m, p.wants m = true → n ≤ m := by
  unfold first at h
  split at h
  · cases h
  · rename_i i hfind
    rw [hidle i] at h
    cases h
    rcases find_finRange_eq_some hfind with ⟨hn, hbefore⟩
    constructor
    · simpa [hidle n] using hn
    · intro m hm
      by_contra hlt
      have hfalse := hbefore m (not_le.mp hlt)
      simp [hm] at hfalse

theorem first_eq_none
    (hidle : p.Idle)
    (h : p.first = none) :
    p.wants n = false := by
  unfold first at h
  split at h
  · rename_i hfind
    have hnone := List.find?_eq_none.mp hfind n (List.mem_finRange n)
    simpa [hidle n] using hnone
  · rename_i i hfind
    rw [hidle i] at h
    cases h

/-- An idle controller that takes a request serves one. -/
theorem take_servesOne
    (hidle : p.Idle) :
    (p.take n).ServesOne := by
  have honly : ∀ m, (p.take n).inService m = true → m = n := by
    intro m hm
    by_contra hne
    simp [take, hne, hidle m] at hm
  intro m m' hm hm'
  rw [honly m hm, honly m' hm']

theorem Idle.servesOne
    (hidle : p.Idle) :
    p.ServesOne := by
  intro m n hm
  rw [hidle m] at hm
  cases hm

/-- The end of an interrupt is that of the only one in service. -/
theorem eoi_idle
    (h : p.ServesOne) :
    p.eoi.Idle := by
  intro m
  unfold eoi
  split
  · rename_i hfind
    simpa using List.find?_eq_none.mp hfind m (List.mem_finRange m)
  · rename_i i hfind
    have hi := (find_finRange_eq_some hfind).1
    by_cases heq : m = i
    · rw [heq]
      exact Function.update_self _ _ _
    · have hm : p.inService m ≠ true := fun hm => heq (h m i hm hi)
      simpa [heq] using hm

/-- The command 0x20 is the end of an interrupt. -/
theorem command_eoi (p : Pic) :
    p.command 0x20 = p.eoi := by
  rw [command, if_neg (by decide), if_pos (by decide)]

@[simp] theorem eoi_requested (p : Pic) : p.eoi.requested = p.requested := by
  unfold eoi
  split <;> rfl

@[simp] theorem eoi_mask (p : Pic) : p.eoi.mask = p.mask := by
  unfold eoi
  split <;> rfl

@[simp] theorem eoi_base (p : Pic) : p.eoi.base = p.base := by
  unfold eoi
  split <;> rfl

@[simp] theorem eoi_cascade (p : Pic) : p.eoi.cascade = p.cascade := by
  unfold eoi
  split <;> rfl

@[simp] theorem request_inService (p : Pic) (n : Fin 8) :
    (p.request n).inService = p.inService := rfl

theorem request_self (p : Pic) (n : Fin 8) :
    (p.request n).requested n = true :=
  Function.update_self _ _ _

theorem request_keeps
    (h : p.requested m = true) :
    (p.request n).requested m = true := by
  by_cases heq : m = n
  · rw [heq]
    exact p.request_self n
  · simpa [request, heq] using h

end Pic

/-! ### The cascade -/

/-- A master and a slave. -/
structure Pair where
  master : Pic
  slave : Pic

/-- An input that a device can raise. -/
inductive Line where
  | master (n : Fin 8)
  | slave (n : Fin 8)
deriving DecidableEq

namespace Pair

/-- The input of the master that the slave requests: the one that the slave was told, if
the master was told that there is a slave. -/
def cascadeLine (c : Pair) : Option (Fin 8) :=
  let line : Fin 8 := ⟨c.slave.cascade.toNat % 8, Nat.mod_lt _ (by decide)⟩
  if c.master.cascade.getLsbD line then some line else none

/-- The master, as the slave drives its input. -/
def driven (c : Pair) : Pic :=
  match c.cascadeLine with
  | none => c.master
  | some line =>
      { c.master with
        requested := Function.update c.master.requested line c.slave.first.isSome }

/-- The processor asks what has happened. -/
def acknowledge (c : Pair) : Option (Line × Pair) :=
  match c.driven.first with
  | none => none
  | some n =>
      if c.cascadeLine = some n then
        c.slave.first.map (fun i => (.slave i, ⟨c.driven.take n, c.slave.take i⟩))
      else some (.master n, ⟨c.driven.take n, c.slave⟩)

/-- The vector of an interrupt. -/
def vector (c : Pair) : Line → Nat
  | .master n => c.master.base.toNat + n
  | .slave n => c.slave.base.toNat + n

/-- A device raises a line. -/
def request (c : Pair) : Line → Pair
  | .master n => { c with master := c.master.request n }
  | .slave n => { c with slave := c.slave.request n }

/-- Both controllers are told of the end of an interrupt, the slave first. -/
def endOfInterrupt (c : Pair) : Pair :=
  let slave := c.slave.command 0x20
  ⟨c.master.command 0x20, slave⟩

/-- A device has raised a line that is not masked. -/
def Pending (c : Pair) : Line → Prop
  | .master n => c.master.wants n = true ∧ c.cascadeLine ≠ some n
  | .slave n => c.slave.wants n = true ∧
      ∃ line, c.cascadeLine = some line ∧ c.master.mask.getLsbD line = false

/-- A device has raised a line. -/
def Requested (c : Pair) : Line → Prop
  | .master n => c.master.requested n = true
  | .slave n => c.slave.requested n = true

/-- The order of urgency: the lines of the slave come in place of the master's line that
they share. -/
def urgency (line : Fin 8) : Line → Nat
  | .master n => 9 * n
  | .slave n => 9 * line + 1 + n

/-- Nothing is in service. -/
def Idle (c : Pair) : Prop :=
  c.master.Idle ∧ c.slave.Idle

/-- Each controller serves at most one request. -/
def ServesOne (c : Pair) : Prop :=
  c.master.ServesOne ∧ c.slave.ServesOne

/-- How the controllers were set up. -/
structure SameSetup (c c' : Pair) : Prop where
  masterBase : c'.master.base = c.master.base
  slaveBase : c'.slave.base = c.slave.base
  masterMask : c'.master.mask = c.master.mask
  slaveMask : c'.slave.mask = c.slave.mask
  masterCascade : c'.master.cascade = c.master.cascade
  slaveCascade : c'.slave.cascade = c.slave.cascade

/-- What an idle pair hands to the processor, and what it is like afterwards. -/
structure Acknowledged (line : Fin 8) (c : Pair) (l : Line) (c' : Pair) : Prop where
  pending : c.Pending l
  urgent : ∀ l', c.Pending l' → urgency line l ≤ urgency line l'
  servesOne : c'.ServesOne
  setup : SameSetup c c'
  others : ∀ l', l' ≠ l → l' ≠ .master line → c.Requested l' → c'.Requested l'

variable {c c' : Pair} {line n : Fin 8} {l l' : Line}

theorem Pending.requested
    (h : c.Pending l) :
    c.Requested l := by
  cases l with
  | master n | slave n =>
      have hwants := h.1
      simp only [Pic.wants, Bool.and_eq_true] at hwants
      exact hwants.1

/-- The line that both controllers share is no device's. -/
theorem Pending.ne_cascade
    (hline : c.cascadeLine = some line)
    (h : c.Pending l) :
    l ≠ .master line := by
  rintro rfl
  exact h.2 hline

theorem driven_eq
    (hline : c.cascadeLine = some line) :
    c.driven = { c.master with
      requested := Function.update c.master.requested line c.slave.first.isSome } := by
  rw [driven, hline]

theorem driven_idle
    (hline : c.cascadeLine = some line)
    (hidle : c.Idle) :
    c.driven.Idle := by
  rw [driven_eq hline]
  exact hidle.1

theorem driven_wants_line
    (hline : c.cascadeLine = some line) :
    c.driven.wants line = (c.slave.first.isSome && !c.master.mask.getLsbD line) := by
  simp [driven_eq hline, Pic.wants]

theorem driven_wants_of_ne
    (hline : c.cascadeLine = some line)
    (hne : n ≠ line) :
    c.driven.wants n = c.master.wants n := by
  simp [driven_eq hline, Pic.wants, hne]

/-- A pending line makes the master pass on something that is as urgent. -/
theorem driven_wants_of_pending
    (hline : c.cascadeLine = some line)
    (hidle : c.Idle)
    (h : c.Pending l) :
    ∃ n, c.driven.wants n = true ∧
      (l = .master n ∧ n ≠ line ∨ ∃ i, l = .slave i ∧ n = line) := by
  cases l with
  | master n =>
      have hne : n ≠ line := by
        rintro rfl
        exact h.2 hline
      refine ⟨n, ?_, Or.inl ⟨rfl, hne⟩⟩
      rw [driven_wants_of_ne hline hne]
      exact h.1
  | slave i =>
      rcases h with ⟨hwants, line', hline', hmask⟩
      rw [hline] at hline'
      cases hline'
      refine ⟨line, ?_, Or.inr ⟨i, rfl, rfl⟩⟩
      rw [driven_wants_line hline, hmask]
      cases hfirst : c.slave.first with
      | none =>
          rw [Pic.first_eq_none hidle.2 hfirst] at hwants
          cases hwants
      | some j =>
          rfl

/-- Something that is pending is handed over. -/
theorem acknowledge_of_pending
    (hline : c.cascadeLine = some line)
    (hidle : c.Idle)
    (h : c.Pending l) :
    ∃ l' c', c.acknowledge = some (l', c') := by
  rcases driven_wants_of_pending hline hidle h with ⟨m, hwants, -⟩
  unfold acknowledge
  cases hfirst : c.driven.first with
  | none =>
      rw [Pic.first_eq_none (driven_idle hline hidle) hfirst] at hwants
      cases hwants
  | some n =>
      by_cases hn : n = line
      · subst hn
        have hline' := (Pic.first_eq_some (driven_idle hline hidle) hfirst).1
        rw [driven_wants_line hline] at hline'
        cases hslave : c.slave.first with
        | none =>
            simp [hslave] at hline'
        | some i =>
            simp [hline]
      · have hne : c.cascadeLine ≠ some n := by
          rw [hline]
          exact fun heq => hn (Option.some.inj heq).symm
        simp [hne]

theorem urgency_master_le
    (hline : c.cascadeLine = some line)
    (hidle : c.Idle)
    (hn : ∀ m, c.driven.wants m = true → n ≤ m)
    (h : c.Pending l) :
    9 * n.1 ≤ urgency line l := by
  rcases driven_wants_of_pending hline hidle h with ⟨m, hwants, ⟨rfl, -⟩ | ⟨i, rfl, rfl⟩⟩
  · have hle := hn m hwants
    simp only [urgency]
    omega
  · have hle := hn m hwants
    simp only [urgency]
    omega

/-- **What an idle pair hands to the processor.** -/
theorem acknowledge_law
    (hline : c.cascadeLine = some line)
    (hidle : c.Idle)
    (h : c.acknowledge = some (l, c')) :
    Acknowledged line c l c' := by
  have hdriven := driven_idle hline hidle
  unfold acknowledge at h
  cases hfirst : c.driven.first with
  | none =>
      simp [hfirst] at h
  | some n =>
      rcases Pic.first_eq_some hdriven hfirst with ⟨hwants, hbest⟩
      simp only [hfirst] at h
      by_cases hn : n = line
      · subst hn
        rw [if_pos hline] at h
        rcases Option.map_eq_some_iff.mp h with ⟨i, hslave, heq⟩
        cases heq
        rcases Pic.first_eq_some hidle.2 hslave with ⟨hi, hbesti⟩
        rw [driven_wants_line hline] at hwants
        have hmask : c.master.mask.getLsbD n = false := by
          simpa [hslave] using hwants
        refine ⟨⟨hi, n, hline, hmask⟩, ?_, ?_, ?_, ?_⟩
        · intro l' hl'
          have hle := urgency_master_le hline hidle hbest hl'
          cases l' with
          | master m =>
              have hne : m ≠ n := by
                rintro rfl
                exact hl'.2 hline
              simp only [urgency] at hle ⊢
              omega
          | slave j =>
              have hj := hbesti j hl'.1
              simp only [urgency]
              omega
        · exact ⟨Pic.take_servesOne hdriven, Pic.take_servesOne hidle.2⟩
        · rw [driven_eq hline]
          exact ⟨rfl, rfl, rfl, rfl, rfl, rfl⟩
        · intro l' hl' hdevice hreq
          cases l' with
          | master m =>
              have hne : m ≠ n := fun heq => hdevice (by rw [heq])
              simpa [Requested, Pic.take, driven_eq hline, hne] using hreq
          | slave j =>
              have hne : j ≠ i := fun heq => hl' (by rw [heq])
              simpa [Requested, Pic.take, hne] using hreq
      · have hne : c.cascadeLine ≠ some n := by
          rw [hline]
          exact fun heq => hn (Option.some.inj heq).symm
        rw [if_neg hne] at h
        cases h
        rw [driven_wants_of_ne hline hn] at hwants
        refine ⟨⟨hwants, hne⟩, ?_, ?_, ?_, ?_⟩
        · intro l' hl'
          exact urgency_master_le hline hidle hbest hl'
        · exact ⟨Pic.take_servesOne hdriven, hidle.2.servesOne⟩
        · rw [driven_eq hline]
          exact ⟨rfl, rfl, rfl, rfl, rfl, rfl⟩
        · intro l' hl' hdevice hreq
          cases l' with
          | master m =>
              have hmn : m ≠ n := fun heq => hl' (by rw [heq])
              have hml : m ≠ line := fun heq => hdevice (by rw [heq])
              simpa [Requested, Pic.take, driven_eq hline, hmn, hml] using hreq
          | slave j =>
              exact hreq

end Pair

/-! ### With a processor -/

/-- The controllers, and whether the processor accepts interrupts. -/
structure State where
  pics : Pair
  enabled : Bool

/-- What happens, with the line that is accepted, if one is. -/
inductive Step (line : Fin 8) : State → Option Line → State → Prop where
  /-- A device raises a line. -/
  | request
      (s : State)
      (l : Line)
      (hdevice : l ≠ .master line) :
      Step line s none { s with pics := s.pics.request l }
  /-- The processor accepts an interrupt and goes on with interrupts disabled. -/
  | accept
      (s : State)
      (l : Line)
      (pics : Pair)
      (henabled : s.enabled = true)
      (hack : s.pics.acknowledge = some (l, pics)) :
      Step line s (some l) ⟨pics, false⟩
  /-- Interrupts are disabled. -/
  | disable
      (s : State) :
      Step line s none { s with enabled := false }
  /-- The controllers are told of the end, and interrupts may be enabled. -/
  | finish
      (s : State)
      (enabled : Bool) :
      Step line s none ⟨s.pics.endOfInterrupt, enabled⟩

/-- A run, with the lines that are accepted in it. -/
inductive Run (line : Fin 8) : State → List Line → State → Prop where
  | refl
      (s : State) :
      Run line s [] s
  | tail {s s' s'' : State} {ls : List Line} {o : Option Line}
      (h : Run line s ls s')
      (hstep : Step line s' o s'') :
      Run line s (ls ++ o.toList) s''

/-- Interrupts are enabled only while nothing is in service. -/
structure Inv (line : Fin 8) (s : State) : Prop where
  cascade : s.pics.cascadeLine = some line
  servesOne : s.pics.ServesOne
  idle : s.enabled = true → s.pics.Idle

namespace Pair

variable {c c' : Pair} {line : Fin 8} {l l' : Line}

/-- The setup decides which input the slave has. -/
theorem SameSetup.cascadeLine
    (h : SameSetup c c') :
    c'.cascadeLine = c.cascadeLine := by
  simp only [Pair.cascadeLine, h.slaveCascade, h.masterCascade]

theorem SameSetup.pending
    (h : SameSetup c c')
    (hrequested : c.Requested l → c'.Requested l)
    (hpending : c.Pending l) :
    c'.Pending l := by
  cases l with
  | master n =>
      rcases hpending with ⟨hwants, hne⟩
      refine ⟨?_, by rwa [h.cascadeLine]⟩
      simp only [Pic.wants, Bool.and_eq_true] at hwants ⊢
      exact ⟨hrequested hwants.1, by rw [h.masterMask]; exact hwants.2⟩
  | slave n =>
      rcases hpending with ⟨hwants, line, hline, hmask⟩
      refine ⟨?_, line, by rwa [h.cascadeLine], by rwa [h.masterMask]⟩
      simp only [Pic.wants, Bool.and_eq_true] at hwants ⊢
      exact ⟨hrequested hwants.1, by rw [h.slaveMask]; exact hwants.2⟩

theorem endOfInterrupt_eq (c : Pair) :
    c.endOfInterrupt = ⟨c.master.eoi, c.slave.eoi⟩ := by
  simp only [endOfInterrupt, Pic.command_eoi]

/-- The end of an interrupt leaves nothing in service. -/
theorem endOfInterrupt_idle
    (h : c.ServesOne) :
    c.endOfInterrupt.Idle := by
  rw [endOfInterrupt_eq]
  exact ⟨Pic.eoi_idle h.1, Pic.eoi_idle h.2⟩

theorem endOfInterrupt_setup (c : Pair) :
    SameSetup c c.endOfInterrupt := by
  rw [endOfInterrupt_eq]
  constructor <;> simp

theorem endOfInterrupt_requested
    (h : c.Requested l) :
    c.endOfInterrupt.Requested l := by
  rw [endOfInterrupt_eq]
  cases l <;> simpa [Requested] using h

theorem request_setup (c : Pair) (l : Line) :
    SameSetup c (c.request l) := by
  cases l <;> exact ⟨rfl, rfl, rfl, rfl, rfl, rfl⟩

theorem request_requested (l' : Line)
    (h : c.Requested l) :
    (c.request l').Requested l := by
  cases l <;> cases l' <;> first | exact h | exact Pic.request_keeps h

theorem request_servesOne (l : Line)
    (h : c.ServesOne) :
    (c.request l).ServesOne := by
  cases l <;> exact h

theorem request_idle (l : Line)
    (h : c.Idle) :
    (c.request l).Idle := by
  cases l <;> exact h

/-- Different lines differ in urgency. -/
theorem urgency_inj
    (hl : l ≠ .master line)
    (hl' : l' ≠ .master line)
    (h : urgency line l = urgency line l') :
    l = l' := by
  cases l with
  | master m =>
      have hm : m.1 ≠ line.1 := fun heq => hl (by rw [Fin.ext heq])
      cases l' with
      | master n =>
          simp only [urgency] at h
          rw [Fin.ext (show m.1 = n.1 by omega)]
      | slave n =>
          simp only [urgency] at h
          omega
  | slave m =>
      cases l' with
      | master n =>
          simp only [urgency] at h
          omega
      | slave n =>
          simp only [urgency] at h
          rw [Fin.ext (show m.1 = n.1 by omega)]

end Pair

section Runs

variable {line : Fin 8} {s s' : State} {o : Option Line} {ls : List Line} {l : Line}

/-- Every step keeps the setup and the invariant. -/
theorem Step.inv
    (h : Step line s o s')
    (hinv : Inv line s) :
    Inv line s' ∧ Pair.SameSetup s.pics s'.pics := by
  rcases hinv with ⟨hline, hone, hidle⟩
  cases h with
  | request l hdevice =>
      have hsetup := s.pics.request_setup l
      exact ⟨⟨hsetup.cascadeLine.trans hline, Pair.request_servesOne l hone,
        fun hen => Pair.request_idle l (hidle hen)⟩, hsetup⟩
  | accept l pics henabled hack =>
      have hlaw := Pair.acknowledge_law hline (hidle henabled) hack
      exact ⟨⟨hlaw.setup.cascadeLine.trans hline, hlaw.servesOne, nofun⟩, hlaw.setup⟩
  | disable =>
      exact ⟨⟨hline, hone, nofun⟩, ⟨rfl, rfl, rfl, rfl, rfl, rfl⟩⟩
  | finish enabled =>
      have hsetup := s.pics.endOfInterrupt_setup
      have hend := Pair.endOfInterrupt_idle hone
      exact ⟨⟨hsetup.cascadeLine.trans hline, ⟨hend.1.servesOne, hend.2.servesOne⟩,
        fun _ => hend⟩, hsetup⟩

theorem Run.inv
    (h : Run line s ls s')
    (hinv : Inv line s) :
    Inv line s' ∧ Pair.SameSetup s.pics s'.pics := by
  induction h with
  | refl =>
      exact ⟨hinv, ⟨rfl, rfl, rfl, rfl, rfl, rfl⟩⟩
  | tail _ hstep ih =>
      rcases ih with ⟨hinv', h₁⟩
      rcases hstep.inv hinv' with ⟨hinv'', h₂⟩
      exact ⟨hinv'', h₂.masterBase.trans h₁.masterBase, h₂.slaveBase.trans h₁.slaveBase,
        h₂.masterMask.trans h₁.masterMask, h₂.slaveMask.trans h₁.slaveMask,
        h₂.masterCascade.trans h₁.masterCascade, h₂.slaveCascade.trans h₁.slaveCascade⟩

/-- A line that a device may raise is pending. -/
theorem device_of_pending {c : Pair}
    (hline : c.cascadeLine = some line)
    (h : c.Pending l) :
    l ≠ .master line := by
  rintro rfl
  exact h.2 hline

/-- A step that does not accept a pending line leaves it pending, and accepts at most a
more urgent one. -/
theorem Step.pending
    (h : Step line s o s')
    (hinv : Inv line s)
    (hpending : s.pics.Pending l)
    (hnot : l ∉ o.toList) :
    s'.pics.Pending l ∧ ∀ l' ∈ o.toList, Pair.urgency line l' < Pair.urgency line l := by
  have hsetup := (h.inv hinv).2
  have hrequested := hpending.requested
  cases h with
  | request l' hdevice =>
      exact ⟨hsetup.pending (Pair.request_requested l') hpending, by simp⟩
  | accept l' pics henabled hack =>
      have hlaw := Pair.acknowledge_law hinv.cascade (hinv.idle henabled) hack
      have hne : l ≠ l' := by simpa using hnot
      have hl := device_of_pending hinv.cascade hpending
      have hl' := device_of_pending hinv.cascade hlaw.pending
      refine ⟨hsetup.pending (fun hreq => hlaw.others l hne hl hreq) hpending, ?_⟩
      intro l'' hmem
      have heq : l'' = l' := by simpa using hmem
      rw [heq]
      refine lt_of_le_of_ne (hlaw.urgent l hpending) ?_
      exact fun hsame => hne (Pair.urgency_inj hl' hl hsame).symm
  | disable =>
      exact ⟨hpending, by simp⟩
  | finish enabled =>
      exact ⟨hsetup.pending Pair.endOfInterrupt_requested hpending, by simp⟩

/-- **No request is lost or overtaken**: a pending line stays pending until it is accepted,
and only more urgent ones are accepted before. -/
theorem Run.pending
    (h : Run line s ls s')
    (hinv : Inv line s)
    (hpending : s.pics.Pending l)
    (hnot : l ∉ ls) :
    s'.pics.Pending l ∧ ∀ l' ∈ ls, Pair.urgency line l' < Pair.urgency line l := by
  induction h with
  | refl =>
      exact ⟨hpending, by simp⟩
  | tail hrun hstep ih =>
      rw [List.mem_append, not_or] at hnot
      rcases ih hnot.1 with ⟨hstill, hbefore⟩
      rcases hstep.pending (hrun.inv hinv).1 hstill hnot.2 with ⟨hnow, hlast⟩
      refine ⟨hnow, ?_⟩
      intro l' hmem
      rcases List.mem_append.mp hmem with hmem | hmem
      · exact hbefore l' hmem
      · exact hlast l' hmem

end Runs

end InterruptController
