import Mathlib.Data.List.Nodup
import Mathlib.Data.List.Rotate
import Mathlib.Data.Nat.ModEq

/-!
# Cyclic scans of a table

A scan of a table with `cap` slots starts after slot `c` and goes around the
table once, ending in `c` itself.  `cycle cap c` lists the slots in that order
and `members p cap c` those that satisfy `p`.

**Results.**
* `mem_cycle`, `cycle_nodup`: every slot is visited exactly once.
* `cycle_slotAfter`: a scan that starts where another one stopped is a rotation
  of it.
* `members_stop`: a scan that stops at the first member moves that member to
  the end of the order.
* `mem_stops`: scans that never go past a slot come to it.
-/

namespace CyclicScan

section CyclicScan

variable (cap c : Nat)

/-- The slot that a scan starting after slot `c` visits after `j` others. -/
def slotAfter (j : Nat) : Nat :=
  (c + 1 + j) % cap

/-- All slots in the order of the scan. -/
def cycle : List Nat :=
  (List.range cap).map (slotAfter cap c)

/-- The slots with a property, in the order of the scan. -/
def members (p : Nat → Prop) [DecidablePred p] : List Nat :=
  (cycle cap c).filter (fun s => decide (p s))

variable {cap c}

theorem slotAfter_lt
    (hc : c < cap)
    (j : Nat) :
    slotAfter cap c j < cap :=
  Nat.mod_lt _ (Nat.zero_lt_of_lt hc)

/-- A scan visits no slot twice in one round. -/
theorem slotAfter_injective {i j : Nat}
    (hi : i < cap)
    (hj : j < cap)
    (h : slotAfter cap c i = slotAfter cap c j) :
    i = j := by
  have hmod : i ≡ j [MOD cap] := Nat.ModEq.add_left_cancel' (c + 1) h
  exact Nat.ModEq.eq_of_lt_of_lt hmod hi hj

/-- A scan visits every slot in one round. -/
theorem exists_slotAfter {s : Nat}
    (hc : c < cap)
    (hs : s < cap) :
    ∃ j, j < cap ∧ slotAfter cap c j = s := by
  refine ⟨(s + cap - 1 - c) % cap, Nat.mod_lt _ (by omega), ?_⟩
  have hsum : c + 1 + (s + cap - 1 - c) = s + cap := by omega
  rw [slotAfter, Nat.add_mod_mod, hsum, Nat.add_mod_right, Nat.mod_eq_of_lt hs]

/-- A scan that starts after a visited slot goes on in the same order. -/
theorem slotAfter_slotAfter (i j : Nat) :
    slotAfter cap (slotAfter cap c i) j = slotAfter cap c (i + 1 + j) := by
  have hsum : c + 1 + i + 1 + j = c + 1 + (i + 1 + j) := by omega
  calc
    slotAfter cap (slotAfter cap c i) j = ((c + 1 + i) % cap + (1 + j)) % cap := by
      rw [slotAfter, slotAfter, Nat.add_assoc]
    _ = (c + 1 + i + (1 + j)) % cap := Nat.mod_add_mod _ _ _
    _ = slotAfter cap c (i + 1 + j) := by
      rw [slotAfter, ← Nat.add_assoc, hsum]

/-- The last slot of a round is the one after which it started. -/
theorem slotAfter_last
    (hc : c < cap) :
    slotAfter cap c (cap - 1) = c := by
  have hsum : c + 1 + (cap - 1) = c + cap := by omega
  rw [slotAfter, hsum, Nat.add_mod_right, Nat.mod_eq_of_lt hc]

@[simp] theorem length_cycle :
    (cycle cap c).length = cap := by
  simp [cycle]

theorem mem_cycle {s : Nat}
    (hc : c < cap) :
    s ∈ cycle cap c ↔ s < cap := by
  simp only [cycle, List.mem_map, List.mem_range]
  constructor
  · rintro ⟨j, -, rfl⟩
    exact slotAfter_lt hc j
  · intro hs
    exact exists_slotAfter hc hs

theorem cycle_nodup : (cycle cap c).Nodup := by
  refine List.Nodup.map_on ?_ List.nodup_range
  intro i hi j hj heq
  exact slotAfter_injective (List.mem_range.mp hi) (List.mem_range.mp hj) heq

/-- Starting where another scan has stopped rotates the order. -/
theorem cycle_slotAfter (m : Nat) :
    cycle cap (slotAfter cap c m) = (cycle cap c).rotate (m + 1) := by
  apply List.ext_getElem
  · simp
  · intro j _ _
    have hsum : m + 1 + j = j + (m + 1) := by omega
    simp only [cycle, List.getElem_map, List.getElem_range, List.getElem_rotate,
      List.length_map, List.length_range]
    rw [slotAfter_slotAfter, hsum, slotAfter, slotAfter, Nat.add_mod_mod]

section Members

variable {p : Nat → Prop} [DecidablePred p]

theorem mem_members {s : Nat}
    (hc : c < cap) :
    s ∈ members cap c p ↔ s < cap ∧ p s := by
  simp [members, mem_cycle hc]

theorem members_congr {q : Nat → Prop} [DecidablePred q]
    (h : ∀ s, p s ↔ q s) :
    members cap c p = members cap c q := by
  unfold members
  apply List.filter_congr
  intro s _
  exact decide_eq_decide.mpr (h s)

theorem members_nodup : (members cap c p).Nodup :=
  cycle_nodup.filter _

/-- The members do not depend on where the scan starts. -/
theorem members_perm
    (hc : c < cap) :
    (members cap c p).Perm ((List.range cap).filter (fun s => decide (p s))) := by
  rw [List.perm_ext_iff_of_nodup members_nodup (List.nodup_range.filter _)]
  intro s
  rw [mem_members hc]
  simp

/-- The slots skipped before the first member, that member, and the others. -/
theorem members_stop {m : Nat}
    (hm : m < cap)
    (hskip : ∀ j, j < m → ¬ p (slotAfter cap c j))
    (hstop : p (slotAfter cap c m)) :
    ∃ rest, members cap c p = slotAfter cap c m :: rest ∧
      members cap (slotAfter cap c m) p = rest ++ [slotAfter cap c m] := by
  have hfirst : ((cycle cap c).take (m + 1)).filter (fun s => decide (p s)) =
      [slotAfter cap c m] := by
    have htake : (cycle cap c).take (m + 1) =
        (List.range m).map (slotAfter cap c) ++ [slotAfter cap c m] := by
      rw [cycle, ← List.map_take, List.take_range, Nat.min_eq_left hm, List.range_succ,
        List.map_append]
      rfl
    have hnone : ((List.range m).map (slotAfter cap c)).filter (fun s => decide (p s)) = [] := by
      rw [List.filter_eq_nil_iff]
      intro s hs
      obtain ⟨j, hj, rfl⟩ := List.mem_map.mp hs
      simpa using hskip j (List.mem_range.mp hj)
    rw [htake, List.filter_append, hnone]
    simp [hstop]
  refine ⟨((cycle cap c).drop (m + 1)).filter (fun s => decide (p s)), ?_, ?_⟩
  · rw [members]
    nth_rewrite 1 [← List.take_append_drop (m + 1) (cycle cap c)]
    rw [List.filter_append, hfirst]
    rfl
  · have hlen : m + 1 ≤ (cycle cap c).length := by
      simpa using Nat.succ_le_of_lt hm
    rw [members, cycle_slotAfter, List.rotate_eq_drop_append_take hlen,
      List.filter_append, hfirst]

/-- The slot after which a scan starts comes last. -/
theorem members_last
    (hc : c < cap)
    (hp : p c) :
    ∃ before, members cap c p = before ++ [c] := by
  have hrange : List.range cap = List.range (cap - 1) ++ [cap - 1] := by
    rw [← List.range_succ]
    congr 1
    omega
  have hcycle : cycle cap c = (List.range (cap - 1)).map (slotAfter cap c) ++ [c] := by
    rw [cycle, hrange, List.map_append, List.map_cons, List.map_nil, slotAfter_last hc]
  refine ⟨((List.range (cap - 1)).map (slotAfter cap c)).filter (fun s => decide (p s)), ?_⟩
  rw [members, hcycle, List.filter_append]
  simp [hp]

end Members

end CyclicScan

/-- How many slots a scan that starts after slot `c` visits before slot `q`. -/
def ahead (cap c q : Nat) : Nat :=
  (q + cap - 1 - c) % cap

/-- Successive stops of scans that never go past slot `q`, each scan starting where the
one before has stopped. -/
def NeverPasses (cap q : Nat) : Nat → List Nat → Prop
  | _, [] => True
  | c, s :: stops =>
      (∃ m, m < cap ∧ s = slotAfter cap c m ∧ ∀ j, j < m → slotAfter cap c j ≠ q) ∧
        NeverPasses cap q s stops

section Waiting

variable {cap c q : Nat}

theorem ahead_lt
    (hq : q < cap) :
    ahead cap c q < cap :=
  Nat.mod_lt _ (by omega)

theorem slotAfter_ahead
    (hc : c < cap)
    (hq : q < cap) :
    slotAfter cap c (ahead cap c q) = q := by
  have hsum : c + 1 + (q + cap - 1 - c) = q + cap := by omega
  rw [slotAfter, ahead, Nat.add_mod_mod, hsum, Nat.add_mod_right, Nat.mod_eq_of_lt hq]

/-- A stop before slot `q` brings it nearer by the slots visited. -/
theorem ahead_slotAfter {m : Nat}
    (hc : c < cap)
    (hq : q < cap)
    (hm : m < ahead cap c q) :
    ahead cap (slotAfter cap c m) q + (m + 1) = ahead cap c q := by
  have hlt : ahead cap c q < cap := ahead_lt hq
  have hstop : slotAfter cap c m < cap := slotAfter_lt hc m
  have hleft : slotAfter cap (slotAfter cap c m) (ahead cap c q - (m + 1)) = q := by
    have hsum : m + 1 + (ahead cap c q - (m + 1)) = ahead cap c q := by omega
    rw [slotAfter_slotAfter, hsum, slotAfter_ahead hc hq]
  have hsame : ahead cap (slotAfter cap c m) q = ahead cap c q - (m + 1) := by
    refine slotAfter_injective (c := slotAfter cap c m) (ahead_lt hq) (by omega) ?_
    rw [slotAfter_ahead hstop hq, hleft]
  omega

/-- **Stops that never go past a slot come to it**, at the latest when all slots ahead
of it have had a stop. -/
theorem mem_stops {stops : List Nat}
    (hc : c < cap)
    (hq : q < cap)
    (h : NeverPasses cap q c stops)
    (hlong : ahead cap c q < stops.length) :
    q ∈ stops.take (ahead cap c q + 1) := by
  induction stops generalizing c with
  | nil =>
      exact absurd hlong (Nat.not_lt_zero _)
  | cons s stops ih =>
      rcases h with ⟨⟨m, hm, rfl, hskip⟩, hrest⟩
      rw [List.take_succ_cons]
      have hle : m ≤ ahead cap c q := by
        by_contra hpast
        exact hskip _ (Nat.lt_of_not_le hpast) (slotAfter_ahead hc hq)
      rcases Nat.lt_or_eq_of_le hle with hbefore | hreached
      · have hnear := ahead_slotAfter hc hq hbefore
        rw [List.length_cons] at hlong
        have hmem := ih (slotAfter_lt hc m) hrest (by omega)
        exact List.mem_cons_of_mem _ (List.take_subset_take_left _ (by omega) hmem)
      · rw [hreached, slotAfter_ahead hc hq]
        exact List.mem_cons_self

end Waiting

end CyclicScan
