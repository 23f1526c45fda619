import Mathlib.Algebra.Group.Int.Defs
import Mathlib.Algebra.Group.Nat.Defs
import Mathlib.Tactic.SplitIfs

/-!
# Arithmetic expressions on 32-bit machine numbers

An expression has the type `int` or `unsigned`, and its constants and operators
are those of its type; a conversion takes an `int` expression to `unsigned`.
`eval` computes on machine words, where results wrap around, and `exact` on
integers.

`Fits` says that the exact value of every subexpression is in the range of its
type, that is, nothing overflows on the way.

**Results.**
* `value_eval`: an expression that fits evaluates to its exact value.
-/

namespace MachineExpr

universe u

/-- The two number types. -/
inductive Kind where
  | int
  | unsigned

inductive Op where
  | add
  | sub
  | mul
  | div

/-- Typed expressions over variables `ι`. -/
inductive Expr (ι : Type u) : Kind → Type u where
  | const (k : Kind) (n : Nat) : Expr ι k
  | var (k : Kind) (x : ι) : Expr ι k
  | convert (e : Expr ι .int) : Expr ι .unsigned
  | op {k : Kind} (o : Op) (a b : Expr ι k) : Expr ι k

section MachineExpr

variable {ι : Type u} {k : Kind}

instance (n : Nat) : OfNat (Expr ι k) n := ⟨.const k n⟩

instance : Add (Expr ι k) := ⟨.op .add⟩

instance : Sub (Expr ι k) := ⟨.op .sub⟩

instance : Mul (Expr ι k) := ⟨.op .mul⟩

instance : Div (Expr ι k) := ⟨.op .div⟩

/-- The number that a word stands for. -/
def Kind.value : Kind → BitVec 32 → Int
  | .int, w => w.toInt
  | .unsigned, w => w.toNat

/-- The range of a type. -/
def Kind.InRange : Kind → Int → Prop
  | .int, n => -2 ^ 31 ≤ n ∧ n < 2 ^ 31
  | .unsigned, n => 0 ≤ n ∧ n < 2 ^ 32

/-- An operator on words. -/
def Op.onWords (k : Kind) : Op → BitVec 32 → BitVec 32 → BitVec 32
  | .add, a, b => a + b
  | .sub, a, b => a - b
  | .mul, a, b => a * b
  | .div, a, b =>
      match k with
      | .int => a.sdiv b
      | .unsigned => a / b

/-- An operator on integers; division rounds towards zero. -/
def Op.onInts (k : Kind) : Op → Int → Int → Int
  | .add, a, b => a + b
  | .sub, a, b => a - b
  | .mul, a, b => a * b
  | .div, a, b =>
      match k with
      | .int => a.tdiv b
      | .unsigned => a / b

namespace Expr

/-- The machine's value. -/
def eval (ρ : ι → BitVec 32) : {k : Kind} → Expr ι k → BitVec 32
  | _, .const _ n => BitVec.ofNat 32 n
  | _, .var _ x => ρ x
  | _, .convert e => e.eval ρ
  | k, .op o a b => o.onWords k (a.eval ρ) (b.eval ρ)

/-- The value without wrapping. -/
def exact (ρ : ι → BitVec 32) : {k : Kind} → Expr ι k → Int
  | _, .const _ n => n
  | k, .var _ x => k.value (ρ x)
  | _, .convert e => e.exact ρ
  | k, .op o a b => o.onInts k (a.exact ρ) (b.exact ρ)

/-- No subexpression leaves the range of its type. -/
def Fits (ρ : ι → BitVec 32) : {k : Kind} → Expr ι k → Prop
  | k, .const _ n => k.InRange n
  | _, .var _ _ => True
  | _, .convert e => e.Fits ρ ∧ Kind.unsigned.InRange (e.exact ρ)
  | k, .op o a b =>
      a.Fits ρ ∧ b.Fits ρ ∧ (o = .div → b.exact ρ ≠ 0) ∧
        k.InRange (o.onInts k (a.exact ρ) (b.exact ρ))

section Unfolding

variable (ρ : ι → BitVec 32) (a b : Expr ι k) (c d : Expr ι .unsigned)

@[simp] theorem exact_ofNat (n : Nat) :
    (no_index (OfNat.ofNat n) : Expr ι k).exact ρ = (OfNat.ofNat n : Nat) := rfl

@[simp] theorem exact_var (x : ι) :
    (var k x).exact ρ = k.value (ρ x) := rfl

@[simp] theorem exact_convert (e : Expr ι .int) :
    (convert e).exact ρ = e.exact ρ := rfl

@[simp] theorem exact_add : (a + b).exact ρ = a.exact ρ + b.exact ρ := rfl

@[simp] theorem exact_sub : (a - b).exact ρ = a.exact ρ - b.exact ρ := rfl

@[simp] theorem exact_mul : (a * b).exact ρ = a.exact ρ * b.exact ρ := rfl

@[simp] theorem exact_div : (c / d).exact ρ = c.exact ρ / d.exact ρ := rfl

@[simp] theorem fits_ofNat (n : Nat) :
    (no_index (OfNat.ofNat n) : Expr ι k).Fits ρ ↔ k.InRange (OfNat.ofNat n : Nat) := Iff.rfl

@[simp] theorem fits_var (x : ι) :
    (var k x).Fits ρ := trivial

@[simp] theorem fits_convert (e : Expr ι .int) :
    (convert e).Fits ρ ↔ e.Fits ρ ∧ Kind.unsigned.InRange (e.exact ρ) := Iff.rfl

@[simp] theorem fits_add :
    (a + b).Fits ρ ↔ a.Fits ρ ∧ b.Fits ρ ∧ k.InRange (a.exact ρ + b.exact ρ) := by
  change (_ ∧ _ ∧ (Op.add = .div → _) ∧ _) ↔ _
  simp [Op.onInts]

@[simp] theorem fits_sub :
    (a - b).Fits ρ ↔ a.Fits ρ ∧ b.Fits ρ ∧ k.InRange (a.exact ρ - b.exact ρ) := by
  change (_ ∧ _ ∧ (Op.sub = .div → _) ∧ _) ↔ _
  simp [Op.onInts]

@[simp] theorem fits_mul :
    (a * b).Fits ρ ↔ a.Fits ρ ∧ b.Fits ρ ∧ k.InRange (a.exact ρ * b.exact ρ) := by
  change (_ ∧ _ ∧ (Op.mul = .div → _) ∧ _) ↔ _
  simp [Op.onInts]

@[simp] theorem fits_div :
    (c / d).Fits ρ ↔
      c.Fits ρ ∧ d.Fits ρ ∧ d.exact ρ ≠ 0 ∧ Kind.unsigned.InRange (c.exact ρ / d.exact ρ) := by
  change (_ ∧ _ ∧ (Op.div = .div → _) ∧ _) ↔ _
  simp [Op.onInts]

end Unfolding

end Expr

theorem bmod_of_inRange {n : Int}
    (h : Kind.int.InRange n) :
    n.bmod (2 ^ 32) = n := by
  obtain ⟨hlow, hhigh⟩ := h
  exact Int.bmod_eq_of_le (by omega) (by omega)

/-- A constant in range. -/
theorem value_const {n : Nat}
    (h : k.InRange n) :
    k.value (BitVec.ofNat 32 n) = n := by
  cases k with
  | int =>
      rw [Kind.value, BitVec.toInt_ofNat', bmod_of_inRange h]
  | unsigned =>
      obtain ⟨-, hhigh⟩ := h
      rw [Kind.value, BitVec.toNat_ofNat, Nat.mod_eq_of_lt (by omega)]

/-- A conversion keeps a number that is not negative. -/
theorem value_convert {w : BitVec 32}
    (h : Kind.unsigned.InRange (Kind.int.value w)) :
    Kind.unsigned.value w = Kind.int.value w := by
  obtain ⟨hlow, -⟩ := h
  simp only [Kind.value, BitVec.toInt_eq_toNat_cond] at hlow ⊢
  split_ifs at hlow ⊢
  · rfl
  · have := w.isLt
    omega

/-- An operator whose exact result is in range. -/
theorem value_onWords {o : Op} {a b : BitVec 32}
    (h : k.InRange (o.onInts k (k.value a) (k.value b))) :
    k.value (o.onWords k a b) = o.onInts k (k.value a) (k.value b) := by
  cases k with
  | int =>
      have hbmod := bmod_of_inRange h
      cases o with
      | add =>
          rw [Kind.value, Op.onWords, BitVec.toInt_add]
          exact hbmod
      | sub =>
          rw [Kind.value, Op.onWords, BitVec.toInt_sub]
          exact hbmod
      | mul =>
          rw [Kind.value, Op.onWords, BitVec.toInt_mul]
          exact hbmod
      | div =>
          rw [Kind.value, Op.onWords, BitVec.toInt_sdiv]
          exact hbmod
  | unsigned =>
      obtain ⟨hlow, hhigh⟩ := h
      cases o with
      | add =>
          simp only [Kind.value, Op.onWords, Op.onInts, BitVec.toNat_add] at hlow hhigh ⊢
          omega
      | sub =>
          simp only [Kind.value, Op.onWords, Op.onInts, BitVec.toNat_sub] at hlow hhigh ⊢
          omega
      | mul =>
          simp only [Kind.value, Op.onWords, Op.onInts, BitVec.toNat_mul] at hlow hhigh ⊢
          have hlt : a.toNat * b.toNat < 2 ^ 32 := by exact_mod_cast hhigh
          rw [Nat.mod_eq_of_lt hlt, Int.natCast_mul]
      | div =>
          exact Int.natCast_ediv _ _

/-- An expression that fits evaluates to its exact value. -/
theorem value_eval {ρ : ι → BitVec 32} {e : Expr ι k}
    (h : e.Fits ρ) :
    k.value (e.eval ρ) = e.exact ρ := by
  induction e with
  | const k n =>
      exact value_const h
  | var k x =>
      rfl
  | convert e ih =>
      obtain ⟨hfits, hrange⟩ := h
      rw [Expr.eval, Expr.exact, ← ih hfits]
      rw [← ih hfits] at hrange
      exact value_convert hrange
  | op o a b iha ihb =>
      obtain ⟨ha, hb, -, hrange⟩ := h
      rw [Expr.eval, Expr.exact, ← iha ha, ← ihb hb]
      rw [← iha ha, ← ihb hb] at hrange
      exact value_onWords hrange

end MachineExpr

end MachineExpr
