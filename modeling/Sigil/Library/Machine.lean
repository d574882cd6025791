import Mathlib.Tactic.Common
import Mathlib.Algebra.Order.Ring.Int
import Mathlib.Algebra.BigOperators.Group.List.Basic

/-!
# Fixed-width integers

Unsigned words are naturals and signed words are integers. An operation takes the width `w` of the
word it works on and says where the result leaves it.
-/

namespace Sigil.Library

/-- Largest unsigned `w`-bit value. -/
abbrev uMax (w : Nat) : Nat := 2 ^ w - 1

abbrev i64Max : Int := 2 ^ 63 - 1

abbrev i64Min : Int := -2 ^ 63

/-! ## Unsigned words -/

def checkedAdd (w a b : Nat) : Option Nat := if a + b ≤ uMax w then some (a + b) else none

def checkedSub (a b : Nat) : Option Nat := if b ≤ a then some (a - b) else none

def checkedMul (w a b : Nat) : Option Nat := if a * b ≤ uMax w then some (a * b) else none

def saturatingAdd (w a b : Nat) : Nat := min (uMax w) (a + b)

def saturatingMul (w a b : Nat) : Nat := min (uMax w) (a * b)

@[simp] theorem checkedAdd_eq_some {w a b c : Nat} :
    checkedAdd w a b = some c ↔ a + b ≤ uMax w ∧ c = a + b := by
  unfold checkedAdd; split <;> simp_all [eq_comm]

@[simp] theorem checkedMul_eq_some {w a b c : Nat} :
    checkedMul w a b = some c ↔ a * b ≤ uMax w ∧ c = a * b := by
  unfold checkedMul; split <;> simp_all [eq_comm]

/-- Saturation above a bound `M` is lost once the result is cut to `M`. -/
theorem min_saturatingAdd {M w : Nat} (hM : M ≤ uMax w) (a b : Nat) :
    min (saturatingAdd w a b) M = min (a + b) M := by
  simp only [saturatingAdd]; omega

/-- One turn of a loop that adds at least `c`, with `s` still to come. -/
theorem min_add_le_saturatingAdd {M w a c x s : Nat} (hM : M ≤ uMax w) (hle : c ≤ x) :
    min (a + (c + s)) M ≤ min (saturatingAdd w a x + s) M := by
  simp only [saturatingAdd]; omega

/-- A loop that adds, up to what is cut off at `M`, computes a sum up to what is cut off at `M`. -/
theorem min_foldl_add {α : Type} {M : Nat} {f : Nat → α → Nat} {g : α → Nat}
    (hf : ∀ a b, min (f a b) M = min (a + g b) M) (l : List α) (a : Nat) :
    min (l.foldl f a) M = min (a + (l.map g).sum) M := by
  induction l generalizing a with
  | nil => simp
  | cons b l ih =>
      have hstep := hf a b
      simp only [List.foldl_cons, ih, List.map_cons, List.sum_cons]
      omega

/-! ## Signed 64-bit words -/

/-- `as i64`: the bits of an unsigned word read as a signed one. -/
def asI64 (n : Nat) : Int := if n % 2 ^ 64 < 2 ^ 63 then (n % 2 ^ 64 : Nat) else (n % 2 ^ 64 : Nat) - 2 ^ 64

def clampI64 (x : Int) : Int := max i64Min (min i64Max x)

def checkedAddI64 (a b : Int) : Option Int := if i64Min ≤ a + b ∧ a + b ≤ i64Max then some (a + b) else none

def checkedSubI64 (a b : Int) : Option Int := if i64Min ≤ a - b ∧ a - b ≤ i64Max then some (a - b) else none

def checkedMulI64 (a b : Int) : Option Int := if i64Min ≤ a * b ∧ a * b ≤ i64Max then some (a * b) else none

def saturatingAddI64 (a b : Int) : Int := clampI64 (a + b)

def saturatingSubI64 (a b : Int) : Int := clampI64 (a - b)

def saturatingMulI64 (a b : Int) : Int := clampI64 (a * b)

@[simp] theorem checkedAddI64_eq_some {a b c : Int} :
    checkedAddI64 a b = some c ↔ (i64Min ≤ a + b ∧ a + b ≤ i64Max) ∧ c = a + b := by
  unfold checkedAddI64; split <;> simp_all [eq_comm]

@[simp] theorem checkedSubI64_eq_some {a b c : Int} :
    checkedSubI64 a b = some c ↔ (i64Min ≤ a - b ∧ a - b ≤ i64Max) ∧ c = a - b := by
  unfold checkedSubI64; split <;> simp_all [eq_comm]

@[simp] theorem checkedMulI64_eq_some {a b c : Int} :
    checkedMulI64 a b = some c ↔ (i64Min ≤ a * b ∧ a * b ≤ i64Max) ∧ c = a * b := by
  unfold checkedMulI64; split <;> simp_all [eq_comm]

theorem asI64_of_lt {n : Nat} (h : n < 2 ^ 63) : asI64 n = n := by
  have : n % 2 ^ 64 = n := Nat.mod_eq_of_lt (by omega)
  simp only [asI64, this, h, ↓reduceIte]

theorem clampI64_of_mem {x : Int} (h₁ : i64Min ≤ x) (h₂ : x ≤ i64Max) : clampI64 x = x := by
  simp only [clampI64]; omega

end Sigil.Library
