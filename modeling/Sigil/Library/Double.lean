import Mathlib.Algebra.Order.Field.Power
import Mathlib.Data.Int.Log
import Mathlib.Data.Rat.Floor
import Mathlib.Tactic.Linarith
import Mathlib.Tactic.NormNum
import Mathlib.Tactic.Positivity
import Mathlib.Tactic.Ring

/-!
# Numbers with double precision

A finite number of 64 bits is a rational. The operations of a language on such numbers are the exact ones, followed
by rounding to a nearest number that has 53 significant bits.
-/

namespace Sigil.Library

namespace Double

/-- The nearest integer; of two the even one. -/
def nearest (q : ℚ) : ℤ :=
  let below := ⌊q⌋
  if q - below < 1 / 2 then below
  else if 1 / 2 < q - below then below + 1
  else if below % 2 = 0 then below
  else below + 1

/-- Exponent of the last of the 53 bits. -/
def exponent (q : ℚ) : ℤ := max (Int.log 2 |q| - 52) (-1074)

def round (q : ℚ) : ℚ := nearest (q / 2 ^ exponent q) * 2 ^ exponent q

/-- Rounded numbers from here on are infinite. -/
def limit : ℚ := 2 ^ 1024

/-- `Math.round`: the nearest integer; of two the greater one. -/
def mathRound (q : ℚ) : ℤ := ⌊q + 1 / 2⌋

theorem nearest_intCast (n : ℤ) : nearest n = n := by
  simp [nearest]

theorem abs_nearest_le {q : ℚ} {b : ℤ} (h : |q| ≤ b) : |nearest q| ≤ b := by
  obtain ⟨hlow, hhigh⟩ := abs_le.mp h
  have hfloor : -b ≤ ⌊q⌋ := Int.le_floor.mpr (by push_cast; exact hlow)
  have hbelow : (⌊q⌋ : ℚ) ≤ q := Int.floor_le q
  have hceil : ⌊q⌋ ≤ b := by exact_mod_cast hbelow.trans hhigh
  -- the integer above is taken only for a number that is no integer
  have hup {c : ℚ} (hc : 0 < c) (hfraction : ¬ q - ⌊q⌋ < c) : ⌊q⌋ + 1 ≤ b := by
    have : (⌊q⌋ : ℚ) < b := by linarith
    exact_mod_cast this
  rw [abs_le]
  unfold nearest
  dsimp only
  split_ifs with hhalf
  · exact ⟨hfloor, hceil⟩
  · exact ⟨by omega, hup (by norm_num) hhalf⟩
  · exact ⟨hfloor, hceil⟩
  · exact ⟨by omega, hup (by norm_num) hhalf⟩

theorem floor_le_nearest (q : ℚ) : ⌊q⌋ ≤ nearest q := by
  unfold nearest
  dsimp only
  split_ifs
  · exact le_rfl
  · exact (Int.lt_succ _).le
  · exact le_rfl
  · exact (Int.lt_succ _).le

theorem le_nearest {q : ℚ} {b : ℤ} (h : b ≤ q) : b ≤ nearest q := (Int.le_floor.mpr h).trans (floor_le_nearest q)

theorem le_exponent (q : ℚ) : -1074 ≤ exponent q := le_max_right ..

/-- A number below has its last bit there or further down. -/
theorem exponent_le {q : ℚ} {e : ℤ} (hq : q ≠ 0) (he : -1074 ≤ e) (h : |q| < 2 ^ (e + 53)) : exponent q ≤ e := by
  refine max_le ?_ he
  have hlog := (Int.lt_zpow_iff_log_lt (b := 2) (by decide) (abs_pos.mpr hq)).mp (by exact_mod_cast h)
  omega

theorem lt_zpow_exponent (q : ℚ) : |q| < 2 ^ (exponent q + 53) := by
  have hlog : Int.log 2 |q| + 1 ≤ exponent q + 53 := by
    have : Int.log 2 |q| - 52 ≤ exponent q := le_max_left ..
    omega
  exact (Int.lt_zpow_succ_log_self (b := 2) (by decide) |q|).trans_le
    (by exact_mod_cast zpow_le_zpow_right₀ (by norm_num : (1 : ℚ) ≤ 2) hlog)

theorem exponent_mono {x q : ℚ} (hx : 0 < x) (h : x ≤ q) : exponent x ≤ exponent q := by
  have hlog : Int.log 2 |x| ≤ Int.log 2 |q| := by
    rw [abs_of_pos hx, abs_of_pos (hx.trans_le h)]
    exact Int.log_mono_right hx h
  unfold exponent
  omega

/-- The first bit of a number whose last bit is not the least there is. -/
theorem zpow_exponent_le {q : ℚ} (hq : 0 < q) (h : -1074 < exponent q) : 2 ^ (exponent q + 52) ≤ q := by
  have hlog : exponent q + 52 = Int.log 2 |q| := by
    unfold exponent at h ⊢
    omega
  rw [hlog, abs_of_pos hq]
  exact_mod_cast Int.zpow_log_le_self (b := 2) (by decide) hq

/-- At the scale of its last bit a number has at most 53 bits in front of the point. -/
theorem abs_scaled_le (q : ℚ) : |q / 2 ^ exponent q| ≤ (2 ^ 53 : ℤ) := by
  have hlt := lt_zpow_exponent q
  rw [zpow_add₀ two_ne_zero] at hlt
  rw [abs_div, abs_of_pos (show (0 : ℚ) < 2 ^ exponent q by positivity), div_le_iff₀ (by positivity)]
  push_cast
  rw [mul_comm]
  exact hlt.le

/-- A number is exact if its last bit is not below the one that is kept. -/
theorem round_eq_self {m e : ℤ} {q : ℚ} (hq : q = m * 2 ^ e) (he : exponent q ≤ e) : round q = q := by
  obtain ⟨k, hk⟩ := Int.eq_ofNat_of_zero_le (Int.sub_nonneg.mpr he)
  have hscaled : q / 2 ^ exponent q = ((m * 2 ^ k : ℤ) : ℚ) := by
    rw [hq, mul_div_assoc, ← hq, ← zpow_sub₀ two_ne_zero, hk]
    push_cast
    rw [zpow_natCast]
  have hback : q = ((m * 2 ^ k : ℤ) : ℚ) * 2 ^ exponent q := by
    rw [← hscaled, div_mul_cancel₀ _ (by positivity)]
  rw [round, hscaled, nearest_intCast, ← hback]

theorem round_of_mantissa {m e : ℤ} (hm : |m| ≤ 2 ^ 53) (he : -1074 ≤ e) : round (m * 2 ^ e) = m * 2 ^ e := by
  have habs : |(m : ℚ) * 2 ^ e| = |m| * 2 ^ e := by
    rw [abs_mul, abs_of_pos (show (0 : ℚ) < 2 ^ e by positivity), Int.cast_abs]
  rcases eq_or_ne m 0 with rfl | hne
  · simp [round, nearest]
  have hnonzero : (m : ℚ) * 2 ^ e ≠ 0 := mul_ne_zero (by exact_mod_cast hne) (by positivity)
  rcases lt_or_eq_of_le hm with hlt | heq
  · refine round_eq_self rfl (exponent_le hnonzero he ?_)
    rw [habs, zpow_add₀ two_ne_zero, mul_comm]
    have : ((|m| : ℤ) : ℚ) < 2 ^ (53 : ℤ) := by exact_mod_cast hlt
    exact mul_lt_mul_of_pos_left this (by positivity)
  · -- one bit more, but the last one is zero
    obtain ⟨n, hn⟩ : ∃ n : ℤ, m = n * 2 := by
      rcases abs_eq (by norm_num) |>.mp heq with h | h
      · exact ⟨2 ^ 52, by rw [h]; norm_num⟩
      · exact ⟨-2 ^ 52, by rw [h]; norm_num⟩
    have hshift : (m : ℚ) * 2 ^ e = n * 2 ^ (e + 1) := by
      rw [hn, zpow_add₀ two_ne_zero, zpow_one]
      push_cast
      ring
    refine round_eq_self hshift (exponent_le hnonzero (by omega) ?_)
    rw [habs, heq, show e + 1 + 53 = 53 + 1 + e by ring, zpow_add₀ two_ne_zero]
    refine mul_lt_mul_of_pos_right ?_ (by positivity)
    norm_num

/-- A rounded number is rounded to itself. -/
theorem round_round (q : ℚ) : round (round q) = round q :=
  round_of_mantissa (abs_nearest_le (abs_scaled_le q)) (le_exponent q)

/-- Integers of 53 bits are exact. -/
theorem round_intCast {n : ℤ} (h : |n| ≤ 2 ^ 53) : round n = n := by
  simpa using round_of_mantissa (e := 0) h (by decide)

theorem round_natCast {n : ℕ} (h : n ≤ 2 ^ 53) : round n = n := by
  have := round_intCast (n := n) (by rw [Nat.abs_cast]; exact_mod_cast h)
  exact_mod_cast this

theorem round_nonneg {q : ℚ} (h : 0 ≤ q) : 0 ≤ round q := by
  have hscaled : (0 : ℤ) ≤ nearest (q / 2 ^ exponent q) := le_nearest (by push_cast; positivity)
  have : (0 : ℚ) ≤ nearest (q / 2 ^ exponent q) := by exact_mod_cast hscaled
  exact mul_nonneg this (by positivity)

/-- A number is not rounded past one that is exact. -/
theorem le_round {x q : ℚ} (hexact : round x = x) (hx : 0 < x) (h : x ≤ q) : x ≤ round q := by
  have hpos : (0 : ℚ) < 2 ^ exponent q := by positivity
  rcases (exponent_mono hx h).eq_or_lt with heq | hlt
  · have hscaled : (nearest (x / 2 ^ exponent q) : ℚ) = x / 2 ^ exponent q := by
      rw [eq_div_iff hpos.ne', ← heq]
      exact hexact
    have hle : nearest (x / 2 ^ exponent q) ≤ nearest (q / 2 ^ exponent q) := by
      apply le_nearest
      rw [hscaled]
      gcongr
    calc x = nearest (x / 2 ^ exponent q) * 2 ^ exponent q := by rw [hscaled, div_mul_cancel₀ _ hpos.ne']
      _ ≤ nearest (q / 2 ^ exponent q) * 2 ^ exponent q := by gcongr
  · have hlast : -1074 < exponent q := (le_exponent x).trans_lt hlt
    have hfirst : (2 ^ 52 : ℤ) ≤ nearest (q / 2 ^ exponent q) := by
      apply le_nearest
      rw [le_div_iff₀ hpos]
      push_cast
      have := zpow_exponent_le (hx.trans_le h) hlast
      rwa [zpow_add₀ two_ne_zero, mul_comm] at this
    calc x ≤ 2 ^ (exponent x + 53) := (le_abs_self x).trans (lt_zpow_exponent x).le
      _ ≤ 2 ^ (exponent q + 52) := zpow_le_zpow_right₀ (by norm_num) (by omega)
      _ = ((2 ^ 52 : ℤ) : ℚ) * 2 ^ exponent q := by
          rw [zpow_add₀ two_ne_zero, mul_comm]
          norm_num
      _ ≤ nearest (q / 2 ^ exponent q) * 2 ^ exponent q := by gcongr

end Double

/-- A finite number. -/
@[ext]
structure Double where
  value : ℚ
  exact : Double.round value = value
  deriving DecidableEq

namespace Double

def ofRat (q : ℚ) : Double := ⟨round q, round_round q⟩

@[simp] theorem value_ofRat (q : ℚ) : (ofRat q).value = round q := rfl

theorem ofRat_value (x : Double) : ofRat x.value = x := Double.ext x.exact

end Double

end Sigil.Library
