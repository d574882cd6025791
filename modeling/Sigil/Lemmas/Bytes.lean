import Sigil.Library.LittleEndian
import Sigil.Instructions.Scan

/-!
# Comparing byte strings

The comparisons of `generic_constraints.rs` go byte by byte from the most significant one. They compare the numbers
that the strings stand for.
-/

namespace Sigil

open Library

section
variable {a b : List UInt8} {x : UInt8} {n : Nat}

theorem leNat_eq (bytes : List UInt8) : leNat bytes = leValue bytes := by
  induction bytes with
  | nil => rfl
  | cons x bytes ih => rw [leValue_cons, ← ih]; rfl

theorem padTo_length (h : a.length ≤ n) : (padTo n x a).length = n := by
  simp only [padTo, List.length_append, List.length_replicate]
  omega

/-- The first byte that differs decides. -/
theorem compareBytes_reverse (h : a.length = b.length) :
    compareBytes a.reverse b.reverse = Int.sign (leValue a - leValue b) := by
  suffices ∀ as bs : List UInt8, as.length = bs.length →
      compareBytes as bs = Int.sign (leValue as.reverse - leValue bs.reverse) by
    simpa using this a.reverse b.reverse (by simpa using h)
  intro as
  induction as with
  | nil =>
      intro bs hbs
      obtain rfl := List.length_eq_zero_iff.mp hbs.symm
      rfl
  | cons x as ih =>
      intro bs hbs
      cases bs with
      | nil => cases hbs
      | cons y bs =>
          have hlength : as.reverse.length = bs.reverse.length := by simpa using hbs
          have ha := leValue_lt as.reverse
          have hb := leValue_lt bs.reverse
          rw [← hlength] at hb
          have hhigh (z : UInt8) (zs : List UInt8) (hzs : zs.length = as.reverse.length) :
              leValue (zs ++ [z]) = leValue zs + 256 ^ as.reverse.length * z.toNat := by
            rw [leValue_append, hzs]
            simp
          rw [List.reverse_cons, List.reverse_cons, hhigh x _ rfl, hhigh y _ hlength.symm, compareBytes]
          generalize 256 ^ as.reverse.length = p at ha hb
          split
          · rename_i hgt
            have hmul : p * (y.toNat + 1) ≤ p * x.toNat := Nat.mul_le_mul_left p (UInt8.lt_iff_toNat_lt.mp hgt)
            rw [Nat.mul_succ] at hmul
            exact (Int.sign_eq_one_of_pos (by omega)).symm
          · split
            · rename_i hlt
              have hmul : p * (x.toNat + 1) ≤ p * y.toNat := Nat.mul_le_mul_left p (UInt8.lt_iff_toNat_lt.mp hlt)
              rw [Nat.mul_succ] at hmul
              exact (Int.sign_eq_neg_one_of_neg (by omega)).symm
            · rename_i hnot hnot'
              obtain rfl : x = y := UInt8.le_antisymm (UInt8.not_lt.mp hnot) (UInt8.not_lt.mp hnot')
              rw [ih bs (by simpa using hbs)]
              congr 1
              omega

theorem compareLeUnsigned_eq (a b : List UInt8) : compareLeUnsigned a b = Int.sign (leValue a - leValue b) := by
  rw [compareLeUnsigned, compareBytes_reverse]
  · rw [padTo, padTo, leValue_append_zeros, leValue_append_zeros]
  · rw [padTo_length (le_max_left ..), padTo_length (le_max_right ..)]

/-! ## Two's complement -/

theorem isNegative_iff : isNegative a = true ↔ ¬ 2 * leValue a < 256 ^ a.length := by
  rcases List.eq_nil_or_concat a with rfl | ⟨a, x, rfl⟩
  · simp [isNegative]
  · rw [List.concat_eq_append, leValue_concat_lt_iff]
    have h128 : (0x80 : UInt8).toNat = 128 := rfl
    simp [isNegative, UInt8.le_iff_toNat_le, h128]

theorem leSigned_of_negative (h : isNegative a = true) :
    leSigned a = leValue a - ((256 ^ a.length : Nat) : Int) := by
  rw [leSigned, if_neg (isNegative_iff.mp h), Nat.cast_pow]
  rfl

theorem leSigned_of_nonneg (h : isNegative a = false) : leSigned a = leValue a := by
  refine if_pos ?_
  by_contra hnot
  rw [isNegative_iff.mpr hnot] at h
  cases h

theorem compareLeSigned_eq (a b : List UInt8) : compareLeSigned a b = Int.sign (leSigned a - leSigned b) := by
  have ha := leValue_lt a
  have hb := leValue_lt b
  have hmax : a.length ≤ max a.length b.length := le_max_left ..
  have hmax' : b.length ≤ max a.length b.length := le_max_right ..
  rw [compareLeSigned]
  cases hna : isNegative a with
  | true =>
      cases hnb : isNegative b with
      | true =>
          simp only [Bool.not_true, Bool.and_false, Bool.false_eq_true, if_false, if_true, hna, hnb]
          rw [compareBytes_reverse (by rw [padTo_length hmax, padTo_length hmax']), leSigned_of_negative hna,
            leSigned_of_negative hnb]
          have hpa := leValue_append_ones (a := a) (n := max a.length b.length - a.length)
          have hpb := leValue_append_ones (a := b) (n := max a.length b.length - b.length)
          rw [Nat.add_sub_cancel' hmax] at hpa
          rw [Nat.add_sub_cancel' hmax'] at hpb
          rw [← padTo] at hpa hpb
          generalize 256 ^ a.length = p at *
          generalize 256 ^ b.length = q at *
          exact congrArg Int.sign (by omega)
      | false =>
          simp only [Bool.not_false, Bool.and_self, if_true]
          rw [leSigned_of_negative hna, leSigned_of_nonneg hnb]
          generalize 256 ^ a.length = p at *
          exact (Int.sign_eq_neg_one_of_neg (by omega)).symm
  | false =>
      cases hnb : isNegative b with
      | true =>
          simp only [Bool.not_true, Bool.false_eq_true, if_false, Bool.not_false, Bool.and_self, if_true]
          rw [leSigned_of_negative hnb, leSigned_of_nonneg hna]
          generalize 256 ^ b.length = q at *
          exact (Int.sign_eq_one_of_pos (by omega)).symm
      | false =>
          simp only [Bool.not_false, Bool.false_and, Bool.false_eq_true, if_false, hna, hnb]
          rw [compareBytes_reverse (by rw [padTo_length hmax, padTo_length hmax']), leSigned_of_nonneg hna,
            leSigned_of_nonneg hnb, padTo, padTo, leValue_append_zeros, leValue_append_zeros]
          rfl

/-! ## Bits -/

theorem bitmaskCheck_iff (a m : List UInt8) : bitmaskCheck a m = true ↔ BitsSubset (leValue m) (leValue a) := by
  induction m generalizing a with
  | nil => simp [bitmaskCheck, BitsSubset]
  | cons y m ih =>
      cases a with
      | nil =>
          rw [bitmaskCheck, Bool.and_eq_true, decide_eq_true_eq, ih]
          have hzero : leValue ([] : List UInt8) = leValue [0] := rfl
          rw [hzero, bitsSubset_cons, ← and_eq_right_iff]
          simp [eq_comm]
      | cons x a =>
          rw [bitmaskCheck, Bool.and_eq_true, decide_eq_true_eq, ih, bitsSubset_cons, ← and_eq_right_iff]

/-! ## Operators -/

/-- What an operator says of the numbers behind two strings. -/
def ConstraintOperator.Relates (op : ConstraintOperator) (actual expected : List UInt8) : Prop :=
  match op with
  | .eq => leValue actual = leValue expected
  | .ne => leValue actual ≠ leValue expected
  | .gte => leValue expected ≤ leValue actual
  | .lte => leValue actual ≤ leValue expected
  | .gteSigned => leSigned expected ≤ leSigned actual
  | .lteSigned => leSigned actual ≤ leSigned expected
  | .bitmask => BitsSubset (leValue expected) (leValue actual)

theorem sign_nonneg_iff {x y : Int} : Int.sign (x - y) ≥ 0 ↔ y ≤ x := by
  rw [ge_iff_le, Int.sign_nonneg_iff]
  omega

theorem sign_nonpos_iff {x y : Int} : Int.sign (x - y) ≤ 0 ↔ x ≤ y := by
  rw [Int.sign_nonpos_iff]
  omega

theorem bytesMatch_iff {op : ConstraintOperator} (hlength : a.length = b.length) :
    bytesMatch a op b = true ↔ op.Relates a b := by
  cases op with
  | eq => simp [bytesMatch, ConstraintOperator.Relates, leValue_inj hlength]
  | ne => simp [bytesMatch, ConstraintOperator.Relates, leValue_inj hlength]
  | gte => rw [bytesMatch, decide_eq_true_eq, compareLeUnsigned_eq, sign_nonneg_iff, Nat.cast_le]; rfl
  | lte => rw [bytesMatch, decide_eq_true_eq, compareLeUnsigned_eq, sign_nonpos_iff, Nat.cast_le]; rfl
  | gteSigned => rw [bytesMatch, decide_eq_true_eq, compareLeSigned_eq, sign_nonneg_iff]; rfl
  | lteSigned => rw [bytesMatch, decide_eq_true_eq, compareLeSigned_eq, sign_nonpos_iff]; rfl
  | bitmask => exact bitmaskCheck_iff a b

end

end Sigil
