import Mathlib.Data.Nat.Bitwise
import Mathlib.Data.Nat.Digits.Lemmas
import Mathlib.Tactic.Ring

/-!
# Little-endian numbers

A byte string read as a natural number or, by its highest bit, as a number in two's complement.
-/

namespace Sigil.Library

def leValue (bytes : List UInt8) : Nat := Nat.ofDigits 256 (bytes.map UInt8.toNat)

/-- Two's complement of as many bytes as there are. -/
def leSigned (bytes : List UInt8) : Int :=
  if 2 * leValue bytes < 256 ^ bytes.length then leValue bytes else leValue bytes - 256 ^ bytes.length

/-- The `n` lowest bytes of a number. -/
def leDigits : Nat → Nat → List UInt8
  | 0, _ => []
  | n + 1, x => UInt8.ofNat x :: leDigits n (x / 256)

@[simp] theorem leDigits_length (n x : Nat) : (leDigits n x).length = n := by
  induction n generalizing x with
  | zero => rfl
  | succ n ih => rw [leDigits, List.length_cons, ih]

/-- `to_le_bytes` of a number of `n` bytes. -/
def leBytes (n x : Nat) : Vector UInt8 n := ⟨(leDigits n x).toArray, by simp⟩

section
variable {a b : List UInt8} {x : UInt8} {n : Nat}

@[simp] theorem leValue_nil : leValue [] = 0 := rfl

@[simp] theorem leValue_cons : leValue (x :: a) = x.toNat + 256 * leValue a := Nat.ofDigits_cons ..

theorem leValue_append : leValue (a ++ b) = leValue a + 256 ^ a.length * leValue b := by
  rw [leValue, List.map_append, Nat.ofDigits_append, List.length_map]
  rfl

theorem leValue_lt (a : List UInt8) : leValue a < 256 ^ a.length := by
  induction a with
  | nil => simp
  | cons x a ih =>
      have hx : x.toNat < 256 := x.toNat_lt
      rw [leValue_cons, List.length_cons, pow_succ]
      omega

theorem leValue_inj (hlength : a.length = b.length) : leValue a = leValue b ↔ a = b := by
  constructor
  · intro h
    induction a generalizing b with
    | nil => exact (List.length_eq_zero_iff.mp hlength.symm).symm
    | cons x a ih =>
        cases b with
        | nil => cases hlength
        | cons y b =>
            have hx : x.toNat < 256 := x.toNat_lt
            have hy : y.toNat < 256 := y.toNat_lt
            rw [leValue_cons, leValue_cons] at h
            obtain rfl := UInt8.toNat_inj.mp (by omega : x.toNat = y.toNat)
            rw [ih (Nat.succ.inj hlength) (by omega)]
  · rintro rfl
    rfl

theorem leValue_leBytes {x : Nat} (h : x < 256 ^ n) : leValue (leBytes n x).toList = x := by
  show leValue (leDigits n x) = x
  induction n generalizing x with
  | zero => simpa [leDigits, eq_comm] using h
  | succ n ih =>
      have hdigit : (UInt8.ofNat x).toNat = x % 256 := rfl
      rw [pow_succ] at h
      rw [leDigits, leValue_cons, ih (by omega), hdigit]
      omega

/-! ## Extending a number -/

theorem leValue_append_zeros : leValue (a ++ List.replicate n 0) = leValue a := by
  have hzero : leValue (List.replicate n 0) = 0 := by
    induction n with
    | zero => rfl
    | succ n ih => rw [List.replicate_succ, leValue_cons, ih]; rfl
  rw [leValue_append, hzero, Nat.mul_zero, Nat.add_zero]

theorem leValue_append_ones : leValue (a ++ List.replicate n 0xFF) + 256 ^ a.length =
    leValue a + 256 ^ (a.length + n) := by
  have hones : leValue (List.replicate n 0xFF) + 1 = 256 ^ n := by
    induction n with
    | zero => rfl
    | succ n ih =>
        have hff : (0xFF : UInt8).toNat = 255 := rfl
        rw [List.replicate_succ, leValue_cons, pow_succ, ← ih, hff]
        ring
  rw [leValue_append, pow_add, ← hones]
  ring

/-! ## Bits -/

/-- Every bit of `m` is set in `n`. -/
def BitsSubset (m n : Nat) : Prop := ∀ i, m.testBit i → n.testBit i

theorem testBit_leValue_cons {i : Nat} :
    (leValue (x :: a)).testBit i = if i < 8 then x.toNat.testBit i else (leValue a).testBit (i - 8) := by
  rw [leValue_cons, Nat.add_comm, show (256 : Nat) = 2 ^ 8 from rfl, Nat.testBit_two_pow_mul_add _ x.toNat_lt]

theorem bitsSubset_cons {y : UInt8} : BitsSubset (leValue (y :: b)) (leValue (x :: a)) ↔
    BitsSubset y.toNat x.toNat ∧ BitsSubset (leValue b) (leValue a) := by
  simp only [BitsSubset, testBit_leValue_cons]
  constructor
  · intro h
    refine ⟨fun i hi => ?_, fun i hi => ?_⟩
    · by_cases hlt : i < 8
      · simpa [hlt] using h i (by simpa [hlt] using hi)
      · have hsmall : y.toNat < 2 ^ i := y.toNat_lt.trans_le (Nat.pow_le_pow_right (by decide) (by omega))
        rw [Nat.testBit_lt_two_pow hsmall] at hi
        cases hi
    · simpa using h (i + 8) (by simpa using hi)
  · rintro ⟨hbyte, hrest⟩ i hi
    by_cases hlt : i < 8
    · simpa [hlt] using hbyte i (by simpa [hlt] using hi)
    · simpa [hlt] using hrest (i - 8) (by simpa [hlt] using hi)

theorem and_eq_right_iff {y : UInt8} : x &&& y = y ↔ BitsSubset y.toNat x.toNat := by
  rw [← UInt8.toNat_inj, UInt8.toNat_and]
  constructor
  · intro h i hi
    have hbit := congrArg (·.testBit i) h
    simp only [Nat.testBit_and, hi, Bool.and_true] at hbit
    exact hbit
  · intro h
    refine Nat.eq_of_testBit_eq fun i => ?_
    cases hi : y.toNat.testBit i with
    | false => simp [hi]
    | true => simp [hi, h i hi]

/-! ## Signs -/

/-- The highest bit of the last byte decides. -/
theorem leValue_concat_lt_iff : 2 * leValue (a ++ [x]) < 256 ^ (a ++ [x]).length ↔ x.toNat < 128 := by
  have hlt := leValue_lt a
  have hpos : 0 < 256 ^ a.length := Nat.pow_pos (by decide)
  rw [leValue_append, leValue_cons, leValue_nil, Nat.mul_zero, Nat.add_zero, List.length_append, List.length_singleton,
    pow_succ]
  constructor
  · intro h
    by_contra hge
    have := Nat.mul_le_mul_left (256 ^ a.length) (Nat.le_of_not_lt hge)
    omega
  · intro h
    have := Nat.mul_le_mul_left (256 ^ a.length) (Nat.le_of_lt_succ (Nat.lt_succ_of_le (Nat.succ_le_of_lt h)))
    rw [Nat.mul_succ] at this
    omega

/-! ## Numbers read back from their bytes -/

theorem leDigits_leValue (a : List UInt8) : leDigits a.length (leValue a) = a :=
  (leValue_inj (leDigits_length a.length (leValue a))).mp (leValue_leBytes (leValue_lt a))

/-- The value of bytes in two's complement, modulo all the values that there are. -/
theorem leSigned_emod (a : List UInt8) : leSigned a % ((256 ^ a.length : Nat) : Int) = leValue a := by
  have hlt := leValue_lt a
  have hcast : (256 : Int) ^ a.length = ((256 ^ a.length : Nat) : Int) := (Nat.cast_pow 256 a.length).symm
  rw [leSigned, hcast]
  generalize 256 ^ a.length = m at hlt ⊢
  split
  · exact Int.emod_eq_of_lt (by omega) (by omega)
  · rw [Int.sub_emod_right]
    exact Int.emod_eq_of_lt (by omega) (by omega)

theorem leSigned_leDigits {i : Int} (hlow : -((256 ^ n : Nat) : Int) ≤ 2 * i)
    (hhigh : 2 * i < ((256 ^ n : Nat) : Int)) :
    leSigned (leDigits n (i % ((256 ^ n : Nat) : Int)).toNat) = i := by
  have hpos : 0 < 256 ^ n := Nat.pow_pos (by decide)
  have hlt : (i % ((256 ^ n : Nat) : Int)).toNat < 256 ^ n := by
    have hmod := Int.emod_lt_of_pos i (Int.natCast_pos.mpr hpos)
    omega
  have hvalue : leValue (leDigits n (i % ((256 ^ n : Nat) : Int)).toNat) = (i % ((256 ^ n : Nat) : Int)).toNat :=
    leValue_leBytes hlt
  have hcast : (256 : Int) ^ n = ((256 ^ n : Nat) : Int) := (Nat.cast_pow 256 n).symm
  rw [leSigned, hvalue, leDigits_length, hcast]
  generalize 256 ^ n = m at *
  rcases lt_or_ge i 0 with hneg | hnonneg
  · have hmod : i % (m : Int) = i + m := by
      rw [← Int.add_emod_right]
      exact Int.emod_eq_of_lt (by omega) (by omega)
    rw [hmod, if_neg (by omega)]
    omega
  · have hmod : i % (m : Int) = i := Int.emod_eq_of_lt hnonneg (by omega)
    rw [hmod, if_pos (by omega)]
    omega

end

end Sigil.Library
