import Mathlib.Data.List.Basic
import Mathlib.Tactic.Common

/-!
# Base64

Three bytes are four digits of six bits. The decoder forgives white space, missing padding and bits that are left over.
-/

namespace Sigil.Library.Base64

/-! ## Digits -/

def digitChar (n : Nat) : Char :=
  if n < 26 then Char.ofNat (65 + n)
  else if n < 52 then Char.ofNat (71 + n)
  else if n < 62 then Char.ofNat (n - 4)
  else if n = 62 then '+'
  else '/'

def digitValue (c : Char) : Option Nat :=
  let n := c.toNat
  if 65 ≤ n ∧ n ≤ 90 then some (n - 65)
  else if 97 ≤ n ∧ n ≤ 122 then some (n - 71)
  else if 48 ≤ n ∧ n ≤ 57 then some (n + 4)
  else if n = 43 then some 62
  else if n = 47 then some 63
  else none

theorem digitValue_digitChar : ∀ n < 64, digitValue (digitChar n) = some n := by decide

/-- Digits of bytes; the last one may be filled with zeros. -/
def digits : List UInt8 → List Nat
  | [] => []
  | [a] => [a.toNat / 4, a.toNat % 4 * 16]
  | [a, b] => [a.toNat / 4, a.toNat % 4 * 16 + b.toNat / 16, b.toNat % 16 * 4]
  | a :: b :: c :: rest =>
      a.toNat / 4 :: (a.toNat % 4 * 16 + b.toNat / 16) :: (b.toNat % 16 * 4 + c.toNat / 64) :: c.toNat % 64 ::
        digits rest

/-- Bytes of digits; bits that fill no byte are dropped. -/
def bytes : List Nat → List UInt8
  | a :: b :: c :: d :: rest =>
      UInt8.ofNat (a * 4 + b / 16) :: UInt8.ofNat (b % 16 * 16 + c / 4) :: UInt8.ofNat (c % 4 * 64 + d) :: bytes rest
  | [a, b, c] => [UInt8.ofNat (a * 4 + b / 16), UInt8.ofNat (b % 16 * 16 + c / 4)]
  | [a, b] => [UInt8.ofNat (a * 4 + b / 16)]
  | _ => []

theorem digits_lt {bs : List UInt8} : ∀ n ∈ digits bs, n < 64 := by
  induction bs using digits.induct with
  | case1 => simp [digits]
  | case2 a =>
      have ha := a.toNat_lt
      simp only [digits, List.forall_mem_cons, List.not_mem_nil, false_implies, implies_true, and_true]
      omega
  | case3 a b =>
      have ha := a.toNat_lt
      have hb := b.toNat_lt
      simp only [digits, List.forall_mem_cons, List.not_mem_nil, false_implies, implies_true, and_true]
      omega
  | case4 a b c rest ih =>
      have ha := a.toNat_lt
      have hb := b.toNat_lt
      have hc := c.toNat_lt
      simp only [digits, List.forall_mem_cons]
      exact ⟨by omega, by omega, by omega, by omega, ih⟩

theorem ofNat_eq {b : UInt8} {n : Nat} (h : n = b.toNat) : UInt8.ofNat n = b := by
  rw [h, UInt8.ofNat_toNat]

theorem bytes_digits (bs : List UInt8) : bytes (digits bs) = bs := by
  induction bs using digits.induct with
  | case1 => rfl
  | case2 a =>
      have ha := a.toNat_lt
      rw [digits, bytes, ofNat_eq]
      omega
  | case3 a b =>
      have ha := a.toNat_lt
      have hb := b.toNat_lt
      have h₁ : UInt8.ofNat (a.toNat / 4 * 4 + (a.toNat % 4 * 16 + b.toNat / 16) / 16) = a := ofNat_eq (by omega)
      have h₂ : UInt8.ofNat ((a.toNat % 4 * 16 + b.toNat / 16) % 16 * 16 + b.toNat % 16 * 4 / 4) = b :=
        ofNat_eq (by omega)
      rw [digits, bytes, h₁, h₂]
  | case4 a b c rest ih =>
      have ha := a.toNat_lt
      have hb := b.toNat_lt
      have hc := c.toNat_lt
      have h₁ : UInt8.ofNat (a.toNat / 4 * 4 + (a.toNat % 4 * 16 + b.toNat / 16) / 16) = a := ofNat_eq (by omega)
      have h₂ : UInt8.ofNat ((a.toNat % 4 * 16 + b.toNat / 16) % 16 * 16 +
          (b.toNat % 16 * 4 + c.toNat / 64) / 4) = b := ofNat_eq (by omega)
      have h₃ : UInt8.ofNat ((b.toNat % 16 * 4 + c.toNat / 64) % 4 * 64 + c.toNat % 64) = c := ofNat_eq (by omega)
      rw [digits, bytes, h₁, h₂, h₃, ih]

/-! ## Padding -/

/-- Number of characters that fill up the last four. -/
def padding (bs : List UInt8) : Nat := (3 - bs.length % 3) % 3

def encode (bs : List UInt8) : List Char := (digits bs).map digitChar ++ List.replicate (padding bs) '='

/-- Tabulator, ends of lines and space. -/
def isSpace (c : Char) : Bool := c.toNat ∈ [9, 10, 12, 13, 32]

def dropLast (c : Char) (cs : List Char) : List Char := if cs.getLast? = some c then cs.dropLast else cs

/-- Up to two characters of padding, if they complete the last four. -/
def unpad (cs : List Char) : List Char := if cs.length % 4 = 0 then dropLast '=' (dropLast '=' cs) else cs

/-- Forgiving decoding; `none` for a character that is no digit, and for a single digit that is left over. -/
def decode (cs : List Char) : Option (List UInt8) :=
  let data := unpad (cs.filter fun c => !isSpace c)
  if data.length % 4 = 1 then none else (data.mapM digitValue).map bytes

/-! ## Round trip -/

theorem digits_length (bs : List UInt8) : (digits bs).length + padding bs = (bs.length + 2) / 3 * 4 := by
  induction bs using digits.induct with
  | case1 => rfl
  | case2 a => simp [digits, padding]
  | case3 a b => simp [digits, padding]
  | case4 a b c rest ih =>
      have hpadding : padding (a :: b :: c :: rest) = padding rest := by
        simp only [padding, List.length_cons]
        omega
      rw [hpadding, digits, List.length_cons, List.length_cons, List.length_cons, List.length_cons, List.length_cons,
        List.length_cons, List.length_cons]
      omega

theorem padding_lt (bs : List UInt8) : padding bs < 3 := Nat.mod_lt _ (by omega)

theorem digitChar_plain : ∀ n < 64, digitChar n ≠ '=' ∧ isSpace (digitChar n) = false := by decide

theorem filter_encode (bs : List UInt8) : (encode bs).filter (fun c => !isSpace c) = encode bs := by
  apply List.filter_eq_self.mpr
  intro c hc
  rcases List.mem_append.mp hc with hc | hc
  · obtain ⟨n, hn, rfl⟩ := List.mem_map.mp hc
    rw [(digitChar_plain n (digits_lt n hn)).2]
    rfl
  · rw [(List.mem_replicate.mp hc).2]
    decide

theorem dropLast_of_ne {c : Char} {cs : List Char} (h : ∀ x ∈ cs, x ≠ c) : dropLast c cs = cs := by
  rw [dropLast, if_neg]
  intro hlast
  exact h c (List.mem_of_getLast? hlast) rfl

theorem dropLast_concat (c : Char) (cs : List Char) : dropLast c (cs ++ [c]) = cs := by
  rw [dropLast, if_pos (by simp), List.dropLast_concat]

theorem unpad_encode (bs : List UInt8) : unpad (encode bs) = (digits bs).map digitChar := by
  have hlength : (encode bs).length % 4 = 0 := by
    rw [encode, List.length_append, List.length_map, List.length_replicate, digits_length]
    omega
  have hplain : ∀ x ∈ (digits bs).map digitChar, x ≠ '=' := by
    intro x hx
    obtain ⟨n, hn, rfl⟩ := List.mem_map.mp hx
    exact (digitChar_plain n (digits_lt n hn)).1
  have hlt := padding_lt bs
  rw [unpad, if_pos hlength, encode]
  obtain hp | hp | hp : padding bs = 0 ∨ padding bs = 1 ∨ padding bs = 2 := by omega
  · rw [hp, List.replicate_zero, List.append_nil, dropLast_of_ne hplain, dropLast_of_ne hplain]
  · rw [hp, List.replicate_one, dropLast_concat, dropLast_of_ne hplain]
  · have hsplit : (digits bs).map digitChar ++ List.replicate 2 '=' = (digits bs).map digitChar ++ ['='] ++ ['='] := by
      simp [List.replicate]
    rw [hp, hsplit, dropLast_concat, dropLast_concat]

theorem mapM_digitValue {ns : List Nat} (h : ∀ n ∈ ns, n < 64) : (ns.map digitChar).mapM digitValue = some ns := by
  induction ns with
  | nil => rfl
  | cons n ns ih =>
      rw [List.forall_mem_cons] at h
      rw [List.map_cons, List.mapM_cons, digitValue_digitChar n h.1, ih h.2]
      rfl

theorem decode_encode (bs : List UInt8) : decode (encode bs) = some bs := by
  have hlength := digits_length bs
  have hlt := padding_lt bs
  rw [decode, filter_encode, unpad_encode, if_neg, mapM_digitValue digits_lt, Option.map_some, bytes_digits]
  rw [List.length_map]
  omega

end Sigil.Library.Base64
