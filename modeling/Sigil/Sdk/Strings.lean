import Mathlib.Tactic.Common

/-!
# Strings

The functions of the language on strings that the kit uses. A string is a list of characters.
-/

namespace Sigil.Sdk

def startsWith (s start : String) : Bool := start.toList.isPrefixOf s.toList

/-- `StrWhiteSpaceChar`. -/
def isWhiteSpace (c : Char) : Bool :=
  let n := c.toNat
  (9 ≤ n && n ≤ 13) || (8192 ≤ n && n ≤ 8202) ||
    n ∈ [32, 160, 5760, 8232, 8233, 8239, 8287, 12288, 65279]

def trim (cs : List Char) : List Char := ((cs.dropWhile isWhiteSpace).reverse.dropWhile isWhiteSpace).reverse

def digitOf (radix : Nat) (c : Char) : Option Nat :=
  let n := c.toNat
  let digit :=
    if 48 ≤ n ∧ n ≤ 57 then n - 48
    else if 97 ≤ n ∧ n ≤ 102 then n - 87
    else if 65 ≤ n ∧ n ≤ 70 then n - 55
    else radix
  if digit < radix then some digit else none

/-- One digit at least. -/
def parseDigits (radix : Nat) (cs : List Char) : Option Int :=
  if cs = [] then none
  else (cs.foldlM (fun n c => (digitOf radix c).map (n * radix + ·)) 0).map Int.ofNat

/-- `BigInt` of a string; `none` stands for a `SyntaxError`. -/
def bigInt (s : String) : Option Int :=
  match trim s.toList with
  | [] => some 0
  | '+' :: cs => parseDigits 10 cs
  | '-' :: cs => (parseDigits 10 cs).map Neg.neg
  | '0' :: 'x' :: cs => parseDigits 16 cs
  | '0' :: 'X' :: cs => parseDigits 16 cs
  | '0' :: 'o' :: cs => parseDigits 8 cs
  | '0' :: 'O' :: cs => parseDigits 8 cs
  | '0' :: 'b' :: cs => parseDigits 2 cs
  | '0' :: 'B' :: cs => parseDigits 2 cs
  | cs => parseDigits 10 cs

/-! ## Texts of numbers

The decimal text of an integer is read back as that integer.
-/

theorem isDigit_iff {c : Char} : c.isDigit = true ↔ 48 ≤ c.toNat ∧ c.toNat ≤ 57 := by
  simp only [Char.isDigit, Bool.and_eq_true, decide_eq_true_eq, UInt32.le_iff_toNat_le, ge_iff_le]
  rfl

theorem not_isWhiteSpace_of_le {c : Char} (hlow : 33 ≤ c.toNat) (hhigh : c.toNat ≤ 126) :
    isWhiteSpace c = false := by
  simp only [isWhiteSpace, List.mem_cons, List.not_mem_nil, Bool.or_eq_false_iff, Bool.and_eq_false_iff,
    decide_eq_false_iff_not, or_false]
  omega

theorem digitOf_ten {c : Char} (h : c.isDigit = true) : digitOf 10 c = some (c.toNat - 48) := by
  obtain ⟨hlow, hhigh⟩ := isDigit_iff.mp h
  simp only [digitOf, hlow, hhigh, and_self, if_true]
  exact if_pos (by omega)

theorem foldlM_digitOf {cs : List Char} (h : ∀ c ∈ cs, c.isDigit = true) (n : Nat) :
    cs.foldlM (fun n c => (digitOf 10 c).map (n * 10 + ·)) n = some (Nat.ofDigitChars 10 cs n) := by
  induction cs generalizing n with
  | nil => simp
  | cons c cs ih =>
      obtain ⟨hc, hcs⟩ := List.forall_mem_cons.mp h
      rw [List.foldlM_cons, digitOf_ten hc, Nat.ofDigitChars_cons, Nat.mul_comm 10]
      exact ih hcs _

/-- Without blanks at the ends there is nothing to trim. -/
theorem trim_of_head_of_last {cs : List Char} (hhead : ∀ c ∈ cs.head?, isWhiteSpace c = false)
    (hlast : ∀ c ∈ cs.getLast?, isWhiteSpace c = false) : trim cs = cs := by
  have hkeep {l : List Char} (h : ∀ c ∈ l.head?, isWhiteSpace c = false) : l.dropWhile isWhiteSpace = l := by
    cases l with
    | nil => rfl
    | cons c l => simp [h c rfl]
  rw [trim, hkeep hhead, hkeep (by simpa using hlast), List.reverse_reverse]

theorem trim_of_all {cs : List Char} (h : ∀ c ∈ cs, isWhiteSpace c = false) : trim cs = cs :=
  trim_of_head_of_last (fun c hc => h c (List.mem_of_head? hc)) fun c hc => h c (List.mem_of_getLast? hc)

theorem isDigit_of_mem_repr {n : Nat} {c : Char} (h : c ∈ n.repr.toList) : c.isDigit = true := by
  rw [Nat.toList_repr] at h
  exact Nat.isDigit_of_mem_toDigits (by decide) (by decide) h

theorem not_isWhiteSpace_of_isDigit {c : Char} (h : c.isDigit = true) : isWhiteSpace c = false := by
  obtain ⟨hlow, hhigh⟩ := isDigit_iff.mp h
  exact not_isWhiteSpace_of_le (by omega) (by omega)

theorem parseDigits_repr (n : Nat) : parseDigits 10 n.repr.toList = some n := by
  have hne : n.repr.toList ≠ [] := by simp
  rw [parseDigits, if_neg hne, foldlM_digitOf fun c hc => isDigit_of_mem_repr hc]
  simp

/-- A text of digits alone has neither a sign nor the mark of a radix. -/
theorem bigInt_of_digits {s : String} (h : ∀ c ∈ s.toList, c.isDigit = true) (hne : s.toList ≠ []) :
    bigInt s = parseDigits 10 s.toList := by
  have htrim : trim s.toList = s.toList := trim_of_all fun c hc => not_isWhiteSpace_of_isDigit (h c hc)
  rw [bigInt, htrim]
  split <;> rename_i heq
  · exact absurd heq hne
  · exact absurd (h '+' (by simp [heq])) (by decide)
  · exact absurd (h '-' (by simp [heq])) (by decide)
  · exact absurd (h 'x' (by simp [heq])) (by decide)
  · exact absurd (h 'X' (by simp [heq])) (by decide)
  · exact absurd (h 'o' (by simp [heq])) (by decide)
  · exact absurd (h 'O' (by simp [heq])) (by decide)
  · exact absurd (h 'b' (by simp [heq])) (by decide)
  · exact absurd (h 'B' (by simp [heq])) (by decide)
  · rfl

theorem bigInt_repr (n : Nat) : bigInt n.repr = some n := by
  rw [bigInt_of_digits (fun c hc => isDigit_of_mem_repr hc) (by simp), parseDigits_repr]

theorem bigInt_toString (n : Int) : bigInt (toString n) = some n := by
  cases n with
  | ofNat n => exact bigInt_repr n
  | negSucc n =>
      have htext : (toString (Int.negSucc n)).toList = '-' :: (n + 1).repr.toList := by
        simp [toString, Int.repr]
      have htrim : trim ('-' :: (n + 1).repr.toList) = '-' :: (n + 1).repr.toList := by
        refine trim_of_all fun c hc => ?_
        rcases List.mem_cons.mp hc with rfl | hc
        · rfl
        · exact not_isWhiteSpace_of_isDigit (isDigit_of_mem_repr hc)
      rw [bigInt, htext, htrim]
      simp only [parseDigits_repr]
      rfl

end Sigil.Sdk
