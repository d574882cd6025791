import Sigil.Library.LittleEndian

/-!
# Distinguished encoding rules

Lengths, integers and pairs of integers. A reader accepts the encoding of a value and nothing else.
-/

namespace Sigil.Library

/-- The number that bytes spell, the highest one first. -/
def beValue (bytes : List UInt8) : Nat := leValue bytes.reverse

/-- The bytes of a number, without zeros in front. -/
def beDigits (n : Nat) : List UInt8 := ((Nat.digits 256 n).map UInt8.ofNat).reverse

/-! ## Encodings -/

def derLength (n : Nat) : List UInt8 :=
  if n < 128 then [.ofNat n] else .ofNat (128 + (beDigits n).length) :: beDigits n

/-- A tag, the length of the content and the content. -/
def derTlv (tag : UInt8) (content : List UInt8) : List UInt8 := tag :: (derLength content.length ++ content)

/-- A natural number in two's complement: its highest bit is not set. -/
def natContent (n : Nat) : List UInt8 :=
  if (beDigits n).headD 128 < 128 then beDigits n else 0 :: beDigits n

/-- The shortest two's complement. -/
def derContent : Int → List UInt8
  | .ofNat n => natContent n
  | .negSucc n => (natContent n).map fun b => ~~~b

def derInteger (v : Int) : List UInt8 := derTlv 2 (derContent v)

/-- `SEQUENCE { INTEGER, INTEGER }` -/
def derPair (v w : Int) : List UInt8 := derTlv 48 (derInteger v ++ derInteger w)

/-! ## Strict readers -/

/-- A definite length, in the short form wherever there is one, else in as few bytes as possible. -/
def readLength : List UInt8 → Option (Nat × List UInt8)
  | [] => none
  | b :: bytes =>
      if b < 128 then some (b.toNat, bytes)
      else
        let digits := bytes.take (b.toNat - 128)
        if b ≠ 255 ∧ digits.length = b.toNat - 128 ∧ digits.headD 0 ≠ 0 ∧ 128 ≤ beValue digits then
          some (beValue digits, bytes.drop (b.toNat - 128))
        else none

def readTlv (tag : UInt8) : List UInt8 → Option (List UInt8 × List UInt8)
  | [] => none
  | b :: bytes =>
      if b = tag then
        (readLength bytes).bind fun p =>
          if p.1 ≤ p.2.length then some (p.2.take p.1, p.2.drop p.1) else none
      else none

/-- The first nine bits are neither all zero nor all one. -/
def minimalContent : List UInt8 → Bool
  | [] => false
  | [_] => true
  | a :: b :: _ => !(a = 0 && b < 128) && !(a = 255 && 128 ≤ b)

def readInteger (bytes : List UInt8) : Option (Int × List UInt8) :=
  (readTlv 2 bytes).bind fun p => if minimalContent p.1 then some (leSigned p.1.reverse, p.2) else none

def readPair (bytes : List UInt8) : Option (Int × Int) :=
  (readTlv 48 bytes).bind fun p =>
    (readInteger p.1).bind fun v =>
      (readInteger v.2).bind fun w => if p.2 = [] ∧ w.2 = [] then some (v.1, w.1) else none

/-! ## Digits -/

section
variable {bytes rest content : List UInt8} {k n : Nat} {tag : UInt8} {v w : Int}

theorem beValue_cons (x : UInt8) (bytes : List UInt8) :
    beValue (x :: bytes) = x.toNat * 256 ^ bytes.length + beValue bytes := by
  rw [beValue, List.reverse_cons, leValue_append, List.length_reverse, leValue_cons, leValue_nil, beValue]
  ring

theorem beValue_lt (bytes : List UInt8) : beValue bytes < 256 ^ bytes.length := by
  have := leValue_lt bytes.reverse
  rwa [List.length_reverse] at this

theorem beValue_inj {a b : List UInt8} (hlength : a.length = b.length) : beValue a = beValue b ↔ a = b := by
  rw [beValue, beValue, leValue_inj (by simpa using hlength), List.reverse_inj]

theorem beValue_beDigits (n : Nat) : beValue (beDigits n) = n := by
  have hdigits : (Nat.digits 256 n).map (UInt8.toNat ∘ UInt8.ofNat) = Nat.digits 256 n := by
    rw [List.map_congr_left (g := id), List.map_id]
    intro d hd
    exact Nat.mod_eq_of_lt (Nat.digits_lt_base (by decide) hd)
  rw [beValue, beDigits, List.reverse_reverse, leValue, List.map_map, hdigits, Nat.ofDigits_digits]

theorem beDigits_beValue (h : bytes.headD 1 ≠ 0) : beDigits (beValue bytes) = bytes := by
  have hlast : ∀ hne : bytes.reverse.map UInt8.toNat ≠ [], (bytes.reverse.map UInt8.toNat).getLast hne ≠ 0 := by
    cases bytes with
    | nil => intro hne; exact absurd rfl hne
    | cons x bytes =>
        intro _ hzero
        rw [List.getLast_map, List.getLast_reverse, List.head_cons] at hzero
        exact h (UInt8.toNat_inj.mp hzero)
  have hdigits : Nat.digits 256 (beValue bytes) = bytes.reverse.map UInt8.toNat := by
    apply Nat.digits_ofDigits 256 (by decide) _ _ hlast
    intro d hd
    obtain ⟨x, -, rfl⟩ := List.mem_map.mp hd
    exact x.toNat_lt
  have hid : UInt8.ofNat ∘ UInt8.toNat = id := funext fun _ => UInt8.ofNat_toNat
  rw [beDigits, hdigits, List.map_map, hid, List.map_id, List.reverse_reverse]

theorem beDigits_headD_ne_zero (n : Nat) : (beDigits n).headD 1 ≠ 0 := by
  intro hzero
  cases hdigits : beDigits n with
  | nil => rw [hdigits] at hzero; cases hzero
  | cons x rest =>
      have hne : Nat.digits 256 n ≠ [] := by
        intro hnil
        rw [beDigits, hnil] at hdigits
        cases hdigits
      have hlast := Nat.getLast_digit_ne_zero 256 (m := n) (by rintro rfl; exact hne (Nat.digits_zero 256))
      have hlt : (Nat.digits 256 n).getLast hne < 256 := Nat.digits_lt_base (by decide) (List.getLast_mem hne)
      have hhead : (beDigits n).head? = some (UInt8.ofNat ((Nat.digits 256 n).getLast hne)) := by
        rw [beDigits, List.head?_reverse, List.getLast?_map, List.getLast?_eq_getLast_of_ne_nil hne, Option.map_some]
      rw [hdigits, List.head?_cons, Option.some.injEq] at hhead
      rw [hdigits, List.headD_cons, hhead, ← UInt8.toNat_inj] at hzero
      exact hlast ((Nat.mod_eq_of_lt hlt).symm.trans hzero)

/-- Zeros in front do not count. -/
theorem beDigits_dropWhile (bytes : List UInt8) : bytes.dropWhile (· = 0) = beDigits (beValue bytes) := by
  induction bytes with
  | nil => rfl
  | cons x bytes ih =>
      by_cases hx : x = 0
      · rw [List.dropWhile_cons_of_pos (by simpa using hx), ih, beValue_cons, hx]
        simp
      · rw [List.dropWhile_cons_of_neg (by simpa using hx), beDigits_beValue (by simpa using hx)]

theorem beDigits_length_le (h : n < 256 ^ k) : (beDigits n).length ≤ k := by
  rw [beDigits, List.length_reverse, List.length_map]
  exact (Nat.digits_length_le_iff (by decide) n).mpr h

/-! ## Lengths -/

theorem readLength_derLength (h : n < 256 ^ 126) : readLength (derLength n ++ rest) = some (n, rest) := by
  have hlength := beDigits_length_le h
  rw [derLength]
  split
  · rename_i hshort
    have hbyte : (UInt8.ofNat n).toNat = n := Nat.mod_eq_of_lt (by omega)
    have hlt : UInt8.ofNat n < 128 := by rw [UInt8.lt_iff_toNat_lt, hbyte]; exact hshort
    rw [List.singleton_append, readLength, if_pos hlt, hbyte]
  · rename_i hlong
    have hbyte : (UInt8.ofNat (128 + (beDigits n).length)).toNat = 128 + (beDigits n).length :=
      Nat.mod_eq_of_lt (by omega)
    have hnot : ¬ UInt8.ofNat (128 + (beDigits n).length) < 128 := by
      rw [UInt8.lt_iff_toNat_lt, hbyte]
      exact Nat.not_lt.mpr (Nat.le_add_right ..)
    have hff : UInt8.ofNat (128 + (beDigits n).length) ≠ 255 := by
      rw [Ne, ← UInt8.toNat_inj, hbyte]
      show ¬ _ = 255
      omega
    have hne : beDigits n ≠ [] := by
      intro hnil
      have hvalue := beValue_beDigits n
      rw [hnil] at hvalue
      exact hlong (hvalue ▸ (by decide : beValue [] < 128))
    have hhead : (beDigits n).headD 0 ≠ 0 := by
      have hdigit := beDigits_headD_ne_zero n
      cases hdigits : beDigits n with
      | nil => exact absurd hdigits hne
      | cons x bytes => rwa [hdigits] at hdigit
    rw [List.cons_append, readLength, if_neg hnot, hbyte, Nat.add_sub_cancel_left]
    simp only [List.take_left, List.drop_left, beValue_beDigits]
    rw [if_pos ⟨hff, trivial, hhead, Nat.not_lt.mp hlong⟩]

theorem readLength_eq_some (h : readLength bytes = some (n, rest)) : bytes = derLength n ++ rest ∧ n < 256 ^ 126 := by
  cases bytes with
  | nil => cases h
  | cons b bytes =>
      rw [readLength] at h
      split at h
      · rename_i hshort
        cases h
        have hlt : b.toNat < 128 := UInt8.lt_iff_toNat_lt.mp hshort
        rw [derLength, if_pos hlt, UInt8.ofNat_toNat]
        exact ⟨rfl, hlt.trans_le (Nat.le_self_pow (by decide) 128 |>.trans (Nat.pow_le_pow_left (by decide) 126))⟩
      · rename_i hlong
        dsimp only at h
        split at h
        · rename_i hdigits
          have hff := hdigits.1
          have hlength := hdigits.2.1
          have hhead := hdigits.2.2.1
          have hvalue := hdigits.2.2.2
          rw [Option.some.injEq, Prod.mk.injEq] at h
          have hbig : 128 ≤ b.toNat := Nat.not_lt.mp fun hlt => hlong (UInt8.lt_iff_toNat_lt.mpr hlt)
          have hsmall : b.toNat - 128 ≤ 126 := by
            have hb := b.toNat_lt
            have hne : b.toNat ≠ 255 := fun heq => hff (UInt8.toNat_inj.mp heq)
            omega
          have hhead' : (bytes.take (b.toNat - 128)).headD 1 ≠ 0 := by
            cases hcons : bytes.take (b.toNat - 128) with
            | nil => decide
            | cons x xs => rwa [hcons] at hhead
          have hlt := beValue_lt (bytes.take (b.toNat - 128))
          rw [hlength] at hlt
          rw [← h.1, ← h.2, derLength, if_neg (Nat.not_lt.mpr hvalue), beDigits_beValue hhead', hlength,
            Nat.add_sub_cancel' hbig, UInt8.ofNat_toNat, List.cons_append, List.take_append_drop]
          exact ⟨rfl, hlt.trans_le (Nat.pow_le_pow_right (by decide) hsmall)⟩
        · cases h

/-! ## Tags -/

theorem readTlv_derTlv (h : content.length < 256 ^ 126) :
    readTlv tag (derTlv tag content ++ rest) = some (content, rest) := by
  rw [derTlv, List.cons_append, readTlv, if_pos rfl, List.append_assoc, readLength_derLength h, Option.bind_some,
    if_pos (by simp), List.take_left, List.drop_left]

theorem readTlv_eq_some (h : readTlv tag bytes = some (content, rest)) :
    bytes = derTlv tag content ++ rest ∧ content.length < 256 ^ 126 := by
  cases bytes with
  | nil => cases h
  | cons b bytes =>
      rw [readTlv] at h
      split at h
      · rename_i htag
        obtain ⟨p, hread, hsplit⟩ := Option.bind_eq_some_iff.mp h
        split at hsplit
        · rename_i hle
          cases hsplit
          obtain ⟨hbytes, hlt⟩ := readLength_eq_some hread
          have hlength : (p.2.take p.1).length = p.1 := List.length_take_of_le hle
          rw [hbytes, htag, derTlv, hlength, List.cons_append, List.append_assoc, List.take_append_drop]
          exact ⟨rfl, hlt⟩
        · cases hsplit
      · cases h

/-! ## Two's complement -/

theorem leSigned_concat_of_lt {x : UInt8} (h : x < 128) : leSigned (bytes ++ [x]) = leValue (bytes ++ [x]) :=
  if_pos (leValue_concat_lt_iff.mpr (UInt8.lt_iff_toNat_lt.mp h))

theorem leSigned_concat_of_ge {x : UInt8} (h : ¬ x < 128) :
    leSigned (bytes ++ [x]) = leValue (bytes ++ [x]) - 256 ^ (bytes ++ [x]).length :=
  if_neg fun hlt => h (UInt8.lt_iff_toNat_lt.mpr (leValue_concat_lt_iff.mp hlt))

theorem toNat_not (x : UInt8) : (~~~x).toNat = 255 - x.toNat := by
  rw [UInt8.toNat_not]
  rfl

theorem not_lt_iff (x : UInt8) : ~~~x < 128 ↔ ¬ x < 128 := by
  have hx := x.toNat_lt
  rw [UInt8.lt_iff_toNat_lt, UInt8.lt_iff_toNat_lt, toNat_not]
  show 255 - x.toNat < 128 ↔ ¬ x.toNat < 128
  omega

theorem map_not_not (bytes : List UInt8) : (bytes.map fun b => ~~~b).map (fun b => ~~~b) = bytes := by
  induction bytes with
  | nil => rfl
  | cons x bytes ih => rw [List.map_cons, List.map_cons, ih, UInt8.not_not]

theorem leValue_not (bytes : List UInt8) :
    leValue (bytes.map fun b => ~~~b) + leValue bytes + 1 = 256 ^ bytes.length := by
  induction bytes with
  | nil => rfl
  | cons x bytes ih =>
      have hx := x.toNat_lt
      rw [List.map_cons, leValue_cons, leValue_cons, toNat_not, List.length_cons, pow_succ, ← ih]
      omega

/-- The complement of every bit negates and subtracts one. -/
theorem leSigned_not (bytes : List UInt8) (x : UInt8) :
    leSigned ((bytes ++ [x]).map fun b => ~~~b) = -1 - leSigned (bytes ++ [x]) := by
  have hvalue := leValue_not (bytes ++ [x])
  have hlength : ((bytes ++ [x]).map fun b => ~~~b).length = (bytes ++ [x]).length := List.length_map _
  have hcast : ((256 ^ (bytes ++ [x]).length : Nat) : Int) = 256 ^ (bytes ++ [x]).length := by push_cast; rfl
  by_cases hx : x < 128
  · have hnot : ¬ ~~~x < 128 := fun h => (not_lt_iff x).mp h hx
    rw [leSigned_concat_of_lt hx]
    rw [List.map_append, List.map_singleton] at hvalue hlength ⊢
    rw [leSigned_concat_of_ge hnot, hlength, ← hcast, ← hvalue]
    push_cast
    ring
  · rw [leSigned_concat_of_ge hx]
    rw [List.map_append, List.map_singleton] at hvalue ⊢
    rw [leSigned_concat_of_lt ((not_lt_iff x).mpr hx), ← hcast, ← hvalue]
    push_cast
    ring

/-! ## Integers -/

theorem minimalContent_not (bytes : List UInt8) : minimalContent (bytes.map fun b => ~~~b) = minimalContent bytes := by
  have hzero (x : UInt8) : ~~~x = 0 ↔ x = 255 := by
    rw [← UInt8.toNat_inj, ← UInt8.toNat_inj, toNat_not]
    have hx := x.toNat_lt
    show 255 - x.toNat = 0 ↔ x.toNat = 255
    omega
  have hff (x : UInt8) : ~~~x = 255 ↔ x = 0 := by
    rw [← UInt8.toNat_inj, ← UInt8.toNat_inj, toNat_not]
    have hx := x.toNat_lt
    show 255 - x.toNat = 255 ↔ x.toNat = 0
    omega
  match bytes with
  | [] => rfl
  | [_] => rfl
  | a :: b :: rest =>
      have hlt := not_lt_iff b
      have hle : 128 ≤ ~~~b ↔ b < 128 := by rw [← UInt8.not_lt, hlt, not_not]
      have hge : 128 ≤ b ↔ ¬ b < 128 := UInt8.not_lt.symm
      simp only [List.map_cons, minimalContent, hzero, hff, hlt, hle, hge, Bool.and_comm]

theorem natContent_minimal (n : Nat) : minimalContent (natContent n) = true := by
  have hhead := beDigits_headD_ne_zero n
  rw [natContent]
  cases hdigits : beDigits n with
  | nil => decide
  | cons x bytes =>
      rw [hdigits] at hhead
      have hx : x ≠ 0 := hhead
      rw [List.headD_cons]
      split
      · rename_i hlt
        cases bytes with
        | nil => rfl
        | cons y bytes =>
            have hff : x ≠ 255 := by
              rintro rfl
              exact absurd hlt (by decide)
            simp [minimalContent, hx, hff]
      · rename_i hge
        simp [minimalContent, UInt8.not_lt.mp hge]

theorem natContent_head (n : Nat) : ∃ x bytes, natContent n = x :: bytes ∧ x < 128 := by
  rw [natContent]
  cases hdigits : beDigits n with
  | nil => exact ⟨0, [], rfl, by decide⟩
  | cons x bytes =>
      rw [List.headD_cons]
      split
      · rename_i hlt
        exact ⟨x, bytes, rfl, hlt⟩
      · exact ⟨0, x :: bytes, rfl, by decide⟩

theorem beValue_natContent (n : Nat) : beValue (natContent n) = n := by
  rw [natContent]
  split
  · exact beValue_beDigits n
  · rw [beValue_cons, beValue_beDigits]
    simp

theorem natContent_beValue {x : UInt8} (hminimal : minimalContent (x :: bytes) = true) (hx : x < 128) :
    natContent (beValue (x :: bytes)) = x :: bytes := by
  by_cases hzero : x = 0
  · cases bytes with
    | nil =>
        rw [hzero]
        decide
    | cons y bytes =>
        have hy : ¬ y < 128 := by
          intro hlt
          simp [minimalContent, hzero, hlt] at hminimal
        have hne : (y :: bytes).headD 1 ≠ 0 := by
          rintro rfl
          exact hy (by decide)
        have hvalue : beValue (0 :: y :: bytes) = beValue (y :: bytes) := by
          rw [beValue_cons]
          simp
        rw [hzero, hvalue, natContent, beDigits_beValue hne, List.headD_cons, if_neg hy]
  · have hne : (x :: bytes).headD 1 ≠ 0 := hzero
    rw [natContent, beDigits_beValue hne, List.headD_cons, if_pos hx]

theorem leSigned_natContent (n : Nat) : leSigned (natContent n).reverse = n := by
  obtain ⟨x, bytes, hcontent, hx⟩ := natContent_head n
  have hvalue := beValue_natContent n
  rw [hcontent, beValue, List.reverse_cons] at hvalue
  rw [hcontent, List.reverse_cons, leSigned_concat_of_lt hx, hvalue]

/-- A minimal content is the one of its value. -/
theorem derContent_iff : content = derContent v ↔ minimalContent content = true ∧ leSigned content.reverse = v := by
  constructor
  · rintro rfl
    cases v with
    | ofNat n => exact ⟨natContent_minimal n, leSigned_natContent n⟩
    | negSucc n =>
        obtain ⟨x, bytes, hcontent, -⟩ := natContent_head n
        have hvalue := leSigned_natContent n
        rw [derContent, minimalContent_not, ← List.map_reverse]
        rw [hcontent, List.reverse_cons] at hvalue ⊢
        rw [leSigned_not, hvalue, ← hcontent]
        exact ⟨natContent_minimal n, by omega⟩
  · intro h
    obtain ⟨hminimal, rfl⟩ := h
    cases content with
    | nil => cases hminimal
    | cons x bytes =>
        rw [List.reverse_cons]
        by_cases hx : x < 128
        · rw [leSigned_concat_of_lt hx, ← List.reverse_cons]
          exact (natContent_beValue hminimal hx).symm
        · have hnot : natContent (beValue ((x :: bytes).map fun b => ~~~b)) = (x :: bytes).map fun b => ~~~b :=
            natContent_beValue ((minimalContent_not _).trans hminimal) ((not_lt_iff x).mpr hx)
          have hnat := leSigned_natContent (beValue ((x :: bytes).map fun b => ~~~b))
          have hvalue := leSigned_not bytes.reverse x
          rw [← List.reverse_cons, List.map_reverse] at hvalue
          rw [hnot] at hnat
          have hneg : leSigned (bytes.reverse ++ [x]) = Int.negSucc (beValue ((x :: bytes).map fun b => ~~~b)) := by
            rw [← List.reverse_cons]
            omega
          rw [hneg, derContent, hnot, map_not_not]

theorem readInteger_eq_some : readInteger bytes = some (v, rest) ↔
    bytes = derInteger v ++ rest ∧ (derContent v).length < 256 ^ 126 := by
  rw [readInteger]
  constructor
  · intro h
    obtain ⟨p, hread, hvalue⟩ := Option.bind_eq_some_iff.mp h
    split at hvalue
    · rename_i hminimal
      rw [Option.some.injEq, Prod.mk.injEq] at hvalue
      have hsplit : readTlv 2 bytes = some (p.1, p.2) := hread
      obtain ⟨hbytes, hlt⟩ := readTlv_eq_some hsplit
      have hcontent := derContent_iff.mpr ⟨hminimal, hvalue.1⟩
      rw [derInteger, ← hcontent, ← hvalue.2]
      exact ⟨hbytes, hlt⟩
    · cases hvalue
  · intro h
    obtain ⟨hminimal, hvalue⟩ := derContent_iff.mp (Eq.refl (derContent v))
    rw [h.1, derInteger, readTlv_derTlv h.2, Option.bind_some, if_pos hminimal, hvalue]

/-- The reader of pairs accepts the encoding of a pair and no other bytes. -/
theorem readPair_eq_some (h : (derInteger v ++ derInteger w).length < 256 ^ 126) :
    readPair bytes = some (v, w) ↔ bytes = derPair v w := by
  have hcontent (x : Int) : (derContent x).length ≤ (derInteger x).length := by
    rw [derInteger, derTlv, List.length_cons, List.length_append]
    omega
  rw [List.length_append] at h
  rw [readPair]
  constructor
  · intro hpair
    obtain ⟨p, hsequence, hrest⟩ := Option.bind_eq_some_iff.mp hpair
    obtain ⟨q, hfirst, hrest⟩ := Option.bind_eq_some_iff.mp hrest
    obtain ⟨q', hsecond, hrest⟩ := Option.bind_eq_some_iff.mp hrest
    split at hrest
    · rename_i hends
      rw [Option.some.injEq, Prod.mk.injEq] at hrest
      have hp : readInteger p.1 = some (q.1, q.2) := hfirst
      have hq : readInteger q.2 = some (q'.1, q'.2) := hsecond
      have hsplit : readTlv 48 bytes = some (p.1, p.2) := hsequence
      obtain ⟨hbytes, -⟩ := readTlv_eq_some hsplit
      obtain ⟨hp, -⟩ := readInteger_eq_some.mp hp
      obtain ⟨hq, -⟩ := readInteger_eq_some.mp hq
      rw [hbytes, hends.1, hp, hq, hends.2, hrest.1, hrest.2, List.append_nil, List.append_nil, derPair]
    · cases hrest
  · rintro rfl
    have hv := hcontent v
    have hw := hcontent w
    have hfirst : readInteger (derInteger v ++ derInteger w) = some (v, derInteger w) :=
      readInteger_eq_some.mpr ⟨rfl, by omega⟩
    have hsecond : readInteger (derInteger w) = some (w, []) :=
      readInteger_eq_some.mpr ⟨(List.append_nil _).symm, by omega⟩
    rw [derPair, ← List.append_nil (derTlv 48 _), readTlv_derTlv (by rw [List.length_append]; exact h),
      Option.bind_some, hfirst, Option.bind_some, hsecond, Option.bind_some, if_pos ⟨rfl, rfl⟩]

end

end Sigil.Library
