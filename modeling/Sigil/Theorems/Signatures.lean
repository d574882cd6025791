import Mathlib.Data.List.TakeWhile
import Sigil.Library.Der
import Sigil.Sdk.Turnkey

/-!
# Raw signatures in DER

`rawSigToDer` writes the pair of the two halves of a raw signature, for curves of up to 124 bytes.
-/

namespace Sigil.Sdk

open Library

/-- What `rawSigToDer` makes of a buffer: it accepts two integers of `n` bytes each, and returns the only bytes that a
strict reader takes for them. -/
structure CanonicalDer (rawSig : ByteString) (n : Nat) : Prop where
  succeeds : (∃ der, rawSigToDer rawSig n = .ok der) ↔ rawSig.length = 2 * n
  encodes : ∀ der, rawSigToDer rawSig n = .ok der → der = derPair (beValue (rawSig.take n)) (beValue (rawSig.drop n))
  strict : ∀ der, rawSigToDer rawSig n = .ok der →
    ∀ bytes, readPair bytes = some ((beValue (rawSig.take n) : Int), (beValue (rawSig.drop n) : Int)) ↔ bytes = der
  /-- The length of the sequence is in the short form or in one more byte. -/
  header : ∀ der, rawSigToDer rawSig n = .ok der → ∃ body : ByteString, body.length < 256 ∧
    der = 48 :: ((if body.length < 128 then [UInt8.ofNat body.length] else [129, UInt8.ofNat body.length]) ++ body)
  injective : ∀ der, rawSigToDer rawSig n = .ok der → ∀ other, rawSigToDer other n = .ok der → other = rawSig

variable {rawSig val : ByteString} {n : Nat}

theorem rawSigToDer_eq_ok {der : ByteString} : rawSigToDer rawSig n = .ok der ↔ rawSig.length = 2 * n ∧
    der = (let body := encodeInt (rawSig.take n) ++ encodeInt (rawSig.drop n)
      (if body.length < 128 then [48, .ofNat body.length] else [48, 129, .ofNat body.length]) ++ body) := by
  rw [rawSigToDer, require_bind_eq_ok, Nat.mul_comm]
  constructor
  · intro h
    cases h.2
    exact ⟨h.1, rfl⟩
  · intro h
    rw [h.2]
    exact ⟨h.1, rfl⟩

theorem beDigits_eq_nil {v : Nat} (h : beDigits v = []) : v = 0 := by
  have hvalue := beValue_beDigits v
  rw [h] at hvalue
  exact hvalue.symm

theorem natContent_length_le (val : ByteString) :
    (natContent (beValue val)).length ≤ val.length + 1 := by
  have hlength := beDigits_length_le (beValue_lt val)
  rw [natContent]
  split
  · omega
  · rw [List.length_cons]
    omega

/-- The integer of a half, whatever zeros it starts with. -/
theorem encodeInt_eq (hne : val ≠ []) (hlength : val.length ≤ 126) : encodeInt val = derInteger (beValue val) := by
  have hcontent := natContent_length_le val
  have hder : derInteger (beValue val) =
      2 :: UInt8.ofNat (natContent (beValue val)).length :: natContent (beValue val) := by
    show derTlv 2 (natContent (beValue val)) = _
    rw [derTlv, derLength, if_pos (by omega), List.singleton_append]
  suffices hpadded : (let stripped := val.dropWhile (· = 0)
      let kept := if stripped = [] then val.drop (val.length - 1) else stripped
      if kept.headD 0 ≥ 128 then 0 :: kept else kept) = natContent (beValue val) by
    rw [hder, ← hpadded]
    rfl
  dsimp only
  rw [beDigits_dropWhile]
  cases hdigits : beDigits (beValue val) with
  | nil =>
      have hzero : ∀ x ∈ val, x = 0 := by
        have hdrop := (beDigits_dropWhile val).trans hdigits
        simpa [List.dropWhile_eq_nil_iff] using hdrop
      rw [if_pos rfl, List.drop_length_sub_one hne, hzero _ (List.getLast_mem hne), beDigits_eq_nil hdigits]
      decide
  | cons x bytes =>
      rw [if_neg (List.cons_ne_nil x bytes), List.headD_cons, natContent, hdigits, List.headD_cons]
      by_cases hx : x < 128
      · rw [if_pos hx, if_neg (UInt8.not_le.mpr hx)]
      · rw [if_neg hx, if_pos (UInt8.not_lt.mp hx)]

theorem derInteger_length_le (hlength : val.length ≤ 124) :
    (derInteger (beValue val)).length ≤ 127 := by
  have hcontent := natContent_length_le val
  show (derTlv 2 (natContent (beValue val))).length ≤ 127
  rw [derTlv, derLength, if_pos (by omega), List.singleton_append, List.length_cons, List.length_cons]
  omega

theorem derLength_of_lt (h : n < 256) :
    derLength n = if n < 128 then [.ofNat n] else [129, .ofNat n] := by
  rw [derLength]
  split
  · rfl
  · rename_i hlong
    have hdigits : beDigits n = [UInt8.ofNat n] := by
      rw [beDigits, Nat.digits_of_lt 256 n (by omega) h]
      rfl
    rw [hdigits]
    rfl

theorem encodeInt_half (hpos : 1 ≤ n) (hn : n ≤ 124) {half : ByteString} (hlength : half.length = n) :
    encodeInt half = derInteger (beValue half) :=
  encodeInt_eq (by rintro rfl; rw [List.length_nil] at hlength; omega) (by omega)

theorem halves_length (h : rawSig.length = 2 * n) : (rawSig.take n).length = n ∧ (rawSig.drop n).length = n := by
  constructor
  · rw [List.length_take]
    omega
  · rw [List.length_drop]
    omega

/-- The content of a sequence needs one byte for its length, or one more. -/
theorem integers_length (hn : n ≤ 124) (h : rawSig.length = 2 * n) :
    (derInteger (beValue (rawSig.take n)) ++ derInteger (beValue (rawSig.drop n))).length < 256 := by
  obtain ⟨htake, hdrop⟩ := halves_length h
  have hr := derInteger_length_le (htake.trans_le hn)
  have hs := derInteger_length_le (hdrop.trans_le hn)
  rw [List.length_append]
  omega

theorem derPair_of_rawSigToDer (hpos : 1 ≤ n) (hn : n ≤ 124) {der : ByteString} (hok : rawSigToDer rawSig n = .ok der) :
    der = derPair (beValue (rawSig.take n)) (beValue (rawSig.drop n)) := by
  obtain ⟨hlength, hder⟩ := rawSigToDer_eq_ok.mp hok
  obtain ⟨htake, hdrop⟩ := halves_length hlength
  rw [encodeInt_half hpos hn htake, encodeInt_half hpos hn hdrop] at hder
  rw [hder, derPair, derTlv, derLength_of_lt (integers_length hn hlength)]
  dsimp only
  split <;> rfl

theorem readPair_iff_of_rawSigToDer (hpos : 1 ≤ n) (hn : n ≤ 124) {der : ByteString}
    (hok : rawSigToDer rawSig n = .ok der) (bytes : ByteString) :
    readPair bytes = some ((beValue (rawSig.take n) : Int), (beValue (rawSig.drop n) : Int)) ↔ bytes = der := by
  have hbody := integers_length hn (rawSigToDer_eq_ok.mp hok).1
  rw [derPair_of_rawSigToDer hpos hn hok]
  apply readPair_eq_some
  exact hbody.trans_le (Nat.le_self_pow (by decide) 256)

theorem halves_inj {other : ByteString} (h : rawSig.length = 2 * n) (h' : other.length = 2 * n)
    (hr : beValue (other.take n) = beValue (rawSig.take n)) (hs : beValue (other.drop n) = beValue (rawSig.drop n)) :
    other = rawSig := by
  obtain ⟨htake, hdrop⟩ := halves_length h
  obtain ⟨htake', hdrop'⟩ := halves_length h'
  have hfirst := (beValue_inj (htake'.trans htake.symm)).mp hr
  have hsecond := (beValue_inj (hdrop'.trans hdrop.symm)).mp hs
  rw [← List.take_append_drop n other, hfirst, hsecond, List.take_append_drop]

theorem rawSigToDer_canonical (n : Nat) (hpos : 1 ≤ n) (hn : n ≤ 124) (rawSig : ByteString) :
    CanonicalDer rawSig n := by
  constructor
  · constructor
    · rintro ⟨der, hok⟩
      exact (rawSigToDer_eq_ok.mp hok).1
    · intro hlength
      exact ⟨_, rawSigToDer_eq_ok.mpr ⟨hlength, rfl⟩⟩
  · exact fun der hok => derPair_of_rawSigToDer hpos hn hok
  · exact fun der hok => readPair_iff_of_rawSigToDer hpos hn hok
  · intro der hok
    have hbody := integers_length hn (rawSigToDer_eq_ok.mp hok).1
    refine ⟨_, hbody, ?_⟩
    rw [derPair_of_rawSigToDer hpos hn hok, derPair, derTlv, derLength_of_lt hbody]
  · intro der hok other hother
    -- the reader returns one pair of numbers, and both buffers are cut into halves of one length
    have hread := (readPair_iff_of_rawSigToDer hpos hn hok der).mpr rfl
    have hread' := (readPair_iff_of_rawSigToDer hpos hn hother der).mpr rfl
    have hpair := hread'.symm.trans hread
    rw [Option.some.injEq, Prod.mk.injEq, Nat.cast_inj, Nat.cast_inj] at hpair
    exact halves_inj (rawSigToDer_eq_ok.mp hok).1 (rawSigToDer_eq_ok.mp hother).1 hpair.1 hpair.2

/-- P-384. -/
theorem rawSigToDer_canonical_p384 : CanonicalDer (List.replicate 96 200) 48 :=
  rawSigToDer_canonical 48 (by decide) (by decide) (List.replicate 96 200)

end Sigil.Sdk
