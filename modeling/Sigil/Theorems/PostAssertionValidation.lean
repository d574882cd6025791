import Sigil.Lemmas.AssertionArrays
import Sigil.Lemmas.AssertionGrammar
import Sigil.Sdk.PostAssertionValidation

/-!
# The kit validates assertions as the program does
-/

namespace Sigil.Sdk

open Library

/-- The number is a natural number. -/
def JsNumber.Is (x : JsNumber) (n : Nat) : Prop := ∃ d, x = finite d ∧ d.value = n

/-- The entry as it goes on the wire: every number is one that the encoder of its field keeps. -/
structure Encodes (e : PostAssertionEntry) (p : Sigil.PostAssertionEntry) : Prop where
  targetAccount : p.targetAccount = e.targetAccount
  offset : e.offset.Is p.offset
  valueLen : e.valueLen.Is p.valueLen
  operator : e.operator.Is p.operator
  expectedValue : p.expectedValue = e.expectedValue
  assertionMode : e.assertionMode.Is p.assertionMode
  crossFieldOffsetB : e.crossFieldOffsetB.Is p.crossFieldOffsetB
  crossFieldMultiplierBps : e.crossFieldMultiplierBps.Is p.crossFieldMultiplierBps
  crossFieldFlags : e.crossFieldFlags.Is p.crossFieldFlags
  fits : p.Fits

section
variable {x : JsNumber} {n m : Nat} {q : ℚ} {e : PostAssertionEntry} {p : Sigil.PostAssertionEntry} {index : Nat}

namespace JsNumber

theorem Is.unique (hn : x.Is n) (hm : x.Is m) : n = m := by
  obtain ⟨d, rfl, hd⟩ := hn
  obtain ⟨_, heq, hd'⟩ := hm
  cases heq
  exact Nat.cast_injective (hd.symm.trans hd')

theorem Is.eq_eq (h : x.Is n) : x.eq q = decide ((n : ℚ) = q) := by
  obtain ⟨d, rfl, hd⟩ := h
  rw [JsNumber.eq, hd]

theorem Is.gt_eq (h : x.Is n) : x.gt q = decide (q < (n : ℚ)) := by
  obtain ⟨d, rfl, hd⟩ := h
  rw [JsNumber.gt, hd]

theorem Is.lt_eq (h : x.Is n) : x.lt q = decide ((n : ℚ) < q) := by
  obtain ⟨d, rfl, hd⟩ := h
  rw [JsNumber.lt, hd]

theorem Is.isInteger (h : x.Is n) : x.isInteger := by
  obtain ⟨d, rfl, hd⟩ := h
  rw [JsNumber.isInteger, hd]
  rfl

theorem Is.bitAnd_eq (h : x.Is n) (hn : n < 2 ^ 32) (mask : Nat) : x.bitAnd mask = n &&& mask := by
  obtain ⟨d, rfl, hd⟩ := h
  have hvalue : (n : ℤ) % 2 ^ 32 = n := Int.emod_eq_of_lt (by omega) (by exact_mod_cast hn)
  rw [JsNumber.bitAnd, JsNumber.toUint32, hd, Rat.num_natCast, Rat.den_natCast, Nat.cast_one, Int.tdiv_one, hvalue,
    Int.toNat_natCast]

end JsNumber

/-- The range check lets through the natural numbers up to the bound. -/
theorem requireUintInRange_iff {max : Nat} {code : PostAssertionValidationCode} :
    requireUintInRange x max code index = .ok () ↔ ∃ n ≤ max, x.Is n := by
  rw [requireUintInRange, require_eq_ok]
  constructor
  · cases x with
    | nan => rintro ⟨h, -⟩; cases h
    | infinity negative => rintro ⟨h, -⟩; cases h
    | finite d =>
        simp only [JsNumber.isInteger, JsNumber.lt, JsNumber.gt, decide_eq_true_eq, decide_eq_false_iff_not, not_lt]
        rintro ⟨hden, hnonneg, hmax⟩
        have hnum : 0 ≤ d.value.num := Rat.num_nonneg.mpr hnonneg
        have hvalue : d.value = (d.value.num.toNat : ℚ) := by
          rw [← Rat.coe_int_num_of_den_eq_one hden]
          simp only [Rat.num_intCast]
          exact_mod_cast (Int.toNat_of_nonneg hnum).symm
        refine ⟨d.value.num.toNat, ?_, d, rfl, hvalue⟩
        rw [hvalue] at hmax
        exact_mod_cast hmax
  · rintro ⟨n, hn, h⟩
    refine ⟨h.isInteger, ?_, ?_⟩
    · rw [h.lt_eq, decide_eq_false_iff_not, not_lt]
      exact Nat.cast_nonneg n
    · rw [h.gt_eq, decide_eq_false_iff_not, not_lt]
      exact_mod_cast hn

theorem requireUintInRange_of_is (h : x.Is n) {max : Nat} {code : PostAssertionValidationCode} :
    requireUintInRange x max code index = .ok () ↔ n ≤ max := by
  rw [requireUintInRange_iff]
  constructor
  · rintro ⟨m, hm, hx⟩
    rwa [h.unique hx]
  · intro hn
    exact ⟨n, hn, h⟩

/-- Bit 0 of a byte, and its reserved bits. -/
theorem flag_bits {n : Nat} (h : n < 2 ^ 8) :
    (n &&& crossFieldLteFlag ≠ 0 ↔ n % 2 = 1) ∧ (n % 2 = 1 → (n &&& 0xfe = 0 ↔ n = 1)) := by
  have hall : ∀ n < 2 ^ 8, (n &&& crossFieldLteFlag ≠ 0 ↔ n % 2 = 1) ∧ (n % 2 = 1 → (n &&& 0xfe = 0 ↔ n = 1)) := by
    decide +kernel
  exact hall n h

theorem validateCrossField_iff (h : Encodes e p) : validateCrossField e index = .ok () ↔
    PostExecutionAssertions.validateCrossField p = .ok () := by
  have hflags : p.crossFieldFlags < 2 ^ 32 := h.fits.crossFieldFlags.trans (by decide)
  obtain ⟨hbit, hreserved⟩ := flag_bits h.fits.crossFieldFlags
  rw [PostExecutionAssertions.validateCrossField_iff, validateCrossField, h.crossFieldFlags.bitAnd_eq hflags,
    h.crossFieldFlags.bitAnd_eq hflags]
  by_cases hflag : p.crossFieldFlags % 2 = 1
  · rw [if_pos (hbit.mpr hflag)]
    simp only [require_bind_eq_ok, require_eq_ok, h.valueLen.gt_eq, h.assertionMode.eq_eq,
      h.crossFieldMultiplierBps.eq_eq, hreserved hflag, crossFieldMaxValueLen, decide_eq_true_eq,
      decide_eq_false_iff_not, not_lt, hflag, true_implies, Nat.one_ne_zero, false_implies, and_true]
    norm_cast
    simp only [Nat.pos_iff_ne_zero]
  · rw [if_neg (mt hbit.mp hflag)]
    have hzero : p.crossFieldFlags % 2 = 0 := by omega
    simp only [require_eq_ok, h.crossFieldOffsetB.eq_eq, h.crossFieldMultiplierBps.eq_eq, decide_eq_true_eq, hzero,
      Nat.zero_ne_one, false_implies, true_implies, true_and]
    norm_cast

theorem validateSingleEntry_iff (h : Encodes e p) :
    validateSingleEntry e index = .ok () ↔ PostExecutionAssertions.validateEntry p = .ok () := by
  have hoffset := h.fits.offset
  have hoffsetB := h.fits.crossFieldOffsetB
  have hmultiplier := h.fits.crossFieldMultiplierBps
  have hflags := h.fits.crossFieldFlags
  have hdelta : e.assertionMode.ge 1 ∧ e.assertionMode.le 3 ↔ 1 ≤ p.assertionMode ∧ p.assertionMode ≤ 3 := by
    simp only [JsNumber.ge, JsNumber.le, h.assertionMode.gt_eq, h.assertionMode.lt_eq, h.assertionMode.eq_eq,
      Bool.or_eq_true, decide_eq_true_eq]
    norm_cast
    omega
  simp only [validateSingleEntry, PostExecutionAssertions.validateEntry, bind_eq_ok, require_eq_ok, exists_and_left,
    exists_const, requireUintInRange_of_is h.offset, requireUintInRange_of_is h.valueLen,
    requireUintInRange_of_is h.operator, requireUintInRange_of_is h.assertionMode,
    requireUintInRange_of_is h.crossFieldOffsetB, requireUintInRange_of_is h.crossFieldMultiplierBps,
    requireUintInRange_of_is h.crossFieldFlags,
    validateCrossField_iff h, ConstraintOperator.ofByte_isSome, AssertionMode.ofByte_isSome, hdelta,
    h.valueLen.eq_eq, h.valueLen.gt_eq, decide_eq_false_iff_not, not_lt, h.expectedValue, maxOperatorValue,
    maxAssertionModeValue, deltaMaxValueLen]
  norm_cast
  constructor
  · rintro ⟨-, hlen, hoperator, hmode, -, -, -, hzero, hexpects, hrest⟩
    exact ⟨⟨Nat.pos_of_ne_zero hzero, hlen⟩, hexpects, hoperator, hmode, hrest⟩
  · rintro ⟨⟨hpos, hlen⟩, hexpects, hoperator, hmode, hrest⟩
    exact ⟨by omega, hlen, hoperator, hmode, by omega, by omega, by omega, by omega, hexpects, hrest⟩

/-- What passes is in range, whatever numbers there were. -/
theorem exists_encodes (h : validateSingleEntry e index = .ok ()) : ∃ p, Encodes e p := by
  simp only [validateSingleEntry, bind_eq_ok] at h
  obtain ⟨_, hoffset, _, hlen, _, hoperator, _, hmode, _, hoffsetB, _, hmultiplier, _, hflags, -⟩ := h
  obtain ⟨offset, hoffset, isOffset⟩ := requireUintInRange_iff.mp hoffset
  obtain ⟨valueLen, hlen, isLen⟩ := requireUintInRange_iff.mp hlen
  obtain ⟨operator, hoperator, isOperator⟩ := requireUintInRange_iff.mp hoperator
  obtain ⟨assertionMode, hmode, isMode⟩ := requireUintInRange_iff.mp hmode
  obtain ⟨offsetB, hoffsetB, isOffsetB⟩ := requireUintInRange_iff.mp hoffsetB
  obtain ⟨multiplier, hmultiplier, isMultiplier⟩ := requireUintInRange_iff.mp hmultiplier
  obtain ⟨flags, hflags, isFlags⟩ := requireUintInRange_iff.mp hflags
  simp only [maxConstraintValueLen, maxOperatorValue, maxAssertionModeValue] at hlen hoperator hmode
  refine ⟨{ targetAccount := e.targetAccount
            offset := offset
            valueLen := valueLen
            operator := operator
            expectedValue := e.expectedValue
            assertionMode := assertionMode
            crossFieldOffsetB := offsetB
            crossFieldMultiplierBps := multiplier
            crossFieldFlags := flags }, rfl, isOffset, isLen, isOperator, rfl, isMode, isOffsetB, isMultiplier,
          isFlags, ?_⟩
  constructor <;> dsimp only <;> omega

/-! ## Batches -/

theorem validateSlots_encoded {entries : List PostAssertionEntry} {ps : List Sigil.PostAssertionEntry} {index : Nat}
    (h : List.Forall₂ Encodes entries ps) : validateSlots (entries.map .entry) index = .ok () ↔
      ps.forM PostExecutionAssertions.validateEntry = .ok () := by
  induction h generalizing index with
  | nil => simp [validateSlots]
  | cons hentry _ ih =>
      rw [List.map_cons, validateSlots, List.forM, bind_eq_ok, bind_eq_ok]
      simp only [validateSlot, validateSingleEntry_iff hentry, ih]

theorem validateSlots_mem {slots : List Slot} {index : Nat} (h : validateSlots slots index = .ok ())
    (he : .entry e ∈ slots) : ∃ i, validateSingleEntry e i = .ok () := by
  induction slots generalizing index with
  | nil => cases he
  | cons slot slots ih =>
      obtain ⟨_, hslot, hrest⟩ := bind_eq_ok.mp h
      cases he with
      | head => exact ⟨index, hslot⟩
      | tail _ he => exact ih hrest he

/-- An array of entries that are in range passes exactly if the program accepts it; and an array that passes, whatever
its fields hold, has only entries that are in range. -/
theorem post_assertions_validated :
    (∀ (entries : List PostAssertionEntry) (ps : List Sigil.PostAssertionEntry), List.Forall₂ Encodes entries ps →
      (validatePostAssertionEntries (some (entries.map .entry)) = .ok () ↔
        PostExecutionAssertions.validateEntries ps = .ok ())) ∧
    (∀ slots, validatePostAssertionEntries (some slots) = .ok () → ∀ e, .entry e ∈ slots → ∃ p, Encodes e p) := by
  constructor
  · intro entries ps h
    have hlength := h.length_eq
    have hempty : entries.map Slot.entry ≠ [] ↔ ps ≠ [] := by
      rw [← List.length_pos_iff, ← List.length_pos_iff, List.length_map, hlength]
    show (require _ _ >>= fun _ => _) = _ ↔ (require _ _ >>= fun _ => _) = _
    rw [require_bind_eq_ok, require_bind_eq_ok, hempty, List.length_map, hlength, validateSlots_encoded h]
  · intro slots h e he
    obtain ⟨-, hslots⟩ := require_bind_eq_ok.mp h
    obtain ⟨i, hi⟩ := validateSlots_mem hslots he
    exact exists_encodes hi

end

/-! ### A ratio of two fields passes on both sides -/

theorem JsNumber.is_ofUInt32 (n : UInt32) : (JsNumber.ofUInt32 n).Is n.toNat := ⟨_, rfl, rfl⟩

/-- At most five times the collateral. -/
def leverageEntry : Sigil.PostAssertionEntry :=
  { targetAccount := .key 41
    offset := 128
    valueLen := 8
    operator := 3
    expectedValue := [0, 0, 0, 0, 0, 0, 0, 0]
    assertionMode := 0
    crossFieldOffsetB := 136
    crossFieldMultiplierBps := 50000
    crossFieldFlags := 1 }

def leverageInput : PostAssertionEntry :=
  { targetAccount := .key 41
    offset := .ofUInt32 128
    valueLen := .ofUInt32 8
    operator := .ofUInt32 3
    expectedValue := [0, 0, 0, 0, 0, 0, 0, 0]
    assertionMode := .ofUInt32 0
    crossFieldOffsetB := .ofUInt32 136
    crossFieldMultiplierBps := .ofUInt32 50000
    crossFieldFlags := .ofUInt32 1 }

theorem leverage_encodes : Encodes leverageInput leverageEntry where
  targetAccount := rfl
  offset := JsNumber.is_ofUInt32 128
  valueLen := JsNumber.is_ofUInt32 8
  operator := JsNumber.is_ofUInt32 3
  expectedValue := rfl
  assertionMode := JsNumber.is_ofUInt32 0
  crossFieldOffsetB := JsNumber.is_ofUInt32 136
  crossFieldMultiplierBps := JsNumber.is_ofUInt32 50000
  crossFieldFlags := JsNumber.is_ofUInt32 1
  fits := by constructor <;> decide

theorem post_assertions_validated_leverage :
    validatePostAssertionEntries (some ([leverageInput].map .entry)) = .ok () := by
  have haccepted : PostExecutionAssertions.validateEntries [leverageEntry] = .ok () := by decide
  exact (post_assertions_validated.1 [leverageInput] [leverageEntry] (.cons leverage_encodes .nil)).mpr haccepted

end Sigil.Sdk
