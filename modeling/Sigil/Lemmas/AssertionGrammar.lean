import Sigil.Library.Result
import Sigil.State.Constraints

/-!
# What the checks of the assertions accept
-/

namespace Sigil

open Library

/-- The checks of `validate_entries` on one entry, field by field. -/
structure PostAssertionEntry.Accepted (entry : PostAssertionEntry) : Prop where
  len_pos : 0 < entry.valueLen
  len_le : entry.valueLen ≤ maxConstraintValueLen
  expects : entry.valueLen ≤ entry.expectedValue.length
  operator_le : entry.operator ≤ 6
  mode_le : entry.assertionMode ≤ 3
  delta : entry.assertionMode ≠ 0 → entry.valueLen ≤ 8
  enabled : entry.crossFieldFlags % 2 = 1 → entry.valueLen ≤ 8 ∧ entry.assertionMode = 0 ∧
    0 < entry.crossFieldMultiplierBps ∧ entry.crossFieldFlags = 1
  disabled : entry.crossFieldFlags % 2 = 0 → entry.crossFieldOffsetB = 0 ∧ entry.crossFieldMultiplierBps = 0

section
variable {entry : PostAssertionEntry} {entries : List PostAssertionEntry}

theorem ConstraintOperator.ofByte_isSome {n : Nat} : (ofByte n).isSome ↔ n ≤ 6 := by
  unfold ofByte
  split <;> simp_all
  omega

theorem AssertionMode.ofByte_isSome {n : Nat} : (ofByte n).isSome ↔ n ≤ 3 := by
  unfold ofByte
  split <;> simp_all
  omega

namespace PostExecutionAssertions

theorem validateCrossField_iff : validateCrossField entry = .ok () ↔
    (entry.crossFieldFlags % 2 = 1 → entry.valueLen ≤ 8 ∧ entry.assertionMode = 0 ∧
      0 < entry.crossFieldMultiplierBps ∧ entry.crossFieldFlags = 1) ∧
    (entry.crossFieldFlags % 2 = 0 → entry.crossFieldOffsetB = 0 ∧ entry.crossFieldMultiplierBps = 0) := by
  unfold validateCrossField
  rcases Nat.mod_two_eq_zero_or_one entry.crossFieldFlags with hflag | hflag
  · rw [if_neg (by omega), require_eq_ok]
    simp [hflag]
  · rw [if_pos hflag]
    simp [hflag, bind_eq_ok]

theorem validateEntry_iff : validateEntry entry = .ok () ↔ entry.Accepted := by
  simp only [validateEntry, require_bind_eq_ok, validateCrossField_iff, ConstraintOperator.ofByte_isSome,
    AssertionMode.ofByte_isSome]
  constructor
  · rintro ⟨⟨hpos, hle⟩, hexpects, hoperator, hmode, hdelta, henabled, hdisabled⟩
    exact ⟨hpos, hle, hexpects, hoperator, hmode, fun hne => hdelta ⟨by omega, hmode⟩, henabled, hdisabled⟩
  · intro h
    exact ⟨⟨h.len_pos, h.len_le⟩, h.expects, h.operator_le, h.mode_le, fun hmode => h.delta (by omega), h.enabled,
      h.disabled⟩

theorem validateEntries_iff : validateEntries entries = .ok () ↔
    (1 ≤ entries.length ∧ entries.length ≤ maxPostAssertionEntries) ∧ ∀ entry ∈ entries, entry.Accepted := by
  rw [validateEntries, require_bind_eq_ok, ← List.length_pos_iff]
  refine and_congr Iff.rfl (forM_eq_ok.trans ?_)
  simp only [validateEntry_iff]

end PostExecutionAssertions

end

end Sigil
