import Sigil.Lemmas.AssertionGrammar

/-!
# The grammar of the assertions

The rules are those that `PostAssertionEntryZC` documents. The checks enforce all of them but one: on an entry that does
not compare two fields, nobody looks at the reserved bits of the flags.
-/

namespace Sigil

/-- The rules for one entry. -/
structure PostAssertionEntry.Documented (entry : PostAssertionEntry) : Prop where
  valueLen : 1 ≤ entry.valueLen ∧ entry.valueLen ≤ 32
  expectedValue : entry.valueLen ≤ entry.expectedValue.length
  operator : entry.operator ≤ 6
  assertionMode : entry.assertionMode ≤ 3
  delta : 1 ≤ entry.assertionMode → entry.valueLen ≤ 8
  reserved : ∀ bit, 1 ≤ bit → entry.crossFieldFlags.testBit bit = false
  enabled : entry.crossFieldFlags.testBit 0 → entry.valueLen ≤ 8 ∧ entry.assertionMode = 0 ∧
    0 < entry.crossFieldMultiplierBps
  disabled : entry.crossFieldFlags.testBit 0 = false → entry.crossFieldOffsetB = 0 ∧ entry.crossFieldMultiplierBps = 0

/-- The rules for a list of entries. -/
def Documented (entries : List PostAssertionEntry) : Prop :=
  (1 ≤ entries.length ∧ entries.length ≤ 4) ∧ ∀ entry ∈ entries, entry.Documented

/-- The entry without the reserved bits of flags that are disabled. -/
def PostAssertionEntry.cleared (entry : PostAssertionEntry) : PostAssertionEntry :=
  if entry.crossFieldFlags.testBit 0 then entry else { entry with crossFieldFlags := 0 }

section
variable {entry : PostAssertionEntry} {entries : List PostAssertionEntry}

theorem testBit_zero_eq_false {n : Nat} : n.testBit 0 = false ↔ n % 2 = 0 := by
  rw [Nat.testBit_zero, decide_eq_false_iff_not]
  omega

/-- No bit from 1 on. -/
theorem reserved_iff {n : Nat} : (∀ bit, 1 ≤ bit → n.testBit bit = false) ↔ n < 2 := by
  constructor
  · intro h
    exact Nat.lt_pow_two_of_testBit n h
  · intro h bit hbit
    exact Nat.testBit_lt_two_pow ((show n < 2 ^ 1 from h).trans_le (Nat.pow_le_pow_right Nat.two_pos hbit))

theorem documented_iff :
    entry.Documented ↔ entry.Accepted ∧ (entry.crossFieldFlags % 2 = 0 → entry.crossFieldFlags = 0) := by
  constructor
  · intro h
    have hreserved := reserved_iff.mp h.reserved
    have henabled := h.enabled
    have hdisabled := h.disabled
    rw [Nat.testBit_zero, decide_eq_true_eq] at henabled
    rw [testBit_zero_eq_false] at hdisabled
    refine ⟨⟨h.valueLen.1, h.valueLen.2, h.expectedValue, h.operator, h.assertionMode,
      fun hne => h.delta (Nat.pos_of_ne_zero hne), fun hflag => ?_, hdisabled⟩, fun hflag => by omega⟩
    obtain ⟨hlen, hmode, hmultiplier⟩ := henabled hflag
    exact ⟨hlen, hmode, hmultiplier, by omega⟩
  · rintro ⟨h, hzero⟩
    constructor
    case valueLen => exact ⟨h.len_pos, h.len_le⟩
    case expectedValue => exact h.expects
    case operator => exact h.operator_le
    case assertionMode => exact h.mode_le
    case delta => exact fun hmode => h.delta (Nat.ne_of_gt hmode)
    case reserved =>
      apply reserved_iff.mpr
      rcases Nat.mod_two_eq_zero_or_one entry.crossFieldFlags with hflag | hflag
      · rw [hzero hflag]
        decide
      · rw [(h.enabled hflag).2.2.2]
        decide
    case enabled =>
      rw [Nat.testBit_zero, decide_eq_true_eq]
      intro hflag
      obtain ⟨hlen, hmode, hmultiplier, -⟩ := h.enabled hflag
      exact ⟨hlen, hmode, hmultiplier⟩
    case disabled => exact fun hflag => h.disabled (testBit_zero_eq_false.mp hflag)

theorem cleared_eq : entry.cleared =
    { entry with crossFieldFlags := if entry.crossFieldFlags % 2 = 1 then entry.crossFieldFlags else 0 } := by
  simp only [PostAssertionEntry.cleared, Nat.testBit_zero, decide_eq_true_eq]
  split <;> rfl

/-- The checks see only bit 0 of flags that are disabled. -/
theorem documented_cleared_iff : entry.cleared.Documented ↔ entry.Accepted := by
  rw [documented_iff, cleared_eq]
  rcases Nat.mod_two_eq_zero_or_one entry.crossFieldFlags with hflag | hflag
  · rw [if_neg (by omega)]
    constructor
    · rintro ⟨h, -⟩
      exact ⟨h.len_pos, h.len_le, h.expects, h.operator_le, h.mode_le, h.delta, fun hone => by omega,
        fun _ => h.disabled rfl⟩
    · intro h
      exact ⟨⟨h.len_pos, h.len_le, h.expects, h.operator_le, h.mode_le, h.delta,
        fun hone => absurd hone Nat.zero_ne_one, fun _ => h.disabled hflag⟩, fun _ => rfl⟩
  · rw [if_pos hflag]
    have hodd : entry.crossFieldFlags % 2 ≠ 0 := by omega
    exact ⟨fun h => h.1, fun h => ⟨h, fun hzero => absurd hzero hodd⟩⟩

theorem documented_map_cleared_iff :
    Documented (entries.map PostAssertionEntry.cleared) ↔ PostExecutionAssertions.validateEntries entries = .ok () := by
  rw [PostExecutionAssertions.validateEntries_iff, Documented, List.length_map]
  refine and_congr Iff.rfl ?_
  simp only [List.forall_mem_map, documented_cleared_iff]

/-- The checks accept what the rules accept unless disabled flags have a reserved bit and the entries meet every other
rule. -/
theorem assertion_grammar_iff (entries : List PostAssertionEntry) :
    (PostExecutionAssertions.validateEntries entries = .ok () ↔ Documented entries) ↔
      (∀ entry ∈ entries, entry.crossFieldFlags.testBit 0 = false → entry.crossFieldFlags = 0) ∨
        ¬ Documented (entries.map PostAssertionEntry.cleared) := by
  have hdocumented : Documented entries ↔ PostExecutionAssertions.validateEntries entries = .ok () ∧
      ∀ entry ∈ entries, entry.crossFieldFlags.testBit 0 = false → entry.crossFieldFlags = 0 := by
    simp only [Documented, documented_iff, PostExecutionAssertions.validateEntries_iff, testBit_zero_eq_false,
      forall_and, and_assoc, maxPostAssertionEntries]
  rw [hdocumented, documented_map_cleared_iff]
  tauto

end

/-- The position of an account may not fall, and flag 1 is set. -/
def reservedEntry : PostAssertionEntry :=
  { targetAccount := .key 40
    offset := 72
    valueLen := 8
    operator := 2
    expectedValue := [0, 202, 154, 59, 0, 0, 0, 0]
    assertionMode := 0
    crossFieldOffsetB := 0
    crossFieldMultiplierBps := 0
    crossFieldFlags := 2 }

theorem reserved_bit_accepted :
    ¬ ∀ entries, PostExecutionAssertions.validateEntries entries = .ok () ↔ Documented entries := by
  intro h
  have haccepted : PostExecutionAssertions.validateEntries [reservedEntry] = .ok () := by decide
  have hreserved := (((h [reservedEntry]).mp haccepted).2 reservedEntry (by simp)).reserved 1 (by decide)
  exact absurd hreserved (by decide)

end Sigil
