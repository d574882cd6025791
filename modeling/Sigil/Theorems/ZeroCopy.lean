import Sigil.Lemmas.ConstraintArrays
import Sigil.Theorems.Constraints

/-!
# The zero-copy matcher does what the Borsh matcher does

Packed over any previous entries, and copied as bytes by an update, the arrays match what their entries match.
-/

namespace Sigil

open Library

/-- The first entry that an instruction meets. -/
def FirstMatch (ix : RawInstruction) (entries : List ConstraintEntry) (i : Nat) : Prop :=
  ∃ entry, entries[i]? = some entry ∧ entry.Meets ix ∧
    ∀ (j : Nat) (e : ConstraintEntry), j < i → entries[j]? = some e → ¬ e.Meets ix

/-- A result on arrays that agrees with the Borsh matcher on the entries. -/
def Agrees (entries : List ConstraintEntry) (ix : RawInstruction) (result : Eval ProgramError (Option Nat)) : Prop :=
  match verifyAgainstEntriesBorsh entries ix with
  | .ok true => ∃ i, FirstMatch ix entries i ∧ result = .ok (some i)
  | .ok false => (∀ entry ∈ entries, entry.programId ≠ ix.programId) ∧ result = .ok none
  | .error e => (e = .sigil .accountWritabilityMismatch ∨ e = .sigil .constraintViolated) ∧
      result = .error (.error e)

section
variable {entries : List ConstraintEntry} {ix : RawInstruction} {i k : Nat} {found writability : Bool}

/-! ## The two matchers on lists -/

theorem verifyEntries_borsh : Option.isSome <$> verifyEntries ix entries i found writability =
    verifyBorsh ix (entries.filter (·.programId = ix.programId)) found writability := by
  induction entries generalizing i found writability with
  | nil =>
      cases found with
      | false => rfl
      | true => cases writability <;> rfl
  | cons entry entries ih =>
      rw [verifyEntries]
      by_cases hprogram : entry.programId = ix.programId
      · rw [if_neg (not_not.mpr hprogram), List.filter_cons_of_pos (by simpa using hprogram), verifyBorsh]
        cases verifyAccountConstraints ix.accounts entry with
        | ok _ =>
            cases verifyDataConstraints ix.data entry with
            | ok _ => rfl
            | error e => simpa [Except.isOk, Except.toBool] using ih
        | error e =>
            cases verifyDataConstraints ix.data entry with
            | ok _ => simpa [Except.isOk, Except.toBool] using ih
            | error e' => simpa [Except.isOk, Except.toBool] using ih
      · rw [if_pos hprogram, List.filter_cons_of_neg (by simpa using hprogram)]
        exact ih

theorem FirstMatch.cons {entry : ConstraintEntry} (h : FirstMatch ix entries i) (hentry : ¬ entry.Meets ix) :
    FirstMatch ix (entry :: entries) (i + 1) := by
  obtain ⟨e, he, hmeets, hfirst⟩ := h
  refine ⟨e, he, hmeets, fun j e' hj he' => ?_⟩
  cases j with
  | zero =>
      cases he'
      exact hentry
  | succ j => exact hfirst j e' (Nat.lt_of_succ_lt_succ hj) he'

theorem verifyEntries_first (h : verifyEntries ix entries i found writability = .ok (some k)) :
    ∃ j, k = i + j ∧ FirstMatch ix entries j := by
  induction entries generalizing i found writability with
  | nil => cases found <;> cases writability <;> cases h
  | cons entry entries ih =>
      have hlater {found writability : Bool} (hentry : ¬ entry.Meets ix)
          (h : verifyEntries ix entries (i + 1) found writability = .ok (some k)) :
          ∃ j, k = i + j ∧ FirstMatch ix (entry :: entries) j := by
        obtain ⟨j, rfl, hj⟩ := ih h
        exact ⟨j + 1, by omega, hj.cons hentry⟩
      rw [verifyEntries] at h
      split at h
      · rename_i hprogram
        exact hlater (fun hmeets => hprogram hmeets.1) h
      · rename_i hprogram
        split at h
        · rename_i haccounts hdata
          cases h
          exact ⟨0, rfl, entry, rfl, ⟨not_not.mp hprogram, haccounts, hdata⟩, by simp⟩
        · rename_i haccounts _
          exact hlater (fun hmeets => by rw [hmeets.2.1] at haccounts; cases haccounts) h
        · rename_i hdata
          exact hlater (fun hmeets => by rw [hmeets.2.2] at hdata; cases hdata) h

theorem verifyBorsh_error {e : ProgramError} (h : verifyBorsh ix entries found writability = .error e) :
    e = .sigil .accountWritabilityMismatch ∨ e = .sigil .constraintViolated := by
  induction entries generalizing found writability with
  | nil =>
      cases found with
      | false => cases h
      | true =>
          cases writability with
          | false => cases h; exact .inr rfl
          | true => cases h; exact .inl rfl
  | cons entry entries ih =>
      rw [verifyBorsh] at h
      dsimp only at h
      split at h
      · cases h
      · exact ih h

/-- On lists the two matchers agree. -/
theorem agrees_verifyEntries (entries : List ConstraintEntry) (ix : RawInstruction) :
    Agrees entries ix (lift (verifyEntries ix entries 0 false false)) := by
  have hborsh : Option.isSome <$> verifyEntries ix entries 0 false false = verifyAgainstEntriesBorsh entries ix :=
    verifyEntries_borsh
  unfold Agrees
  cases hlist : verifyEntries ix entries 0 false false with
  | error e =>
      rw [hlist] at hborsh
      rw [← hborsh]
      exact ⟨verifyBorsh_error hborsh.symm, rfl⟩
  | ok matched =>
      rw [hlist] at hborsh
      rw [← hborsh]
      cases matched with
      | none =>
          refine ⟨?_, rfl⟩
          rcases verifyEntries_ok hlist with ⟨hsome, -⟩ | ⟨-, -, hall⟩
          · cases hsome
          · exact hall
      | some k =>
          obtain ⟨j, rfl, hfirst⟩ := verifyEntries_first hlist
          rw [Nat.zero_add]
          exact ⟨j, hfirst, rfl⟩

theorem Agrees.first {result : Eval ProgramError (Option Nat)} (h : Agrees entries ix result)
    (hresult : result = .ok (some i)) : FirstMatch ix entries i := by
  unfold Agrees at h
  subst hresult
  split at h
  · obtain ⟨j, hfirst, hj⟩ := h
    cases hj
    exact hfirst
  · cases h.2
  · cases h.2

/-! ## Arrays -/

theorem evalAgainstEntries_agrees {constraints : InstructionConstraintsZC}
    (h : PackedConstraints entries constraints.entries constraints.entryCount) (ix : RawInstruction) :
    Agrees entries ix (evalAgainstEntries constraints ix) := by
  have hfollows : Follows Eq (evalEntries ix constraints entries.length 0 false false)
      (verifyEntries ix entries 0 false false) := by
    apply evalEntries_follows
    simpa using h.entry
  rw [evalAgainstEntries, h.count, hfollows.eq_lift]
  exact agrees_verifyEntries entries ix

/-! ## The byte copy -/

theorem evalApplyConstraints_eq (pending : PendingConstraintsUpdateZC) (constraints : InstructionConstraintsZC) :
    evalApplyConstraints pending constraints = .ok { constraints with
      entries := pending.entries
      entryCount := pending.entryCount
      strictMode := pending.strictMode } := by
  have hcopy := Layout.copyBetween_cells (ε := ProgramError) headerLayout headerLayout entriesLayout pendingTailLayout
    constraintsTailLayout rfl (pending.discriminator, pending.vault) (constraints.discriminator, constraints.vault)
    pending.entries constraints.entries (pending.entryCount, pending.strictMode, pending.bump, pending.padding,
      pending.queuedAt, pending.executesAt, pending.queuedAtSlot)
    (constraints.entryCount, constraints.strictMode, constraints.bump, constraints.constraintVersion,
      constraints.padding)
  have hread := InstructionConstraintsZC.layout.read_cells { constraints with entries := pending.entries } []
  rw [List.append_nil] at hread
  refine bind_eq_ok.mpr ⟨_, hcopy, bind_eq_ok.mpr ⟨_, okOr_eq_ok.mpr hread, rfl⟩⟩

theorem zero_copy_agrees (hvalid : InstructionConstraints.validateEntries entries = .ok ())
    (hfits : ∀ entry ∈ entries, entry.Fits) :
    (∀ dst, ∃ packed, packConstraintEntries entries dst = .ok packed ∧
      ∀ constraints : InstructionConstraintsZC, constraints.entries = packed.1 → constraints.entryCount = packed.2 →
        ∀ ix, Agrees entries ix (evalAgainstEntries constraints ix)) ∧
    (∀ strictMode queuedAt executesAt slot pending constraints, ∃ queued applied,
      evalQueueConstraints entries strictMode queuedAt executesAt slot pending = .ok queued ∧
        evalApplyConstraints queued constraints = .ok applied ∧
          ∀ ix, Agrees entries ix (evalAgainstEntries applied ix)) := by
  constructor
  · intro dst
    obtain ⟨packed, hpack, hpacked⟩ := packConstraintEntries_packed hvalid hfits dst
    refine ⟨packed, hpack, fun constraints hentries hcount ix => ?_⟩
    apply evalAgainstEntries_agrees
    rwa [hentries, hcount]
  · intro strictMode queuedAt executesAt slot pending constraints
    obtain ⟨packed, hpack, hpacked⟩ := packConstraintEntries_packed hvalid hfits pending.entries
    refine ⟨_, _, bind_eq_ok.mpr ⟨packed, hpack, rfl⟩, evalApplyConstraints_eq _ _, fun ix => ?_⟩
    exact evalAgainstEntries_agrees hpacked ix

/-- A trade of either kind; the second one is of at least 100, with the account at key 30. -/
def flashEntries : List ConstraintEntry :=
  [flashEntry,
   { flashEntry with
     dataConstraints :=
       [{ offset := 0, operator := .eq, value := [8, 7, 6, 5, 4, 3, 2, 1] },
        { offset := 8, operator := .gte, value := [100, 0] }]
     accountConstraints := [{ index := 1, isWritableRequired := 2, expected := .key 30 }] }]

theorem zero_copy_agrees_flash :
    (∀ dst, ∃ packed, packConstraintEntries flashEntries dst = .ok packed ∧
      ∀ constraints : InstructionConstraintsZC, constraints.entries = packed.1 → constraints.entryCount = packed.2 →
        ∀ ix, Agrees flashEntries ix (evalAgainstEntries constraints ix)) ∧
    (∀ strictMode queuedAt executesAt slot pending constraints, ∃ queued applied,
      evalQueueConstraints flashEntries strictMode queuedAt executesAt slot pending = .ok queued ∧
        evalApplyConstraints queued constraints = .ok applied ∧
          ∀ ix, Agrees flashEntries ix (evalAgainstEntries applied ix)) := by
  apply zero_copy_agrees
  · rfl
  · simp [ConstraintEntry.fits_iff, flashEntries, flashEntry]

/-! ## Every match is anchored -/

/-- The instruction starts with the discriminator of the entry. -/
def Anchored (entry : ConstraintEntry) (ix : RawInstruction) : Prop :=
  ∃ first, entry.dataConstraints.head? = some first ∧ first.value <+: ix.data ∧ (∃ b ∈ first.value, b ≠ 0) ∧
    (8 ≤ first.value.length ∨
      (entry.programId = splTokenProgramId ∨ entry.programId = token2022ProgramId) ∧ 1 ≤ first.value.length)

theorem prefix_of_verifyDataConstraint {dc : DataConstraint} (hoffset : dc.offset = 0) (hoperator : dc.operator = .eq)
    (h : verifyDataConstraint ix.data dc = .ok ()) : dc.value <+: ix.data := by
  obtain ⟨-, hmatch⟩ := require_bind_eq_ok.mp h
  rw [require_eq_ok, hoperator, hoffset, List.drop_zero, bytesMatch, decide_eq_true_eq] at hmatch
  rw [← hmatch]
  exact List.take_prefix _ _

theorem ConstraintEntry.Valid.anchored {entry : ConstraintEntry} (h : entry.Valid) (hmeets : entry.Meets ix) :
    Anchored entry ix := by
  obtain ⟨first, hfirst, hoffset, hoperator, hlen, hnonzero⟩ := h.anchor
  have hmem : first ∈ entry.dataConstraints := List.mem_of_head? hfirst
  have hdata : verifyDataConstraint ix.data first = .ok () := forM_eq_ok.mp hmeets.2.2 first hmem
  refine ⟨first, hfirst, prefix_of_verifyDataConstraint hoffset hoperator hdata, hnonzero, ?_⟩
  cases hformat : entry.discriminatorFormat with
  | anchor8 =>
      rw [hformat] at hlen
      exact .inl hlen
  | spl1 =>
      rw [hformat] at hlen
      exact .inr ⟨h.spl hformat, hlen⟩

theorem discriminators_anchored (hvalid : InstructionConstraints.validateEntries entries = .ok ())
    (hfits : ∀ entry ∈ entries, entry.Fits) :
    (∀ dst, ∃ packed, packConstraintEntries entries dst = .ok packed ∧
      ∀ constraints : InstructionConstraintsZC, constraints.entries = packed.1 → constraints.entryCount = packed.2 →
        ∀ ix i, evalAgainstEntries constraints ix = .ok (some i) →
          ∃ entry, entries[i]? = some entry ∧ entry.programId = ix.programId ∧ Anchored entry ix) ∧
    (∀ a ∈ entries, ∀ b ∈ entries, a.programId = b.programId → a.discriminatorFormat = b.discriminatorFormat) := by
  obtain ⟨-, hentries, hformats⟩ := InstructionConstraints.validateEntries_valid hvalid
  refine ⟨fun dst => ?_, hformats⟩
  obtain ⟨packed, hpack, hpacked⟩ := packConstraintEntries_packed hvalid hfits dst
  refine ⟨packed, hpack, fun constraints harray hcount ix i hmatch => ?_⟩
  rw [← harray, ← hcount] at hpacked
  obtain ⟨entry, hentry, hmeets, -⟩ := (evalAgainstEntries_agrees hpacked ix).first hmatch
  exact ⟨entry, hentry, hmeets.1, (hentries entry (List.mem_of_getElem? hentry)).anchored hmeets⟩

theorem discriminators_anchored_flash :
    (∀ dst, ∃ packed, packConstraintEntries flashEntries dst = .ok packed ∧
      ∀ constraints : InstructionConstraintsZC, constraints.entries = packed.1 → constraints.entryCount = packed.2 →
        ∀ ix i, evalAgainstEntries constraints ix = .ok (some i) →
          ∃ entry, flashEntries[i]? = some entry ∧ entry.programId = ix.programId ∧ Anchored entry ix) ∧
    (∀ a ∈ flashEntries, ∀ b ∈ flashEntries, a.programId = b.programId →
      a.discriminatorFormat = b.discriminatorFormat) := by
  apply discriminators_anchored
  · rfl
  · simp [ConstraintEntry.fits_iff, flashEntries, flashEntry]

end

end Sigil
