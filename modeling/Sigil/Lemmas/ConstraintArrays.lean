import Sigil.Instructions.ConstraintArrays
import Sigil.Lemmas.AssertionArrays
import Sigil.Lemmas.Scan

/-!
# Arrays of constraints follow the entries
-/

namespace Sigil

open Library

/-! ## What the checks of the entries ensure -/

/-- The widths of the fields on the wire. -/
structure ConstraintEntry.Fits (entry : ConstraintEntry) : Prop where
  offset : ∀ dc ∈ entry.dataConstraints, dc.offset < 2 ^ 16
  index : ∀ ac ∈ entry.accountConstraints, ac.index < 2 ^ 8 ∧ ac.isWritableRequired < 2 ^ 8

theorem ConstraintEntry.fits_iff {entry : ConstraintEntry} : entry.Fits ↔
    (∀ dc ∈ entry.dataConstraints, dc.offset < 2 ^ 16) ∧
      ∀ ac ∈ entry.accountConstraints, ac.index < 2 ^ 8 ∧ ac.isWritableRequired < 2 ^ 8 :=
  ⟨fun h => ⟨h.offset, h.index⟩, fun h => ⟨h.1, h.2⟩⟩

/-- What `validate_entries` has found of an entry. -/
structure ConstraintEntry.Valid (entry : ConstraintEntry) : Prop where
  dataCount : entry.dataConstraints.length ≤ 8
  accountCount : entry.accountConstraints.length ≤ 5
  writable : ∀ ac ∈ entry.accountConstraints, ac.isWritableRequired ≤ 2
  value : ∀ dc ∈ entry.dataConstraints, dc.value ≠ [] ∧ dc.value.length ≤ 32
  anchor : ∃ first, entry.dataConstraints.head? = some first ∧ first.offset = 0 ∧ first.operator = .eq ∧
    entry.discriminatorFormat.minDiscriminatorLen ≤ first.value.length ∧ (∃ b ∈ first.value, b ≠ 0)
  spl : entry.discriminatorFormat = .spl1 → entry.programId = splTokenProgramId ∨ entry.programId = token2022ProgramId

section
variable {entry : ConstraintEntry} {entries : List ConstraintEntry} {dc : DataConstraint} {ac : AccountConstraint}
  {ix : RawInstruction} {i : Nat}

namespace InstructionConstraints

theorem validateEntry_valid (h : validateEntry entry = .ok ()) : entry.Valid := by
  simp only [validateEntry, validateAnchor, validateDataConstraint, bind_eq_ok, okOr_eq_ok, forM_eq_ok,
    require_eq_ok, exists_and_left, exists_const, List.all_eq_true, List.any_eq_true,
    decide_eq_true_eq] at h
  obtain ⟨hdata, haccounts, hwritable, first, hfirst, ⟨hoffset, hoperator, hlen, hnonzero, hspl, -⟩, hvalues⟩ := h
  exact ⟨hdata, haccounts, hwritable, fun dc hdc => ⟨(hvalues dc hdc).2.1, (hvalues dc hdc).1⟩,
    ⟨first, hfirst, hoffset, hoperator, hlen, hnonzero⟩, hspl⟩

theorem consistentFormats_mem (h : consistentFormats entries) : ∀ a ∈ entries, ∀ b ∈ entries,
    a.programId = b.programId → a.discriminatorFormat = b.discriminatorFormat := by
  induction entries with
  | nil => simp
  | cons entry entries ih =>
      rw [consistentFormats, Bool.and_eq_true, List.all_eq_true] at h
      obtain ⟨hfirst, hrest⟩ := h
      have hfirst : ∀ e ∈ entries, e.programId = entry.programId → e.discriminatorFormat = entry.discriminatorFormat :=
        fun e he => of_decide_eq_true (hfirst e he)
      intro a ha b hb hab
      cases ha with
      | head =>
          cases hb with
          | head => rfl
          | tail _ hb => exact (hfirst b hb hab.symm).symm
      | tail _ ha =>
          cases hb with
          | head => exact hfirst a ha hab
          | tail _ hb => exact ih hrest a ha b hb hab

theorem validateEntries_valid (h : validateEntries entries = .ok ()) :
    entries.length ≤ 64 ∧ (∀ entry ∈ entries, entry.Valid) ∧ ∀ a ∈ entries, ∀ b ∈ entries,
      a.programId = b.programId → a.discriminatorFormat = b.discriminatorFormat := by
  simp only [validateEntries, require_bind_eq_ok, forM_eq_ok] at h
  obtain ⟨hlength, hformats, hentries⟩ := h
  exact ⟨hlength, fun entry hentry => validateEntry_valid (hentries entry hentry), consistentFormats_mem hformats⟩

end InstructionConstraints

/-! ## Packing -/

structure PackedData (dc : DataConstraint) (zc : DataConstraintZC) : Prop where
  offset : zc.offset.toNat = dc.offset
  operator : ConstraintOperator.ofByte zc.operator.toNat = some dc.operator
  valueLen : zc.valueLen.toNat = dc.value.length
  value : zc.value.toList.take dc.value.length = dc.value

structure PackedAccount (ac : AccountConstraint) (zc : AccountConstraintZC) : Prop where
  expected : zc.expected = ac.expected
  index : zc.index.toNat = ac.index
  isWritableRequired : zc.isWritableRequired.toNat = ac.isWritableRequired

structure PackedConstraint (entry : ConstraintEntry) (zc : ConstraintEntryZC) : Prop where
  programId : zc.programId = entry.programId
  dataCount : zc.dataCount.toNat = entry.dataConstraints.length
  accountCount : zc.accountCount.toNat = entry.accountConstraints.length
  data : ∀ (j : Nat) (dc : DataConstraint), entry.dataConstraints[j]? = some dc →
    ∃ z, zc.dataConstraints.toList[j]? = some z ∧ PackedData dc z
  accounts : ∀ (k : Nat) (ac : AccountConstraint), entry.accountConstraints[k]? = some ac →
    ∃ z, zc.accountConstraints.toList[k]? = some z ∧ PackedAccount ac z

theorem ConstraintOperator.ofByte_toByte (operator : ConstraintOperator) :
    ofByte operator.toByte.toNat = some operator := by
  cases operator <;> rfl

theorem packDataConstraint_packed (hlen : dc.value.length ≤ 32) (hoffset : dc.offset < 2 ^ 16) (zc : DataConstraintZC) :
    ∃ zc', packDataConstraint dc zc = .ok zc' ∧ PackedData dc zc' := by
  obtain ⟨value, hcopy, hvalue⟩ := exists_copyFromSlice (ε := ProgramError) zc.value hlen rfl
  refine ⟨_, bind_eq_ok.mpr ⟨value, hcopy, rfl⟩, ?_⟩
  constructor
  case offset => exact Nat.mod_eq_of_lt hoffset
  case operator => exact dc.operator.ofByte_toByte
  case valueLen => exact Nat.mod_eq_of_lt (hlen.trans_lt (by decide))
  case value => rw [hvalue, List.take_left]

theorem packAccountConstraint_packed (hindex : ac.index < 2 ^ 8) (hwritable : ac.isWritableRequired < 2 ^ 8)
    (zc : AccountConstraintZC) : ∃ zc', packAccountConstraint ac zc = .ok zc' ∧ PackedAccount ac zc' := by
  refine ⟨_, rfl, ?_⟩
  constructor
  case expected => rfl
  case index => exact Nat.mod_eq_of_lt hindex
  case isWritableRequired => exact Nat.mod_eq_of_lt hwritable

theorem packConstraintEntry_packed (hvalid : entry.Valid) (hfits : entry.Fits) (zc : ConstraintEntryZC) :
    ∃ zc', packConstraintEntry entry zc = .ok zc' ∧ PackedConstraint entry zc' := by
  obtain ⟨data, hdata, -, hpackedData⟩ := packInto_packed
    (fun dc hdc => packDataConstraint_packed (hvalid.value dc hdc).2 (hfits.offset dc hdc))
    ConstraintEntryZC.zeroed.dataConstraints (i := 0) (by rw [Nat.zero_add]; exact hvalid.dataCount)
  obtain ⟨accounts, haccounts, -, hpackedAccounts⟩ := packInto_packed
    (fun ac hac => packAccountConstraint_packed (hfits.index ac hac).1 (hfits.index ac hac).2)
    ConstraintEntryZC.zeroed.accountConstraints (i := 0) (by rw [Nat.zero_add]; exact hvalid.accountCount)
  refine ⟨_, bind_eq_ok.mpr ⟨data, hdata, bind_eq_ok.mpr ⟨accounts, haccounts, rfl⟩⟩, ?_⟩
  constructor
  case programId => rfl
  case dataCount => exact Nat.mod_eq_of_lt (hvalid.dataCount.trans_lt (by decide))
  case accountCount => exact Nat.mod_eq_of_lt (hvalid.accountCount.trans_lt (by decide))
  case data => simpa using hpackedData
  case accounts => simpa using hpackedAccounts

/-- The arrays hold the entries, whatever lies behind them. -/
structure PackedConstraints (entries : List ConstraintEntry) (zcs : Vector ConstraintEntryZC 64) (count : UInt8) :
    Prop where
  count : count.toNat = entries.length
  entry : ∀ (i : Nat) (entry : ConstraintEntry), entries[i]? = some entry →
    ∃ zc, zcs.toList[i]? = some zc ∧ PackedConstraint entry zc

theorem packConstraintEntries_packed (hvalid : InstructionConstraints.validateEntries entries = .ok ())
    (hfits : ∀ entry ∈ entries, entry.Fits) (dst : Vector ConstraintEntryZC 64) :
    ∃ packed, packConstraintEntries entries dst = .ok packed ∧ PackedConstraints entries packed.1 packed.2 := by
  obtain ⟨hlength, hentries, -⟩ := InstructionConstraints.validateEntries_valid hvalid
  obtain ⟨zcs, hpack, -, hpacked⟩ := packInto_packed
    (fun entry hentry => packConstraintEntry_packed (hentries entry hentry) (hfits entry hentry)) dst (i := 0)
    (by rwa [Nat.zero_add])
  refine ⟨_, bind_eq_ok.mpr ⟨zcs, hpack, rfl⟩, Nat.mod_eq_of_lt (hlength.trans_lt (by decide)), ?_⟩
  simpa using hpacked

/-! ## Matching -/

section
variable {zc : ConstraintEntryZC} {constraints : InstructionConstraintsZC}

theorem evalDataConstraint_follows {data : List UInt8} {j : Nat} (hpacked : PackedConstraint entry zc)
    (hdc : entry.dataConstraints[j]? = some dc) :
    Follows (fun _ _ => True) (evalDataConstraint data zc j) (verifyDataConstraint data dc) := by
  obtain ⟨z, hz, hp⟩ := hpacked.data j dc hdc
  have hoffset : z.offset.toNat < 2 ^ 16 := z.offset.toNat_lt
  have hlen : z.valueLen.toNat < 2 ^ 8 := z.valueLen.toNat_lt
  have hadd : checkedAdd 64 z.offset.toNat z.valueLen.toNat = some (z.offset.toNat + z.valueLen.toNat) :=
    checkedAdd_eq_some.mpr ⟨by simp only [uMax]; omega, rfl⟩
  have hvalue : dc.value.length ≤ z.value.toList.length := by
    have htake := congrArg List.length hp.value
    rw [List.length_take] at htake
    omega
  unfold evalDataConstraint verifyDataConstraint
  refine Follows.bind_left (indexAt_eq_ok.mpr hz) ?_
  dsimp only
  rw [hadd, hp.offset, hp.valueLen, hp.operator]
  refine Follows.bind_left rfl (follows_require Iff.rfl fun hlong => ?_)
  refine Follows.bind_left (slice_eq (Nat.le_add_right ..) hlong) (Follows.bind_left
    (slice_eq (Nat.zero_le _) hvalue) (Follows.bind_left rfl (Follows.bind_left (evalBytesMatch_eq ..) ?_)))
  rw [Nat.add_sub_cancel_left, List.drop_zero, Nat.sub_zero, hp.value]
  exact follows_require_last Iff.rfl

theorem evalDataConstraints_follows {data : List UInt8} (hpacked : PackedConstraint entry zc) :
    Follows (fun _ _ => True) (evalDataConstraints data zc) (verifyDataConstraints data entry) := by
  rw [evalDataConstraints, hpacked.dataCount]
  exact follows_forM fun j dc hdc => evalDataConstraint_follows hpacked hdc

theorem evalAccountConstraint_follows {accounts : List AccountMeta} {k : Nat} (hpacked : PackedConstraint entry zc)
    (hac : entry.accountConstraints[k]? = some ac) :
    Follows (fun _ _ => True) (evalAccountConstraint accounts zc k) (verifyAccountConstraint accounts ac) := by
  obtain ⟨z, hz, hp⟩ := hpacked.accounts k ac hac
  unfold evalAccountConstraint verifyAccountConstraint
  refine Follows.bind_left (indexAt_eq_ok.mpr hz) ?_
  rw [hp.index, hp.expected, hp.isWritableRequired]
  cases haccount : accounts[ac.index]? with
  | none => exact Follows.failed (Nat.not_lt.mpr (List.getElem?_eq_none_iff.mp haccount))
  | some account =>
      obtain ⟨hlt, -⟩ := List.getElem?_eq_some_iff.mp haccount
      refine Follows.passed hlt (Follows.bind_left (indexAt_eq_ok.mpr haccount) ?_)
      exact follows_require Iff.rfl fun _ => follows_lift _

theorem evalAccountConstraints_follows {accounts : List AccountMeta} (hpacked : PackedConstraint entry zc) :
    Follows (fun _ _ => True) (evalAccountConstraints accounts zc) (verifyAccountConstraints accounts entry) := by
  rw [evalAccountConstraints, hpacked.accountCount]
  exact follows_forM fun k ac hac => evalAccountConstraint_follows hpacked hac

theorem evalEntries_follows (found writability : Bool) (hpacked : ∀ (k : Nat) (entry : ConstraintEntry),
      entries[k]? = some entry → ∃ zc, constraints.entries.toList[i + k]? = some zc ∧ PackedConstraint entry zc) :
    Follows Eq (evalEntries ix constraints entries.length i found writability)
      (verifyEntries ix entries i found writability) := by
  induction entries generalizing i found writability with
  | nil =>
      cases found with
      | false => exact follows_pure rfl
      | true => cases writability <;> exact rfl
  | cons entry entries ih =>
      obtain ⟨zc, hzc, hp⟩ := hpacked 0 entry rfl
      have hrest : ∀ (k : Nat) (entry : ConstraintEntry), entries[k]? = some entry →
          ∃ zc, constraints.entries.toList[i + 1 + k]? = some zc ∧ PackedConstraint entry zc := by
        intro k entry' hk
        rw [Nat.add_assoc, Nat.add_comm 1 k]
        exact hpacked (k + 1) entry' hk
      rw [List.length_cons, evalEntries, verifyEntries]
      refine Follows.bind_left (indexAt_eq_ok.mpr hzc) ?_
      rw [hp.programId]
      split
      · exact ih found writability hrest
      · refine Follows.bind_left (evalDataConstraints_follows hp).caught
          (Follows.bind_left (evalAccountConstraints_follows hp).caught ?_)
        cases verifyAccountConstraints ix.accounts entry with
        | ok _ =>
            cases verifyDataConstraints ix.data entry with
            | ok _ => exact follows_pure rfl
            | error e =>
                have hrest := ih true writability hrest
                simpa [Except.isOk, Except.toBool] using hrest
        | error e =>
            cases verifyDataConstraints ix.data entry with
            | ok _ =>
                have hrest := ih true (writability || e = .sigil .accountWritabilityMismatch) hrest
                simpa [Except.isOk, Except.toBool] using hrest
            | error e' =>
                have hrest := ih true writability hrest
                simpa [Except.isOk, Except.toBool] using hrest

end

end

end Sigil
