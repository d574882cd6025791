import Sigil.Lemmas.SessionTrace
import Sigil.Theorems.Constraints

/-!
# Assertions of a vault

Their entries are checked when they are stored. `validate_and_authorize` takes the snapshots, which the session keeps
until `finalize_session` compares them.
-/

namespace Sigil

open Library

/-- What `validate_entries` has found of an entry. -/
structure PostAssertionEntry.Valid (entry : PostAssertionEntry) : Prop where
  len_pos : 0 < entry.valueLen
  len_le : entry.valueLen ≤ maxConstraintValueLen
  expects : entry.valueLen ≤ entry.expectedValue.length
  hasOperator : (ConstraintOperator.ofByte entry.operator).isSome
  hasMode : (AssertionMode.ofByte entry.assertionMode).isSome
  delta : entry.assertionMode ≠ 0 → entry.valueLen ≤ 8
  cross : entry.crossFieldFlags % 2 = 1 → entry.valueLen ≤ 8 ∧ entry.assertionMode = 0

/-- A set of assertions is in force. -/
def World.Asserts (w : World) (v : Pubkey) (entries : List PostAssertionEntry) : Prop :=
  w.postAssertions v = some { entries := entries } ∧ ∃ policy, w.policies v = some policy ∧ policy.hasPostAssertions ≠ 0

/-- Bytes of a field. -/
def fieldBytes (data : List UInt8) (offset len : Nat) : List UInt8 := (data.drop offset).take len

section
variable {w w' : World} {ctx : Ctx} {v : Pubkey} {steps : List Step} {entry : PostAssertionEntry}
  {entries : List PostAssertionEntry} {remaining : List Pubkey}

theorem fieldBytes_length {data : List UInt8} {offset len : Nat} (h : offset + len ≤ data.length) :
    (fieldBytes data offset len).length = len := by
  simp only [fieldBytes, List.length_take, List.length_drop]
  omega

/-! ## Stored entries -/

theorem AssertionMode.ofByte_lt {n : Nat} (h : (AssertionMode.ofByte n).isSome) : n ≤ 3 := by
  unfold AssertionMode.ofByte at h
  split at h <;> simp_all

theorem AssertionMode.ofByte_absolute {n : Nat} (h : AssertionMode.ofByte n = some .absolute) : n = 0 := by
  unfold AssertionMode.ofByte at h
  split at h <;> simp_all

theorem PostExecutionAssertions.validateEntry_ok (h : validateEntry entry = .ok ()) : entry.Valid := by
  simp only [validateEntry, bind_eq_ok, require_eq_ok, exists_and_left, exists_const] at h
  obtain ⟨⟨hpos, hle⟩, hexpects, hoperator, hmode, hdelta, hcross⟩ := h
  have hmax := AssertionMode.ofByte_lt hmode
  refine ⟨hpos, hle, hexpects, hoperator, hmode, fun hne => hdelta ⟨by omega, hmax⟩, fun hflag => ?_⟩
  simp only [validateCrossField, hflag, if_true, bind_eq_ok, require_eq_ok, exists_and_left, exists_const] at hcross
  exact ⟨hcross.1, hcross.2.1⟩

theorem PostExecutionAssertions.validateEntries_ok (h : validateEntries entries = .ok ()) :
    (entries ≠ [] ∧ entries.length ≤ maxPostAssertionEntries) ∧ ∀ entry ∈ entries, entry.Valid := by
  simp only [validateEntries, bind_eq_ok, require_eq_ok, exists_and_left, exists_const, forM_eq_ok] at h
  exact ⟨h.1, fun entry hentry => validateEntry_ok (h.2 entry hentry)⟩

theorem createPostAssertions_valid {a : OwnerAction} (h : createPostAssertions ctx a entries w = .ok w') :
    PostExecutionAssertions.validateEntries entries = .ok () := by
  simp only [createPostAssertions, bind_eq_ok, require_eq_ok, exists_and_left] at h
  obtain ⟨_, -, _, -, -, -, _, hvalid, -⟩ := h
  exact hvalid

/-- Whatever set is stored was accepted. -/
theorem postAssertions_valid (h : run Step.exec steps {} = .ok w) {set : PostExecutionAssertions}
    (hset : w.postAssertions v = some set) : PostExecutionAssertions.validateEntries set.entries = .ok () := by
  refine run_invariant (P := fun w => ∀ set, w.postAssertions v = some set →
    PostExecutionAssertions.validateEntries set.entries = .ok ()) (by simp) ?_ h set hset
  intro st _ w₁ w₂ hw₁ hexec set hset
  rcases Step.configChange hexec v with heq | ⟨i, -, hi, hchange⟩
  · exact hw₁ set ((congrArg Config.assertions heq).symm.trans hset)
  · have hbefore : ∀ set, (w₁.config v).assertions = some set →
        PostExecutionAssertions.validateEntries set.entries = .ok () := hw₁
    have hafter : (w₂.config v).assertions = some set := hset
    generalize w₁.config v = c at hchange hbefore
    generalize w₂.config v = c' at hchange hafter
    cases hchange with
    | asserted a entries hv hpolicy =>
        cases hafter
        exact createPostAssertions_valid hi
    | unasserted a hv hpolicy => cases hafter
    | _ => exact hbefore set hafter

/-! ## Snapshots -/

theorem readTarget_eq_ok {missing : SigilError} {bytes : List UInt8} :
    readTarget ctx remaining entry missing = .ok bytes ↔ entry.targetAccount ∈ remaining ∧
      entry.offset + entry.valueLen ≤ (ctx.accountData entry.targetAccount).length ∧
      fieldBytes (ctx.accountData entry.targetAccount) entry.offset entry.valueLen = bytes := by
  simp only [readTarget, bind_eq_ok, require_eq_ok, exists_and_left, exists_const, pure_eq_ok, fieldBytes]

/-- The snapshots of a set: those of the modes that compare with an earlier value, or none at all. -/
def Captures (ctx : Ctx) (entries : List PostAssertionEntry) (snapshots : Fin 4 → List UInt8) : Prop :=
  ∀ i : Fin 4, ∀ entry, entries[i.val]? = some entry → snapshots i =
    if entry.assertionMode = 0 then []
    else fieldBytes (ctx.accountData entry.targetAccount) entry.offset entry.valueLen

/-- The account of the assertions is passed, and that of every assertion that takes a snapshot, long enough. -/
def Supplies (ctx : Ctx) (v : Pubkey) (entries : List PostAssertionEntry) (remaining : List Pubkey) : Prop :=
  .postAssertions v ∈ remaining ∧ ∀ entry ∈ entries, entry.assertionMode ≠ 0 → entry.targetAccount ∈ remaining ∧
    entry.offset + entry.valueLen ≤ (ctx.accountData entry.targetAccount).length

theorem snapshotEntry_eq_ok {bytes : List UInt8} : snapshotEntry ctx remaining entry = .ok bytes ↔
    (entry.assertionMode ≠ 0 → entry.targetAccount ∈ remaining ∧
      entry.offset + entry.valueLen ≤ (ctx.accountData entry.targetAccount).length) ∧
    bytes = if entry.assertionMode = 0 then []
      else fieldBytes (ctx.accountData entry.targetAccount) entry.offset entry.valueLen := by
  unfold snapshotEntry
  split
  · rename_i hzero
    rw [pure_eq_ok]
    simp [hzero, eq_comm]
  · rename_i hne
    rw [readTarget_eq_ok]
    simp only [hne, ne_eq, not_false_eq_true, true_implies, eq_comm, and_assoc]

theorem captureSnapshots_supplied {a : ValidateAndAuthorize} {policy : PolicyConfig}
    (hset : w.postAssertions a.vault = some { entries := entries }) (hflag : policy.hasPostAssertions ≠ 0)
    (hpassed : .postAssertions a.vault ∈ a.remainingAccounts) {snapshots : Fin 4 → List UInt8}
    (h : captureSnapshots w ctx a policy = .ok snapshots) :
    Supplies ctx a.vault entries a.remainingAccounts ∧ Captures ctx entries snapshots := by
  rw [captureSnapshots, if_pos ⟨hflag, hpassed⟩, hset] at h
  simp only [okOr, bind_eq_ok, Except.ok.injEq, exists_eq_left', pure_eq_ok] at h
  obtain ⟨bytes, hbytes, rfl⟩ := h
  refine ⟨⟨hpassed, fun entry hentry => ?_⟩, fun i entry hentry => ?_⟩
  · obtain ⟨i, hi⟩ := List.mem_iff_getElem?.mp hentry
    obtain ⟨_, -, hsnapshot⟩ := mapM_getElem? hbytes hi
    exact (snapshotEntry_eq_ok.mp hsnapshot).1
  · obtain ⟨taken, htaken, hsnapshot⟩ := mapM_getElem? hbytes hentry
    show (bytes[i.val]?).getD [] = _
    rw [htaken, Option.getD_some]
    exact (snapshotEntry_eq_ok.mp hsnapshot).2

theorem captureSnapshots_of_supplies {a : ValidateAndAuthorize} {policy : PolicyConfig}
    (hset : w.postAssertions a.vault = some { entries := entries }) (hflag : policy.hasPostAssertions ≠ 0)
    (hsupplies : Supplies ctx a.vault entries a.remainingAccounts) :
    ∃ snapshots, captureSnapshots w ctx a policy = .ok snapshots := by
  obtain ⟨bytes, hbytes⟩ := exists_mapM_eq_ok (f := snapshotEntry ctx a.remainingAccounts) (l := entries)
    fun entry hentry => ⟨_, snapshotEntry_eq_ok.mpr ⟨hsupplies.2 entry hentry, rfl⟩⟩
  rw [captureSnapshots, if_pos ⟨hflag, hsupplies.1⟩, hset]
  simp only [okOr, bind_eq_ok, Except.ok.injEq, exists_eq_left', pure_eq_ok]
  exact ⟨_, bytes, hbytes, rfl⟩

/-- Without the account of the assertions nothing is captured. -/
theorem captureSnapshots_unsupplied {a : ValidateAndAuthorize} {policy : PolicyConfig}
    (hnot : policy.hasPostAssertions = 0 ∨ .postAssertions a.vault ∉ a.remainingAccounts) :
    captureSnapshots w ctx a policy = .ok fun _ => [] := by
  rw [captureSnapshots, if_neg fun h => hnot.elim h.1 fun hnot => hnot h.2]
  rfl

/-- The snapshots that the session of an accepted request holds. -/
theorem validateAndAuthorize_snapshots {a : ValidateAndAuthorize} (h : validateAndAuthorize ctx a w = .ok w') :
    ∃ policy plan snapshots, w.policies a.vault = some policy ∧ captureSnapshots w ctx a policy = .ok snapshots ∧
      w'.sessions a.session = some (newSession ctx a policy plan snapshots) := by
  simp only [validateAndAuthorize, bind_eq_ok, pure_eq_ok, World.loadPolicy_eq_ok] at h
  obtain ⟨_, -, _, -, _, -, policy, hp, _, -, _, -, _, -, _, -, _, -, _, -, _, -, _, -, _, -, _, -, _, -, plan, -, _, -,
    _, -, snapshots, hsnapshots, _, -, rfl⟩ := h
  exact ⟨policy, plan, snapshots, hp, hsnapshots, Function.update_self ..⟩

/-! ## The stage of `finalize_session` -/

def snapshotAt (snapshots : Fin 4 → List UInt8) (i : Nat) : List UInt8 := if h : i < 4 then snapshots ⟨i, h⟩ else []

theorem snapshotAt_val (snapshots : Fin 4 → List UInt8) (i : Fin 4) : snapshotAt snapshots i.val = snapshots i :=
  dif_pos i.isLt

theorem checkAssertionList_from {snapshots : Fin 4 → List UInt8} {n : Nat} :
    checkAssertionList ctx remaining snapshots entries n = .ok () ↔ ∀ k entry, entries[k]? = some entry →
      checkAssertion ctx remaining entry (snapshotAt snapshots (n + k)) = .ok () := by
  induction entries generalizing n with
  | nil => simp [checkAssertionList, pure_eq_ok]
  | cons entry entries ih =>
      rw [checkAssertionList, bind_eq_ok]
      constructor
      · rintro ⟨_, hfirst, hrest⟩ k entry' hentry
        cases k with
        | zero =>
            cases hentry
            exact hfirst
        | succ k =>
            rw [Nat.add_succ, ← Nat.succ_add]
            exact ih.mp hrest k entry' hentry
      · intro h
        refine ⟨(), h 0 entry rfl, ih.mpr fun k entry' hentry => ?_⟩
        rw [Nat.succ_add, ← Nat.add_succ]
        exact h (k + 1) entry' hentry

theorem checkAssertionList_eq_ok {snapshots : Fin 4 → List UInt8} (hlength : entries.length ≤ maxPostAssertionEntries) :
    checkAssertionList ctx remaining snapshots entries 0 = .ok () ↔ ∀ (i : Fin 4) (entry : PostAssertionEntry),
      entries[i.val]? = some entry → checkAssertion ctx remaining entry (snapshots i) = .ok () := by
  rw [checkAssertionList_from]
  constructor
  · intro h i entry hentry
    have hchecked := h i.val entry hentry
    rwa [Nat.zero_add, snapshotAt_val] at hchecked
  · intro h k entry hentry
    obtain ⟨hk, -⟩ := List.getElem?_eq_some_iff.mp hentry
    have hchecked := h ⟨k, hk.trans_le hlength⟩ entry hentry
    rw [← snapshotAt_val snapshots] at hchecked
    rwa [Nat.zero_add]

theorem finalizeSession_assertions {a : FinalizeSession} (h : finalizeSession ctx a w = .ok w') :
    ∃ session policy, w.sessions a.session = some session ∧ session.vault = a.vault ∧
      w.policies a.vault = some policy ∧
        checkAssertions w ctx a policy session (session.isExpired ctx.clock.unixTimestamp) = .ok () := by
  simp only [finalizeSession, bind_eq_ok, World.loadPolicy_eq_ok, loadSession_eq_ok] at h
  obtain ⟨_, -, _, -, session, ⟨hs, hvault, -⟩, policy, hp, _, -, _, -, _, -, _, -, _, -, _, -, _, -, _, -, _, -, _,
    hchecked, -⟩ := h
  exact ⟨session, policy, hs, hvault, hp, hchecked⟩

end

end Sigil
