import Sigil.Lemmas.AssertionArrays
import Sigil.Theorems.DeltaAssertions

/-!
# Post-execution assertions

What an entry says of its target is a relation between numbers. A committed session satisfies it, a session that
satisfies it passes, and on arrays the stages do not panic.
-/

namespace Sigil

open Library

/-- What an entry says of its target, before and after the session. -/
def PostAssertionEntry.Holds (entry : PostAssertionEntry) (old new : List UInt8) : Prop :=
  let oldBytes := fieldBytes old entry.offset entry.valueLen
  let newBytes := fieldBytes new entry.offset entry.valueLen
  let expected := entry.expectedValue.take entry.valueLen
  match AssertionMode.ofByte entry.assertionMode with
  | some .absolute =>
      if entry.crossFieldFlags % 2 = 1 then
        leValue newBytes * 10000 ≤
          entry.crossFieldMultiplierBps * leValue (fieldBytes new entry.crossFieldOffsetB entry.valueLen)
      else ∃ op, ConstraintOperator.ofByte entry.operator = some op ∧ op.Relates newBytes expected
  | some .maxDecrease => (leValue oldBytes : Int) - leValue newBytes ≤ leValue expected
  | some .maxIncrease => (leValue newBytes : Int) - leValue oldBytes ≤ leValue expected
  | some .noChange => newBytes = oldBytes
  | none => False

/-- The target is long enough for what the entry reads. -/
def PostAssertionEntry.Covered (entry : PostAssertionEntry) (data : List UInt8) : Prop :=
  entry.offset + entry.valueLen ≤ data.length ∧
    (entry.crossFieldFlags % 2 = 1 → entry.crossFieldOffsetB + entry.valueLen ≤ data.length)

/-- `finalize_session` gets the account of the assertions and every target, long enough. -/
def Provides (ctx : Ctx) (v : Pubkey) (entries : List PostAssertionEntry) (remaining : List Pubkey) : Prop :=
  .postAssertions v ∈ remaining ∧ ∀ entry ∈ entries, entry.targetAccount ∈ remaining ∧
    entry.Covered (ctx.accountData entry.targetAccount)

section
variable {w : World} {ctx : Ctx} {v : Pubkey} {entry : PostAssertionEntry} {entries : List PostAssertionEntry}
  {remaining : List Pubkey} {snapshot old : List UInt8}

theorem checkCrossField_eq_ok {data actual : List UInt8} : checkCrossField data actual entry = .ok () ↔
    entry.crossFieldOffsetB + entry.valueLen ≤ data.length ∧ leValue actual * 10000 ≤
      entry.crossFieldMultiplierBps * leValue (fieldBytes data entry.crossFieldOffsetB entry.valueLen) := by
  rw [checkCrossField, require_bind_eq_ok, leNat_eq, leNat_eq, ← fieldBytes]
  refine and_congr_right fun _ => ?_
  dsimp only
  split
  · rename_i hzero
    rw [require_eq_ok, hzero]
    omega
  · rw [require_eq_ok]

/-- A check of an entry that compares with an earlier value needs its snapshot. -/
theorem checkAssertion_snapshot (hne : entry.assertionMode ≠ 0)
    (h : checkAssertion ctx remaining entry snapshot = .ok ()) : snapshot.length = entry.valueLen := by
  simp only [checkAssertion, bind_eq_ok, okOr_eq_ok] at h
  obtain ⟨_, -, mode, hmode, h⟩ := h
  cases mode with
  | absolute => exact absurd (AssertionMode.ofByte_absolute hmode) hne
  | maxDecrease => exact (require_bind_eq_ok.mp h).1
  | maxIncrease => exact (require_bind_eq_ok.mp h).1
  | noChange => exact (require_bind_eq_ok.mp h).1

/-- With the snapshot of the target the check is what the entry says. -/
theorem checkAssertion_eq_ok (hvalid : entry.Valid) (hsnapshot : entry.assertionMode ≠ 0 →
      snapshot.length = entry.valueLen ∧ snapshot = fieldBytes old entry.offset entry.valueLen) :
    checkAssertion ctx remaining entry snapshot = .ok () ↔ entry.targetAccount ∈ remaining ∧
      entry.Covered (ctx.accountData entry.targetAccount) ∧
      entry.Holds old (ctx.accountData entry.targetAccount) := by
  obtain ⟨mode, hmode⟩ := Option.isSome_iff_exists.mp hvalid.hasMode
  obtain ⟨op, hop⟩ := Option.isSome_iff_exists.mp hvalid.hasOperator
  have hnocross (hne : entry.assertionMode ≠ 0) : ¬ entry.crossFieldFlags % 2 = 1 := fun h =>
    hne (hvalid.cross h).2
  have hbytes (hlong : entry.offset + entry.valueLen ≤ (ctx.accountData entry.targetAccount).length) :
      (fieldBytes (ctx.accountData entry.targetAccount) entry.offset entry.valueLen).length =
        (entry.expectedValue.take entry.valueLen).length := by
    rw [fieldBytes_length hlong, List.length_take, min_eq_left hvalid.expects]
  simp only [checkAssertion, bind_eq_ok, readTarget_eq_ok, okOr_eq_ok, hmode, Option.some.injEq, exists_eq_left',
    and_assoc, exists_and_left, PostAssertionEntry.Holds, PostAssertionEntry.Covered]
  refine and_congr_right fun _ => and_congr_right fun hlong => ?_
  cases mode with
  | absolute =>
      by_cases hcross : entry.crossFieldFlags % 2 = 1
      · simp only [bind_eq_ok, okOr_eq_ok, hop, Option.some.injEq, exists_eq_left', hcross, if_true, true_implies,
          checkCrossField_eq_ok]
      · simp only [bind_eq_ok, okOr_eq_ok, hop, Option.some.injEq, exists_eq_left', hcross, if_false, false_implies,
          true_and, require_eq_ok]
        exact bytesMatch_iff (hbytes hlong)
  | maxDecrease =>
      have hne : entry.assertionMode ≠ 0 := fun hzero => by rw [hzero] at hmode; cases hmode
      obtain ⟨hlength, rfl⟩ := hsnapshot hne
      simp only [require_bind_eq_ok, require_eq_ok, hlength, true_and, hnocross hne, false_implies, leNat_eq]
      omega
  | maxIncrease =>
      have hne : entry.assertionMode ≠ 0 := fun hzero => by rw [hzero] at hmode; cases hmode
      obtain ⟨hlength, rfl⟩ := hsnapshot hne
      simp only [require_bind_eq_ok, require_eq_ok, hlength, true_and, hnocross hne, false_implies, leNat_eq]
      omega
  | noChange =>
      have hne : entry.assertionMode ≠ 0 := fun hzero => by rw [hzero] at hmode; cases hmode
      obtain ⟨hlength, rfl⟩ := hsnapshot hne
      simp only [require_bind_eq_ok, require_eq_ok, hlength, true_and, hnocross hne, false_implies]

/-- Each snapshot was taken of its target when the session was opened. -/
theorem SessionTrace.captured {txs : List Transaction} {tx : Transaction} (t : SessionTrace tx (chain txs {}))
    (hstart : t.start.Asserts t.validate.vault entries) : ∃ session : SessionAuthority,
      t.used.sessions t.finalize.session = some session ∧ session.vault = t.validate.vault ∧
      session.isExpired tx.clock.unixTimestamp = false ∧
      ∀ (i : Fin 4) (entry : PostAssertionEntry), entries[i.val]? = some entry → entry.assertionMode ≠ 0 →
        session.assertionSnapshots i = [] ∨ session.assertionSnapshots i =
          fieldBytes (t.openingStep.ctx.accountData entry.targetAccount) entry.offset entry.valueLen := by
  obtain ⟨hcloses, -⟩ := t.closesOwnSession (chain_quiescent genesis_quiescent txs)
  obtain ⟨session, hopened, hused, hexpired⟩ := hcloses.session
  obtain ⟨policy, plan, snapshots, hp, hsnapshots, hsession⟩ := validateAndAuthorize_snapshots t.validate_ok
  cases hopened.symm.trans hsession
  refine ⟨_, hcloses.address ▸ hused, rfl, hexpired, fun i entry hentry hne => ?_⟩
  obtain ⟨hset, policy', hp', hflag⟩ := hstart
  cases hp.symm.trans hp'
  by_cases hpassed : .postAssertions t.validate.vault ∈ t.validate.remainingAccounts
  · exact .inr (((captureSnapshots_supplied hset hflag hpassed hsnapshots).2 i entry hentry).trans (if_neg hne))
  · cases hsnapshots.symm.trans (captureSnapshots_unsupplied (.inr hpassed))
    exact .inl rfl

/-- A committed session satisfies its entries. -/
theorem SessionTrace.holds {txs : List Transaction} {tx : Transaction} (t : SessionTrace tx (chain txs {}))
    (hvalid : PostExecutionAssertions.validateEntries entries = .ok ())
    (hstart : t.start.Asserts t.validate.vault entries) (hused : t.used.Asserts t.validate.vault entries)
    (hentry : entry ∈ entries) : entry.Holds (t.openingStep.ctx.accountData entry.targetAccount)
      (t.closingStep.ctx.accountData entry.targetAccount) := by
  obtain ⟨⟨-, hlength⟩, hentries⟩ := PostExecutionAssertions.validateEntries_ok hvalid
  obtain ⟨session, hsession, hvault, hexpired, hcaptured⟩ := t.captured hstart
  obtain ⟨session', policy, hs, hvault', hp, hchecked⟩ := finalizeSession_assertions t.finalize_ok
  cases hsession.symm.trans hs
  have hclosed : t.finalize.vault = t.validate.vault := hvault'.symm.trans hvault
  obtain ⟨hset, policy', hp', hflag⟩ := hused
  rw [hclosed] at hp
  cases hp.symm.trans hp'
  have hclock : t.closingStep.ctx.clock.unixTimestamp = tx.clock.unixTimestamp := rfl
  rw [hclock, hexpired, checkAssertions, if_pos ⟨rfl, hflag⟩, hclosed, hset] at hchecked
  simp only [okOr, bind_eq_ok, require_eq_ok, exists_and_left, exists_const, Except.ok.injEq, exists_eq_left']
    at hchecked
  obtain ⟨k, hk⟩ := List.mem_iff_getElem?.mp hentry
  obtain ⟨hlt, -⟩ := List.getElem?_eq_some_iff.mp hk
  have hpassed := (checkAssertionList_eq_ok hlength).mp hchecked.2 ⟨k, hlt.trans_le hlength⟩ entry hk
  have hsnapshot (hne : entry.assertionMode ≠ 0) : _ ∧ _ :=
    let htaken := checkAssertion_snapshot hne hpassed
    ⟨htaken, (hcaptured ⟨k, hlt.trans_le hlength⟩ entry hk hne).resolve_left fun hempty => by
      rw [hempty] at htaken
      exact (hentries entry hentry).len_pos.ne htaken⟩
  exact ((checkAssertion_eq_ok (hentries entry hentry) hsnapshot).mp hpassed).2.2

/-- A session that was opened with its snapshots passes if the entries hold. -/
theorem checkAssertions_of_holds {w w' w₂ : World} {openCtx closeCtx : Ctx} {a : ValidateAndAuthorize}
    {b : FinalizeSession} {policy : PolicyConfig} {session : SessionAuthority} {isExpired : Bool}
    (hvalid : PostExecutionAssertions.validateEntries entries = .ok ()) (hset : w.Asserts a.vault entries)
    (hopen : validateAndAuthorize openCtx a w = .ok w') (hsession : w'.sessions a.session = some session)
    (hsupplies : Supplies openCtx a.vault entries a.remainingAccounts)
    (hset₂ : w₂.postAssertions b.vault = some { entries := entries })
    (hprovides : Provides closeCtx b.vault entries b.remainingAccounts)
    (hholds : ∀ entry ∈ entries, entry.Holds (openCtx.accountData entry.targetAccount)
      (closeCtx.accountData entry.targetAccount)) :
    checkAssertions w₂ closeCtx b policy session isExpired = .ok () := by
  obtain ⟨⟨-, hlength⟩, hentries⟩ := PostExecutionAssertions.validateEntries_ok hvalid
  obtain ⟨policy₀, plan, snapshots, hp, hsnapshots, hsession'⟩ := validateAndAuthorize_snapshots hopen
  cases hsession.symm.trans hsession'
  obtain ⟨hset, policy₁, hp', hflag⟩ := hset
  cases hp.symm.trans hp'
  have hcaptures := (captureSnapshots_supplied hset hflag hsupplies.1 hsnapshots).2
  unfold checkAssertions
  split
  · rw [hset₂]
    simp only [okOr, bind_eq_ok, require_eq_ok, exists_and_left, exists_const, Except.ok.injEq, exists_eq_left']
    refine ⟨hprovides.1, (checkAssertionList_eq_ok hlength).mpr fun i entry hentry => ?_⟩
    have hmem := List.mem_of_getElem? hentry
    have hsnapshot (hne : entry.assertionMode ≠ 0) : (snapshots i).length = entry.valueLen ∧
        snapshots i = fieldBytes (openCtx.accountData entry.targetAccount) entry.offset entry.valueLen := by
      have htaken := (hcaptures i entry hentry).trans (if_neg hne)
      exact ⟨(congrArg List.length htaken).trans (fieldBytes_length (hsupplies.2 entry hmem hne).2), htaken⟩
    exact (checkAssertion_eq_ok (hentries entry hmem) hsnapshot).mpr
      ⟨(hprovides.2 entry hmem).1, (hprovides.2 entry hmem).2, hholds entry hmem⟩
  · rfl

/-- Post-assertions mean what they say: a committed session satisfies them, a session that satisfies them and passes
its accounts is not stopped by them, and the arrays that are stored are read without a panic. -/
theorem post_assertions_enforced (hvalid : PostExecutionAssertions.validateEntries entries = .ok ()) :
    (∀ (txs : List Transaction) (tx : Transaction) (t : SessionTrace tx (chain txs {})),
      t.start.Asserts t.validate.vault entries → t.used.Asserts t.validate.vault entries →
      ∀ entry ∈ entries, entry.Holds (t.openingStep.ctx.accountData entry.targetAccount)
        (t.closingStep.ctx.accountData entry.targetAccount)) ∧
    (∀ (w w' w₂ : World) (openCtx closeCtx : Ctx) (a : ValidateAndAuthorize) (b : FinalizeSession)
      (policy : PolicyConfig) (session : SessionAuthority), w.Asserts a.vault entries →
      validateAndAuthorize openCtx a w = .ok w' → w'.sessions a.session = some session →
      Supplies openCtx a.vault entries a.remainingAccounts →
      w₂.postAssertions b.vault = some { entries := entries } →
      Provides closeCtx b.vault entries b.remainingAccounts →
      (∀ entry ∈ entries, entry.Holds (openCtx.accountData entry.targetAccount)
        (closeCtx.accountData entry.targetAccount)) →
      checkAssertions w₂ closeCtx b policy session (session.isExpired closeCtx.clock.unixTimestamp) = .ok ()) ∧
    ((∀ entry ∈ entries, entry.Fits) → ∃ assertions, packEntries entries = .ok assertions ∧
      ∀ (ctx : Ctx) (remaining : List Pubkey),
        evalCapture ctx remaining assertions ≠ .error .panic ∧
        Follows (fun arrays bytes => arrays.snapshots = fun i : Fin 4 => (bytes[i.val]?).getD [])
          (evalCapture ctx remaining assertions) (entries.mapM (snapshotEntry ctx remaining)) ∧
        ∀ arrays : SnapshotArrays, evalAssertions ctx remaining assertions arrays ≠ .error .panic ∧
          Follows Eq (evalAssertions ctx remaining assertions arrays)
            (checkAssertionList ctx remaining arrays.snapshots entries 0)) := by
  refine ⟨fun txs tx t hstart hused entry hentry => t.holds hvalid hstart hused hentry, ?_, fun hfits => ?_⟩
  · intro w w' w₂ openCtx closeCtx a b policy session hset hopen hsession hsupplies hset₂ hprovides hholds
    exact checkAssertions_of_holds hvalid hset hopen hsession hsupplies hset₂ hprovides hholds
  · obtain ⟨assertions, hpack, hpacked⟩ := packEntries_packed hvalid hfits
    refine ⟨assertions, hpack, fun ctx remaining => ?_⟩
    have hcapture : Follows _ (evalCapture ctx remaining assertions) _ := evalCapture_follows hpacked hvalid
    refine ⟨hcapture.ne_panic, hcapture, fun arrays => ?_⟩
    have hevaluate : Follows _ (evalAssertions ctx remaining assertions arrays) _ :=
      evalAssertions_follows hpacked hvalid
    exact ⟨hevaluate.ne_panic, hevaluate.mono fun _ _ _ => rfl⟩

end

/-! ### A trade that leaves the account alone -/

def steadySetup : List Transaction :=
  paySetup ++ (constrainSteps ++ [Instruction.createPostAssertions payAction [steadyEntry]]).map fun i =>
    .ofKey payClock 1 [i.toTopLevel]

def steadyValidate : ValidateAndAuthorize :=
  { payValidate with remainingAccounts := usableOpening payVault.vault [steadyEntry] }

def steadyFinalize : FinalizeSession :=
  { payFinalize with remainingAccounts := usableClosing payVault.vault [steadyEntry] }

def steadyOpening : TopLevel :=
  { (Instruction.validateAndAuthorize steadyValidate).toTopLevel with accountData := fun _ => List.replicate 8 7 }

def steadyTrade : TopLevel :=
  { payTrade 500000 with raw := { programId := flashTradeProgram, accounts := [], data := [1, 2, 3, 4, 5, 6, 7, 8] } }

def steadyClosing : TopLevel :=
  { (Instruction.finalizeSession steadyFinalize).toTopLevel with accountData := fun _ => List.replicate 8 7 }

def steadyTransaction : Transaction := .ofKey payClock 3 [steadyOpening, steadyTrade, steadyClosing]

set_option maxRecDepth 4000 in
theorem post_assertions_enforced_steady : ∃ t : SessionTrace steadyTransaction (chain steadySetup {}),
    t.used.Asserts t.validate.vault [steadyEntry] ∧
    steadyEntry.Holds (t.openingStep.ctx.accountData steadyEntry.targetAccount)
      (t.closingStep.ctx.accountData steadyEntry.targetAccount) := by
  obtain ⟨opened, used, closed, before, policy, hopening, hbetween, hclosing, hstart, hused⟩ :
      ∃ opened used closed before policy,
        (steadyTransaction.step steadyOpening 0).exec (chain steadySetup {}) = .ok opened ∧
        run Step.exec (steadyTransaction.stepsFrom [steadyTrade] 1) opened = .ok used ∧
        (steadyTransaction.step steadyClosing 2).exec used = .ok closed ∧
        ((chain steadySetup {}).postAssertions payVault.vault = some { entries := [steadyEntry] } ∧
          (chain steadySetup {}).policies payVault.vault = some before ∧ before.hasPostAssertions = 1) ∧
        used.postAssertions payVault.vault = some { entries := [steadyEntry] } ∧
          used.policies payVault.vault = some policy ∧ policy.hasPostAssertions = 1 :=
    ⟨_, _, _, _, _, rfl, rfl, rfl, ⟨rfl, rfl, rfl⟩, rfl, rfl, rfl⟩
  let t : SessionTrace steadyTransaction (chain steadySetup {}) :=
    { before := []
      opening := steadyOpening
      between := [steadyTrade]
      closing := steadyClosing
      rest := []
      validate := steadyValidate
      finalize := steadyFinalize
      start := chain steadySetup {}
      opened := opened
      used := used
      closed := closed
      split := rfl
      opening_call := rfl
      closing_call := rfl
      between_raw := by decide
      run_before := rfl
      run_opening := hopening
      run_between := hbetween
      run_closing := hclosing
      run_rest := rfl }
  have hasserts : t.used.Asserts t.validate.vault [steadyEntry] :=
    ⟨hused.1, policy, hused.2.1, by rw [hused.2.2]; decide⟩
  have hvalid : PostExecutionAssertions.validateEntries [steadyEntry] = .ok () := rfl
  exact ⟨t, hasserts, (post_assertions_enforced hvalid).1 steadySetup steadyTransaction t
    ⟨hstart.1, before, hstart.2.1, by rw [hstart.2.2]; decide⟩ hasserts steadyEntry (List.mem_singleton_self _)⟩

/-! ## Comparisons of byte strings -/

/-- No index is out of range, and each loop returns what the numbers say. -/
theorem compare_integers (a b m : List UInt8) :
    evalUnsigned a b = .ok (Int.sign ((leValue a : Int) - leValue b)) ∧
      evalSigned a b = .ok (Int.sign (leSigned a - leSigned b)) ∧ leSigned [] = 0 ∧
      ∃ subset, evalBitmask a m 0 = .ok subset ∧ (subset = true ↔ BitsSubset (leValue m) (leValue a)) := by
  have hunsigned := evalUnsigned_eq a b
  have hsigned := evalSigned_eq a b
  rw [compareLeUnsigned_eq] at hunsigned
  rw [compareLeSigned_eq] at hsigned
  exact ⟨hunsigned, hsigned, rfl, bitmaskCheck a m, evalBitmask_eq a m 0, bitmaskCheck_iff a m⟩

example : evalSigned [0xFF] [0, 0, 1] = .ok (-1) := rfl

end Sigil
