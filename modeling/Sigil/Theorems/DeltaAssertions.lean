import Sigil.Lemmas.Assertions

/-!
# Delta assertions and the first remaining account

`validate_and_authorize` takes the first of its remaining accounts for that of the constraints, and finds the account
of the assertions and their targets by key. On a vault without constraints no remaining account can be passed at all.
-/

namespace Sigil

open Library

section
variable {w w' : World} {v : Pubkey} {steps : List Step} {policy : PolicyConfig} {entries : List PostAssertionEntry}

/-- A session that passes everything but the assertions; the bytes of the delta entries are there, and do not change. -/
structure SteadySession (w : World) (v : Pubkey) (entries : List PostAssertionEntry) where
  openCtx : Ctx
  closeCtx : Ctx
  validate : ValidateAndAuthorize
  finalize : FinalizeSession
  validate_vault : validate.vault = v
  finalize_vault : finalize.vault = v
  passes : ∃ remaining w', .postAssertions v ∉ remaining ∧
    validateAndAuthorize openCtx { validate with remainingAccounts := remaining } w = .ok w'
  absolute : ∀ entry ∈ entries, entry.assertionMode = 0 →
    checkAssertion closeCtx [entry.targetAccount] entry [] = .ok ()
  unchanged : ∀ entry ∈ entries, entry.assertionMode ≠ 0 →
    fieldBytes (closeCtx.accountData entry.targetAccount) entry.offset entry.valueLen =
      fieldBytes (openCtx.accountData entry.targetAccount) entry.offset entry.valueLen
  long : ∀ entry ∈ entries, entry.assertionMode ≠ 0 →
    entry.offset + entry.valueLen ≤ (openCtx.accountData entry.targetAccount).length

/-- With these remaining accounts the session opens, has a snapshot for every delta entry, and passes the assertions
when it is finalized. -/
def SteadySession.Usable (s : SteadySession w v entries) (opening closing : List Pubkey) : Prop :=
  ∃ w' session, validateAndAuthorize s.openCtx { s.validate with remainingAccounts := opening } w = .ok w' ∧
    w'.sessions s.validate.session = some session ∧
    (∀ (i : Fin 4) (entry : PostAssertionEntry), entries[i.val]? = some entry → entry.assertionMode ≠ 0 →
      session.assertionSnapshots i =
        fieldBytes (s.openCtx.accountData entry.targetAccount) entry.offset entry.valueLen) ∧
    ∀ w₂ policy, w₂.postAssertions v = some { entries := entries } →
      checkAssertions w₂ s.closeCtx { s.finalize with remainingAccounts := closing } policy session false = .ok ()

theorem loadConstraints_congr {remaining remaining' : List Pubkey} (h : remaining.head? = remaining'.head?) :
    loadConstraints w v policy remaining = loadConstraints w v policy remaining' := by
  rw [loadConstraints, loadConstraints, h]

theorem loadConstraints_head {remaining : List Pubkey} {constraints : Option InstructionConstraints}
    (hflag : policy.hasConstraints) (h : loadConstraints w v policy remaining = .ok constraints) :
    remaining.head? = some (.constraints v) := by
  unfold loadConstraints at h
  split at h
  · simp only [bind_eq_ok, require_eq_ok, hflag] at h
    obtain ⟨_, hnot, -⟩ := h
    cases hnot
  · rename_i address hhead
    simp only [bind_eq_ok, require_eq_ok, exists_and_left] at h
    rw [hhead, h.1]

theorem loadConstraints_nil {remaining : List Pubkey} {constraints : Option InstructionConstraints}
    (hnone : w.constraintSet v = none) (h : loadConstraints w v policy remaining = .ok constraints) :
    remaining = [] := by
  unfold loadConstraints at h
  split at h
  · rename_i hhead
    exact List.head?_eq_none_iff.mp hhead
  · simp only [bind_eq_ok, okOr_eq_ok, require_eq_ok, exists_and_left, exists_const] at h
    obtain ⟨-, account, haccount, -, c, hcontent, -⟩ := h
    simp [World.constraintSet, haccount, hcontent] at hnone

/-- Accounts for both instructions, on a vault with constraints. -/
def usableOpening (v : Pubkey) (entries : List PostAssertionEntry) : List Pubkey :=
  .constraints v :: .postAssertions v :: entries.map (·.targetAccount)

def usableClosing (v : Pubkey) (entries : List PostAssertionEntry) : List Pubkey :=
  .postAssertions v :: entries.map (·.targetAccount)

/-- An entry whose bytes have not changed passes. -/
theorem checkAssertion_unchanged {ctx ctx' : Ctx} {entry : PostAssertionEntry} {remaining : List Pubkey}
    (hvalid : entry.Valid) (hpassed : entry.targetAccount ∈ remaining)
    (hlong : entry.assertionMode ≠ 0 → entry.offset + entry.valueLen ≤ (ctx.accountData entry.targetAccount).length)
    (hsame : entry.assertionMode ≠ 0 → fieldBytes (ctx'.accountData entry.targetAccount) entry.offset entry.valueLen =
      fieldBytes (ctx.accountData entry.targetAccount) entry.offset entry.valueLen)
    (habsolute : entry.assertionMode = 0 → checkAssertion ctx' [entry.targetAccount] entry [] = .ok ()) :
    checkAssertion ctx' remaining entry (if entry.assertionMode = 0 then []
      else fieldBytes (ctx.accountData entry.targetAccount) entry.offset entry.valueLen) = .ok () := by
  split
  · rename_i hzero
    have hchecked := habsolute hzero
    unfold checkAssertion at hchecked ⊢
    obtain ⟨bytes, hread, hchecked⟩ := bind_eq_ok.mp hchecked
    obtain ⟨-, hthere, hbytes⟩ := readTarget_eq_ok.mp hread
    exact bind_eq_ok.mpr ⟨bytes, readTarget_eq_ok.mpr ⟨hpassed, hthere, hbytes⟩, hchecked⟩
  · rename_i hne
    obtain ⟨mode, hmode⟩ := Option.isSome_iff_exists.mp hvalid.hasMode
    have hlength := fieldBytes_length (hlong hne)
    have hthere : entry.offset + entry.valueLen ≤ (ctx'.accountData entry.targetAccount).length := by
      have hpos := hvalid.len_pos
      rw [← hsame hne, fieldBytes, List.length_take, List.length_drop] at hlength
      omega
    have hread : readTarget ctx' remaining entry .invalidPostAssertionIndex =
        .ok (fieldBytes (ctx.accountData entry.targetAccount) entry.offset entry.valueLen) :=
      readTarget_eq_ok.mpr ⟨hpassed, hthere, hsame hne⟩
    unfold checkAssertion
    rw [hread]
    simp only [hmode, okOr, bind_eq_ok, Except.ok.injEq, exists_eq_left']
    cases mode with
    | absolute => exact absurd (AssertionMode.ofByte_absolute hmode) hne
    | maxDecrease =>
        simp only [bind_eq_ok, require_eq_ok, exists_const, hlength, Nat.sub_self, Nat.zero_le, and_self]
    | maxIncrease =>
        simp only [bind_eq_ok, require_eq_ok, exists_const, hlength, Nat.sub_self, Nat.zero_le, and_self]
    | noChange => simp only [bind_eq_ok, require_eq_ok, exists_const, hlength, and_self]

theorem SteadySession.usable (s : SteadySession w v entries) (hset : w.postAssertions v = some { entries := entries })
    (hvalid : PostExecutionAssertions.validateEntries entries = .ok ()) (hp : w.policies v = some policy)
    (hconstraints : policy.hasConstraints) (hassertions : policy.hasPostAssertions ≠ 0) :
    s.Usable (usableOpening v entries) (usableClosing v entries) := by
  obtain ⟨⟨-, hlength⟩, hentries⟩ := PostExecutionAssertions.validateEntries_ok hvalid
  obtain ⟨openCtx, closeCtx, a, b, rfl, hb, ⟨remaining, w₀, -, hpasses⟩, habsolute, hsame, hlong⟩ := s
  have htargets {entry : PostAssertionEntry} {l : List Pubkey} (hentry : entry ∈ entries) :
      entry.targetAccount ∈ l ++ entries.map (·.targetAccount) :=
    List.mem_append_right _ (List.mem_map_of_mem hentry)
  -- the request without the assertions starts with the constraints as well
  have hhead : (usableOpening a.vault entries).head? = remaining.head? := by
    obtain ⟨_, policy', constraints, -, hp', hrequested⟩ := validateAndAuthorize_requested hpasses
    cases hp.symm.trans hp'
    exact (loadConstraints_head hconstraints hrequested.loaded).symm
  have hsupplies : Supplies openCtx a.vault entries (usableOpening a.vault entries) :=
    ⟨by simp [usableOpening], fun entry hentry hne => ⟨htargets (l := [_, _]) hentry, hlong entry hentry hne⟩⟩
  have hload (policy : PolicyConfig) (c : Option InstructionConstraints) (_ : w.policies a.vault = some policy)
      (hc : loadConstraints w a.vault policy remaining = .ok c) :
      ∃ c', loadConstraints w a.vault policy (usableOpening a.vault entries) = .ok c' ∧
        (checkScans openCtx a policy c = .ok () → checkScans openCtx a policy c' = .ok ()) :=
    ⟨c, (loadConstraints_congr hhead).trans hc, id⟩
  obtain ⟨w', hw'⟩ := validateAndAuthorize_remaining hpasses hload fun policy' hp' => by
    cases hp.symm.trans hp'
    exact captureSnapshots_of_supplies hset hassertions hsupplies
  obtain ⟨policy', plan, snapshots, hp', hsnapshots, hsession⟩ := validateAndAuthorize_snapshots hw'
  cases hp.symm.trans hp'
  have hcaptures := (captureSnapshots_supplied (a := { a with remainingAccounts := usableOpening a.vault entries }) hset
    hassertions hsupplies.1 hsnapshots).2
  refine ⟨w', _, hw', hsession, fun i entry hentry hne => ?_, fun w₂ policy₂ hset₂ => ?_⟩
  · exact (hcaptures i entry hentry).trans (if_neg hne)
  · unfold checkAssertions
    split
    · rw [show b.vault = a.vault from hb, hset₂]
      simp only [okOr, bind_eq_ok, require_eq_ok, exists_and_left, exists_const, Except.ok.injEq, exists_eq_left']
      refine ⟨by simp [usableClosing], (checkAssertionList_eq_ok hlength).mpr fun i entry hentry => ?_⟩
      have hmem := List.mem_of_getElem? hentry
      show checkAssertion closeCtx _ entry (snapshots i) = .ok ()
      rw [hcaptures i entry hentry]
      exact checkAssertion_unchanged (hentries entry hmem) (htargets (l := [_]) hmem) (hlong entry hmem)
        (hsame entry hmem) (habsolute entry hmem)
    · rfl

/-- Without constraints no remaining account is accepted, so that there is no snapshot. -/
theorem SteadySession.not_usable (s : SteadySession w v entries)
    (hvalid : PostExecutionAssertions.validateEntries entries = .ok ()) (hp : w.policies v = some policy)
    (hdelta : ∃ entry ∈ entries, entry.assertionMode ≠ 0)
    (hnot : w.constraintSet v = none ∨ policy.hasPostAssertions = 0) (opening closing : List Pubkey) :
    ¬ s.Usable opening closing := by
  obtain ⟨⟨-, hlength⟩, hentries⟩ := PostExecutionAssertions.validateEntries_ok hvalid
  obtain ⟨openCtx, closeCtx, a, b, rfl, hb, -, -, -, hlong⟩ := s
  rintro ⟨w', session, hw', hsession, hcaptured, -⟩
  obtain ⟨policy', plan, snapshots, hp', hsnapshots, hsession'⟩ := validateAndAuthorize_snapshots hw'
  cases hp.symm.trans hp'
  have hunsupplied : policy.hasPostAssertions = 0 ∨ .postAssertions a.vault ∉ opening := by
    refine hnot.symm.imp_right fun hnone => ?_
    obtain ⟨_, _, _, -, -, hrequested⟩ := validateAndAuthorize_requested hw'
    have hempty : opening = [] := loadConstraints_nil hnone hrequested.loaded
    simp [hempty]
  have hnothing := hsnapshots.symm.trans
    (captureSnapshots_unsupplied (a := { a with remainingAccounts := opening }) hunsupplied)
  cases hnothing
  cases hsession.symm.trans hsession'
  obtain ⟨entry, hentry, hne⟩ := hdelta
  obtain ⟨i, hi⟩ := List.mem_iff_getElem?.mp hentry
  obtain ⟨hlt, -⟩ := List.getElem?_eq_some_iff.mp hi
  have hempty : [] = fieldBytes (openCtx.accountData entry.targetAccount) entry.offset entry.valueLen :=
    hcaptured ⟨i, hlt.trans_le hlength⟩ entry hi hne
  have hzero := fieldBytes_length (hlong entry hentry hne)
  rw [← hempty] at hzero
  exact absurd hzero (hentries entry hentry).len_pos.ne

/-- A vault with a delta assertion can be used exactly if it has constraints; then the same remaining accounts do for
every session. -/
theorem delta_assertions_usable_iff (hrun : run Step.exec steps {} = .ok w) (hp : w.policies v = some policy)
    (hset : w.postAssertions v = some { entries := entries }) (hdelta : ∃ entry ∈ entries, entry.assertionMode ≠ 0) :
    (∀ s : SteadySession w v entries, (∃ opening closing, s.Usable opening closing) ↔
      policy.hasConstraints ∧ policy.hasPostAssertions ≠ 0) ∧
    (policy.hasConstraints ∧ policy.hasPostAssertions ≠ 0 →
      ∃ opening closing, ∀ s : SteadySession w v entries, s.Usable opening closing) := by
  have hvalid : PostExecutionAssertions.validateEntries entries = .ok () := postAssertions_valid hrun hset
  refine ⟨fun s => ⟨?_, ?_⟩, ?_⟩
  · rintro ⟨opening, closing, husable⟩
    have hneither : ¬ (w.constraintSet v = none ∨ policy.hasPostAssertions = 0) := fun hnot =>
      s.not_usable hvalid hp hdelta hnot opening closing husable
    rw [not_or] at hneither
    refine hneither.imp_left fun hsome => ?_
    exact ((constraintsInv_run hrun v).flag policy hp).mpr (Option.isSome_iff_ne_none.mpr hsome)
  · rintro ⟨hconstraints, hassertions⟩
    exact ⟨_, _, s.usable hset hvalid hp hconstraints hassertions⟩
  · rintro ⟨hconstraints, hassertions⟩
    exact ⟨_, _, fun s => s.usable hset hvalid hp hconstraints hassertions⟩

end

/-! ### An account that must not change -/

/-- The first eight bytes of the account at key 30 stay what they are. -/
def steadyEntry : PostAssertionEntry :=
  { targetAccount := .key 30, offset := 0, valueLen := 8, operator := 0, expectedValue := List.replicate 8 0,
    assertionMode := 3, crossFieldOffsetB := 0, crossFieldMultiplierBps := 0, crossFieldFlags := 0 }

def steadyStep : Step := .ofKey payClock 1 (Instruction.createPostAssertions payAction [steadyEntry]).toTopLevel

def steadyCtx : Ctx := { constrainedCtx with accountData := fun _ => List.replicate 8 7 }

/-- The session of agent 3, around a trade that changes nothing of the account. -/
def steadySession {w : World} (remaining : List Pubkey) (hnot : .postAssertions payVault.vault ∉ remaining)
    (h : (validateAndAuthorize steadyCtx { payValidate with remainingAccounts := remaining } w).isOk) :
    SteadySession w payVault.vault [steadyEntry] where
  openCtx := steadyCtx
  closeCtx := steadyCtx
  validate := payValidate
  finalize := payFinalize
  validate_vault := rfl
  finalize_vault := rfl
  passes := ⟨remaining, (exists_ok_of_isOk h).imp fun _ hw => ⟨hnot, hw⟩⟩
  absolute := by simp [steadyEntry]
  unchanged _ _ _ := rfl
  long := by simp [steadyEntry, steadyCtx]

theorem delta_assertions_unusable : ∃ w policy, run Step.exec (payRun.take 3 ++ [steadyStep]) {} = .ok w ∧
    w.policies payVault.vault = some policy ∧ policy.hasPostAssertions ≠ 0 ∧
    w.postAssertions payVault.vault = some { entries := [steadyEntry] } ∧
    ∃ s : SteadySession w payVault.vault [steadyEntry], ¬ ∃ opening closing, s.Usable opening closing := by
  obtain ⟨w, policy, hrun, hp, hassertions, hset, hnone⟩ : ∃ w policy,
      run Step.exec (payRun.take 3 ++ [steadyStep]) {} = .ok w ∧ w.policies payVault.vault = some policy ∧
      policy.hasPostAssertions = 1 ∧ w.postAssertions payVault.vault = some { entries := [steadyEntry] } ∧
      w.constraintSet payVault.vault = none := ⟨_, _, rfl, rfl, rfl, rfl, rfl⟩
  have hpasses : (validateAndAuthorize steadyCtx { payValidate with remainingAccounts := [] } w).isOk := by
    cases hrun
    decide +kernel
  refine ⟨w, policy, hrun, hp, by simp [hassertions], hset, steadySession [] (by simp) hpasses, ?_⟩
  rintro ⟨opening, closing, husable⟩
  exact SteadySession.not_usable _ (postAssertions_valid hrun hset) hp ⟨steadyEntry, by simp, by decide⟩ (.inl hnone) _
    _ husable

theorem delta_assertions_usable_constrained : ∃ w policy, run Step.exec (constrainRun ++ [steadyStep]) {} = .ok w ∧
    w.policies payVault.vault = some policy ∧
    ∃ s : SteadySession w payVault.vault [steadyEntry], ∃ opening closing, s.Usable opening closing := by
  obtain ⟨w, policy, hrun, hp, hconstraints, hassertions, hset⟩ : ∃ w policy,
      run Step.exec (constrainRun ++ [steadyStep]) {} = .ok w ∧ w.policies payVault.vault = some policy ∧
      policy.hasConstraints ∧ policy.hasPostAssertions = 1 ∧
      w.postAssertions payVault.vault = some { entries := [steadyEntry] } := ⟨_, _, rfl, rfl, rfl, rfl, rfl⟩
  have hpasses : (validateAndAuthorize steadyCtx
      { payValidate with remainingAccounts := [.constraints payVault.vault] } w).isOk := by
    cases hrun
    decide +kernel
  have hdelta : ∃ entry ∈ [steadyEntry], entry.assertionMode ≠ 0 := ⟨steadyEntry, by simp, by decide⟩
  have s := steadySession [.constraints payVault.vault] (by simp) hpasses
  exact ⟨w, policy, hrun, hp, s, ((delta_assertions_usable_iff hrun hp hset hdelta).1 s).mpr
    ⟨hconstraints, by simp [hassertions]⟩⟩

end Sigil
