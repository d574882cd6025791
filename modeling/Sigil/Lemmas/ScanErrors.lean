import Sigil.Lemmas.Errors
import Sigil.Lemmas.Scan

/-!
# The errors of the checks before a session

When `validate_and_authorize` ends with an error about the capability, the protocols or the instructions. The other
checks of the scan, for constraint entries and slippage, can only come in between.
-/

namespace Sigil

open Library

/-- The errors about the capability of the agent, the protocols and the instructions. -/
def isScanError : ProgramError → Bool
  | .sigil e => e ∈ [.insufficientPermissions, .protocolNotAllowed, .unauthorizedTokenApproval,
      .unauthorizedTokenTransfer, .confidentialTransferBlocked, .permanentDelegateBlocked, .transferHookBlocked,
      .lamportDrainBlocked, .batchInstructionBlocked, .asyncFulfillmentNotPermitted, .protocolMismatch]
  | _ => false

abbrev ScanSafe {α : Type} (x : Result α) : Prop := Avoids isScanError x

instance : Sparing isScanError where
  anchor _ := rfl
  token _ := rfl
  sigil := by decide

/-- What the scan asks of an instruction in front of the `finalize_session`. -/
structure ScanPermits (policy : PolicyConfig) (spending : Prop) (target : Pubkey) (ix : RawInstruction) : Prop where
  opcode : blockedTokenOpcode ix = none
  async : isInfrastructure ix.programId = false → ix.programId ∉ knownAsyncFulfillmentPrograms
  allowed : isInfrastructure ix.programId = false → policy.isProtocolAllowed ix.programId
  declared : spending → isRecognizedDefi ix.programId → ix.programId = target

/-- The other checks of the scan do not get in the way. -/
structure ScanUnhindered (policy : PolicyConfig) (constraints : Option InstructionConstraints)
    (ix : RawInstruction) : Prop where
  admitted : ∀ c, constraints = some c →
    ∃ matched, verifyAgainstEntries c ix = .ok matched ∧ (matched.isSome ∨ c.strictMode = false)
  slippage : enforceJupiterSlippageIfJupiter ix policy.maxSlippageBps = .ok ()

/-- The instructions in front of the first `finalize_session`. -/
def inFront (l : List RawInstruction) : List RawInstruction := l.takeWhile fun ix => !isFinalizeSession ix

section
variable {policy : PolicyConfig} {constraints : Option InstructionConstraints} {target : Pubkey}
  {ix : RawInstruction} {l : List RawInstruction} {spending : Prop} {n k : Nat} {check : RawInstruction → Result Unit}

theorem inFront_cons_of_finalize (h : isFinalizeSession ix) : inFront (ix :: l) = [] := by simp [inFront, h]

theorem inFront_cons (h : isFinalizeSession ix = false) : inFront (ix :: l) = ix :: inFront l := by simp [inFront, h]

theorem blockedTokenOpcode_isScanError {e : SigilError} (h : blockedTokenOpcode ix = some e) : isScanError e := by
  unfold blockedTokenOpcode at h
  split at h
  · cases h
  · split_ifs at h <;> cases h <;> rfl

/-! ## One instruction -/

/-- Past the checks for a session, the scan of an instruction ends with an error of a constraint entry at most. -/
theorem scanInstructionShared_safe (h : isFinalizeSession ix = false → ScanPermits policy spending target ix) :
    ScanSafe (scanInstructionShared ix policy constraints) := by
  unfold scanInstructionShared
  split
  · exact avoids_pure
  · rename_i hfin
    replace h := h (by simpa using hfin)
    rw [h.opcode]
    dsimp only
    split
    · exact avoids_pure
    · rename_i hinfra
      rw [Bool.not_eq_true] at hinfra
      cases constraints <;> simp [h.async hinfra, h.allowed hinfra, verifyAgainstEntries, isScanError]

/-- An instruction that the scan has not refused for the session, and does not refuse for another reason. -/
theorem scanInstructionShared_permits (hfin : isFinalizeSession ix = false)
    (hunhindered : ScanUnhindered policy constraints ix)
    (h : ScanSafe (scanInstructionShared ix policy constraints)) :
    blockedTokenOpcode ix = none ∧
      ((isInfrastructure ix.programId ∧ scanInstructionShared ix policy constraints = .ok .infrastructure) ∨
        (isInfrastructure ix.programId = false ∧ ix.programId ∉ knownAsyncFulfillmentPrograms ∧
          policy.isProtocolAllowed ix.programId ∧
          scanInstructionShared ix policy constraints = .ok .passedSharedChecks)) := by
  unfold scanInstructionShared at h ⊢
  rw [if_neg (by simp [hfin])] at h ⊢
  cases hopcode : blockedTokenOpcode ix with
  | some e =>
      rw [hopcode] at h
      exact absurd (blockedTokenOpcode_isScanError hopcode) (by simpa using avoids_error.mp h)
  | none =>
      rw [hopcode] at h
      refine ⟨rfl, ?_⟩
      cases hinfra : isInfrastructure ix.programId with
      | true => exact .inl ⟨rfl, rfl⟩
      | false =>
          rw [hinfra] at h
          have hsession : ix.programId ∉ knownAsyncFulfillmentPrograms ∧ policy.isProtocolAllowed ix.programId := by
            have hasync := h.required rfl
            exact ⟨hasync, (h.passed hasync).required rfl⟩
          refine .inr ⟨rfl, hsession.1, hsession.2, ?_⟩
          cases constraints with
          | none => simp [hsession, require, bind, Except.bind, pure, Except.pure]
          | some c =>
              obtain ⟨matched, hmatched, hstrict⟩ := hunhindered.admitted c rfl
              simp [hsession, hmatched, hstrict, require, bind, Except.bind, pure, Except.pure]

/-! ## The loops -/

theorem scanBefore_safe : ScanSafe (scanBefore l n) := by
  induction l generalizing n with
  | nil => exact avoids_pure
  | cons ix l ih => simp [scanBefore, isScanError, ih]

theorem scanSpending_safe_iff : ScanSafe (scanSpending policy constraints target l n k) ↔
    ScanSafe (scanWith policy constraints (checkDeclared policy target) l n) := by
  rw [← scanSpending_map, ScanSafe, ScanSafe, avoids_map]

theorem scanWith_safe (hcheck : ∀ ix, ScanPermits policy spending target ix → ScanSafe (check ix))
    (h : ∀ ix ∈ inFront l, ScanPermits policy spending target ix) :
    ScanSafe (scanWith policy constraints check l n) := by
  induction l generalizing n with
  | nil => exact avoids_pure
  | cons ix l ih =>
      unfold scanWith
      cases hfin : isFinalizeSession ix with
      | true => simp [scanInstructionShared, hfin, isScanError]
      | false =>
          obtain ⟨hix, hl⟩ := List.forall_mem_cons.mp (inFront_cons (l := l) hfin ▸ h)
          refine avoids_bind.mpr ⟨by simp [isScanError], fun _ _ => ?_⟩
          refine avoids_bind.mpr ⟨scanInstructionShared_safe fun _ => hix, fun action _ => ?_⟩
          cases action with
          | foundFinalize => exact avoids_pure
          | infrastructure => exact ih hl
          | passedSharedChecks => exact avoids_bind.mpr ⟨hcheck ix hix, fun _ _ => ih hl⟩

/-- The scan gets to every instruction in front of the `finalize_session`, if nothing else stops it. -/
theorem scanWith_permits (hcheck : ∀ ix, ScanUnhindered policy constraints ix → ScanSafe (check ix) →
      (spending → isRecognizedDefi ix.programId → ix.programId = target) ∧ check ix = .ok ())
    (hbound : n + l.length ≤ maxSysvarScanIterations)
    (hunhindered : ∀ ix ∈ inFront l, ScanUnhindered policy constraints ix)
    (h : ScanSafe (scanWith policy constraints check l n)) :
    ∀ ix ∈ inFront l, ScanPermits policy spending target ix := by
  induction l generalizing n with
  | nil => simp [inFront]
  | cons ix l ih =>
      cases hfin : isFinalizeSession ix with
      | true => simp [inFront_cons_of_finalize hfin]
      | false =>
          rw [List.length_cons] at hbound
          rw [inFront_cons hfin, List.forall_mem_cons] at hunhindered ⊢
          have hscan := h.passed (by omega)
          obtain ⟨hopcode, ⟨hinfra, haction⟩ | ⟨hinfra, hasync, hallowed, haction⟩⟩ :=
            scanInstructionShared_permits hfin hunhindered.1 hscan.first
          · have hrest := hscan.next haction
            refine ⟨⟨hopcode, fun h => ?_, fun h => ?_, fun _ h => ?_⟩, ih (by omega) hunhindered.2 hrest⟩
            · exact nomatch h.symm.trans hinfra
            · exact nomatch h.symm.trans hinfra
            · exact nomatch (isRecognizedDefi_not_infrastructure h).symm.trans hinfra
          · have hchecked := hscan.next haction
            obtain ⟨hdeclared, hcheck⟩ := hcheck ix hunhindered.1 hchecked.first
            have hrest := hchecked.next hcheck
            exact ⟨⟨hopcode, fun _ => hasync, fun _ => hallowed, hdeclared⟩, ih (by omega) hunhindered.2 hrest⟩

theorem checkDeclared_safe (hspending : spending) (h : ScanPermits policy spending target ix) :
    ScanSafe (checkDeclared policy target ix) :=
  avoids_bind.mpr ⟨avoids_require.mpr (.inl (h.declared hspending)), fun _ _ => enforceJupiterSlippageIfJupiter_avoids⟩

theorem checkDeclared_permits (hunhindered : ScanUnhindered policy constraints ix)
    (h : ScanSafe (checkDeclared policy target ix)) :
    (isRecognizedDefi ix.programId → ix.programId = target) ∧ checkDeclared policy target ix = .ok () := by
  have hdeclared := h.required rfl
  exact ⟨hdeclared, require_bind_eq_ok.mpr ⟨hdeclared, hunhindered.slippage⟩⟩

theorem scanBefore_eq_ok (hbound : n + l.length ≤ maxSysvarScanIterations)
    (h : ∀ ix ∈ l, isInfrastructure ix.programId) : scanBefore l n = .ok () := by
  induction l generalizing n with
  | nil => rfl
  | cons ix l ih =>
      rw [List.length_cons] at hbound
      obtain ⟨hix, hl⟩ := List.forall_mem_cons.mp h
      rw [scanBefore, require_bind_eq_ok, require_bind_eq_ok]
      exact ⟨by omega, hix, ih (by omega) hl⟩

end

/-! ## The whole instruction -/

section
variable {ctx : Ctx} {a : ValidateAndAuthorize} {w : World} {vault : AgentVault} {policy : PolicyConfig}
  {constraints : Option InstructionConstraints}

/-- The instructions after the `validate_and_authorize`, up to a `finalize_session`. -/
def scanned (ctx : Ctx) : List RawInstruction := inFront (ctx.instructions.drop (ctx.index + 1))

/-- What the session asks of its agent, its target and its instructions. -/
structure SessionPermits (ctx : Ctx) (a : ValidateAndAuthorize) (vault : AgentVault) (policy : PolicyConfig) :
    Prop where
  capability : vault.hasCapability a.agent (a.amount.toNat > 0)
  target : policy.isProtocolAllowed a.targetProtocol
  instructions : ∀ ix ∈ scanned ctx, ScanPermits policy (a.amount.toNat > 0) a.targetProtocol ix

/-- What the request says of its agent, its policy and the instructions in front of it is as the program wants it. -/
structure RequestFits (ctx : Ctx) (a : ValidateAndAuthorize) (vault : AgentVault) (policy : PolicyConfig) : Prop where
  registered : vault.isAgent a.agent
  version : policy.policyVersion = a.expectedPolicyVersion.toNat
  active : vault.isActive
  unpaused : vault.isAgentPaused a.agent = false
  before : ∀ ix ∈ ctx.instructions.take ctx.index, isInfrastructure ix.programId

/-- No other check on accounts and instructions is in the way. -/
structure SessionUnhindered (ctx : Ctx) (a : ValidateAndAuthorize) (w : World) (policy : PolicyConfig) : Prop where
  signer : ctx.requireSigner a.agent = .ok ()
  tracker : (w.trackers a.vault).isSome
  overlay : (w.overlays a.vault).isSome
  session : (w.sessions a.session).isNone
  tokenAccount : ∃ account, w.ledger.accounts a.vaultTokenAccount = some account ∧ account.owner = a.vault ∧
    account.mint = a.tokenMint ∧ ∃ plan, planSpend w a policy account = .ok plan
  mint : (w.ledger.mints a.tokenMint).isSome
  treasury : w.loadTokenOption a.protocolTreasuryTokenAccount = .ok ()
  feeDestination : w.loadTokenOption a.feeDestinationTokenAccount = .ok ()
  output : w.loadTokenOption a.outputStablecoinAccount = .ok ()
  length : ctx.instructions.length ≤ maxSysvarScanIterations
  constraints : ∃ c, loadConstraints w a.vault policy a.remainingAccounts = .ok c ∧
    ∀ ix ∈ scanned ctx, ScanUnhindered policy c ix

theorem checkScans_safe (h : ∀ ix ∈ scanned ctx, ScanPermits policy (a.amount.toNat > 0) a.targetProtocol ix) :
    ScanSafe (checkScans ctx a policy constraints) := by
  refine avoids_bind.mpr ⟨scanBefore_safe, fun _ _ => ?_⟩
  dsimp only
  split
  · rename_i hspending
    refine avoids_bind.mpr ⟨scanSpending_safe_iff.mpr (scanWith_safe (fun ix => checkDeclared_safe hspending) h), ?_⟩
    simp [isScanError]
  · rw [scanNonSpending_eq]
    refine avoids_bind.mpr ⟨scanWith_safe (fun _ _ => enforceJupiterSlippageIfJupiter_avoids) h, ?_⟩
    simp [isScanError]

theorem checkScans_permits (hbefore : ∀ ix ∈ ctx.instructions.take ctx.index, isInfrastructure ix.programId)
    (hlength : ctx.instructions.length ≤ maxSysvarScanIterations)
    (hunhindered : ∀ ix ∈ scanned ctx, ScanUnhindered policy constraints ix)
    (h : ScanSafe (checkScans ctx a policy constraints)) :
    ∀ ix ∈ scanned ctx, ScanPermits policy (a.amount.toNat > 0) a.targetProtocol ix := by
  have htake : 0 + (ctx.instructions.take ctx.index).length ≤ maxSysvarScanIterations := by
    rw [List.length_take]; omega
  have hdrop : 0 + (ctx.instructions.drop (ctx.index + 1)).length ≤ maxSysvarScanIterations := by
    rw [List.length_drop]; omega
  replace h := h.next (scanBefore_eq_ok htake hbefore)
  dsimp only at h
  split at h
  · refine scanWith_permits (fun ix hix hsafe => ?_) hdrop hunhindered (scanSpending_safe_iff.mp h.first)
    obtain ⟨hdeclared, hok⟩ := checkDeclared_permits hix hsafe
    exact ⟨fun _ => hdeclared, hok⟩
  · rename_i hspending
    rw [scanNonSpending_eq] at h
    exact scanWith_permits (fun ix hix _ => ⟨fun h => absurd h hspending, hix.slippage⟩) hdrop hunhindered h.first

theorem checkRequest_safe (h : SessionPermits ctx a vault policy) : ScanSafe (checkRequest w a vault policy) := by
  simp [checkRequest, h.capability, h.target, isScanError]

theorem checkRequest_permits (hfits : RequestFits ctx a vault policy) (hunhindered : SessionUnhindered ctx a w policy)
    (h : ScanSafe (checkRequest w a vault policy)) :
    vault.hasCapability a.agent (a.amount.toNat > 0) ∧ policy.isProtocolAllowed a.targetProtocol ∧
      ∀ c, loadConstraints w a.vault policy a.remainingAccounts = .ok c → checkRequest w a vault policy = .ok c := by
  obtain ⟨c, hc, -⟩ := hunhindered.constraints
  have hpaused := (((h.passed hfits.version).next hc).passed hfits.active).passed hfits.unpaused
  have hcapability := hpaused.required rfl
  have htarget := (hpaused.passed hcapability).required rfl
  refine ⟨hcapability, htarget, fun c hc => ?_⟩
  simp only [checkRequest, bind_eq_ok, require_eq_ok, exists_and_left, exists_const, pure_eq_ok]
  exact ⟨hfits.version, c, hc, hfits.active, hfits.unpaused, hcapability, htarget, rfl⟩

/-- The session is not refused for its agent, its target or its instructions. -/
theorem validateAndAuthorize_safe (hv : w.vaults a.vault = some vault) (hp : w.policies a.vault = some policy)
    (h : SessionPermits ctx a vault policy) : ScanSafe (validateAndAuthorize ctx a w) := by
  have hscans {c : Option InstructionConstraints} : ScanSafe (checkScans ctx a policy c) :=
    checkScans_safe h.instructions
  have hload {r : AgentVault} (hr : w.loadVault a.vault = .ok r) : r = vault := by
    simp only [World.loadVault, bind_eq_ok, okOr_eq_ok, require_eq_ok, pure_eq_ok] at hr
    obtain ⟨r, hsome, _, -, rfl⟩ := hr
    exact Option.some.inj (hsome.symm.trans hv)
  have hpolicy {q : PolicyConfig} (hq : w.loadPolicy a.vault = .ok q) : q = policy :=
    Option.some.inj ((okOr_eq_ok.mp hq).symm.trans hp)
  refine avoids_bind.mpr ⟨requireSigner_avoids, fun _ _ => avoids_bind.mpr ⟨loadVault_avoids, fun r hr => ?_⟩⟩
  obtain rfl := hload hr
  refine avoids_bind.mpr ⟨by simp [isScanError], fun _ _ => avoids_bind.mpr ⟨loadPolicy_avoids, fun q hq => ?_⟩⟩
  obtain rfl := hpolicy hq
  have hrequest : ScanSafe (checkRequest w a r q) := checkRequest_safe h
  simp [hrequest, hscans, isScanError]

/-- If nothing else refuses the session, its agent, its target and its instructions are fine. -/
theorem validateAndAuthorize_permits (hv : w.vaults a.vault = some vault) (haddress : a.vault = vault.address)
    (hp : w.policies a.vault = some policy) (hfits : RequestFits ctx a vault policy)
    (hunhindered : SessionUnhindered ctx a w policy) (h : ScanSafe (validateAndAuthorize ctx a w)) :
    SessionPermits ctx a vault policy := by
  have hvault : w.loadVault a.vault = .ok vault := by
    simp [World.loadVault, hv, ← haddress, okOr, require, bind, Except.bind, pure, Except.pure]
  have hpolicy : w.loadPolicy a.vault = .ok policy := okOr_eq_ok.mpr hp
  obtain ⟨tracker, htracker⟩ := Option.isSome_iff_exists.mp hunhindered.tracker
  obtain ⟨overlay, hoverlay⟩ := Option.isSome_iff_exists.mp hunhindered.overlay
  obtain ⟨account, haccount, howner, hmint, plan, hplan⟩ := hunhindered.tokenAccount
  obtain ⟨mint, hmint'⟩ := Option.isSome_iff_exists.mp hunhindered.mint
  obtain ⟨c, hc, hinstructions⟩ := hunhindered.constraints
  have hstate := (((((h.next hunhindered.signer).next hvault).passed hfits.registered).next hpolicy).next
    (okOr_eq_ok.mpr htracker)).next (okOr_eq_ok.mpr hoverlay)
  have htokens := ((((hstate.passed hunhindered.session).next (okOr_eq_ok.mpr haccount)).passed howner).passed
    hmint).next (okOr_eq_ok.mpr hmint')
  have hrequest := ((htokens.next hunhindered.treasury).next hunhindered.feeDestination).next hunhindered.output
  obtain ⟨hcapability, htarget, hchecked⟩ := checkRequest_permits hfits hunhindered hrequest.first
  have hscans := ((hrequest.next (hchecked c hc)).next hplan).first
  exact ⟨hcapability, htarget, checkScans_permits hfits.before hunhindered.length hinstructions hscans⟩

end

end Sigil
