import Sigil.Lemmas.Administration

/-!
# What the other instructions do

For each instruction outside the frame: what it has found, and the state it leaves.
-/

namespace Sigil

open Library

variable {w w' : World} {ctx : Ctx}

/-! ## Charges -/

/-- A charge of `x` passed the daily cap and was recorded; the counters of the protocols are free. -/
structure Charged (policy : PolicyConfig) (clock : Clock) (x : Nat) (tracker tracker' : SpendTracker) : Prop where
  cap : tracker.getRolling24hUsd clock + x ≤ policy.dailySpendingCapUsd
  fits : tracker.getRolling24hUsd clock + x ≤ uMax 64
  recorded : ∃ t, tracker.recordSpend clock x = .ok t ∧ tracker'.buckets = t.buckets ∧
    tracker'.lastWriteEpoch = t.lastWriteEpoch

section
variable {policy : PolicyConfig} {clock : Clock} {tracker tracker' t : SpendTracker} {x : Nat}

theorem checkRollingCap_ok (h : checkRollingCap policy tracker clock x = .ok ()) :
    tracker.getRolling24hUsd clock + x ≤ policy.dailySpendingCapUsd ∧
      tracker.getRolling24hUsd clock + x ≤ uMax 64 := by
  simp only [checkRollingCap, bind_eq_ok, okOr_eq_ok, checkedAdd_eq_some, require_eq_ok] at h
  obtain ⟨_, ⟨hfits, rfl⟩, hle⟩ := h
  exact ⟨hle, hfits⟩

theorem Charged.of_record (hcap : checkRollingCap policy tracker clock x = .ok ())
    (hrecord : tracker.recordSpend clock x = .ok tracker') : Charged policy clock x tracker tracker' :=
  ⟨(checkRollingCap_ok hcap).1, (checkRollingCap_ok hcap).2, tracker', hrecord, rfl, rfl⟩

theorem setCounter_buckets (i : Fin maxAllowedProtocols) (counter : ProtocolSpendCounter) :
    (tracker.setCounter i counter).buckets = tracker.buckets ∧
      (tracker.setCounter i counter).lastWriteEpoch = tracker.lastWriteEpoch := ⟨rfl, rfl⟩

theorem recordProtocolSpend_ok {protocol : Pubkey}
    (h : tracker.recordProtocolSpend clock protocol x = .ok tracker') :
    tracker'.buckets = tracker.buckets ∧ tracker'.lastWriteEpoch = tracker.lastWriteEpoch := by
  simp only [SpendTracker.recordProtocolSpend, bind_eq_ok] at h
  obtain ⟨_, -, h⟩ := h
  split at h
  · split at h
    · obtain rfl := pure_eq_ok.mp h
      exact setCounter_buckets _ _
    · simp only [bind_eq_ok, pure_eq_ok] at h
      obtain ⟨_, -, rfl⟩ := h
      exact setCounter_buckets _ _
  · simp only [bind_eq_ok, pure_eq_ok] at h
    obtain ⟨_, -, rfl⟩ := h
    exact setCounter_buckets _ _

theorem chargeSpend_ok {vault : AgentVault} {overlay : AgentSpendOverlay} {agent protocol : Pubkey}
    {charged : SpendTracker × AgentSpendOverlay}
    (h : chargeSpend policy vault tracker overlay clock agent protocol x = .ok charged) :
    Charged policy clock x tracker charged.1 := by
  simp only [chargeSpend, bind_eq_ok, require_eq_ok, exists_and_left, exists_const] at h
  obtain ⟨-, _, hcap, _, -, _, -, t, hrecord, h⟩ := h
  refine ⟨(checkRollingCap_ok hcap).1, (checkRollingCap_ok hcap).2, t, hrecord, ?_⟩
  split at h
  · simp only [bind_eq_ok, pure_eq_ok] at h
    obtain ⟨_, hproto, rfl⟩ := h
    exact recordProtocolSpend_ok hproto
  · simp only [bind_eq_ok, pure_eq_ok] at h
    obtain ⟨_, rfl, rfl⟩ := h
    exact ⟨rfl, rfl⟩

/-- What a session charges: the measured spend, or else the fees. -/
def chargedAmount (spend fees : Nat) : Nat := if spend > 0 then spend else fees

/-- A charge of zero is not recorded; any other is, under the cap. -/
theorem chargeSession_ok {v : Pubkey} {vault : AgentVault} {session : SessionAuthority} {spend : Nat}
    (h : chargeSession w clock v vault policy session spend = .ok w') :
    (chargedAmount spend (session.protocolFee + session.developerFee) = 0 ∧ w' = w) ∨
    (0 < chargedAmount spend (session.protocolFee + session.developerFee) ∧
      ∃ tracker tracker' overlays, w.trackers v = some tracker ∧
        Charged policy clock (chargedAmount spend (session.protocolFee + session.developerFee)) tracker tracker' ∧
        w' = { w.setTracker v tracker' clock
          (chargedAmount spend (session.protocolFee + session.developerFee)) with overlays := overlays }) := by
  simp only [chargeSession, bind_eq_ok, okOr_eq_ok, checkedAdd_eq_some, World.loadTracker_eq_ok] at h
  obtain ⟨tracker, htracker, _, -, _, ⟨-, rfl⟩, h⟩ := h
  unfold chargedAmount
  split at h
  · rename_i hspend
    simp only [bind_eq_ok, pure_eq_ok] at h
    obtain ⟨charged, hcharge, rfl⟩ := h
    rw [if_pos hspend]
    exact .inr ⟨hspend, tracker, charged.1, _, htracker, chargeSpend_ok hcharge, rfl⟩
  · rename_i hspend
    rw [if_neg hspend]
    split at h
    · rename_i hfees
      simp only [bind_eq_ok, pure_eq_ok] at h
      obtain ⟨tracker', hcharge, rfl⟩ := h
      simp only [chargeFees, bind_eq_ok] at hcharge
      obtain ⟨_, hcap, hrecord⟩ := hcharge
      exact .inr ⟨hfees, tracker, tracker', _, htracker, .of_record hcap hrecord, rfl⟩
    · obtain rfl := pure_eq_ok.mp h
      exact .inl ⟨by omega, rfl⟩

end

/-! ## Life of a vault -/

/-- The vault that `initialize_vault` creates. -/
def InitializeVault.newVault (a : InitializeVault) (clock : Clock) : AgentVault :=
  { owner := a.owner, vaultId := a.vaultId.toNat, feeDestination := a.feeDestination,
    createdAt := clock.unixTimestamp }

theorem initializeVault_ok {a : InitializeVault} (h : initializeVault ctx a w = .ok w') :
    (w.vaults a.vault = none ∧ w.policies a.vault = none ∧ w.overlays a.vault = none) ∧ a.check = .ok () ∧
      w' = { w with
        vaults := Function.update w.vaults a.vault (some (a.newVault ctx.clock))
        policies := Function.update w.policies a.vault (some a.policy)
        trackers := Function.update w.trackers a.vault (some {})
        overlays := Function.update w.overlays a.vault (some {})
        spendLog := Function.update w.spendLog a.vault [] } := by
  simp only [initializeVault, Ctx.requireSigner, bind_eq_ok, require_eq_ok, exists_and_left, exists_const,
    pure_eq_ok, Option.isNone_iff_eq_none] at h
  obtain ⟨-, hv, hp, -, ho, _, hcheck, rfl⟩ := h
  exact ⟨⟨hv, hp, ho⟩, hcheck, rfl⟩

/-- A vault that is closed has nothing open. -/
structure Closable (w : World) (ctx : Ctx) (a : CloseVault) (vault : AgentVault) (policy : PolicyConfig) : Prop where
  owned : Owned w ctx a.owner a.vault vault
  found : w.policies a.vault = some policy
  overlay : (w.overlays a.vault).isSome
  escrows : vault.activeEscrowCount = 0
  sessions : vault.activeSessions = 0
  constraints : policy.hasConstraints = false
  pending : policy.hasPendingPolicy → (w.pendingPolicies a.vault).isSome

/-- The state without a vault. -/
def World.withoutVault (w : World) (a : CloseVault) (vault : AgentVault) (policy : PolicyConfig) : World :=
  { w with
    vaults := Function.update w.vaults a.vault none
    policies := Function.update w.policies a.vault none
    trackers := Function.update w.trackers a.vault none
    overlays := Function.update w.overlays a.vault none
    pendingPolicies :=
      if policy.hasPendingPolicy then Function.update w.pendingPolicies a.vault none else w.pendingPolicies
    pendingAgentPerms := fun address =>
      if a.clearsAgentPerms vault address then none else w.pendingAgentPerms address
    pendingCloseConstraints :=
      if a.closesPendingCloseConstraints then Function.update w.pendingCloseConstraints a.vault none
      else w.pendingCloseConstraints }

theorem closeVault_ok {a : CloseVault} (h : closeVault ctx a w = .ok w') :
    ∃ vault policy, Closable w ctx a vault policy ∧ w' = w.withoutVault a vault policy := by
  simp only [closeVault, bind_eq_ok, require_eq_ok, exists_and_left, exists_const, pure_eq_ok,
    World.loadOwnedVault_eq_ok, World.loadPolicy_eq_ok, World.loadOverlay_eq_ok] at h
  obtain ⟨vault, howned, policy, hp, _, -, _, ho, -, hescrows, hsessions, hconstraints, hpending, rfl⟩ := h
  exact ⟨vault, policy, ⟨howned, hp, by simp [ho], hescrows, hsessions, hconstraints, fun h => (hpending h).2⟩, rfl⟩

theorem World.withoutVault_timelockFrame (w : World) (a : CloseVault) (vault : AgentVault) (policy : PolicyConfig) :
    TimelockFrame w (w.withoutVault a vault policy) where
  policies x p hx := ⟨p, update_none_subset x p hx, rfl⟩
  pendingPolicies x p hx := by
    simp only [withoutVault] at hx
    split at hx
    · exact update_none_subset x p hx
    · exact hx
  queuedConstraints _ _ hx := hx
  pendingCloseConstraints x p hx := by
    simp only [withoutVault] at hx
    split at hx
    · exact update_none_subset x p hx
    · exact hx
  pendingAgentPerms x p hx := by
    simp only [withoutVault] at hx
    split at hx
    · cases hx
    · exact hx

/-! ## Sessions -/

theorem validateAndAuthorize_ok {a : ValidateAndAuthorize} (h : validateAndAuthorize ctx a w = .ok w') :
    ∃ vault policy tokenAccount constraints plan ledger snapshots,
      (w.vaults a.vault = some vault ∧ a.vault = vault.address) ∧ w.policies a.vault = some policy ∧
      w.sessions a.session = none ∧
      w.ledger.accounts a.vaultTokenAccount = some tokenAccount ∧ tokenAccount.owner = a.vault ∧
      tokenAccount.mint = a.tokenMint ∧
      planSpend w a policy tokenAccount = .ok plan ∧ checkScans ctx a policy constraints = .ok () ∧
      collectFeesAndDelegate w.ledger a vault plan = .ok ledger ∧
      w' = ((w.setSession a.session (some (newSession ctx a policy plan snapshots))).setVault a.vault
        { vault with activeSessions := vault.activeSessions + 1 }).setLedger ledger := by
  simp only [validateAndAuthorize, Ctx.requireSigner, bind_eq_ok, okOr_eq_ok, checkedAdd_eq_some,
    require_eq_ok, exists_and_left, exists_const, pure_eq_ok, World.loadVault_eq_ok, World.loadPolicy_eq_ok,
    World.loadToken_eq_ok, Option.isNone_iff_eq_none] at h
  obtain ⟨-, vault, hv, -, policy, hp, _, -, _, -, hsession, tokenAccount, htoken, howner, hmint, _, -, _, -, _, -,
    _, -, constraints, -, plan, hplan, _, hscans, ledger, hledger, snapshots, -, _, ⟨-, rfl⟩, rfl⟩ := h
  exact ⟨vault, policy, tokenAccount, constraints, plan, ledger, snapshots, hv, hp, hsession, htoken, howner,
    hmint, hplan, hscans, hledger, rfl⟩

/-- What the request of an opened session has passed. -/
structure Requested (w : World) (ctx : Ctx) (a : ValidateAndAuthorize) (vault : AgentVault) (policy : PolicyConfig)
    (constraints : Option InstructionConstraints) : Prop where
  signer : a.agent ∈ ctx.signers
  agent : vault.isAgent a.agent
  version : policy.policyVersion = a.expectedPolicyVersion.toNat
  loaded : loadConstraints w a.vault policy a.remainingAccounts = .ok constraints
  active : vault.isActive
  unpaused : vault.isAgentPaused a.agent = false
  capability : vault.hasCapability a.agent (a.amount.toNat > 0)
  protocol : policy.isProtocolAllowed a.targetProtocol
  scans : checkScans ctx a policy constraints = .ok ()

theorem validateAndAuthorize_requested {a : ValidateAndAuthorize} (h : validateAndAuthorize ctx a w = .ok w') :
    ∃ vault policy constraints, w.vaults a.vault = some vault ∧ w.policies a.vault = some policy ∧
      Requested w ctx a vault policy constraints := by
  simp only [validateAndAuthorize, checkRequest, Ctx.requireSigner, bind_eq_ok, require_eq_ok, exists_and_left,
    exists_const, pure_eq_ok, World.loadVault_eq_ok, World.loadPolicy_eq_ok] at h
  obtain ⟨hsigner, vault, hv, hagent, policy, hp, _, -, _, -, -, _, -, -, -, _, -, _, -, _, -, _, -, constraints,
    ⟨hversion, _, hload, hactive, hpaused, hcapability, hprotocol, rfl⟩, _, -, _, hscans, -⟩ := h
  exact ⟨vault, policy, _, hv.1, hp, hsigner, hagent, hversion, hload, hactive, hpaused, hcapability, hprotocol,
    hscans⟩

/-- Other remaining accounts do as well, if the constraints they lead to and the snapshots are fine. -/
theorem validateAndAuthorize_remaining {a : ValidateAndAuthorize} {remaining remaining' : List Pubkey}
    (h : validateAndAuthorize ctx { a with remainingAccounts := remaining } w = .ok w')
    (hload : ∀ policy constraints, w.policies a.vault = some policy →
      loadConstraints w a.vault policy remaining = .ok constraints →
      ∃ constraints', loadConstraints w a.vault policy remaining' = .ok constraints' ∧
        (checkScans ctx a policy constraints = .ok () → checkScans ctx a policy constraints' = .ok ()))
    (hcapture : ∀ policy, w.policies a.vault = some policy →
      ∃ snapshots, captureSnapshots w ctx { a with remainingAccounts := remaining' } policy = .ok snapshots) :
    ∃ w'', validateAndAuthorize ctx { a with remainingAccounts := remaining' } w = .ok w'' := by
  simp only [validateAndAuthorize, checkRequest, bind_eq_ok, require_eq_ok, exists_and_left, exists_const,
    pure_eq_ok, World.loadPolicy_eq_ok] at h ⊢
  obtain ⟨_, hsigner, vault, hv, hagent, policy, hp, tracker, htracker, overlay, hoverlay, hsession, account,
    haccount, howner, hmint, mint, hmint', _, htreasury, _, hfee, _, houtput, _, ⟨hversion, constraints, hc, hactive,
    hpaused, hcapability, hprotocol, rfl⟩, plan, hplan, _, hscans, ledger, hledger, _, -, activeSessions, hcount,
    -⟩ := h
  obtain ⟨constraints', hc', hscans'⟩ := hload policy constraints hp hc
  obtain ⟨snapshots, hsnapshots⟩ := hcapture policy hp
  exact ⟨_, _, hsigner, vault, hv, hagent, policy, hp, tracker, htracker, overlay, hoverlay, hsession, account,
    haccount, howner, hmint, mint, hmint', _, htreasury, _, hfee, _, houtput, _, ⟨hversion, constraints', hc', hactive,
    hpaused, hcapability, hprotocol, rfl⟩, plan, hplan, _, hscans' hscans, ledger, hledger, snapshots, hsnapshots,
    activeSessions, hcount, rfl⟩

theorem loadSession_eq_ok {a : FinalizeSession} {session : SessionAuthority} :
    loadSession w a = .ok session ↔ w.sessions a.session = some session ∧ session.vault = a.vault ∧
      a.session = .session a.vault session.agent session.authorizedToken := by
  simp only [loadSession, bind_eq_ok, okOr_eq_ok, require_eq_ok, exists_and_left, exists_const, pure_eq_ok]
  constructor
  · rintro ⟨_, hs, hv, hx, rfl⟩; exact ⟨hs, hv, hx⟩
  · rintro ⟨hs, hv, hx⟩; exact ⟨session, hs, hv, hx, rfl⟩

theorem finalizeStats_ok {vault vault' : AgentVault} {session : SessionAuthority} {isExpired : Bool}
    {spend : Nat} (h : finalizeStats vault session isExpired spend = .ok vault') :
    vault'.owner = vault.owner ∧ vault'.vaultId = vault.vaultId ∧
      vault'.activeEscrowCount = vault.activeEscrowCount ∧ vault'.activeSessions = vault.activeSessions - 1 := by
  simp only [finalizeStats, bind_eq_ok, pure_eq_ok] at h
  obtain ⟨_, -, _, -, _, -, _, -, rfl⟩ := h
  exact ⟨rfl, rfl, rfl, rfl⟩

theorem finalizeSession_ok {a : FinalizeSession} (h : finalizeSession ctx a w = .ok w') :
    ∃ vault session policy ledger spend charged vault',
      (w.vaults a.vault = some vault ∧ a.vault = vault.address) ∧
      (w.sessions a.session = some session ∧ session.vault = a.vault ∧
        a.session = .session a.vault session.agent session.authorizedToken) ∧
      w.policies a.vault = some policy ∧
      revokeDelegation w.ledger a session = .ok ledger ∧
      measureSpend w a session (session.isExpired ctx.clock.unixTimestamp) = .ok spend ∧
      chargeSession w ctx.clock a.vault vault policy session spend = .ok charged ∧
      finalizeStats vault session (session.isExpired ctx.clock.unixTimestamp) spend = .ok vault' ∧
      w' = ((charged.setSession a.session none).setVault a.vault vault').setLedger ledger := by
  simp only [finalizeSession, Ctx.requireSigner, bind_eq_ok, require_eq_ok, exists_and_left, exists_const,
    pure_eq_ok, World.loadVault_eq_ok, World.loadPolicy_eq_ok, loadSession_eq_ok] at h
  obtain ⟨-, vault, hv, session, hs, policy, hp, _, -, _, -, -, -, -, ledger, hrevoke, spend, hspend, charged,
    hcharge, vault', hstats, _, -, _, -, rfl⟩ := h
  exact ⟨vault, session, policy, ledger, spend, charged, vault', hv, hs, hp, hrevoke, hspend, hcharge, hstats, rfl⟩

/-! ## Transfers and escrows -/

theorem addPayment_ok {vault vault' : AgentVault} {amount fee : Nat} (h : addPayment vault amount fee = .ok vault') :
    vault'.counters = vault.counters := by
  simp only [addPayment, bind_eq_ok, pure_eq_ok] at h
  obtain ⟨_, -, _, -, _, -, rfl⟩ := h
  rfl

/-- What a transfer has passed before it is charged. -/
structure TransferChecked (a : AgentTransfer) (vault : AgentVault) (policy : PolicyConfig)
    (source destination : TokenAccount) : Prop where
  version : policy.policyVersion = a.expectedPolicyVersion.toNat
  active : vault.isActive
  unpaused : vault.isAgentPaused a.agent = false
  capability : vault.hasCapability a.agent true
  positive : 0 < a.amount.toNat
  stablecoin : isStablecoinMint source.mint
  destination : policy.isDestinationAllowed destination.owner

theorem checkTransfer_ok {a : AgentTransfer} {vault : AgentVault} {policy : PolicyConfig}
    {source destination : TokenAccount} (h : checkTransfer a vault policy source destination = .ok ()) :
    TransferChecked a vault policy source destination := by
  simp only [checkTransfer, bind_eq_ok, require_eq_ok, exists_and_left, exists_const] at h
  obtain ⟨hversion, hactive, hpaused, hcapability, hpositive, hmint, hdestination, -⟩ := h
  exact ⟨hversion, hactive, hpaused, hcapability, hpositive, hmint, hdestination⟩

/-- An accepted transfer: what it has loaded, what it has passed and what it leaves. -/
structure TransferTrace (ctx : Ctx) (a : AgentTransfer) (w w' : World) where
  (vault vault' : AgentVault)
  policy : PolicyConfig
  (tracker tracker' : SpendTracker)
  (overlay overlay' : AgentSpendOverlay)
  (source destination : TokenAccount)
  mint : Mint
  (usdAmount protocolFee developerFee net : Nat)
  (ledger₁ ledger₂ ledger₃ : Ledger)
  signer : a.agent ∈ ctx.signers
  vault_found : w.vaults a.vault = some vault
  address : a.vault = vault.address
  isAgent : vault.isAgent a.agent
  policy_found : w.policies a.vault = some policy
  tracker_found : w.trackers a.vault = some tracker
  overlay_found : w.overlays a.vault = some overlay
  source_found : w.ledger.accounts a.vaultTokenAccount = some source
  source_owner : source.owner = a.vault
  mint_found : w.ledger.mints source.mint = some mint
  destination_found : w.ledger.accounts a.destinationTokenAccount = some destination
  checked : checkTransfer a vault policy source destination = .ok ()
  usd : stablecoinToUsd a.amount.toNat mint.decimals = .ok usdAmount
  charged : Charged policy ctx.clock usdAmount tracker tracker'
  agentCharged : chargeAgent vault overlay ctx.clock a.agent usdAmount false = .ok overlay'
  paid : w.ledger.transfer a.vaultTokenAccount a.destinationTokenAccount a.vault net = .ok ledger₁
  protocolPaid : collectFee ledger₁ a.vaultTokenAccount a.vault a.protocolTreasuryTokenAccount protocolTreasury
    source.mint protocolFee .invalidProtocolTreasury = .ok ledger₂
  developerPaid : collectFee ledger₂ a.vaultTokenAccount a.vault a.feeDestinationTokenAccount vault.feeDestination
    source.mint developerFee .invalidFeeDestination = .ok ledger₃
  counted : addPayment vault a.amount.toNat developerFee = .ok vault'
  result : w' = (((w.setTracker a.vault tracker' ctx.clock usdAmount).setOverlay a.vault overlay').setVault a.vault
    vault').setLedger ledger₃

/-- The tracker of the trace is the record itself. -/
theorem agentTransfer_recorded {a : AgentTransfer} (h : agentTransfer ctx a w = .ok w') :
    ∃ t : TransferTrace ctx a w w', t.tracker.recordSpend ctx.clock t.usdAmount = .ok t.tracker' := by
  simp only [agentTransfer, Ctx.requireSigner, bind_eq_ok, require_eq_ok, exists_and_left, exists_const,
    pure_eq_ok, World.loadVault_eq_ok, World.loadPolicy_eq_ok, World.loadTracker_eq_ok, World.loadOverlay_eq_ok,
    World.loadToken_eq_ok, World.loadMint_eq_ok] at h
  obtain ⟨hsigner, vault, hv, hagent, policy, hp, tracker, ht, overlay, ho, source, hsource, howner, mint, hmint,
    destination, hdestination, _, -, _, -, _, hcheck, usdAmount, husd, -, _, hcap, overlay', hcharge, tracker',
    hrecord, protocolFee, -, developerFee, -, net, -, l₁, h₁, l₂, h₂, l₃, h₃, vault', hpay, rfl⟩ := h
  exact ⟨⟨vault, vault', policy, tracker, tracker', overlay, overlay', source, destination, mint, usdAmount,
    protocolFee, developerFee, net, l₁, l₂, l₃, hsigner, hv.1, hv.2, hagent, hp, ht, ho, hsource, howner, hmint,
    hdestination, hcheck, husd, .of_record hcap hrecord, hcharge, h₁, h₂, h₃, hpay, rfl⟩, hrecord⟩

theorem agentTransfer_trace {a : AgentTransfer} (h : agentTransfer ctx a w = .ok w') :
    Nonempty (TransferTrace ctx a w w') := by
  obtain ⟨t, -⟩ := agentTransfer_recorded h
  exact ⟨t⟩

theorem TransferTrace.moves {a : AgentTransfer} (t : TransferTrace ctx a w w') :
    w.ledger.Moves (· = a.vault) t.ledger₃ :=
  Ledger.Moves.trans (.transfer (.inr rfl) t.paid)
    (.trans (.collectFee rfl t.protocolPaid) (.collectFee rfl t.developerPaid))

theorem agentTransfer_ok {a : AgentTransfer} (h : agentTransfer ctx a w = .ok w') :
    ∃ (vault vault' : AgentVault) (policy : PolicyConfig) (tracker tracker' : SpendTracker)
        (overlay' : AgentSpendOverlay) (usdAmount : Nat) (ledger : Ledger),
      (w.vaults a.vault = some vault ∧ a.vault = vault.address) ∧ w.policies a.vault = some policy ∧
      w.trackers a.vault = some tracker ∧ Charged policy ctx.clock usdAmount tracker tracker' ∧
      w.ledger.Moves (·.isVault) ledger ∧ vault'.counters = vault.counters ∧
      w' = (((w.setTracker a.vault tracker' ctx.clock usdAmount).setOverlay a.vault overlay').setVault a.vault
        vault').setLedger ledger := by
  obtain ⟨t⟩ := agentTransfer_trace h
  refine ⟨t.vault, t.vault', t.policy, t.tracker, t.tracker', t.overlay', t.usdAmount, t.ledger₃,
    ⟨t.vault_found, t.address⟩, t.policy_found, t.tracker_found, t.charged, t.moves.mono ?_, addPayment_ok t.counted,
    t.result⟩
  rintro _ rfl
  exact isVault_of_address t.address

/-- The escrow that `create_escrow` records. -/
def CreateEscrow.deposit (a : CreateEscrow) (clock : Clock) (net : Nat) : EscrowDeposit :=
  { sourceVault := a.sourceVault
    destinationVault := a.destinationVault
    escrowId := a.escrowId.toNat
    amount := net
    tokenMint := a.tokenMint
    createdAt := clock.unixTimestamp
    expiresAt := a.expiresAt.toInt
    status := .active
    conditionHash := a.conditionHash }

/-- An accepted escrow: what it has loaded, what it has passed and what it leaves. -/
structure EscrowTrace (ctx : Ctx) (a : CreateEscrow) (w w' : World) where
  (vault vault' : AgentVault)
  policy : PolicyConfig
  (tracker tracker' : SpendTracker)
  (overlay overlay' : AgentSpendOverlay)
  source : TokenAccount
  mint : Mint
  (usdAmount protocolFee developerFee net : Nat)
  (ledger₁ ledger₂ : Ledger)
  signer : a.agent ∈ ctx.signers
  vault_found : w.vaults a.sourceVault = some vault
  address : a.sourceVault = vault.address
  isAgent : vault.isAgent a.agent
  active : vault.isActive
  policy_found : w.policies a.sourceVault = some policy
  tracker_found : w.trackers a.sourceVault = some tracker
  overlay_found : w.overlays a.sourceVault = some overlay
  fresh : w.escrows a.escrow = none
  mint_found : w.ledger.mints a.tokenMint = some mint
  source_found : w.ledger.accounts a.sourceVaultAta = some source
  source_owner : source.owner = a.sourceVault
  ensured : ensureAssociated w.ledger a.escrow a.tokenMint = .ok ledger₁
  checked : checkEscrow ctx.clock a vault = .ok ()
  usd : stablecoinToUsd a.amount.toNat mint.decimals = .ok usdAmount
  charged : Charged policy ctx.clock usdAmount tracker tracker'
  agentCharged : chargeAgent vault overlay ctx.clock a.agent usdAmount false = .ok overlay'
  funded : fundEscrow ledger₁ a vault protocolFee developerFee net = .ok ledger₂
  counted : addPayment vault a.amount.toNat developerFee = .ok vault'
  result : w' = ((((w.setTracker a.sourceVault tracker' ctx.clock usdAmount).setOverlay a.sourceVault
    overlay').setVault a.sourceVault
      { vault' with activeEscrowCount := vault.activeEscrowCount + 1 }).setEscrow a.escrow
        (some (a.deposit ctx.clock net))).setLedger ledger₂

theorem createEscrow_recorded {a : CreateEscrow} (h : createEscrow ctx a w = .ok w') :
    ∃ t : EscrowTrace ctx a w w', t.tracker.recordSpend ctx.clock t.usdAmount = .ok t.tracker' := by
  simp only [createEscrow, Ctx.requireSigner, bind_eq_ok, okOr_eq_ok, checkedAdd_eq_some, require_eq_ok,
    exists_and_left, exists_const, pure_eq_ok, World.loadVault_eq_ok, World.loadPolicy_eq_ok,
    World.loadTracker_eq_ok, World.loadOverlay_eq_ok, World.loadToken_eq_ok, World.loadMint_eq_ok,
    Option.isNone_iff_eq_none] at h
  obtain ⟨hsigner, vault, hv, hagent, hactive, policy, hp, tracker, ht, overlay, ho, _, -, -, -, hnone, mint, hmint,
    source, hsource, -, howner, l₁, hensure, _, -, _, -, _, hcheck, usdAmount, husd, -, _, hcap, tracker', hrecord,
    overlay', hcharge, protocolFee, -, developerFee, -, net, -, l₂, hfund, _, ⟨-, rfl⟩, vault', hpay, rfl⟩ := h
  exact ⟨⟨vault, vault', policy, tracker, tracker', overlay, overlay', source, mint, usdAmount, protocolFee,
    developerFee, net, l₁, l₂, hsigner, hv.1, hv.2, hagent, hactive, hp, ht, ho, hnone, hmint, hsource, howner,
    hensure, hcheck, husd, .of_record hcap hrecord, hcharge, hfund, hpay, rfl⟩, hrecord⟩

theorem createEscrow_trace {a : CreateEscrow} (h : createEscrow ctx a w = .ok w') :
    Nonempty (EscrowTrace ctx a w w') := by
  obtain ⟨t, -⟩ := createEscrow_recorded h
  exact ⟨t⟩

theorem createEscrow_ok {a : CreateEscrow} (h : createEscrow ctx a w = .ok w') :
    ∃ (vault vault' : AgentVault) (policy : PolicyConfig) (tracker tracker' : SpendTracker)
        (overlay' : AgentSpendOverlay) (usdAmount protocolFee developerFee net : Nat) (l ledger : Ledger),
      (w.vaults a.sourceVault = some vault ∧ a.sourceVault = vault.address) ∧
      w.policies a.sourceVault = some policy ∧ w.trackers a.sourceVault = some tracker ∧
      w.escrows a.escrow = none ∧ Charged policy ctx.clock usdAmount tracker tracker' ∧
      ensureAssociated w.ledger a.escrow a.tokenMint = .ok l ∧
      fundEscrow l a vault protocolFee developerFee net = .ok ledger ∧ vault'.counters = vault.counters ∧
      w' = ((((w.setTracker a.sourceVault tracker' ctx.clock usdAmount).setOverlay a.sourceVault overlay').setVault
        a.sourceVault { vault' with activeEscrowCount := vault.activeEscrowCount + 1 }).setEscrow a.escrow
        (some (a.deposit ctx.clock net))).setLedger ledger := by
  obtain ⟨t⟩ := createEscrow_trace h
  exact ⟨t.vault, t.vault', t.policy, t.tracker, t.tracker', t.overlay', t.usdAmount, t.protocolFee, t.developerFee,
    t.net, t.ledger₁, t.ledger₂, ⟨t.vault_found, t.address⟩, t.policy_found, t.tracker_found, t.fresh, t.charged,
    t.ensured, t.funded, addPayment_ok t.counted, t.result⟩

/-- An accepted payout: the mint that was passed decides which accounts pay and receive. -/
structure PaysOut (l l' : Ledger) (p : Payout) (recipient : Pubkey) (amount : Nat) : Prop where
  intermediate : ∃ escrowAta vaultAta l₁,
    l.accounts (.ata p.escrow p.tokenMint) = some escrowAta ∧ escrowAta.owner = p.escrow ∧
    l.accounts p.vaultAta = some vaultAta ∧ vaultAta.mint = p.tokenMint ∧ vaultAta.owner = recipient ∧
    l.transfer (.ata p.escrow p.tokenMint) p.vaultAta p.escrow amount = .ok l₁ ∧
    l₁.closeAccount (.ata p.escrow p.tokenMint) p.escrow = .ok l'

theorem payOut_ok {p : Payout} {recipient sourceOwner : Pubkey} {amount : Nat} {l : Ledger}
    (h : payOut w p recipient sourceOwner amount = .ok l) : PaysOut w.ledger l p recipient amount := by
  simp only [payOut, bind_eq_ok, require_eq_ok, exists_and_left, exists_const, World.loadToken_eq_ok] at h
  obtain ⟨_, -, escrowAta, hescrow, -, howner, vaultAta, hvault, hmint, hrecipient, -, l₁, htransfer, hclose⟩ := h
  exact ⟨escrowAta, vaultAta, l₁, hescrow, howner, hvault, hmint, hrecipient, htransfer, hclose⟩

theorem loadEscrow_eq_ok {address source : Pubkey} {escrow : EscrowDeposit} :
    loadEscrow w address source = .ok escrow ↔ w.escrows address = some escrow ∧ escrow.sourceVault = source ∧
      address = .escrow source escrow.destinationVault escrow.escrowId := by
  simp only [loadEscrow, bind_eq_ok, okOr_eq_ok, require_eq_ok, exists_and_left, exists_const, pure_eq_ok]
  constructor
  · rintro ⟨_, hs, hv, hx, rfl⟩; exact ⟨hs, hv, hx⟩
  · rintro ⟨hs, hv, hx⟩; exact ⟨escrow, hs, hv, hx, rfl⟩

theorem settleEscrow_ok {a : SettleEscrow} (h : settleEscrow ctx a w = .ok w') :
    ∃ vault escrow ledger, (w.vaults a.sourceVault = some vault ∧ a.sourceVault = vault.address) ∧
      (w.escrows a.escrow = some escrow ∧ escrow.sourceVault = a.sourceVault ∧
        a.escrow = .escrow a.sourceVault escrow.destinationVault escrow.escrowId) ∧
      escrow.destinationVault = a.destinationVault ∧ a.destinationVault.isVault ∧ escrow.status = .active ∧
      ctx.clock.unixTimestamp < escrow.expiresAt ∧
      PaysOut w.ledger ledger a.toPayout a.destinationVault escrow.amount ∧
      w' = releaseEscrow w a.escrow a.sourceVault vault escrow .settled ledger := by
  simp only [settleEscrow, Ctx.requireSigner, bind_eq_ok, require_eq_ok, exists_and_left, exists_const,
    pure_eq_ok, World.loadVault_eq_ok, loadEscrow_eq_ok] at h
  obtain ⟨-, _, ⟨-, hx⟩, -, vault, hv, escrow, he, hdest, -, -, hactive, htime, -, ledger, hpay, rfl⟩ := h
  exact ⟨vault, escrow, ledger, hv, he, hdest, isVault_of_address hx, hactive, htime, payOut_ok hpay, rfl⟩

theorem refundEscrow_ok {a : RefundEscrow} (h : refundEscrow ctx a w = .ok w') :
    ∃ vault escrow ledger, (w.vaults a.sourceVault = some vault ∧ a.sourceVault = vault.address) ∧
      (w.escrows a.escrow = some escrow ∧ escrow.sourceVault = a.sourceVault ∧
        a.escrow = .escrow a.sourceVault escrow.destinationVault escrow.escrowId) ∧
      escrow.status = .active ∧ escrow.expiresAt ≤ ctx.clock.unixTimestamp ∧
      PaysOut w.ledger ledger a.toPayout a.sourceVault escrow.amount ∧
      w' = releaseEscrow w a.escrow a.sourceVault vault escrow .refunded ledger := by
  simp only [refundEscrow, Ctx.requireSigner, bind_eq_ok, require_eq_ok, exists_and_left, exists_const,
    pure_eq_ok, World.loadVault_eq_ok, loadEscrow_eq_ok] at h
  obtain ⟨-, vault, hv, -, escrow, he, -, -, hactive, htime, ledger, hpay, rfl⟩ := h
  exact ⟨vault, escrow, ledger, hv, he, hactive, htime, payOut_ok hpay, rfl⟩

theorem closeSettledEscrow_ok {a : CloseSettledEscrow} (h : closeSettledEscrow ctx a w = .ok w') :
    ∃ address escrow, w.escrows address = some escrow ∧ escrow.status ≠ .active ∧
      w' = w.setEscrow address none := by
  simp only [closeSettledEscrow, bind_eq_ok, okOr_eq_ok, require_eq_ok, exists_and_left, exists_const,
    pure_eq_ok] at h
  obtain ⟨_, -, escrow, he, -, hstatus, rfl⟩ := h
  refine ⟨_, escrow, he, ?_, rfl⟩
  rcases hstatus with h | h <;> simp [h]

/-! ## Queued updates -/

theorem executesAt_ok {clock : Clock} {policy : PolicyConfig} {t : Int} (h : executesAt clock policy = .ok t) :
    t = clock.unixTimestamp + asI64 policy.timelockDuration := by
  simp only [executesAt, bind_eq_ok, okOr_eq_ok, checkedAddI64_eq_some, require_eq_ok, exists_and_left,
    exists_const] at h
  exact h.2.2

theorem executesAt_range {clock : Clock} {policy : PolicyConfig} {t : Int} (h : executesAt clock policy = .ok t) :
    i64Min ≤ t ∧ t ≤ i64Max := by
  simp only [executesAt, bind_eq_ok, okOr_eq_ok, checkedAddI64_eq_some, require_eq_ok, exists_and_left,
    exists_const] at h
  obtain ⟨-, hrange, rfl⟩ := h
  exact hrange

theorem checkApplyTime_ok {clock : Clock} {t : Int} {slot : Nat} (h : checkApplyTime clock t slot = .ok ()) :
    t ≤ clock.unixTimestamp ∧ clock.slot - slot < maxApplyAgeSlots := by
  simp only [checkApplyTime, isReady, isFresh, bind_eq_ok, require_eq_ok, exists_and_left, exists_const,
    decide_eq_true_eq] at h
  exact h

theorem InitializeVault.check_timelock {a : InitializeVault} (h : a.check = .ok ()) :
    minTimelockDuration ≤ a.timelockDuration.toNat := by
  simp only [check, bind_eq_ok, require_eq_ok, exists_and_left, exists_const] at h
  obtain ⟨-, -, -, -, -, -, h, -⟩ := h
  exact h

theorem checkField_eq_ok {α : Type} {field : Option α} {p : α → Prop} [DecidablePred p] {e : SigilError} :
    PolicyUpdate.checkField field p e = .ok () ↔ ∀ x, field = some x → p x := by
  cases field with
  | none => simp [PolicyUpdate.checkField]
  | some x => simp [PolicyUpdate.checkField]

theorem PolicyUpdate.checkFields_timelock {u : PolicyUpdate} (h : u.checkFields = .ok ()) :
    ∀ d, u.timelockDuration = some d → minTimelockDuration ≤ d.toNat := by
  simp only [checkFields, bind_eq_ok] at h
  obtain ⟨_, -, _, -, _, -, _, -, _, -, _, -, _, htimelock, -⟩ := h
  exact checkField_eq_ok.mp htimelock

theorem queuePolicyUpdate_ok {a : OwnerAction} {u : PolicyUpdate} (h : queuePolicyUpdate ctx a u w = .ok w') :
    ∃ vault policy executes, Owned w ctx a.owner a.vault vault ∧ w.policies a.vault = some policy ∧
      w.pendingPolicies a.vault = none ∧ u.checkFields = .ok () ∧ u.checkProtocolCaps policy = .ok () ∧
      executesAt ctx.clock policy = .ok executes ∧
      w' = (w.setPendingPolicy a.vault (some (u.pending ctx.clock executes))).setPolicy a.vault
        { policy with hasPendingPolicy := true } := by
  simp only [queuePolicyUpdate, bind_eq_ok, require_eq_ok, exists_and_left, exists_const, pure_eq_ok,
    World.loadPolicy_eq_ok, World.loadOwnedVault_eq_ok, Option.isNone_iff_eq_none] at h
  obtain ⟨vault, howned, policy, hp, hnone, -, -, _, hfields, _, hcaps, executes, hexecutes, rfl⟩ := h
  exact ⟨vault, policy, executes, howned, hp, hnone, hfields, hcaps, hexecutes, rfl⟩

theorem applyPendingPolicy_ok {a : OwnerAction} (h : applyPendingPolicy ctx a w = .ok w') :
    ∃ vault policy pending, Owned w ctx a.owner a.vault vault ∧ w.policies a.vault = some policy ∧
      w.pendingPolicies a.vault = some pending ∧
      checkApplyTime ctx.clock pending.executesAt pending.queuedAtSlot = .ok () ∧
      w' = (w.setPendingPolicy a.vault none).setPolicy a.vault (pending.applyTo policy).bumped := by
  simp only [applyPendingPolicy, bind_eq_ok, okOr_eq_ok, bumpVersion_eq_ok, pure_eq_ok, World.loadPolicy_eq_ok,
    World.loadOwnedVault_eq_ok] at h
  obtain ⟨vault, howned, policy, hp, pending, hpending, _, htime, _, -, _, -, _, ⟨-, rfl⟩, rfl⟩ := h
  exact ⟨vault, policy, pending, howned, hp, hpending, htime, rfl⟩

theorem queueConstraintsUpdate_ok {a : OwnerAction} {entries : List ConstraintEntry} {strictMode : Bool}
    (h : queueConstraintsUpdate ctx a entries strictMode w = .ok w') :
    ∃ (policy : PolicyConfig) (account : Allocated PendingConstraintsUpdate) (pending : PendingConstraintsUpdate),
      w.policies a.vault = some policy ∧
      (w.pendingConstraints a.vault = some account ∧ account.size = pendingConstraintsUpdateSize) ∧
      pending.queuedAt = ctx.clock.unixTimestamp ∧
      pending.executesAt = ctx.clock.unixTimestamp + asI64 policy.timelockDuration ∧
      pending.queuedAtSlot = ctx.clock.slot ∧
      w' = w.setPendingConstraints a.vault (some (account.write pending)) := by
  simp only [queueConstraintsUpdate, bind_eq_ok, okOr_eq_ok, require_eq_ok, exists_and_left, exists_const, pure_eq_ok,
    World.loadPolicy_eq_ok] at h
  obtain ⟨_, -, policy, hp, _, -, -, _, -, account, haccount, hsize, executes, hexecutes, _, -, rfl⟩ := h
  exact ⟨policy, account, _, hp, ⟨haccount, hsize⟩, rfl, executesAt_ok hexecutes, rfl, rfl⟩

theorem queueCloseConstraints_ok {a : OwnerAction} (h : queueCloseConstraints ctx a w = .ok w') :
    ∃ policy pending, w.policies a.vault = some policy ∧ pending.queuedAt = ctx.clock.unixTimestamp ∧
      pending.executesAt = ctx.clock.unixTimestamp + asI64 policy.timelockDuration ∧
      pending.queuedAtSlot = ctx.clock.slot ∧
      w' = w.setPendingCloseConstraints a.vault (some pending) := by
  simp only [queueCloseConstraints, bind_eq_ok, pure_eq_ok, World.loadPolicy_eq_ok] at h
  obtain ⟨_, -, policy, hp, _, -, _, -, _, -, _, -, executes, hexecutes, rfl⟩ := h
  exact ⟨policy, _, hp, rfl, executesAt_ok hexecutes, rfl, rfl⟩

theorem queueAgentPermissionsUpdate_ok {a : AgentAction} {capability : UInt8} {limit : UInt64}
    (h : queueAgentPermissionsUpdate ctx a capability limit w = .ok w') :
    ∃ policy pending, w.policies a.vault = some policy ∧ pending.queuedAt = ctx.clock.unixTimestamp ∧
      pending.executesAt = ctx.clock.unixTimestamp + asI64 policy.timelockDuration ∧
      pending.queuedAtSlot = ctx.clock.slot ∧
      w' = w.setPendingAgentPerms (.pendingAgentPerms a.vault a.agent) (some pending) := by
  simp only [queueAgentPermissionsUpdate, bind_eq_ok, pure_eq_ok, World.loadPolicy_eq_ok] at h
  obtain ⟨_, -, policy, hp, _, -, _, -, _, -, _, -, _, -, executes, hexecutes, rfl⟩ := h
  exact ⟨policy, _, hp, rfl, executesAt_ok hexecutes, rfl, rfl⟩

end Sigil
