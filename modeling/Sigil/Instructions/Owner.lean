import Sigil.Instructions.Spend

/-!
# Vaults and agents

What the owner does with a vault: creation and closing, deposits and withdrawals, the agents, and the kill
switch.
-/

namespace Sigil

open Library

/-! ## Life of a vault -/

structure InitializeVault where
  owner : Pubkey
  feeDestination : Pubkey
  vaultId : UInt64
  dailySpendingCapUsd : UInt64
  maxTransactionSizeUsd : UInt64
  protocolMode : UInt8
  protocols : List Pubkey
  developerFeeRate : UInt16
  maxSlippageBps : UInt16
  timelockDuration : UInt64
  allowedDestinations : List Pubkey
  protocolCaps : List UInt64

def InitializeVault.vault (a : InitializeVault) : Pubkey := .vault a.owner a.vaultId.toNat

def InitializeVault.check (a : InitializeVault) : Result Unit := do
  require (a.protocolMode.toNat ≤ protocolModeDenylist) SigilError.invalidProtocolMode
  require (a.protocols.length ≤ maxAllowedProtocols) SigilError.tooManyAllowedProtocols
  require (a.developerFeeRate.toNat ≤ maxDeveloperFeeRate) SigilError.developerFeeTooHigh
  require (a.maxSlippageBps.toNat ≤ Sigil.maxSlippageBps) SigilError.slippageBpsTooHigh
  require (a.feeDestination ≠ .default) SigilError.invalidFeeDestination
  require (a.allowedDestinations.length ≤ maxAllowedDestinations) SigilError.tooManyDestinations
  require (a.timelockDuration.toNat ≥ minTimelockDuration) SigilError.timelockTooShort
  require (a.protocolCaps ≠ [] → a.protocolMode.toNat = protocolModeAllowlist) SigilError.protocolCapsMismatch
  require (a.protocolCaps ≠ [] → a.protocolCaps.length = a.protocols.length) SigilError.protocolCapsMismatch

def InitializeVault.policy (a : InitializeVault) : PolicyConfig :=
  { dailySpendingCapUsd := a.dailySpendingCapUsd.toNat
    maxTransactionSizeUsd := a.maxTransactionSizeUsd.toNat
    protocolMode := a.protocolMode.toNat
    protocols := a.protocols
    developerFeeRate := a.developerFeeRate.toNat
    maxSlippageBps := a.maxSlippageBps.toNat
    timelockDuration := a.timelockDuration.toNat
    allowedDestinations := a.allowedDestinations
    hasProtocolCaps := a.protocolCaps ≠ []
    protocolCaps := a.protocolCaps.map UInt64.toNat }

/-- The four accounts of a vault are created together. -/
def initializeVault (ctx : Ctx) (a : InitializeVault) (w : World) : Result World := do
  ctx.requireSigner a.owner
  require (w.vaults a.vault).isNone AnchorError.accountAlreadyInUse
  require (w.policies a.vault).isNone AnchorError.accountAlreadyInUse
  require (w.trackers a.vault).isNone AnchorError.accountAlreadyInUse
  require (w.overlays a.vault).isNone AnchorError.accountAlreadyInUse
  a.check
  let vault : AgentVault :=
    { owner := a.owner, vaultId := a.vaultId.toNat, feeDestination := a.feeDestination,
      createdAt := ctx.clock.unixTimestamp }
  pure { w with
    vaults := Function.update w.vaults a.vault (some vault)
    policies := Function.update w.policies a.vault (some a.policy)
    trackers := Function.update w.trackers a.vault (some {})
    overlays := Function.update w.overlays a.vault (some {})
    spendLog := Function.update w.spendLog a.vault [] }

structure CloseVault where
  owner : Pubkey
  vault : Pubkey
  /-- The caller passed the pending policy as first remaining account. -/
  closesPendingPolicy : Bool := false
  /-- Agents whose pending permissions are among the remaining accounts. -/
  closesPendingAgentPerms : List Pubkey := []
  closesPendingCloseConstraints : Bool := false

/-- Only queued updates of agents of the vault are cleaned up. -/
def CloseVault.clearsAgentPerms (a : CloseVault) (vault : AgentVault) (address : Pubkey) : Bool :=
  a.closesPendingAgentPerms.any fun agent => vault.isAgent agent && address = .pendingAgentPerms a.vault agent

def closeVault (ctx : Ctx) (a : CloseVault) (w : World) : Result World := do
  let vault ← w.loadOwnedVault ctx a.owner a.vault
  let policy ← w.loadPolicy a.vault
  let _ ← w.loadTracker a.vault
  let _ ← w.loadOverlay a.vault
  require (vault.status ≠ .closed) SigilError.vaultAlreadyClosed
  require (vault.activeEscrowCount = 0) SigilError.activeEscrowsExist
  require (vault.activeSessions = 0) SigilError.activeSessionsExist
  require (policy.hasConstraints = false) SigilError.constraintsNotClosed
  require (policy.hasPendingPolicy → a.closesPendingPolicy ∧ (w.pendingPolicies a.vault).isSome)
    SigilError.pendingPolicyExists
  pure { w with
    vaults := Function.update w.vaults a.vault none
    policies := Function.update w.policies a.vault none
    trackers := Function.update w.trackers a.vault none
    overlays := Function.update w.overlays a.vault none
    pendingPolicies :=
      if policy.hasPendingPolicy then Function.update w.pendingPolicies a.vault none else w.pendingPolicies
    pendingAgentPerms := fun address =>
      if a.clearsAgentPerms vault address then none else w.pendingAgentPerms address
    pendingCloseConstraints :=
      if a.closesPendingCloseConstraints then Function.update w.pendingCloseConstraints a.vault none
      else w.pendingCloseConstraints }

/-! ## Funds -/

structure MoveFunds where
  owner : Pubkey
  vault : Pubkey
  mint : Pubkey
  amount : UInt64

def depositFunds (ctx : Ctx) (a : MoveFunds) (w : World) : Result World := do
  let vault ← w.loadOwnedVault ctx a.owner a.vault
  let _ ← w.loadMint a.mint
  let ownerAccount ← w.loadToken (.ata a.owner a.mint)
  require (ownerAccount.owner = a.owner) AnchorError.constraintTokenOwner
  let ledger ← ensureAssociated w.ledger a.vault a.mint
  require (vault.status ≠ .closed) SigilError.vaultAlreadyClosed
  let ledger' ← ledger.transfer (.ata a.owner a.mint) (.ata a.vault a.mint) a.owner a.amount.toNat
  let deposited ← okOr (checkedAdd 64 vault.totalDepositedUsd
    (if isStablecoinMint a.mint then a.amount.toNat else 0)) SigilError.overflow
  pure ((w.setVault a.vault { vault with totalDepositedUsd := deposited }).setLedger ledger')

def withdrawFunds (ctx : Ctx) (a : MoveFunds) (w : World) : Result World := do
  let vault ← w.loadOwnedVault ctx a.owner a.vault
  let _ ← w.loadMint a.mint
  let vaultAccount ← w.loadToken (.ata a.vault a.mint)
  require (vaultAccount.owner = a.vault) AnchorError.constraintTokenOwner
  let ownerAccount ← w.loadToken (.ata a.owner a.mint)
  require (ownerAccount.owner = a.owner) AnchorError.constraintTokenOwner
  require (vault.status ≠ .closed) SigilError.vaultAlreadyClosed
  require (vaultAccount.amount ≥ a.amount.toNat) SigilError.insufficientBalance
  let ledger ← w.ledger.transfer (.ata a.vault a.mint) (.ata a.owner a.mint) a.vault a.amount.toNat
  let withdrawn ← okOr (checkedAdd 64 vault.totalWithdrawnUsd
    (if isStablecoinMint a.mint then a.amount.toNat else 0)) SigilError.overflow
  pure ((w.setVault a.vault { vault with totalWithdrawnUsd := withdrawn }).setLedger ledger)

/-! ## Agents -/

structure RegisterAgent where
  owner : Pubkey
  vault : Pubkey
  agent : Pubkey
  capability : UInt8
  spendingLimitUsd : UInt64

/-- A slot is claimed unless there is one; without a free slot only an agent without limit is taken. -/
def claimForNewAgent (overlay : AgentSpendOverlay) (agent : Pubkey) (limit : Nat) : Result AgentSpendOverlay :=
  match overlay.findAgentSlot agent with
  | some _ => pure overlay
  | none =>
      match overlay.claimSlot agent with
      | some overlay' => pure overlay'
      | none => do
          require (limit = 0) SigilError.overlaySlotExhausted
          pure overlay

def registerAgent (ctx : Ctx) (a : RegisterAgent) (w : World) : Result World := do
  let vault ← w.loadOwnedVault ctx a.owner a.vault
  let overlay ← w.loadOverlay a.vault
  require (vault.status ≠ .closed) SigilError.vaultAlreadyClosed
  require (a.capability.toNat ≤ fullCapability) SigilError.invalidPermissions
  require (vault.isAgent a.agent = false) SigilError.agentAlreadyRegistered
  require (vault.agents.length < maxAgentsPerVault) SigilError.maxAgentsReached
  require (a.agent ≠ .default) SigilError.invalidAgentKey
  require (a.agent ≠ vault.owner) SigilError.agentIsOwner
  let overlay' ← claimForNewAgent overlay a.agent a.spendingLimitUsd.toNat
  let entry : AgentEntry :=
    { pubkey := a.agent, capability := a.capability.toNat, spendingLimitUsd := a.spendingLimitUsd.toNat }
  pure ((w.setVault a.vault { vault with agents := vault.agents ++ [entry] }).setOverlay a.vault overlay')

structure AgentAction where
  owner : Pubkey
  vault : Pubkey
  agent : Pubkey

/-- A vault without agents is frozen. -/
def revokeAgent (ctx : Ctx) (a : AgentAction) (w : World) : Result World := do
  let vault ← w.loadOwnedVault ctx a.owner a.vault
  let overlay ← w.loadOverlay a.vault
  require (vault.status ≠ .closed) SigilError.vaultAlreadyClosed
  require (vault.isAgent a.agent) SigilError.unauthorizedAgent
  let overlay' := match overlay.findAgentSlot a.agent with
    | some slot => overlay.releaseSlot slot
    | none => overlay
  let agents := vault.agents.filter fun e => e.pubkey ≠ a.agent
  let status := if agents = [] then .frozen else vault.status
  pure ((w.setVault a.vault { vault with agents := agents, status := status }).setOverlay a.vault overlay')

/-- The first entry of an agent, changed. -/
def updateAgent (agents : List AgentEntry) (agent : Pubkey) (f : AgentEntry → AgentEntry) : List AgentEntry :=
  match agents with
  | [] => []
  | e :: es => if e.pubkey = agent then f e :: es else e :: updateAgent es agent f

/-- `pause_agent` and `unpause_agent`: the flag has to change. -/
def setPaused (ctx : Ctx) (a : AgentAction) (paused : Bool) (e : SigilError) (w : World) : Result World := do
  let vault ← w.loadOwnedVault ctx a.owner a.vault
  require (vault.status ≠ .closed) SigilError.vaultAlreadyClosed
  let entry ← okOr (vault.getAgent a.agent) SigilError.unauthorizedAgent
  require (entry.paused ≠ paused) e
  let agents := updateAgent vault.agents a.agent fun e => { e with paused := paused }
  pure (w.setVault a.vault { vault with agents := agents })

def pauseAgent (ctx : Ctx) (a : AgentAction) (w : World) : Result World :=
  setPaused ctx a true .agentAlreadyPaused w

def unpauseAgent (ctx : Ctx) (a : AgentAction) (w : World) : Result World :=
  setPaused ctx a false .agentNotPaused w

/-! ## Kill switch -/

structure FreezeVault where
  owner : Pubkey
  vault : Pubkey
  /-- Pairs of a session and a token account, from the remaining accounts. -/
  pairs : List (Pubkey × Pubkey) := []

/-- Whether a pair is a delegated session of the vault with its token account. Other pairs are skipped. -/
def FreezeVault.revokes (w : World) (v : Pubkey) (pair : Pubkey × Pubkey) : Bool :=
  match w.sessions pair.1 with
  | none => false
  | some session =>
      session.vault = v && pair.1 = .session v session.agent session.authorizedToken &&
        session.delegated && session.authorized && pair.2 = session.delegationTokenAccount &&
        (w.ledger.accounts pair.2).isSome

def revokePairs (w : World) (v : Pubkey) : List (Pubkey × Pubkey) → Ledger → Result Ledger
  | [], ledger => pure ledger
  | pair :: pairs, ledger =>
      if FreezeVault.revokes w v pair then do
        let ledger' ← ledger.revoke pair.2 v
        revokePairs w v pairs ledger'
      else
        revokePairs w v pairs ledger

def freezeVault (ctx : Ctx) (a : FreezeVault) (w : World) : Result World := do
  let vault ← w.loadOwnedVault ctx a.owner a.vault
  require vault.isActive SigilError.vaultNotActive
  let ledger ← revokePairs w a.vault a.pairs w.ledger
  pure ((w.setVault a.vault { vault with status := .frozen }).setLedger ledger)

structure ReactivateVault where
  owner : Pubkey
  vault : Pubkey
  newAgent : Option Pubkey
  newAgentCapability : Option UInt8

/-- Agents after a reactivation. The new agent gets no slot and no limit. -/
def reactivatedAgents (vault : AgentVault) (newAgent : Option Pubkey) (capability : Option UInt8) :
    Result (List AgentEntry) :=
  match newAgent, capability with
  | none, none => pure vault.agents
  | some agent, some c => do
      require (agent ≠ .default) SigilError.invalidAgentKey
      require (agent ≠ vault.owner) SigilError.agentIsOwner
      require (c.toNat ≤ fullCapability) SigilError.invalidPermissions
      require (vault.agents.length < maxAgentsPerVault) SigilError.maxAgentsReached
      require (vault.isAgent agent = false) SigilError.agentAlreadyRegistered
      pure (vault.agents ++ [{ pubkey := agent, capability := c.toNat, spendingLimitUsd := 0 }])
  | _, _ => .error SigilError.invalidPermissions

def reactivateVault (ctx : Ctx) (a : ReactivateVault) (w : World) : Result World := do
  let vault ← w.loadOwnedVault ctx a.owner a.vault
  require (vault.status = .frozen) SigilError.vaultNotFrozen
  let agents ← reactivatedAgents vault a.newAgent a.newAgentCapability
  require (agents ≠ []) SigilError.noAgentRegistered
  pure (w.setVault a.vault { vault with agents := agents, status := .active })

end Sigil
