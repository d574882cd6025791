import Sigil.Instructions.Owner

/-!
# Queued updates

Four kinds of change are queued, wait for the timelock of the policy, and are applied or cancelled: the
policy, the constraints, the closing of the constraints, and the permissions of an agent.
-/

namespace Sigil

open Library

/-! ## The two time checks -/

/-- Time from which an update queued at `clock` can be applied. -/
def executesAt (clock : Clock) (policy : PolicyConfig) : Result Int := do
  require (policy.timelockDuration > 0) SigilError.noTimelockConfigured
  okOr (checkedAddI64 clock.unixTimestamp (asI64 policy.timelockDuration)) SigilError.overflow

def isReady (executesAt now : Int) : Bool := now ≥ executesAt

/-- An update is stale once its queue slot is too long ago. -/
def isFresh (queuedAtSlot slot : Nat) : Bool := slot - queuedAtSlot < maxApplyAgeSlots

def checkApplyTime (clock : Clock) (executesAt : Int) (queuedAtSlot : Nat) : Result Unit := do
  require (isReady executesAt clock.unixTimestamp) SigilError.timelockNotExpired
  require (isFresh queuedAtSlot clock.slot) SigilError.queuedUpdateExpired

def bumpVersion (policy : PolicyConfig) : Result PolicyConfig := do
  let version ← okOr (checkedAdd 64 policy.policyVersion 1) SigilError.overflow
  pure { policy with policyVersion := version }

/-- Accounts of an instruction on one vault of the owner. -/
structure OwnerAction where
  owner : Pubkey
  vault : Pubkey

/-! ## Policy -/

structure PolicyUpdate where
  dailySpendingCapUsd : Option UInt64 := none
  maxTransactionAmountUsd : Option UInt64 := none
  protocolMode : Option UInt8 := none
  protocols : Option (List Pubkey) := none
  developerFeeRate : Option UInt16 := none
  maxSlippageBps : Option UInt16 := none
  timelockDuration : Option UInt64 := none
  allowedDestinations : Option (List Pubkey) := none
  sessionExpirySeconds : Option UInt64 := none
  hasProtocolCaps : Option Bool := none
  protocolCaps : Option (List UInt64) := none
  destinationMode : Option UInt8 := none

namespace PolicyUpdate

variable (u : PolicyUpdate)

/-- A field that is given has to pass its check. -/
def checkField {α : Type} (field : Option α) (p : α → Prop) [DecidablePred p] (e : SigilError) : Result Unit :=
  match field with
  | none => pure ()
  | some x => require (p x) e

def checkFields : Result Unit := do
  checkField u.protocolMode (·.toNat ≤ protocolModeDenylist) .invalidProtocolMode
  checkField u.destinationMode (·.toNat ≤ destinationModeOpenWithCap) .invalidDestinationMode
  checkField u.protocols (·.length ≤ maxAllowedProtocols) .tooManyAllowedProtocols
  checkField u.developerFeeRate (·.toNat ≤ maxDeveloperFeeRate) .developerFeeTooHigh
  checkField u.maxSlippageBps (·.toNat ≤ Sigil.maxSlippageBps) .slippageBpsTooHigh
  checkField u.allowedDestinations (·.length ≤ maxAllowedDestinations) .tooManyDestinations
  checkField u.timelockDuration (·.toNat ≥ minTimelockDuration) .timelockTooShort
  checkField u.sessionExpirySeconds (fun s => s.toNat = 0 ∨
    minSessionDurationSeconds ≤ s.toNat ∧ s.toNat ≤ maxOwnerSessionDurationSeconds) .invalidSessionExpiry

/-- Caps of the protocols have to fit the policy that results. -/
def checkProtocolCaps (policy : PolicyConfig) : Result Unit := do
  let enabled := u.hasProtocolCaps.getD policy.hasProtocolCaps
  let mode := (u.protocolMode.map UInt8.toNat).getD policy.protocolMode
  let protocols := u.protocols.getD policy.protocols
  let caps := (u.protocolCaps.map fun l => l.map UInt64.toNat).getD policy.protocolCaps
  require (enabled → mode = protocolModeAllowlist) SigilError.protocolCapsMismatch
  require (enabled → caps.length = protocols.length) SigilError.protocolCapsMismatch

def pending (clock : Clock) (executesAt : Int) : PendingPolicyUpdate :=
  { queuedAt := clock.unixTimestamp
    executesAt := executesAt
    queuedAtSlot := clock.slot
    dailySpendingCapUsd := u.dailySpendingCapUsd.map UInt64.toNat
    maxTransactionAmountUsd := u.maxTransactionAmountUsd.map UInt64.toNat
    protocolMode := u.protocolMode.map UInt8.toNat
    protocols := u.protocols
    developerFeeRate := u.developerFeeRate.map UInt16.toNat
    maxSlippageBps := u.maxSlippageBps.map UInt16.toNat
    timelockDuration := u.timelockDuration.map UInt64.toNat
    allowedDestinations := u.allowedDestinations
    sessionExpirySeconds := u.sessionExpirySeconds.map UInt64.toNat
    hasProtocolCaps := u.hasProtocolCaps
    protocolCaps := u.protocolCaps.map fun l => l.map UInt64.toNat
    destinationMode := u.destinationMode.map UInt8.toNat }

end PolicyUpdate

def queuePolicyUpdate (ctx : Ctx) (a : OwnerAction) (u : PolicyUpdate) (w : World) : Result World := do
  let vault ← w.loadOwnedVault ctx a.owner a.vault
  let policy ← w.loadPolicy a.vault
  require (w.pendingPolicies a.vault).isNone AnchorError.accountAlreadyInUse
  require (vault.status ≠ .closed) SigilError.vaultAlreadyClosed
  require (policy.timelockDuration > 0) SigilError.noTimelockConfigured
  u.checkFields
  u.checkProtocolCaps policy
  let executes ← executesAt ctx.clock policy
  pure ((w.setPendingPolicy a.vault (some (u.pending ctx.clock executes))).setPolicy a.vault
    { policy with hasPendingPolicy := true })

/-- Every field that is given replaces the one of the policy. -/
def PendingPolicyUpdate.applyTo (p : PendingPolicyUpdate) (policy : PolicyConfig) : PolicyConfig :=
  { policy with
    dailySpendingCapUsd := p.dailySpendingCapUsd.getD policy.dailySpendingCapUsd
    maxTransactionSizeUsd := p.maxTransactionAmountUsd.getD policy.maxTransactionSizeUsd
    protocolMode := p.protocolMode.getD policy.protocolMode
    protocols := p.protocols.getD policy.protocols
    developerFeeRate := p.developerFeeRate.getD policy.developerFeeRate
    maxSlippageBps := p.maxSlippageBps.getD policy.maxSlippageBps
    timelockDuration := p.timelockDuration.getD policy.timelockDuration
    allowedDestinations := p.allowedDestinations.getD policy.allowedDestinations
    sessionExpirySeconds := p.sessionExpirySeconds.getD policy.sessionExpirySeconds
    hasProtocolCaps := p.hasProtocolCaps.getD policy.hasProtocolCaps
    protocolCaps := p.protocolCaps.getD policy.protocolCaps
    destinationMode := p.destinationMode.getD policy.destinationMode
    hasPendingPolicy := false }

def applyPendingPolicy (ctx : Ctx) (a : OwnerAction) (w : World) : Result World := do
  let _ ← w.loadOwnedVault ctx a.owner a.vault
  let policy ← w.loadPolicy a.vault
  let pending ← okOr (w.pendingPolicies a.vault) AnchorError.accountNotInitialized
  checkApplyTime ctx.clock pending.executesAt pending.queuedAtSlot
  PolicyUpdate.checkField pending.timelockDuration (· ≥ minTimelockDuration) .timelockTooShort
  PolicyUpdate.checkField pending.destinationMode (· ≤ destinationModeOpenWithCap) .invalidDestinationMode
  let policy' ← bumpVersion (pending.applyTo policy)
  pure ((w.setPendingPolicy a.vault none).setPolicy a.vault policy')

def cancelPendingPolicy (ctx : Ctx) (a : OwnerAction) (w : World) : Result World := do
  let _ ← w.loadOwnedVault ctx a.owner a.vault
  let policy ← w.loadPolicy a.vault
  let _ ← okOr (w.pendingPolicies a.vault) AnchorError.accountNotInitialized
  pure ((w.setPendingPolicy a.vault none).setPolicy a.vault { policy with hasPendingPolicy := false })

/-! ## Constraints -/

/-- `AccountLoader`: an account with its discriminator, long enough for its content, and of the vault. -/
def loadAllocated {α : Type} (account : Option (Allocated α)) (size : Nat) (v : Pubkey) (e : SigilError) :
    Result α := do
  let account ← okOr account AnchorError.accountNotInitialized
  let content ← okOr account.content AnchorError.accountDiscriminatorMismatch
  require (size ≤ account.size) ProgramError.runtime
  require (account.vault = v) e
  pure content

def loadPopulated (w : World) (v : Pubkey) : Result InstructionConstraints :=
  loadAllocated (w.constraints v) instructionConstraintsSize v .invalidConstraintsPda

def loadPendingConstraints (w : World) (v : Pubkey) : Result PendingConstraintsUpdate :=
  loadAllocated (w.pendingConstraints v) pendingConstraintsUpdateSize v .invalidPendingConstraintsPda

/-- An account of the vault that still has no discriminator. -/
def checkUnpopulated {α : Type} (account : Allocated α) (v : Pubkey) : Result Unit := do
  require account.content.isNone SigilError.invalidConstraintConfig
  require (account.vault = v) SigilError.constraintsVaultMismatch

/-- The pending account has been allocated and extended to its full size before. -/
def queueConstraintsUpdate (ctx : Ctx) (a : OwnerAction) (entries : List ConstraintEntry) (strictMode : Bool)
    (w : World) : Result World := do
  let _ ← w.loadOwnedVault ctx a.owner a.vault
  let policy ← w.loadPolicy a.vault
  let _ ← loadPopulated w a.vault
  require (policy.timelockDuration > 0) SigilError.noTimelockConfigured
  InstructionConstraints.validateEntries entries
  let account ← okOr (w.pendingConstraints a.vault) SigilError.invalidPendingConstraintsPda
  require (account.size = pendingConstraintsUpdateSize) SigilError.invalidPendingConstraintsPda
  let executes ← executesAt ctx.clock policy
  checkUnpopulated account a.vault
  let pending : PendingConstraintsUpdate :=
    { entries := entries, strictMode := strictMode, queuedAt := ctx.clock.unixTimestamp,
      executesAt := executes, queuedAtSlot := ctx.clock.slot }
  pure (w.setPendingConstraints a.vault (some (account.write pending)))

def applyConstraintsUpdate (ctx : Ctx) (a : OwnerAction) (w : World) : Result World := do
  let _ ← w.loadOwnedVault ctx a.owner a.vault
  let policy ← w.loadPolicy a.vault
  let _ ← loadPopulated w a.vault
  let pending ← loadPendingConstraints w a.vault
  checkApplyTime ctx.clock pending.executesAt pending.queuedAtSlot
  let policy' ← bumpVersion policy
  let constraints : InstructionConstraints := { entries := pending.entries, strictMode := pending.strictMode }
  pure (((w.setConstraints a.vault ((w.constraints a.vault).map (·.write constraints))).setPendingConstraints
    a.vault none).setPolicy a.vault policy')

def cancelConstraintsUpdate (ctx : Ctx) (a : OwnerAction) (w : World) : Result World := do
  let _ ← w.loadOwnedVault ctx a.owner a.vault
  let _ ← loadPendingConstraints w a.vault
  pure (w.setPendingConstraints a.vault none)

/-! ## Closing of the constraints -/

def queueCloseConstraints (ctx : Ctx) (a : OwnerAction) (w : World) : Result World := do
  let vault ← w.loadOwnedVault ctx a.owner a.vault
  let policy ← w.loadPolicy a.vault
  require policy.hasConstraints SigilError.invalidConstraintsPda
  let _ ← loadPopulated w a.vault
  require (w.pendingCloseConstraints a.vault).isNone AnchorError.accountAlreadyInUse
  require (vault.status ≠ .closed) SigilError.vaultAlreadyClosed
  let executes ← executesAt ctx.clock policy
  let pending : PendingCloseConstraints :=
    { queuedAt := ctx.clock.unixTimestamp, executesAt := executes, queuedAtSlot := ctx.clock.slot }
  pure (w.setPendingCloseConstraints a.vault (some pending))

/-- The caller may pass the pending constraints update, which is then closed too. -/
def applyCloseConstraints (ctx : Ctx) (a : OwnerAction) (closesPending : Bool) (w : World) : Result World := do
  let _ ← w.loadOwnedVault ctx a.owner a.vault
  let policy ← w.loadPolicy a.vault
  let _ ← loadPopulated w a.vault
  let pending ← okOr (w.pendingCloseConstraints a.vault) AnchorError.accountNotInitialized
  checkApplyTime ctx.clock pending.executesAt pending.queuedAtSlot
  let policy' ← bumpVersion { policy with hasConstraints := false }
  let closed := ((w.setConstraints a.vault none).setPendingCloseConstraints a.vault none).setPolicy a.vault policy'
  pure (if closesPending then closed.setPendingConstraints a.vault none else closed)

def cancelCloseConstraints (ctx : Ctx) (a : OwnerAction) (w : World) : Result World := do
  let _ ← w.loadOwnedVault ctx a.owner a.vault
  let _ ← okOr (w.pendingCloseConstraints a.vault) AnchorError.accountNotInitialized
  pure (w.setPendingCloseConstraints a.vault none)

/-! ## Permissions of an agent -/

def queueAgentPermissionsUpdate (ctx : Ctx) (a : AgentAction) (newCapability : UInt8) (spendingLimitUsd : UInt64)
    (w : World) : Result World := do
  let vault ← w.loadOwnedVault ctx a.owner a.vault
  let policy ← w.loadPolicy a.vault
  require (w.pendingAgentPerms (.pendingAgentPerms a.vault a.agent)).isNone AnchorError.accountAlreadyInUse
  require (vault.status ≠ .closed) SigilError.vaultAlreadyClosed
  require (policy.timelockDuration > 0) SigilError.noTimelockConfigured
  require (vault.isAgent a.agent) SigilError.unauthorizedAgent
  require (newCapability.toNat ≤ fullCapability) SigilError.invalidPermissions
  let executes ← executesAt ctx.clock policy
  let pending : PendingAgentPermissionsUpdate :=
    { vault := a.vault, agent := a.agent, newCapability := newCapability.toNat,
      spendingLimitUsd := spendingLimitUsd.toNat, queuedAt := ctx.clock.unixTimestamp,
      executesAt := executes, queuedAtSlot := ctx.clock.slot }
  pure (w.setPendingAgentPerms (.pendingAgentPerms a.vault a.agent) (some pending))

/-- The pending update lies at the address its vault and agent derive. -/
def loadPendingAgentPerms (w : World) (v address : Pubkey) : Result PendingAgentPermissionsUpdate := do
  let pending ← okOr (w.pendingAgentPerms address) AnchorError.accountNotInitialized
  require (pending.vault = v) AnchorError.constraintRaw
  require (address = .pendingAgentPerms v pending.agent) AnchorError.constraintSeeds
  pure pending

/-- A slot follows the limit: an agent that gets one needs a slot, an agent that loses it gives its slot up. -/
def adjustSlot (overlay : AgentSpendOverlay) (agent : Pubkey) (oldLimit newLimit : Nat) :
    Result AgentSpendOverlay :=
  match overlay.findAgentSlot agent with
  | none => if newLimit > 0 then okOr (overlay.claimSlot agent) SigilError.overlaySlotExhausted else pure overlay
  | some slot => pure (if newLimit = 0 ∧ oldLimit > 0 then overlay.releaseSlot slot else overlay)

def applyAgentPermissionsUpdate (ctx : Ctx) (a : OwnerAction) (address : Pubkey) (w : World) : Result World := do
  let vault ← w.loadOwnedVault ctx a.owner a.vault
  let policy ← w.loadPolicy a.vault
  let pending ← loadPendingAgentPerms w a.vault address
  let overlay ← w.loadOverlay a.vault
  checkApplyTime ctx.clock pending.executesAt pending.queuedAtSlot
  let entry ← okOr (vault.getAgent pending.agent) SigilError.unauthorizedAgent
  let agents := updateAgent vault.agents pending.agent fun e =>
    { e with capability := pending.newCapability, spendingLimitUsd := pending.spendingLimitUsd }
  let overlay' ← adjustSlot overlay pending.agent entry.spendingLimitUsd pending.spendingLimitUsd
  let policy' ← bumpVersion policy
  pure ((((w.setVault a.vault { vault with agents := agents }).setOverlay a.vault overlay').setPolicy
    a.vault policy').setPendingAgentPerms address none)

def cancelAgentPermissionsUpdate (ctx : Ctx) (a : OwnerAction) (address : Pubkey) (w : World) : Result World := do
  let _ ← w.loadOwnedVault ctx a.owner a.vault
  let _ ← loadPendingAgentPerms w a.vault address
  pure (w.setPendingAgentPerms address none)

end Sigil
