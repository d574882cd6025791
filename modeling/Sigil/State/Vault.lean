import Sigil.State.Constants

/-!
# Vaults, policies, sessions and escrows

The accounts of `state/vault.rs`, `state/policy.rs`, `state/session.rs` and `state/escrow.rs`. Bumps,
discriminators and reserved bytes are left out. Fields of type `u8`, `u16` and `u64` are naturals.
-/

namespace Sigil

open Library

inductive VaultStatus where
  | active | frozen | closed
  deriving DecidableEq, Repr

structure AgentEntry where
  pubkey : Pubkey
  capability : Nat
  spendingLimitUsd : Nat
  paused : Bool := false
  deriving DecidableEq, Repr

structure AgentVault where
  owner : Pubkey
  vaultId : Nat
  agents : List AgentEntry := []
  feeDestination : Pubkey
  status : VaultStatus := .active
  createdAt : Int
  totalTransactions : Nat := 0
  totalVolume : Nat := 0
  activeEscrowCount : Nat := 0
  totalFeesCollected : Nat := 0
  totalDepositedUsd : Nat := 0
  totalWithdrawnUsd : Nat := 0
  totalFailedTransactions : Nat := 0
  activeSessions : Nat := 0
  deriving DecidableEq, Repr

namespace AgentVault

/-- Address of the vault: `[b"vault", owner, vault_id]`. -/
def address (vault : AgentVault) : Pubkey := .vault vault.owner vault.vaultId

def isActive (vault : AgentVault) : Bool := vault.status = .active

def getAgent (vault : AgentVault) (signer : Pubkey) : Option AgentEntry :=
  vault.agents.find? fun a => a.pubkey = signer

def isAgent (vault : AgentVault) (signer : Pubkey) : Bool := vault.agents.any fun a => a.pubkey = signer

def hasCapability (vault : AgentVault) (signer : Pubkey) (isSpending : Bool) : Bool :=
  match vault.getAgent signer with
  | some a => if isSpending then a.capability ≥ capabilityOperator else a.capability ≥ capabilityObserver
  | none => false

def isOwner (vault : AgentVault) (signer : Pubkey) : Bool := vault.owner = signer

def isAgentPaused (vault : AgentVault) (signer : Pubkey) : Bool :=
  match vault.getAgent signer with
  | some a => a.paused
  | none => false

end AgentVault

structure PolicyConfig where
  dailySpendingCapUsd : Nat
  maxTransactionSizeUsd : Nat
  protocolMode : Nat
  protocols : List Pubkey
  developerFeeRate : Nat
  maxSlippageBps : Nat
  timelockDuration : Nat
  allowedDestinations : List Pubkey
  hasConstraints : Bool := false
  hasPendingPolicy : Bool := false
  hasProtocolCaps : Bool
  protocolCaps : List Nat
  sessionExpirySeconds : Nat := 0
  policyVersion : Nat := 0
  hasPostAssertions : Nat := 0
  destinationMode : Nat := destinationModeRestricted
  deriving DecidableEq, Repr

namespace PolicyConfig

def isProtocolAllowed (policy : PolicyConfig) (programId : Pubkey) : Bool :=
  if policy.protocolMode = protocolModeAll then true
  else if policy.protocolMode = protocolModeAllowlist then programId ∈ policy.protocols
  else if policy.protocolMode = protocolModeDenylist then programId ∉ policy.protocols
  else false

def isDestinationAllowed (policy : PolicyConfig) (destinationOwner : Pubkey) : Bool :=
  if policy.destinationMode = destinationModeOpenWithCap then true
  else if policy.destinationMode = destinationModeRestricted then destinationOwner ∈ policy.allowedDestinations
  else false

def getProtocolCap (policy : PolicyConfig) (protocol : Pubkey) : Option Nat :=
  if !policy.hasProtocolCaps then none
  else (policy.protocols.findIdx? fun p => p = protocol).map fun i => (policy.protocolCaps[i]?).getD 0

def effectiveSessionExpirySeconds (policy : PolicyConfig) : Nat :=
  if policy.sessionExpirySeconds = 0 then sessionDurationSeconds else policy.sessionExpirySeconds

end PolicyConfig

structure SessionAuthority where
  vault : Pubkey
  agent : Pubkey
  authorized : Bool
  authorizedAmount : Nat
  authorizedToken : Pubkey
  authorizedProtocol : Pubkey
  isSpending : Bool
  expiresAtTimestamp : Int
  delegated : Bool
  delegationTokenAccount : Pubkey
  protocolFee : Nat
  developerFee : Nat
  outputMint : Pubkey
  stablecoinBalanceBefore : Nat
  /-- Snapshot of each post-assertion that takes one; an empty list stands for `snapshot_lens[i] = 0`. -/
  assertionSnapshots : Fin 4 → List UInt8

namespace SessionAuthority

def isExpired (session : SessionAuthority) (now : Int) : Bool := now > session.expiresAtTimestamp

def isValid (session : SessionAuthority) (now : Int) : Bool := session.authorized && !session.isExpired now

def calculateExpiry (now : Int) (ownerMaxSeconds : Nat) : Int :=
  saturatingAddI64 now (min ownerMaxSeconds maxOwnerSessionDurationSeconds)

end SessionAuthority

inductive EscrowStatus where
  | active | settled | refunded
  deriving DecidableEq, Repr

structure EscrowDeposit where
  sourceVault : Pubkey
  destinationVault : Pubkey
  escrowId : Nat
  /-- Net amount, after fees. -/
  amount : Nat
  tokenMint : Pubkey
  createdAt : Int
  expiresAt : Int
  status : EscrowStatus
  conditionHash : List UInt8
  deriving DecidableEq, Repr

/-! ## Queued updates -/

structure PendingPolicyUpdate where
  queuedAt : Int
  executesAt : Int
  queuedAtSlot : Nat
  dailySpendingCapUsd : Option Nat
  maxTransactionAmountUsd : Option Nat
  protocolMode : Option Nat
  protocols : Option (List Pubkey)
  developerFeeRate : Option Nat
  maxSlippageBps : Option Nat
  timelockDuration : Option Nat
  allowedDestinations : Option (List Pubkey)
  sessionExpirySeconds : Option Nat
  hasProtocolCaps : Option Bool
  protocolCaps : Option (List Nat)
  destinationMode : Option Nat
  deriving DecidableEq, Repr

structure PendingAgentPermissionsUpdate where
  vault : Pubkey
  agent : Pubkey
  newCapability : Nat
  spendingLimitUsd : Nat
  queuedAt : Int
  executesAt : Int
  queuedAtSlot : Nat
  deriving DecidableEq, Repr

structure PendingCloseConstraints where
  queuedAt : Int
  executesAt : Int
  queuedAtSlot : Nat
  deriving DecidableEq, Repr

end Sigil
