import Sigil.Library.Borsh
import Sigil.Program.Transaction

/-!
# Accounts of fixed size

The accounts of a vault are created with the sizes below, and an instruction writes its accounts back when its
handler is done. It fails when an account has grown out of its space.
-/

namespace Sigil

open Library

/-- Eight bytes in front of every account. -/
abbrev discriminatorSize : Nat := 8

abbrev pubkeySize : Nat := 32

/-- An entry of an agent, with its seven reserved bytes. -/
abbrev agentEntrySize : Nat := pubkeySize + Borsh.u8 + Borsh.u64 + Borsh.bool + 7

/-! ## The space that is allocated -/

/-- `AgentVault::SIZE` -/
abbrev agentVaultSize : Nat :=
  8 + 32 + 8 + 4 + 49 * maxAgentsPerVault + 32 + 1 + 1 + 8 + 8 + 8 + 1 + 8 + 8 + 8 + 8 + 1

/-- `PolicyConfig::SIZE` -/
abbrev policyConfigSize : Nat :=
  8 + 32 + 8 + 8 + 1 + (4 + 32 * maxAllowedProtocols) + 2 + 2 + 8 + (4 + 32 * maxAllowedDestinations) + 1 + 1 + 1 +
    (4 + 8 * maxAllowedProtocols) + 8 + 1 + 8 + 1 + 1

/-- `SpendTracker::SIZE` -/
abbrev spendTrackerSize : Nat := 8 + 32 + 16 * numEpochs + 48 * maxAllowedProtocols + 8 + 1 + 7

/-- `AgentSpendOverlay::SIZE` -/
abbrev agentSpendOverlaySize : Nat :=
  8 + 32 + 232 * maxOverlayEntries + 1 + 7 + 8 * maxOverlayEntries + 8 * maxOverlayEntries

/-- `PendingPolicyUpdate::SIZE` -/
abbrev pendingPolicyUpdateSize : Nat :=
  8 + 32 + 8 + 8 + 8 + (1 + 8) + (1 + 8) + (1 + 1) + (1 + 4 + 32 * maxAllowedProtocols) + (1 + 2) + (1 + 2) + (1 + 8) +
    (1 + 4 + 32 * maxAllowedDestinations) + (1 + 8) + (1 + 1) + (1 + 4 + 8 * maxAllowedProtocols) + (1 + 1) + 1

/-! ## The space that is needed -/

/-- The fields in the order of the account, with the bump behind the status. -/
def AgentVault.encodedSize (vault : AgentVault) : Nat :=
  discriminatorSize + pubkeySize + Borsh.u64 + Borsh.vec agentEntrySize vault.agents + pubkeySize + Borsh.enum +
    Borsh.u8 + Borsh.i64 + Borsh.u64 + Borsh.u64 + Borsh.u8 + Borsh.u64 + Borsh.u64 + Borsh.u64 + Borsh.u64 + Borsh.u8

/-- The address of the vault comes first, and the bump behind the session expiry. -/
def PolicyConfig.encodedSize (policy : PolicyConfig) : Nat :=
  discriminatorSize + pubkeySize + Borsh.u64 + Borsh.u64 + Borsh.u8 + Borsh.vec pubkeySize policy.protocols +
    Borsh.u16 + Borsh.u16 + Borsh.u64 + Borsh.vec pubkeySize policy.allowedDestinations + Borsh.bool + Borsh.bool +
    Borsh.bool + Borsh.vec Borsh.u64 policy.protocolCaps + Borsh.u64 + Borsh.u8 + Borsh.u64 + Borsh.u8 + Borsh.u8

/-- The address of the vault comes first, the bump last. -/
def PendingPolicyUpdate.encodedSize (p : PendingPolicyUpdate) : Nat :=
  discriminatorSize + pubkeySize + Borsh.i64 + Borsh.i64 + Borsh.u64 +
    Borsh.option (fun _ => Borsh.u64) p.dailySpendingCapUsd +
    Borsh.option (fun _ => Borsh.u64) p.maxTransactionAmountUsd +
    Borsh.option (fun _ => Borsh.u8) p.protocolMode + Borsh.option (Borsh.vec pubkeySize) p.protocols +
    Borsh.option (fun _ => Borsh.u16) p.developerFeeRate + Borsh.option (fun _ => Borsh.u16) p.maxSlippageBps +
    Borsh.option (fun _ => Borsh.u64) p.timelockDuration + Borsh.option (Borsh.vec pubkeySize) p.allowedDestinations +
    Borsh.option (fun _ => Borsh.u64) p.sessionExpirySeconds + Borsh.option (fun _ => Borsh.bool) p.hasProtocolCaps +
    Borsh.option (Borsh.vec Borsh.u64) p.protocolCaps + Borsh.option (fun _ => Borsh.u8) p.destinationMode + Borsh.u8

/-- The accounts of a vault fit in their space. -/
def World.fits (w : World) (v : Pubkey) : Bool :=
  (w.vaults v).all (fun vault => vault.encodedSize ≤ agentVaultSize) &&
    (w.policies v).all (fun policy => policy.encodedSize ≤ policyConfigSize) &&
    (w.pendingPolicies v).all (fun pending => pending.encodedSize ≤ pendingPolicyUpdateSize)

/-- Vaults whose accounts an instruction is given. Those that it does not write are as they were. -/
def Instruction.vaults : Instruction → List Pubkey
  | .initializeVault a => [a.vault]
  | .closeVault a => [a.vault]
  | .depositFunds a => [a.vault]
  | .withdrawFunds a => [a.vault]
  | .registerAgent a => [a.vault]
  | .revokeAgent a => [a.vault]
  | .pauseAgent a => [a.vault]
  | .unpauseAgent a => [a.vault]
  | .freezeVault a => [a.vault]
  | .reactivateVault a => [a.vault]
  | .validateAndAuthorize a => [a.vault]
  | .finalizeSession a => [a.vault]
  | .agentTransfer a => [a.vault]
  | .createEscrow a => [a.sourceVault, a.destinationVault]
  | .settleEscrow a => [a.sourceVault, a.destinationVault]
  | .refundEscrow a => [a.sourceVault]
  | .closeSettledEscrow a => [a.sourceVault]
  | .queuePolicyUpdate a _ => [a.vault]
  | .applyPendingPolicy a => [a.vault]
  | .cancelPendingPolicy a => [a.vault]
  | .queueConstraintsUpdate a _ _ => [a.vault]
  | .applyConstraintsUpdate a => [a.vault]
  | .cancelConstraintsUpdate a => [a.vault]
  | .queueCloseConstraints a => [a.vault]
  | .applyCloseConstraints a _ => [a.vault]
  | .cancelCloseConstraints a => [a.vault]
  | .queueAgentPermissionsUpdate a _ _ => [a.vault]
  | .applyAgentPermissionsUpdate a _ => [a.vault]
  | .cancelAgentPermissionsUpdate a _ => [a.vault]
  | .allocateConstraintsPda a => [a.vault]
  | .allocatePendingConstraintsPda a => [a.vault]
  | .extendPda a _ _ => [a.vault]
  | .createInstructionConstraints a _ _ => [a.vault]
  | .cleanupOrphanConstraintsPda a => [a.vault]
  | .createPostAssertions a _ => [a.vault]
  | .closePostAssertions a => [a.vault]

def Step.vaults (st : Step) : List Pubkey :=
  match st.instruction.call with
  | .sigil i => i.vaults
  | .foreign _ => []

/-- A step that writes its accounts back. -/
def Step.execSerialized (st : Step) (w : World) : Result World := do
  let w' ← st.exec w
  require (st.vaults.all w'.fits) AnchorError.accountDidNotSerialize
  pure w'

/-! ## Bytes -/

/-- Addresses are symbolic here. A book has their bytes, and the bumps of those that are derived. -/
structure AddressBook where
  bytes : Pubkey → List UInt8
  resolve : List UInt8 → Pubkey
  bump : Pubkey → UInt8
  bytes_length : ∀ k, (bytes k).length = pubkeySize
  bytes_resolve : ∀ l, l.length = pubkeySize → bytes (resolve l) = l

namespace AddressBook

variable (book : AddressBook)

/-- No other address is read from the bytes of this one. -/
def Known (k : Pubkey) : Prop := book.resolve (book.bytes k) = k

def pubkey : Codec Pubkey :=
  (Codec.fixed pubkeySize).pmap (fun l => some (book.resolve l)) book.bytes (by
    rintro l _ hl ⟨⟩
    exact book.bytes_resolve l hl)

def agentEntry : Codec AgentEntry :=
  (book.pubkey.pair <| (Codec.uint 1).pair <| (Codec.uint 8).pair <| Codec.bool.pair <| Codec.padding 7).record
    (fun (pubkey, capability, spendingLimitUsd, paused, _) =>
      { pubkey := pubkey, capability := capability, spendingLimitUsd := spendingLimitUsd, paused := paused })
    (fun e => (e.pubkey, e.capability, e.spendingLimitUsd, e.paused, ()))
    (fun _ => rfl)

/-- The position of a variant is its tag. -/
def vaultStatus : Codec VaultStatus := .enum [.active, .frozen, .closed] (by decide)

/-- A vault with its bump. -/
def agentVault : AccountFormat (AgentVault × Nat) where
  discriminator := [232, 220, 237, 164, 157, 9, 215, 194]
  space := agentVaultSize
  codec :=
    (book.pubkey.pair <| (Codec.uint 8).pair <| book.agentEntry.vec.pair <| book.pubkey.pair <| vaultStatus.pair <|
      (Codec.uint 1).pair <| (Codec.int 8).pair <| (Codec.uint 8).pair <| (Codec.uint 8).pair <| (Codec.uint 1).pair <|
      (Codec.uint 8).pair <| (Codec.uint 8).pair <| (Codec.uint 8).pair <| (Codec.uint 8).pair <|
      Codec.uint 1).record
      (fun (owner, vaultId, agents, feeDestination, status, bump, createdAt, totalTransactions, totalVolume,
          activeEscrowCount, totalFeesCollected, totalDepositedUsd, totalWithdrawnUsd, totalFailedTransactions,
          activeSessions) =>
        ({ owner := owner, vaultId := vaultId, agents := agents, feeDestination := feeDestination, status := status,
           createdAt := createdAt, totalTransactions := totalTransactions, totalVolume := totalVolume,
           activeEscrowCount := activeEscrowCount, totalFeesCollected := totalFeesCollected,
           totalDepositedUsd := totalDepositedUsd, totalWithdrawnUsd := totalWithdrawnUsd,
           totalFailedTransactions := totalFailedTransactions, activeSessions := activeSessions }, bump))
      (fun (vault, bump) =>
        (vault.owner, vault.vaultId, vault.agents, vault.feeDestination, vault.status, bump, vault.createdAt,
          vault.totalTransactions, vault.totalVolume, vault.activeEscrowCount, vault.totalFeesCollected,
          vault.totalDepositedUsd, vault.totalWithdrawnUsd, vault.totalFailedTransactions, vault.activeSessions))
      (fun _ => rfl)

/-- A policy with the address of its vault and its bump. -/
def policyConfig : AccountFormat (PolicyConfig × Pubkey × Nat) where
  discriminator := [219, 7, 79, 84, 175, 51, 148, 146]
  space := policyConfigSize
  codec :=
    (book.pubkey.pair <| (Codec.uint 8).pair <| (Codec.uint 8).pair <| (Codec.uint 1).pair <| book.pubkey.vec.pair <|
      (Codec.uint 2).pair <| (Codec.uint 2).pair <| (Codec.uint 8).pair <| book.pubkey.vec.pair <| Codec.bool.pair <|
      Codec.bool.pair <| Codec.bool.pair <| (Codec.uint 8).vec.pair <| (Codec.uint 8).pair <| (Codec.uint 1).pair <|
      (Codec.uint 8).pair <| (Codec.uint 1).pair <| Codec.uint 1).record
      (fun (vault, dailySpendingCapUsd, maxTransactionSizeUsd, protocolMode, protocols, developerFeeRate,
          maxSlippageBps, timelockDuration, allowedDestinations, hasConstraints, hasPendingPolicy, hasProtocolCaps,
          protocolCaps, sessionExpirySeconds, bump, policyVersion, hasPostAssertions, destinationMode) =>
        ({ dailySpendingCapUsd := dailySpendingCapUsd, maxTransactionSizeUsd := maxTransactionSizeUsd,
           protocolMode := protocolMode, protocols := protocols, developerFeeRate := developerFeeRate,
           maxSlippageBps := maxSlippageBps, timelockDuration := timelockDuration,
           allowedDestinations := allowedDestinations, hasConstraints := hasConstraints,
           hasPendingPolicy := hasPendingPolicy, hasProtocolCaps := hasProtocolCaps, protocolCaps := protocolCaps,
           sessionExpirySeconds := sessionExpirySeconds, policyVersion := policyVersion,
           hasPostAssertions := hasPostAssertions, destinationMode := destinationMode }, vault, bump))
      (fun (policy, vault, bump) =>
        (vault, policy.dailySpendingCapUsd, policy.maxTransactionSizeUsd, policy.protocolMode, policy.protocols,
          policy.developerFeeRate, policy.maxSlippageBps, policy.timelockDuration, policy.allowedDestinations,
          policy.hasConstraints, policy.hasPendingPolicy, policy.hasProtocolCaps, policy.protocolCaps,
          policy.sessionExpirySeconds, bump, policy.policyVersion, policy.hasPostAssertions, policy.destinationMode))
      (fun _ => rfl)

def pendingPolicyUpdate : AccountFormat (PendingPolicyUpdate × Pubkey × Nat) where
  discriminator := [77, 255, 2, 51, 79, 237, 183, 239]
  space := pendingPolicyUpdateSize
  codec :=
    (book.pubkey.pair <| (Codec.int 8).pair <| (Codec.int 8).pair <| (Codec.uint 8).pair <|
      (Codec.uint 8).option.pair <| (Codec.uint 8).option.pair <| (Codec.uint 1).option.pair <|
      book.pubkey.vec.option.pair <| (Codec.uint 2).option.pair <| (Codec.uint 2).option.pair <|
      (Codec.uint 8).option.pair <| book.pubkey.vec.option.pair <| (Codec.uint 8).option.pair <|
      Codec.bool.option.pair <| (Codec.uint 8).vec.option.pair <| (Codec.uint 1).option.pair <| Codec.uint 1).record
      (fun (vault, queuedAt, executesAt, queuedAtSlot, dailySpendingCapUsd, maxTransactionAmountUsd, protocolMode,
          protocols, developerFeeRate, maxSlippageBps, timelockDuration, allowedDestinations, sessionExpirySeconds,
          hasProtocolCaps, protocolCaps, destinationMode, bump) =>
        ({ queuedAt := queuedAt, executesAt := executesAt, queuedAtSlot := queuedAtSlot,
           dailySpendingCapUsd := dailySpendingCapUsd, maxTransactionAmountUsd := maxTransactionAmountUsd,
           protocolMode := protocolMode, protocols := protocols, developerFeeRate := developerFeeRate,
           maxSlippageBps := maxSlippageBps, timelockDuration := timelockDuration,
           allowedDestinations := allowedDestinations, sessionExpirySeconds := sessionExpirySeconds,
           hasProtocolCaps := hasProtocolCaps, protocolCaps := protocolCaps, destinationMode := destinationMode },
          vault, bump))
      (fun (p, vault, bump) =>
        (vault, p.queuedAt, p.executesAt, p.queuedAtSlot, p.dailySpendingCapUsd, p.maxTransactionAmountUsd,
          p.protocolMode, p.protocols, p.developerFeeRate, p.maxSlippageBps, p.timelockDuration,
          p.allowedDestinations, p.sessionExpirySeconds, p.hasProtocolCaps, p.protocolCaps, p.destinationMode, bump))
      (fun _ => rfl)

end AddressBook

/-! ## A program on bytes -/

/-- The accounts that are of no type above. -/
def World.bare (w : World) : World :=
  { w with vaults := fun _ => none, policies := fun _ => none, pendingPolicies := fun _ => none }

/-- The chain with the bytes of the accounts above, kept under the address of their vault. -/
structure ByteWorld where
  others : World := {}
  vaultData : Pubkey → Option (List UInt8) := fun _ => none
  policyData : Pubkey → Option (List UInt8) := fun _ => none
  pendingPolicyData : Pubkey → Option (List UInt8) := fun _ => none

namespace ByteWorld

def read (book : AddressBook) (b : ByteWorld) : World :=
  { b.others with
    vaults := fun v => ((b.vaultData v).bind book.agentVault.load).map Prod.fst
    policies := fun v => ((b.policyData v).bind book.policyConfig.load).map Prod.fst
    pendingPolicies := fun v => ((b.pendingPolicyData v).bind book.pendingPolicyUpdate.load).map Prod.fst }

/-- Writes the accounts of a vault. -/
def write (book : AddressBook) (w : World) (b : ByteWorld) (v : Pubkey) : Option ByteWorld := do
  let vaultData ← book.agentVault.writeBack (book.bump v).toNat (b.vaultData v) (w.vaults v)
  let policyData ← book.policyConfig.writeBack (v, (book.bump (.policy v)).toNat) (b.policyData v) (w.policies v)
  let pendingPolicyData ← book.pendingPolicyUpdate.writeBack (v, (book.bump (.pendingPolicy v)).toNat)
    (b.pendingPolicyData v) (w.pendingPolicies v)
  pure { b with
    vaultData := Function.update b.vaultData v vaultData
    policyData := Function.update b.policyData v policyData
    pendingPolicyData := Function.update b.pendingPolicyData v pendingPolicyData }

end ByteWorld

/-- A step that reads the bytes of its accounts before its handler and writes them back after it. -/
def Step.execBytes (book : AddressBook) (st : Step) (b : ByteWorld) : Result ByteWorld := do
  let w ← st.exec (b.read book)
  okOr (st.vaults.foldlM (fun b v => b.write book w v) { b with others := w.bare }) AnchorError.accountDidNotSerialize

end Sigil
