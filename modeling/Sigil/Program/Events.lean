import Sigil.Library.Sha256
import Sigil.Program.Dispatch

/-!
# Events

The events of `events.rs` and where the handlers emit them. The log of an event is the discriminator of its name with
the encoded fields.
-/

namespace Sigil

open Library

inductive EventKind where
  | vaultCreated | fundsDeposited | agentRegistered | agentSpendLimitChecked | actionAuthorized | sessionFinalized
  | delegationRevoked | agentRevoked | vaultReactivated | fundsWithdrawn | feesCollected | vaultClosed
  | policyChangeQueued | policyChangeApplied | policyChangeCancelled | agentTransferExecuted
  | instructionConstraintsCreated | pdaAllocated | pdaExtended | constraintsChangeQueued | constraintsChangeApplied
  | constraintsChangeCancelled | escrowCreated | escrowSettled | escrowRefunded | vaultFrozen | agentPausedEvent
  | agentUnpausedEvent | agentPermissionsChangeQueued | agentPermissionsChangeApplied
  | agentPermissionsChangeCancelled | closeConstraintsQueued | closeConstraintsApplied | closeConstraintsCancelled
  | postAssertionsCreated | postAssertionsClosed | postAssertionChecked | orphanConstraintsPdaCleaned
  deriving DecidableEq, Repr

namespace EventKind

def name : EventKind → String
  | .vaultCreated => "VaultCreated"
  | .fundsDeposited => "FundsDeposited"
  | .agentRegistered => "AgentRegistered"
  | .agentSpendLimitChecked => "AgentSpendLimitChecked"
  | .actionAuthorized => "ActionAuthorized"
  | .sessionFinalized => "SessionFinalized"
  | .delegationRevoked => "DelegationRevoked"
  | .agentRevoked => "AgentRevoked"
  | .vaultReactivated => "VaultReactivated"
  | .fundsWithdrawn => "FundsWithdrawn"
  | .feesCollected => "FeesCollected"
  | .vaultClosed => "VaultClosed"
  | .policyChangeQueued => "PolicyChangeQueued"
  | .policyChangeApplied => "PolicyChangeApplied"
  | .policyChangeCancelled => "PolicyChangeCancelled"
  | .agentTransferExecuted => "AgentTransferExecuted"
  | .instructionConstraintsCreated => "InstructionConstraintsCreated"
  | .pdaAllocated => "PdaAllocated"
  | .pdaExtended => "PdaExtended"
  | .constraintsChangeQueued => "ConstraintsChangeQueued"
  | .constraintsChangeApplied => "ConstraintsChangeApplied"
  | .constraintsChangeCancelled => "ConstraintsChangeCancelled"
  | .escrowCreated => "EscrowCreated"
  | .escrowSettled => "EscrowSettled"
  | .escrowRefunded => "EscrowRefunded"
  | .vaultFrozen => "VaultFrozen"
  | .agentPausedEvent => "AgentPausedEvent"
  | .agentUnpausedEvent => "AgentUnpausedEvent"
  | .agentPermissionsChangeQueued => "AgentPermissionsChangeQueued"
  | .agentPermissionsChangeApplied => "AgentPermissionsChangeApplied"
  | .agentPermissionsChangeCancelled => "AgentPermissionsChangeCancelled"
  | .closeConstraintsQueued => "CloseConstraintsQueued"
  | .closeConstraintsApplied => "CloseConstraintsApplied"
  | .closeConstraintsCancelled => "CloseConstraintsCancelled"
  | .postAssertionsCreated => "PostAssertionsCreated"
  | .postAssertionsClosed => "PostAssertionsClosed"
  | .postAssertionChecked => "PostAssertionChecked"
  | .orphanConstraintsPdaCleaned => "OrphanConstraintsPdaCleaned"

/-- First eight bytes of the hash of `event:` with the name. -/
def discriminator (kind : EventKind) : List UInt8 :=
  (Sha256.digest (("event:" ++ kind.name).toList.map fun c => UInt8.ofNat c.toNat)).take 8

end EventKind

/-! ## What the handlers emit -/

/-- An agent with a slot and a limit is checked. -/
def limitChecked (vault : AgentVault) (overlay : AgentSpendOverlay) (agent : Pubkey) : List EventKind :=
  if (overlay.findAgentSlot agent).isSome ∧ (vault.getAgent agent).any fun entry => 0 < entry.spendingLimitUsd then
    [.agentSpendLimitChecked]
  else []

def feesCollected (protocolFee developerFee : Nat) : List EventKind :=
  if protocolFee > 0 ∨ developerFee > 0 then [.feesCollected] else []

/-- One event for every pair that is revoked. -/
def FreezeVault.events (a : FreezeVault) (w : World) : List EventKind :=
  ((a.pairs.filter (FreezeVault.revokes w a.vault)).map fun _ => .delegationRevoked) ++ [.vaultFrozen]

def ValidateAndAuthorize.events (a : ValidateAndAuthorize) (w : World) : Result (List EventKind) := do
  let policy ← w.loadPolicy a.vault
  let tokenAccount ← w.loadToken a.vaultTokenAccount
  let plan ← planSpend w a policy tokenAccount
  pure (feesCollected plan.protocolFee plan.developerFee ++ [.actionAuthorized])

/-- One event for every assertion that is checked. -/
def assertionsChecked (w : World) (v : Pubkey) (policy : PolicyConfig) (isExpired : Bool) : List EventKind :=
  if isExpired = false ∧ policy.hasPostAssertions ≠ 0 then
    ((w.postAssertions v).elim [] PostExecutionAssertions.entries).map fun _ => .postAssertionChecked
  else []

def FinalizeSession.events (ctx : Ctx) (a : FinalizeSession) (w : World) : Result (List EventKind) := do
  let vault ← w.loadVault a.vault
  let session ← loadSession w a
  let policy ← w.loadPolicy a.vault
  let overlay ← w.loadOverlay a.vault
  let isExpired := session.isExpired ctx.clock.unixTimestamp
  let spend ← measureSpend w a session isExpired
  pure ((if session.delegated then [.delegationRevoked] else []) ++
    (if spend > 0 then limitChecked vault overlay session.agent else []) ++
    assertionsChecked w a.vault policy isExpired ++ [.sessionFinalized])

def AgentTransfer.events (a : AgentTransfer) (w : World) : Result (List EventKind) := do
  let vault ← w.loadVault a.vault
  let policy ← w.loadPolicy a.vault
  let overlay ← w.loadOverlay a.vault
  let protocolFee ← ceilFee a.amount.toNat protocolFeeRate
  let developerFee ← ceilFee a.amount.toNat policy.developerFeeRate
  pure (limitChecked vault overlay a.agent ++ feesCollected protocolFee developerFee ++ [.agentTransferExecuted])

def CreateEscrow.events (a : CreateEscrow) (w : World) : Result (List EventKind) := do
  let vault ← w.loadVault a.sourceVault
  let policy ← w.loadPolicy a.sourceVault
  let overlay ← w.loadOverlay a.sourceVault
  let protocolFee ← ceilFee a.amount.toNat protocolFeeRate
  let developerFee ← ceilFee a.amount.toNat policy.developerFeeRate
  pure (limitChecked vault overlay a.agent ++ feesCollected protocolFee developerFee ++ [.escrowCreated])

/-- Events of an instruction that succeeds on `w`, in their order. -/
def Instruction.events (ctx : Ctx) (w : World) : Instruction → Result (List EventKind)
  | .initializeVault _ => pure [.vaultCreated]
  | .closeVault _ => pure [.vaultClosed]
  | .depositFunds _ => pure [.fundsDeposited]
  | .withdrawFunds _ => pure [.fundsWithdrawn]
  | .registerAgent _ => pure [.agentRegistered]
  | .revokeAgent _ => pure [.agentRevoked]
  | .pauseAgent _ => pure [.agentPausedEvent]
  | .unpauseAgent _ => pure [.agentUnpausedEvent]
  | .freezeVault a => pure (a.events w)
  | .reactivateVault _ => pure [.vaultReactivated]
  | .validateAndAuthorize a => a.events w
  | .finalizeSession a => a.events ctx w
  | .agentTransfer a => a.events w
  | .createEscrow a => a.events w
  | .settleEscrow _ => pure [.escrowSettled]
  | .refundEscrow _ => pure [.escrowRefunded]
  -- the settlement or the refund has emitted its event
  | .closeSettledEscrow _ => pure []
  | .queuePolicyUpdate _ _ => pure [.policyChangeQueued]
  | .applyPendingPolicy _ => pure [.policyChangeApplied]
  | .cancelPendingPolicy _ => pure [.policyChangeCancelled]
  | .queueConstraintsUpdate _ _ _ => pure [.constraintsChangeQueued]
  | .applyConstraintsUpdate _ => pure [.constraintsChangeApplied]
  | .cancelConstraintsUpdate _ => pure [.constraintsChangeCancelled]
  | .queueCloseConstraints _ => pure [.closeConstraintsQueued]
  | .applyCloseConstraints _ _ => pure [.closeConstraintsApplied]
  | .cancelCloseConstraints _ => pure [.closeConstraintsCancelled]
  | .queueAgentPermissionsUpdate _ _ _ => pure [.agentPermissionsChangeQueued]
  | .applyAgentPermissionsUpdate _ _ => pure [.agentPermissionsChangeApplied]
  | .cancelAgentPermissionsUpdate _ _ => pure [.agentPermissionsChangeCancelled]
  | .allocateConstraintsPda _ => pure [.pdaAllocated]
  | .allocatePendingConstraintsPda _ => pure [.pdaAllocated]
  | .extendPda _ _ _ => pure [.pdaExtended]
  | .createInstructionConstraints _ _ _ => pure [.instructionConstraintsCreated]
  | .cleanupOrphanConstraintsPda _ => pure [.orphanConstraintsPdaCleaned]
  | .createPostAssertions _ _ => pure [.postAssertionsCreated]
  | .closePostAssertions _ => pure [.postAssertionsClosed]

/-! ## Logs -/

/-- A line of a transaction's log: the bytes that follow `Program data: `, if it has them. -/
abbrev LogLine := Option (List UInt8)

/-- The data lines are those of the events, whatever the fields are. -/
def Emits (kinds : List EventKind) (lines : List LogLine) : Prop :=
  List.Forall₂ (fun kind bytes => ∃ fields, bytes = kind.discriminator ++ fields) kinds lines.reduceOption

end Sigil
