import Mathlib.Tactic.Common

/-!
# Errors

The program's own errors in the order of `errors.rs`, and the errors of the runtime, the account
constraints and the token program that a handler can end with.
-/

namespace Sigil

inductive SigilError where
  | vaultNotActive | unauthorizedAgent | unauthorizedOwner | unsupportedToken | protocolNotAllowed
  | transactionTooLarge | spendingCapExceeded | sessionNotAuthorized | invalidSession
  | tooManyAllowedProtocols | agentAlreadyRegistered | noAgentRegistered | vaultNotFrozen
  | vaultAlreadyClosed | insufficientBalance | developerFeeTooHigh | invalidFeeDestination
  | invalidProtocolTreasury | invalidAgentKey | agentIsOwner | overflow | invalidTokenAccount
  | timelockNotExpired | noTimelockConfigured | destinationNotAllowed | tooManyDestinations
  | invalidProtocolMode | cpiCallNotAllowed | missingFinalizeInstruction
  | nonTrackedSwapMustReturnStablecoin | swapSlippageExceeded | invalidJupiterInstruction
  | unauthorizedTokenTransfer | slippageBpsTooHigh | protocolMismatch | tooManyDeFiInstructions
  | maxAgentsReached | insufficientPermissions | invalidPermissions | escrowNotActive
  | escrowExpired | escrowNotExpired | invalidEscrowVault | escrowConditionsNotMet
  | escrowDurationExceeded | invalidConstraintConfig | constraintViolated | invalidConstraintsPda
  | invalidPendingConstraintsPda | agentSpendLimitExceeded | overlaySlotExhausted
  | agentSlotNotFound | unauthorizedTokenApproval | invalidSessionExpiry
  | unconstrainedProgramBlocked | protocolCapExceeded | protocolCapsMismatch | activeEscrowsExist
  | constraintsNotClosed | pendingPolicyExists | agentPaused | agentAlreadyPaused | agentNotPaused
  | unauthorizedPostFinalizeInstruction | unexpectedBalanceDecrease | timelockTooShort
  | policyVersionMismatch | activeSessionsExist | postAssertionFailed | invalidPostAssertionIndex
  | unauthorizedPreValidateInstruction | snapshotNotCaptured | invalidConstraintOperator
  | constraintsVaultMismatch | blockedSplOpcode | queuedUpdateExpired | accountWritabilityMismatch
  | sysvarScanBoundExceeded | asyncFulfillmentNotPermitted | constraintsAlreadyPopulated
  | orphanPdaWrongOwner | orphanPdaPopulated | confidentialTransferBlocked
  | permanentDelegateBlocked | transferHookBlocked | lamportDrainBlocked | batchInstructionBlocked
  | invalidDestinationMode
  deriving DecidableEq, Repr

/-- Account constraints that Anchor checks before a handler runs. -/
inductive AnchorError where
  | accountNotInitialized | accountAlreadyInUse | accountNotSigner | constraintSeeds | constraintHasOne
  | constraintRaw | constraintAddress | constraintTokenOwner | constraintTokenMint | constraintAssociated
  | constraintClose | accountDidNotDeserialize | accountDidNotSerialize | accountDiscriminatorMismatch
  | instructionFallbackNotFound
  deriving DecidableEq, Repr

/-- Failures of the SPL token program. -/
inductive TokenError where
  | insufficientFunds | mintMismatch | ownerMismatch | nonNativeHasBalance | alreadyInUse
  | uninitializedState | overflow | fixedSupply | accountFrozen
  deriving DecidableEq, Repr

inductive ProgramError where
  | sigil (e : SigilError)
  | anchor (e : AnchorError)
  | token (e : TokenError)
  | runtime
  deriving DecidableEq, Repr

instance : Coe SigilError ProgramError := ⟨.sigil⟩
instance : Coe AnchorError ProgramError := ⟨.anchor⟩
instance : Coe TokenError ProgramError := ⟨.token⟩

/-- Result of a handler. -/
abbrev Result := Except ProgramError

end Sigil
