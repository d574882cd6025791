import Sigil.Instructions.ConstraintSetup
import Sigil.Instructions.Session

/-!
# Instructions of the program

The entry points of `lib.rs` with the discriminators that the client sends. Every handler rejects a call from
another program, so an instruction runs only at the top level of a transaction.
-/

namespace Sigil

inductive Instruction where
  | initializeVault (a : InitializeVault)
  | closeVault (a : CloseVault)
  | depositFunds (a : MoveFunds)
  | withdrawFunds (a : MoveFunds)
  | registerAgent (a : RegisterAgent)
  | revokeAgent (a : AgentAction)
  | pauseAgent (a : AgentAction)
  | unpauseAgent (a : AgentAction)
  | freezeVault (a : FreezeVault)
  | reactivateVault (a : ReactivateVault)
  | validateAndAuthorize (a : ValidateAndAuthorize)
  | finalizeSession (a : FinalizeSession)
  | agentTransfer (a : AgentTransfer)
  | createEscrow (a : CreateEscrow)
  | settleEscrow (a : SettleEscrow)
  | refundEscrow (a : RefundEscrow)
  | closeSettledEscrow (a : CloseSettledEscrow)
  | queuePolicyUpdate (a : OwnerAction) (u : PolicyUpdate)
  | applyPendingPolicy (a : OwnerAction)
  | cancelPendingPolicy (a : OwnerAction)
  | queueConstraintsUpdate (a : OwnerAction) (entries : List ConstraintEntry) (strictMode : Bool)
  | applyConstraintsUpdate (a : OwnerAction)
  | cancelConstraintsUpdate (a : OwnerAction)
  | queueCloseConstraints (a : OwnerAction)
  | applyCloseConstraints (a : OwnerAction) (closesPending : Bool)
  | cancelCloseConstraints (a : OwnerAction)
  | queueAgentPermissionsUpdate (a : AgentAction) (newCapability : UInt8) (spendingLimitUsd : UInt64)
  | applyAgentPermissionsUpdate (a : OwnerAction) (address : Pubkey)
  | cancelAgentPermissionsUpdate (a : OwnerAction) (address : Pubkey)
  | allocateConstraintsPda (a : OwnerAction)
  | allocatePendingConstraintsPda (a : OwnerAction)
  | extendPda (a : OwnerAction) (pda : Pubkey) (targetSize : UInt32)
  | createInstructionConstraints (a : OwnerAction) (entries : List ConstraintEntry) (strictMode : Bool)
  | cleanupOrphanConstraintsPda (a : OwnerAction)
  | createPostAssertions (a : OwnerAction) (entries : List PostAssertionEntry)
  | closePostAssertions (a : OwnerAction)

namespace Instruction

/-- First eight bytes of the instruction's data. -/
def discriminator : Instruction → List UInt8
  | .initializeVault _ => [48, 191, 163, 44, 71, 129, 63, 164]
  | .closeVault _ => [141, 103, 17, 126, 72, 75, 29, 29]
  | .depositFunds _ => [202, 39, 52, 211, 53, 20, 250, 88]
  | .withdrawFunds _ => [241, 36, 29, 111, 208, 31, 104, 217]
  | .registerAgent _ => [135, 157, 66, 195, 2, 113, 175, 30]
  | .revokeAgent _ => [227, 60, 209, 125, 240, 117, 163, 73]
  | .pauseAgent _ => [148, 32, 1, 26, 147, 122, 178, 140]
  | .unpauseAgent _ => [46, 125, 165, 212, 241, 143, 190, 95]
  | .freezeVault _ => [144, 211, 63, 236, 97, 31, 170, 175]
  | .reactivateVault _ => [245, 50, 143, 70, 114, 220, 25, 251]
  | .validateAndAuthorize _ => [22, 183, 48, 222, 218, 11, 197, 152]
  | .finalizeSession _ => [34, 148, 144, 47, 37, 130, 206, 161]
  | .agentTransfer _ => [199, 111, 151, 49, 124, 13, 150, 44]
  | .createEscrow _ => [253, 215, 165, 116, 36, 108, 68, 80]
  | .settleEscrow _ => [22, 135, 160, 194, 23, 186, 124, 110]
  | .refundEscrow _ => [107, 186, 89, 99, 26, 194, 23, 204]
  | .closeSettledEscrow _ => [169, 244, 164, 173, 181, 214, 139, 6]
  | .queuePolicyUpdate _ _ => [149, 18, 76, 197, 179, 193, 91, 77]
  | .applyPendingPolicy _ => [114, 212, 19, 227, 89, 199, 74, 62]
  | .cancelPendingPolicy _ => [153, 36, 104, 200, 50, 94, 207, 33]
  | .queueConstraintsUpdate _ _ _ => [247, 253, 233, 93, 233, 54, 53, 131]
  | .applyConstraintsUpdate _ => [175, 103, 90, 155, 134, 91, 135, 242]
  | .cancelConstraintsUpdate _ => [169, 121, 85, 230, 154, 2, 78, 61]
  | .queueCloseConstraints _ => [248, 124, 93, 115, 195, 88, 11, 109]
  | .applyCloseConstraints _ _ => [133, 184, 235, 88, 53, 237, 43, 145]
  | .cancelCloseConstraints _ => [150, 125, 186, 114, 40, 105, 237, 184]
  | .queueAgentPermissionsUpdate _ _ _ => [182, 37, 105, 181, 28, 195, 223, 167]
  | .applyAgentPermissionsUpdate _ _ => [234, 166, 205, 3, 28, 166, 221, 240]
  | .cancelAgentPermissionsUpdate _ _ => [92, 232, 92, 115, 110, 238, 235, 55]
  | .allocateConstraintsPda _ => [55, 127, 43, 98, 168, 156, 152, 157]
  | .allocatePendingConstraintsPda _ => [211, 244, 224, 20, 224, 183, 236, 165]
  | .extendPda _ _ _ => [13, 211, 140, 90, 104, 28, 141, 200]
  | .createInstructionConstraints _ _ _ => [13, 182, 97, 5, 57, 136, 26, 152]
  | .cleanupOrphanConstraintsPda _ => [69, 181, 93, 235, 116, 229, 116, 4]
  | .createPostAssertions _ _ => [204, 21, 218, 182, 202, 140, 239, 63]
  | .closePostAssertions _ => [226, 172, 252, 173, 29, 236, 59, 248]

def exec (ctx : Ctx) (w : World) : Instruction → Result World
  | .initializeVault a => Sigil.initializeVault ctx a w
  | .closeVault a => Sigil.closeVault ctx a w
  | .depositFunds a => Sigil.depositFunds ctx a w
  | .withdrawFunds a => Sigil.withdrawFunds ctx a w
  | .registerAgent a => Sigil.registerAgent ctx a w
  | .revokeAgent a => Sigil.revokeAgent ctx a w
  | .pauseAgent a => Sigil.pauseAgent ctx a w
  | .unpauseAgent a => Sigil.unpauseAgent ctx a w
  | .freezeVault a => Sigil.freezeVault ctx a w
  | .reactivateVault a => Sigil.reactivateVault ctx a w
  | .validateAndAuthorize a => Sigil.validateAndAuthorize ctx a w
  | .finalizeSession a => Sigil.finalizeSession ctx a w
  | .agentTransfer a => Sigil.agentTransfer ctx a w
  | .createEscrow a => Sigil.createEscrow ctx a w
  | .settleEscrow a => Sigil.settleEscrow ctx a w
  | .refundEscrow a => Sigil.refundEscrow ctx a w
  | .closeSettledEscrow a => Sigil.closeSettledEscrow ctx a w
  | .queuePolicyUpdate a u => Sigil.queuePolicyUpdate ctx a u w
  | .applyPendingPolicy a => Sigil.applyPendingPolicy ctx a w
  | .cancelPendingPolicy a => Sigil.cancelPendingPolicy ctx a w
  | .queueConstraintsUpdate a entries strictMode => Sigil.queueConstraintsUpdate ctx a entries strictMode w
  | .applyConstraintsUpdate a => Sigil.applyConstraintsUpdate ctx a w
  | .cancelConstraintsUpdate a => Sigil.cancelConstraintsUpdate ctx a w
  | .queueCloseConstraints a => Sigil.queueCloseConstraints ctx a w
  | .applyCloseConstraints a closesPending => Sigil.applyCloseConstraints ctx a closesPending w
  | .cancelCloseConstraints a => Sigil.cancelCloseConstraints ctx a w
  | .queueAgentPermissionsUpdate a newCapability spendingLimitUsd =>
      Sigil.queueAgentPermissionsUpdate ctx a newCapability spendingLimitUsd w
  | .applyAgentPermissionsUpdate a address => Sigil.applyAgentPermissionsUpdate ctx a address w
  | .cancelAgentPermissionsUpdate a address => Sigil.cancelAgentPermissionsUpdate ctx a address w
  | .allocateConstraintsPda a => Sigil.allocateConstraintsPda ctx a w
  | .allocatePendingConstraintsPda a => Sigil.allocatePendingConstraintsPda ctx a w
  | .extendPda a pda targetSize => Sigil.extendPda ctx a pda targetSize w
  | .createInstructionConstraints a entries strictMode => Sigil.createInstructionConstraints ctx a entries strictMode w
  | .cleanupOrphanConstraintsPda a => Sigil.cleanupOrphanConstraintsPda ctx a w
  | .createPostAssertions a entries => Sigil.createPostAssertions ctx a entries w
  | .closePostAssertions a => Sigil.closePostAssertions ctx a w

end Instruction

end Sigil
