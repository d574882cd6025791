import Sigil.Instructions.Timelock

/-!
# Setting up constraints and assertions

An account with constraints is too large for one instruction: it is allocated, extended and then populated.
Assertions fit into one instruction.
-/

namespace Sigil

open Library

/-- `MAX_CPI_ACCOUNT_SIZE`: what one instruction can allocate. -/
abbrev maxCpiAccountSize : Nat := 10240

def allocateConstraintsPda (ctx : Ctx) (a : OwnerAction) (w : World) : Result World := do
  let _ ← w.loadOwnedVault ctx a.owner a.vault
  let policy ← w.loadPolicy a.vault
  require (policy.hasConstraints = false) SigilError.invalidConstraintConfig
  require ((w.constraints a.vault).isNone ∧ ctx.lamports (.constraints a.vault) = 0)
    SigilError.invalidConstraintConfig
  pure (w.setConstraints a.vault (some { size := maxCpiAccountSize, vault := a.vault }))

def allocatePendingConstraintsPda (ctx : Ctx) (a : OwnerAction) (w : World) : Result World := do
  let _ ← w.loadOwnedVault ctx a.owner a.vault
  let policy ← w.loadPolicy a.vault
  require policy.hasConstraints SigilError.invalidConstraintsPda
  let _ ← loadPopulated w a.vault
  require (policy.timelockDuration > 0) SigilError.noTimelockConfigured
  require ((w.pendingConstraints a.vault).isNone ∧ ctx.lamports (.pendingConstraints a.vault) = 0)
    SigilError.invalidConstraintConfig
  pure (w.setPendingConstraints a.vault (some { size := maxCpiAccountSize, vault := a.vault }))

def checkTargetSize (target current : Nat) : Result Unit := do
  require (target ≤ pendingConstraintsUpdateSize) SigilError.invalidConstraintConfig
  require (target > current) SigilError.invalidConstraintConfig
  require (target - current ≤ maxCpiAccountSize) SigilError.invalidConstraintConfig

/-- `realloc` of an account that is not populated yet. -/
def extendAllocated {α : Type} (account : Option (Allocated α)) (v : Pubkey) (target : Nat) :
    Result (Allocated α) := do
  let account ← okOr account SigilError.invalidConstraintsPda
  require (40 ≤ account.size) SigilError.invalidConstraintsPda
  checkUnpopulated account v
  checkTargetSize target account.size
  pure { account with size := target }

def extendPda (ctx : Ctx) (a : OwnerAction) (pda : Pubkey) (targetSize : UInt32) (w : World) : Result World := do
  let _ ← w.loadOwnedVault ctx a.owner a.vault
  match pda with
  | .constraints v => do
      let extended ← extendAllocated (w.constraints v) a.vault targetSize.toNat
      pure (w.setConstraints v (some extended))
  | .pendingConstraints v => do
      let extended ← extendAllocated (w.pendingConstraints v) a.vault targetSize.toNat
      pure (w.setPendingConstraints v (some extended))
  | _ => .error SigilError.invalidConstraintsPda

def createInstructionConstraints (ctx : Ctx) (a : OwnerAction) (entries : List ConstraintEntry)
    (strictMode : Bool) (w : World) : Result World := do
  let _ ← w.loadOwnedVault ctx a.owner a.vault
  let policy ← w.loadPolicy a.vault
  InstructionConstraints.validateEntries entries
  let account ← okOr (w.constraints a.vault) SigilError.invalidConstraintsPda
  require (account.size = instructionConstraintsSize) SigilError.invalidConstraintsPda
  checkUnpopulated account a.vault
  let constraints : InstructionConstraints := { entries := entries, strictMode := strictMode }
  pure ((w.setConstraints a.vault (some (account.write constraints))).setPolicy a.vault
    { policy with hasConstraints := true })

def cleanupOrphanConstraintsPda (ctx : Ctx) (a : OwnerAction) (w : World) : Result World := do
  let _ ← w.loadOwnedVault ctx a.owner a.vault
  let policy ← w.loadPolicy a.vault
  require (policy.hasConstraints = false) SigilError.constraintsAlreadyPopulated
  let account ← okOr (w.constraints a.vault) SigilError.orphanPdaWrongOwner
  require account.content.isNone SigilError.orphanPdaPopulated
  pure (w.setConstraints a.vault none)

def createPostAssertions (ctx : Ctx) (a : OwnerAction) (entries : List PostAssertionEntry) (w : World) :
    Result World := do
  let _ ← w.loadOwnedVault ctx a.owner a.vault
  let policy ← w.loadPolicy a.vault
  require (w.postAssertions a.vault).isNone AnchorError.accountAlreadyInUse
  PostExecutionAssertions.validateEntries entries
  pure ((w.setPostAssertions a.vault (some { entries := entries })).setPolicy a.vault
    { policy with hasPostAssertions := 1 })

def closePostAssertions (ctx : Ctx) (a : OwnerAction) (w : World) : Result World := do
  let _ ← w.loadOwnedVault ctx a.owner a.vault
  let policy ← w.loadPolicy a.vault
  let _ ← okOr (w.postAssertions a.vault) AnchorError.accountNotInitialized
  pure ((w.setPostAssertions a.vault none).setPolicy a.vault { policy with hasPostAssertions := 0 })

end Sigil
