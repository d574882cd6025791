import Sigil.Library.EpochLog
import Sigil.State.Vault
import Sigil.State.Tracker
import Sigil.State.Overlay
import Sigil.State.Constraints
import Sigil.Runtime.Token

/-!
# Accounts of the chain

All accounts of the program, and the token accounts it moves. An account of which every vault has one is
kept under the address of its vault, the others under their own address.
-/

namespace Sigil

open Library

structure World where
  vaults : Pubkey → Option AgentVault := fun _ => none
  policies : Pubkey → Option PolicyConfig := fun _ => none
  trackers : Pubkey → Option SpendTracker := fun _ => none
  overlays : Pubkey → Option AgentSpendOverlay := fun _ => none
  sessions : Pubkey → Option SessionAuthority := fun _ => none
  escrows : Pubkey → Option EscrowDeposit := fun _ => none
  pendingPolicies : Pubkey → Option PendingPolicyUpdate := fun _ => none
  pendingAgentPerms : Pubkey → Option PendingAgentPermissionsUpdate := fun _ => none
  pendingCloseConstraints : Pubkey → Option PendingCloseConstraints := fun _ => none
  constraints : Pubkey → Option (Allocated InstructionConstraints) := fun _ => none
  pendingConstraints : Pubkey → Option (Allocated PendingConstraintsUpdate) := fun _ => none
  postAssertions : Pubkey → Option PostExecutionAssertions := fun _ => none
  ledger : Ledger := {}
  /-- History of the calls of `record_spend` on each vault's tracker, newest first. No handler reads it. -/
  spendLog : Pubkey → EpochLog := fun _ => []

structure AccountMeta where
  pubkey : Pubkey
  isWritable : Bool
  deriving DecidableEq, Repr

/-- An instruction as the instructions sysvar shows it. -/
structure RawInstruction where
  programId : Pubkey
  accounts : List AccountMeta
  data : List UInt8
  deriving DecidableEq, Repr

/-- What the runtime gives to an instruction: the clock, the signers of the transaction, the instructions
sysvar with the index of the instruction, the bytes of the accounts that assertions read, and the lamports
of addresses that hold no account of the program. -/
structure Ctx where
  clock : Clock
  signers : List Pubkey
  instructions : List RawInstruction := []
  index : Nat := 0
  accountData : Pubkey → List UInt8 := fun _ => []
  lamports : Pubkey → Nat := fun _ => 0

namespace World

variable (w : World)

def setVault (v : Pubkey) (vault : AgentVault) : World :=
  { w with vaults := Function.update w.vaults v (some vault) }

def setPolicy (v : Pubkey) (policy : PolicyConfig) : World :=
  { w with policies := Function.update w.policies v (some policy) }

def setOverlay (v : Pubkey) (overlay : AgentSpendOverlay) : World :=
  { w with overlays := Function.update w.overlays v (some overlay) }

/-- The tracker after a call of `record_spend` with `amount`. -/
def setTracker (v : Pubkey) (tracker : SpendTracker) (clock : Clock) (amount : Nat) : World :=
  { w with
    trackers := Function.update w.trackers v (some tracker)
    spendLog := Function.update w.spendLog v ((epochOf clock, amount) :: w.spendLog v) }

def setLedger (ledger : Ledger) : World := { w with ledger := ledger }

def setSession (address : Pubkey) (session : Option SessionAuthority) : World :=
  { w with sessions := Function.update w.sessions address session }

def setEscrow (address : Pubkey) (escrow : Option EscrowDeposit) : World :=
  { w with escrows := Function.update w.escrows address escrow }

def setPendingPolicy (v : Pubkey) (pending : Option PendingPolicyUpdate) : World :=
  { w with pendingPolicies := Function.update w.pendingPolicies v pending }

def setPendingAgentPerms (address : Pubkey) (pending : Option PendingAgentPermissionsUpdate) : World :=
  { w with pendingAgentPerms := Function.update w.pendingAgentPerms address pending }

def setPendingCloseConstraints (v : Pubkey) (pending : Option PendingCloseConstraints) : World :=
  { w with pendingCloseConstraints := Function.update w.pendingCloseConstraints v pending }

def setConstraints (v : Pubkey) (constraints : Option (Allocated InstructionConstraints)) : World :=
  { w with constraints := Function.update w.constraints v constraints }

def setPendingConstraints (v : Pubkey) (pending : Option (Allocated PendingConstraintsUpdate)) : World :=
  { w with pendingConstraints := Function.update w.pendingConstraints v pending }

def setPostAssertions (v : Pubkey) (assertions : Option PostExecutionAssertions) : World :=
  { w with postAssertions := Function.update w.postAssertions v assertions }

/-- The constraints in force on a vault. -/
def constraintSet (v : Pubkey) : Option InstructionConstraints := (w.constraints v).bind Allocated.content

/-- The constraints that are queued for a vault. -/
def queuedConstraints (v : Pubkey) : Option PendingConstraintsUpdate := (w.pendingConstraints v).bind Allocated.content

/-! ## Loading accounts -/

/-- A vault lies at the address its owner and id derive. -/
def loadVault (v : Pubkey) : Result AgentVault := do
  let vault ← okOr (w.vaults v) AnchorError.accountNotInitialized
  require (v = vault.address) AnchorError.constraintSeeds
  pure vault

def loadPolicy (v : Pubkey) : Result PolicyConfig := okOr (w.policies v) AnchorError.accountNotInitialized

def loadTracker (v : Pubkey) : Result SpendTracker := okOr (w.trackers v) AnchorError.accountNotInitialized

def loadOverlay (v : Pubkey) : Result AgentSpendOverlay := okOr (w.overlays v) AnchorError.accountNotInitialized

def loadToken (address : Pubkey) : Result TokenAccount :=
  okOr (w.ledger.accounts address) AnchorError.accountNotInitialized

def loadMint (address : Pubkey) : Result Mint := okOr (w.ledger.mints address) AnchorError.accountNotInitialized

/-- An optional account is absent or has to load. -/
def loadTokenOption : Option Pubkey → Result Unit
  | none => pure ()
  | some address => do
      let _ ← w.loadToken address
      pure ()

end World

def Ctx.requireSigner (ctx : Ctx) (key : Pubkey) : Result Unit :=
  require (key ∈ ctx.signers) AnchorError.accountNotSigner

/-- The owner signs, and the vault is the owner's. -/
def World.loadOwnedVault (w : World) (ctx : Ctx) (owner v : Pubkey) : Result AgentVault := do
  ctx.requireSigner owner
  let vault ← w.loadVault v
  require (vault.owner = owner) SigilError.unauthorizedOwner
  pure vault

end Sigil
