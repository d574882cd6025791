import Sigil.Library.Run
import Sigil.Instructions.Owner

/-!
# Closing a vault, with its remaining accounts

`close_vault` on the lamports of the chain: the accounts of pending updates are looked up among the remaining
accounts and drained, and the four accounts of the vault are closed to the owner.
-/

namespace Sigil

open Library

/-- The accounts of the program and the lamports of every address. Anyone can send lamports to an address. -/
structure Chain where
  world : World
  lamports : Pubkey → Nat

/-- Whether an account of the program lies at an address. -/
def World.owns (w : World) : Pubkey → Bool
  | .vault owner vaultId => (w.vaults (.vault owner vaultId)).isSome
  | .session v agent tokenMint => (w.sessions (.session v agent tokenMint)).isSome
  | .escrow source destination escrowId => (w.escrows (.escrow source destination escrowId)).isSome
  | .constraints v => (w.constraints v).isSome
  | .pendingConstraints v => (w.pendingConstraints v).isSome
  | .postAssertions v => (w.postAssertions v).isSome
  | .pendingAgentPerms v agent => (w.pendingAgentPerms (.pendingAgentPerms v agent)).isSome
  | .policy v => (w.policies v).isSome
  | .tracker v => (w.trackers v).isSome
  | .agentSpend v => (w.overlays v).isSome
  | .pendingPolicy v => (w.pendingPolicies v).isSome
  | .pendingCloseConstraints v => (w.pendingCloseConstraints v).isSome
  | _ => false

/-- What `close_vault` has done so far: the lamports, and the addresses it has drained, assigned to the system
program and resized to zero. -/
structure Closing where
  lamports : Pubkey → Nat
  closed : List Pubkey := []

/-- The owner receives the lamports of an account. The runtime lets a program debit, assign or resize only an account
that it owns. -/
def Closing.drain (w : World) (owner address : Pubkey) (s : Closing) : Result Closing := do
  let destLamports ← okOr (checkedAdd 64 (s.lamports owner) (s.lamports address)) SigilError.overflow
  require (w.owns address ∧ address ∉ s.closed) ProgramError.runtime
  pure { lamports := Function.update (Function.update s.lamports owner destLamports) address 0
         closed := address :: s.closed }

/-- The loop over the remaining accounts: the first at `pda` that has lamports is drained. -/
def Closing.cleanUp (w : World) (owner : Pubkey) (remaining : List Pubkey) (pda : Pubkey) (s : Closing) :
    Result Closing :=
  match remaining.find? fun address => address = pda && 0 < s.lamports address with
  | some address => s.drain w owner address
  | none => pure s

/-- The account of a pending policy has to be the first of the remaining accounts. -/
def Closing.cleanUpPolicy (w : World) (owner v : Pubkey) (policy : PolicyConfig) (remaining : List Pubkey)
    (s : Closing) : Result Closing :=
  if policy.hasPendingPolicy then do
    let pendingInfo ← okOr remaining.head? SigilError.pendingPolicyExists
    require (pendingInfo = .pendingPolicy v ∧ s.lamports pendingInfo > 0) SigilError.pendingPolicyExists
    s.drain w owner pendingInfo
  else pure s

/-- Addresses of the updates that can be pending for the agents of a vault. -/
def AgentVault.pendingPerms (vault : AgentVault) (v : Pubkey) : List Pubkey :=
  vault.agents.map fun entry => .pendingAgentPerms v entry.pubkey

/-- The accounts that Anchor closes. -/
def accountsOfVault (v : Pubkey) : List Pubkey := [v, .policy v, .tracker v, .agentSpend v]

/-- The accounts that remain after those at `closed` are gone. -/
def World.withoutAccounts (w : World) (closed : List Pubkey) : World :=
  { w with
    vaults := fun v => if v.isVault ∧ v ∈ closed then none else w.vaults v
    policies := fun v => if .policy v ∈ closed then none else w.policies v
    trackers := fun v => if .tracker v ∈ closed then none else w.trackers v
    overlays := fun v => if .agentSpend v ∈ closed then none else w.overlays v
    pendingPolicies := fun v => if .pendingPolicy v ∈ closed then none else w.pendingPolicies v
    pendingAgentPerms := fun address =>
      if address.isPendingAgentPerms ∧ address ∈ closed then none else w.pendingAgentPerms address
    pendingCloseConstraints := fun v =>
      if .pendingCloseConstraints v ∈ closed then none else w.pendingCloseConstraints v }

structure CloseVaultAccounts where
  owner : Pubkey
  vault : Pubkey
  remaining : List Pubkey := []

namespace CloseVaultAccounts

variable (a : CloseVaultAccounts)

/-- The accounts after the one of the pending policy, which the first check consumes. -/
def rest (policy : PolicyConfig) : List Pubkey := a.remaining.drop (if policy.hasPendingPolicy then 1 else 0)

/-- From the gates to the end of the instruction. -/
def drains (w : World) (vault : AgentVault) (policy : PolicyConfig) (s : Closing) : Result Closing := do
  let s₁ ← s.cleanUpPolicy w a.owner a.vault policy a.remaining
  let s₂ ← run (Closing.cleanUp w a.owner (a.rest policy)) (vault.pendingPerms a.vault) s₁
  let s₃ ← s₂.cleanUp w a.owner (a.rest policy) (.pendingCloseConstraints a.vault)
  run (Closing.drain w a.owner) (accountsOfVault a.vault) s₃

def exec (ctx : Ctx) (c : Chain) : Result Chain := do
  let vault ← c.world.loadOwnedVault ctx a.owner a.vault
  let policy ← c.world.loadPolicy a.vault
  let _ ← c.world.loadTracker a.vault
  let _ ← c.world.loadOverlay a.vault
  require (vault.status ≠ .closed) SigilError.vaultAlreadyClosed
  require (vault.activeEscrowCount = 0) SigilError.activeEscrowsExist
  require (vault.activeSessions = 0) SigilError.activeSessionsExist
  require (policy.hasConstraints = false) SigilError.constraintsNotClosed
  let s ← a.drains c.world vault policy { lamports := c.lamports }
  pure { world := c.world.withoutAccounts s.closed, lamports := s.lamports }

end CloseVaultAccounts

end Sigil
