import Sigil.Instructions.CloseVault
import Sigil.Instructions.Timelock

/-!
# Closing a vault through the kit

`closeVault` of `dashboard/mutations.ts` on what an RPC node answers, up to the accounts of the instruction.
-/

namespace Sigil.Sdk

open Library

inductive ResolveError where
  /-- "Vault account … does not exist" -/
  | vaultNotFound
  /-- "PolicyConfig for vault … does not exist" -/
  | policyNotFound
  /-- An account lies at the address, but its data does not decode. -/
  | failedToDecode
  deriving DecidableEq, Repr

/-- An account exists as soon as it has lamports. -/
def accountExists (c : Chain) (address : Pubkey) : Bool := 0 < c.lamports address

/-- A decoder of an account that may be missing. The data of an account of the program decodes to `account`; any other
account at a derived address is empty. -/
def decodeMaybe {α : Type} (c : Chain) (address : Pubkey) (account : Option α) : Except ResolveError (Option α) :=
  if accountExists c address then
    match account with
    | some a => pure (some a)
    | none => .error .failedToDecode
  else pure none

/-- The decoder takes as many bytes as the full account has. -/
def decodableConstraints (w : World) (v : Pubkey) : Option (Allocated InstructionConstraints) :=
  (w.constraints v).filter fun account => instructionConstraintsSize ≤ account.size

/-- `resolveVaultStateForOwner`, as far as it can fail, with the vault of its result. -/
def resolveVaultStateForOwner (c : Chain) (v : Pubkey) : Except ResolveError AgentVault := do
  let decodedVault ← decodeMaybe c v (c.world.vaults v)
  let vault ← okOr decodedVault .vaultNotFound
  let decodedPolicy ← decodeMaybe c (.policy v) (c.world.policies v)
  let _ ← okOr decodedPolicy .policyNotFound
  let _ ← decodeMaybe c (.tracker v) (c.world.trackers v)
  let _ ← decodeMaybe c (.agentSpend v) (c.world.overlays v)
  let _ ← decodeMaybe c (.constraints v) (decodableConstraints c.world v)
  pure vault

/-- All PDAs that might exist. -/
def allPdas (vault : AgentVault) (v : Pubkey) : List Pubkey :=
  .pendingPolicy v :: vault.pendingPerms v ++ [.pendingCloseConstraints v]

/-- `remainingAccounts`: the PDAs for which `getAccountInfo` finds an account. -/
def remainingAccounts (c : Chain) (vault : AgentVault) (v : Pubkey) : List Pubkey :=
  (allPdas vault v).filter (accountExists c)

def closeVault (c : Chain) (v owner : Pubkey) : Except ResolveError CloseVaultAccounts := do
  let vaultData ← resolveVaultStateForOwner c v
  pure { owner := owner, vault := v, remaining := remainingAccounts c vaultData v }

end Sigil.Sdk
