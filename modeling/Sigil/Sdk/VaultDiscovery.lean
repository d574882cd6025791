import Mathlib.Data.List.Sort
import Sigil.Library.LittleEndian
import Sigil.Library.Result
import Sigil.Sdk.Reads

/-!
# Discovery of vaults

`findVaultsByOwner` of `state-resolver.ts` and `findNextVaultId` of `inscribe.ts`, for the address of this program. The
RPC is a parameter.
-/

namespace Sigil.Sdk

open Library

structure RpcError where
  /-- `err instanceof Error` -/
  isError : Bool := true
  code : Option Int := none
  message : String := ""
  deriving DecidableEq, Repr

structure VaultRpc where
  /-- `fetchMaybeAgentVault(rpc, vaultPda).exists` -/
  fetchMaybeAgentVault : Pubkey → Except RpcError Bool
  /-- The accounts of the size of a vault with the owner at byte 8, and their bytes 40 to 47. -/
  getProgramAccounts : Pubkey → Except RpcError (List (Pubkey × Vector UInt8 8))
  /-- Whether the accounts are there. -/
  getMultipleAccounts : List Pubkey → Except RpcError (List Bool)

structure VaultLocator where
  vaultAddress : Pubkey
  vaultId : Nat
  deriving DecidableEq, Repr

inductive DiscoveryError where
  | rpc (err : RpcError)
  /-- "All 256 vault slots are in use for this owner." -/
  | vaultSlotsExhausted
  deriving DecidableEq, Repr

def getVaultPDA (owner : Pubkey) (vaultId : Nat) : Pubkey := .vault owner vaultId

/-- `BigInt` of 8 bytes. -/
def decodeVaultId (raw : Vector UInt8 8) : Nat := leValue raw.toList

def isGpaUnsupportedError (err : RpcError) : Bool :=
  err.isError &&
    (err.code = some (-32601) || err.code = some (-32010) ||
      ["method not found", "not available", "not supported", "disabled", "410"].any fun part =>
        includes err.message.toLower part)

def isRateLimitError (err : RpcError) : Bool :=
  err.code = some (-32005) || (err.isError && includes err.message "429")

/-- An address that is not derived from the owner and the id is dropped. -/
def verifiedVaults (owner : Pubkey) (accounts : List (Pubkey × Vector UInt8 8)) : List VaultLocator :=
  let parsed := accounts.map fun entry => { vaultAddress := entry.1, vaultId := decodeVaultId entry.2 : VaultLocator }
  let verified := parsed.filter fun entry => getVaultPDA owner entry.vaultId = entry.vaultAddress
  verified.mergeSort fun a b => a.vaultId ≤ b.vaultId

/-- The accounts that are there, of the ids in order. -/
def probedVaults (owner : Pubkey) (found : List Bool) : List VaultLocator :=
  (found.zipIdx.filter fun p => p.1).map fun p => { vaultAddress := getVaultPDA owner p.2, vaultId := p.2 }

def probeVaults (rpc : VaultRpc) (owner : Pubkey) (cappedProbe : Nat) : Except DiscoveryError (List VaultLocator) :=
  match rpc.getMultipleAccounts ((List.range cappedProbe).map (getVaultPDA owner)) with
  | .ok found => .ok (probedVaults owner found)
  | .error err => .error (.rpc err)

def findVaultsByOwner (rpc : VaultRpc) (owner : Pubkey) (maxProbe : Nat) :
    Except DiscoveryError (List VaultLocator) :=
  match rpc.getProgramAccounts owner with
  | .ok accounts => .ok (verifiedVaults owner accounts)
  | .error err =>
      if isRateLimitError err then .error (.rpc err)
      else if !isGpaUnsupportedError err then .error (.rpc err)
      else probeVaults rpc owner (min maxProbe 100)

/-! ## The next id -/

/-- The first of the ids whose vault is not there. -/
def firstFree (rpc : VaultRpc) (owner : Pubkey) : List Nat → Except RpcError (Option Nat)
  | [] => pure none
  | i :: ids => do
      let found ← rpc.fetchMaybeAgentVault (getVaultPDA owner i)
      if found then firstFree rpc owner ids else pure (some i)

def maxVaultId (vaults : List VaultLocator) : Nat :=
  vaults.foldl (fun maxId v => if v.vaultId > maxId then v.vaultId else maxId) 0

def nextVaultId (vaults : List VaultLocator) : Except DiscoveryError Nat :=
  if vaults.length = 0 then .ok 0
  else if maxVaultId vaults + 1 ≥ 256 then .error .vaultSlotsExhausted
  else .ok (maxVaultId vaults + 1)

def findNextVaultId (rpc : VaultRpc) (owner : Pubkey) : Except DiscoveryError Nat :=
  match firstFree rpc owner (List.range 5) with
  | .error err => .error (.rpc err)
  | .ok (some i) => .ok i
  | .ok none => (findVaultsByOwner rpc owner 100).bind nextVaultId

end Sigil.Sdk
