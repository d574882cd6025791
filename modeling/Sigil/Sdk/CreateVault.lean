import Sigil.Instructions.Owner
import Sigil.Library.Double

/-!
# Creation of a vault

`createVault` of `create-vault.ts` with `validateAgentCapAggregate`. A `bigint` is an integer without bounds, and a
`number` is finite. The codecs of the instructions refuse what is out of their range.
-/

namespace Sigil.Sdk

open Library

inductive CreateVaultError where
  /-- "Owner and agent must be different keys. …" -/
  | ownerAgentCollision
  /-- "validateAgentCapAggregate received negative input — …" -/
  | negativeCap (vaultDailyCap newAgentCap : Int)
  /-- "validateAgentCapAggregate received a negative existingAgentCap (…)." -/
  | negativeExistingCap (cap : Int)
  /-- "Aggregate per-agent cap (…) exceeds vault daily cap (…). …" -/
  | capExceeded (sum vaultDailyCap : Int)
  /-- "Invalid capability …. The on-chain program expects a 2-bit enum …" -/
  | invalidCapability (capability : Int)
  /-- `findNextVaultId` has failed. -/
  | noVaultId
  /-- A codec has refused an argument. -/
  | outOfRange (field : String)
  /-- "Invalid network: …" -/
  | invalidNetwork (network : String)
  /-- "… must be >= 0; received …" -/
  | negative (field : String)
  /-- "solPriceUsd must be > 0n; received …" -/
  | noPrice
  /-- "… must be <= u64::MAX; received …" -/
  | exceedsU64 (field : String)
  /-- "timelockDuration must be <= Number.MAX_SAFE_INTEGER …" -/
  | unsafeTimelock
  /-- "timelockDuration must be >= 1800n (MIN_TIMELOCK_DURATION); …" -/
  | shortTimelock
  /-- "… must be a non-negative integer; received …", or a positive one -/
  | notInteger (field : String)
  /-- "developerFeeRate must be <= 500 BPS (MAX_DEVELOPER_FEE_RATE); …" -/
  | developerFeeTooHigh
  /-- "….length must be <= 10 …" -/
  | tooMany (field : String)
  /-- "protocolCaps requires protocolMode === 1 (ALLOWLIST); received …" -/
  | capsWithoutAllowlist
  /-- "protocolCaps.length (…) must equal protocols.length (…)" -/
  | capsLength
  /-- "feeDestination must not be the system program …" -/
  | systemFeeDestination
  /-- "getMinimumBalanceForRentExemption returned … for …" -/
  | badRent
  /-- `buildOwnerTransaction` has failed, as for a transaction that is too large. -/
  | ownerTransaction
  deriving DecidableEq, Repr

/-! ## Aggregate of the caps -/

def validateAgentCapAggregate (vaultDailyCap : Int) (existingAgentCaps : List Int) (newAgentCap : Int) :
    Except CreateVaultError Unit := do
  require (0 ≤ vaultDailyCap ∧ 0 ≤ newAgentCap) (.negativeCap vaultDailyCap newAgentCap)
  existingAgentCaps.forM fun cap => require (0 ≤ cap) (.negativeExistingCap cap)
  require (newAgentCap + existingAgentCaps.sum ≤ vaultDailyCap)
    (.capExceeded (newAgentCap + existingAgentCaps.sum) vaultDailyCap)

/-! ## Codecs -/

def encodeU64 (field : String) (x : Int) : Except CreateVaultError UInt64 := do
  require (0 ≤ x ∧ x < 2 ^ 64) (.outOfRange field)
  pure (.ofNat x.toNat)

/-- A `number`, that is made a `bigint` of. -/
def encodeNumberU64 (field : String) (x : Double) : Except CreateVaultError UInt64 := do
  require (x.value.den = 1) (.outOfRange field)
  encodeU64 field x.value.num

/-- A fraction is cut off. -/
def encodeU16 (field : String) (x : Double) : Except CreateVaultError UInt16 := do
  require (0 ≤ x.value ∧ x.value ≤ 65535) (.outOfRange field)
  pure (.ofNat ⌊x.value⌋.toNat)

def encodeU8 (field : String) (x : Double) : Except CreateVaultError UInt8 := do
  require (0 ≤ x.value ∧ x.value ≤ 255) (.outOfRange field)
  pure (.ofNat ⌊x.value⌋.toNat)

/-! ## The instructions -/

structure CreateVaultOptions where
  owner : Pubkey
  agent : Pubkey
  permissions : Option Int := none
  spendingLimitUsd : Int
  dailySpendingCapUsd : Int
  maxTransactionSizeUsd : Option Int := none
  feeDestination : Option Pubkey := none
  developerFeeRate : Option Double := none
  protocols : Option (List Pubkey) := none
  protocolMode : Option Double := none
  protocolCaps : Option (List Int) := none
  maxSlippageBps : Option Double := none
  timelockDuration : Double
  allowedDestinations : Option (List Pubkey) := none
  vaultId : Option Int := none

structure CreateVaultResult where
  vaultAddress : Pubkey
  vaultId : Int
  initializeVaultIx : InitializeVault
  registerAgentIx : RegisterAgent

/-- `FULL_PERMISSIONS` -/
def fullPermissions : Int := 2

namespace CreateVaultOptions

variable (o : CreateVaultOptions)

/-- Without caps of the caller there is a zero for each protocol. -/
def protocolCapsArgument : List Int :=
  match o.protocolCaps with
  | some caps => caps
  | none => (o.protocols.getD []).map fun _ => 0

def validateCapability : Except CreateVaultError Unit :=
  match o.permissions with
  | some cap => require (0 ≤ cap ∧ cap ≤ 2) (.invalidCapability cap)
  | none => pure ()

def initializeVaultInstruction (vaultId : UInt64) : Except CreateVaultError InitializeVault := do
  let dailySpendingCapUsd ← encodeU64 "dailySpendingCapUsd" o.dailySpendingCapUsd
  let maxTransactionSizeUsd ←
    encodeU64 "maxTransactionSizeUsd" (o.maxTransactionSizeUsd.getD o.dailySpendingCapUsd)
  let protocolMode ← encodeU8 "protocolMode" (o.protocolMode.getD (.ofRat 0))
  let developerFeeRate ← encodeU16 "developerFeeRate" (o.developerFeeRate.getD (.ofRat 0))
  let maxSlippageBps ← encodeU16 "maxSlippageBps" (o.maxSlippageBps.getD (.ofRat 100))
  let timelockDuration ← encodeNumberU64 "timelockDuration" o.timelockDuration
  let protocolCaps ← o.protocolCapsArgument.mapM (encodeU64 "protocolCaps")
  pure
    { owner := o.owner
      feeDestination := o.feeDestination.getD o.owner
      vaultId := vaultId
      dailySpendingCapUsd := dailySpendingCapUsd
      maxTransactionSizeUsd := maxTransactionSizeUsd
      protocolMode := protocolMode
      protocols := o.protocols.getD []
      developerFeeRate := developerFeeRate
      maxSlippageBps := maxSlippageBps
      timelockDuration := timelockDuration
      allowedDestinations := o.allowedDestinations.getD []
      protocolCaps := protocolCaps }

def registerAgentInstruction (vault : Pubkey) : Except CreateVaultError RegisterAgent := do
  let capability ← encodeU8 "capability" (.ofRat (o.permissions.getD fullPermissions))
  let spendingLimitUsd ← encodeU64 "spendingLimitUsd" o.spendingLimitUsd
  pure { owner := o.owner, vault := vault, agent := o.agent, capability, spendingLimitUsd }

end CreateVaultOptions

/-- `findNextVaultId` is asked if the options give no id. -/
def createVault (findNextVaultId : Pubkey → Option Int) (o : CreateVaultOptions) :
    Except CreateVaultError CreateVaultResult := do
  require (o.owner ≠ o.agent) .ownerAgentCollision
  validateAgentCapAggregate o.dailySpendingCapUsd [] o.spendingLimitUsd
  o.validateCapability
  let vaultId ← okOr (o.vaultId.or (findNextVaultId o.owner)) .noVaultId
  let id ← encodeU64 "vaultId" vaultId
  let initializeVaultIx ← o.initializeVaultInstruction id
  let registerAgentIx ← o.registerAgentInstruction initializeVaultIx.vault
  pure { vaultAddress := initializeVaultIx.vault, vaultId, initializeVaultIx, registerAgentIx }

end Sigil.Sdk
