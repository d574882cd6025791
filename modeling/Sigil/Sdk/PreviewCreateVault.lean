import Sigil.Sdk.Addresses
import Sigil.Sdk.CreateVault

/-!
# Preview of a new vault

`previewCreateVault` of `preview-create-vault.ts`. The chain, as far as it is asked, and the composition of the
transaction are parameters. Bumps and the addresses that are derived from the vault are left out.
-/

namespace Sigil.Sdk

open Library

/-! ## Sizes -/

inductive VaultPdaName where
  | agentVault | policyConfig | spendTracker | agentSpendOverlay
  deriving DecidableEq, Repr

/-- `AGENT_VAULT_SIZE`, `POLICY_CONFIG_SIZE`, `SPEND_TRACKER_SIZE` and `AGENT_SPEND_OVERLAY_SIZE` -/
def VaultPdaName.previewSize : VaultPdaName → Nat
  | agentVault => 634
  | policyConfig => 822
  | spendTracker => 2840
  | agentSpendOverlay => 2528

structure VaultPdaInfo where
  name : VaultPdaName
  sizeBytes : Nat
  rentLamports : Int
  deriving DecidableEq, Repr

/-! ## Configuration -/

/-- `protocolMode` is one of `0 | 1 | 2`, and so is `capabilityTier`. -/
structure PreviewCreateVaultConfig where
  owner : Pubkey
  agentAddress : Pubkey
  network : String
  vaultId : Int
  dailyCapUsd : Int
  maxTxSizeUsd : Int
  spendingLimitUsd : Int
  developerFeeRate : Double
  maxSlippageBps : Double
  timelockDuration : Int
  protocolMode : Fin 3
  protocols : List Pubkey
  protocolCaps : List Int
  allowedDestinations : List Pubkey
  feeDestination : Pubkey
  capabilityTier : Option (Fin 3)
  solPriceUsd : Int
  priorityFeeMicroLamports : Option Double
  computeUnits : Option Double

def maxUsdBaseUnits : Int := 18446744073709551615
def maxSafeInteger : Int := 9007199254740991
def minTimelockDurationSeconds : Int := 1800
def maxDeveloperFeeRateBps : ℚ := 500
def maxAllowedDestinationsCount : Nat := 10
def cuVaultCreation : Int := 400000
def defaultPriorityFeeMicroLamports : Int := 10000
def lamportsPerSol : Int := 1000000000
def microLamportsPerLamport : Int := 1000000
def dailyCapHighThreshold : Int := 1000000000000

/-- `Number.isInteger` -/
def isInteger (x : Double) : Bool := x.value.den = 1

namespace PreviewCreateVaultConfig

variable (config : PreviewCreateVaultConfig)

def validateProtocolCap (cap : Int) : Except CreateVaultError Unit := do
  require (0 ≤ cap) (.negative "protocolCaps")
  require (cap ≤ maxUsdBaseUnits) (.exceedsU64 "protocolCaps")

def validateProtocolCaps : Except CreateVaultError Unit := do
  require (config.protocolCaps ≠ [] → config.protocolMode = 1) .capsWithoutAllowlist
  require (config.protocolCaps ≠ [] → config.protocolCaps.length = config.protocols.length) .capsLength
  config.protocolCaps.forM validateProtocolCap

def validateConfig : Except CreateVaultError Unit := do
  require (config.network ∈ ["devnet", "mainnet", "mainnet-beta"]) (.invalidNetwork config.network)
  require (0 ≤ config.vaultId) (.negative "vaultId")
  require (0 ≤ config.dailyCapUsd) (.negative "dailyCapUsd")
  require (0 ≤ config.maxTxSizeUsd) (.negative "maxTxSizeUsd")
  require (0 ≤ config.spendingLimitUsd) (.negative "spendingLimitUsd")
  require (0 < config.solPriceUsd) .noPrice
  require (0 ≤ config.timelockDuration) (.negative "timelockDuration")
  require (config.dailyCapUsd ≤ maxUsdBaseUnits) (.exceedsU64 "dailyCapUsd")
  require (config.maxTxSizeUsd ≤ maxUsdBaseUnits) (.exceedsU64 "maxTxSizeUsd")
  require (config.spendingLimitUsd ≤ maxUsdBaseUnits) (.exceedsU64 "spendingLimitUsd")
  require (config.solPriceUsd ≤ maxUsdBaseUnits) (.exceedsU64 "solPriceUsd")
  require (config.timelockDuration ≤ maxSafeInteger) .unsafeTimelock
  require (minTimelockDurationSeconds ≤ config.timelockDuration) .shortTimelock
  require (isInteger config.developerFeeRate ∧ 0 ≤ config.developerFeeRate.value) (.notInteger "developerFeeRate")
  require (config.developerFeeRate.value ≤ maxDeveloperFeeRateBps) .developerFeeTooHigh
  require (isInteger config.maxSlippageBps ∧ 0 ≤ config.maxSlippageBps.value) (.notInteger "maxSlippageBps")
  require (config.protocols.length ≤ maxAllowedProtocols) (.tooMany "protocols")
  require (config.allowedDestinations.length ≤ maxAllowedDestinationsCount) (.tooMany "allowedDestinations")
  config.validateProtocolCaps
  require (config.feeDestination ≠ systemProgramId) .systemFeeDestination
  require (∀ fee ∈ config.priorityFeeMicroLamports, isInteger fee ∧ 0 ≤ fee.value)
    (.notInteger "priorityFeeMicroLamports")
  require (∀ units ∈ config.computeUnits, isInteger units ∧ 0 < units.value) (.notInteger "computeUnits")

/-- What `createVault` is called with. -/
def createVaultOptions : CreateVaultOptions :=
  { owner := config.owner
    agent := config.agentAddress
    permissions := config.capabilityTier.map fun tier => (tier.val : Int)
    spendingLimitUsd := config.spendingLimitUsd
    dailySpendingCapUsd := config.dailyCapUsd
    maxTransactionSizeUsd := some config.maxTxSizeUsd
    feeDestination := some config.feeDestination
    developerFeeRate := some config.developerFeeRate
    protocols := some config.protocols
    protocolMode := some (.ofRat config.protocolMode.val)
    protocolCaps := if config.protocolCaps ≠ [] then some config.protocolCaps else none
    maxSlippageBps := some config.maxSlippageBps
    timelockDuration := .ofRat config.timelockDuration
    allowedDestinations := some config.allowedDestinations
    vaultId := some config.vaultId }

end PreviewCreateVaultConfig

/-! ## Preview -/

/-- Sorted by the names of the codes. -/
inductive PreviewWarning where
  /-- "Daily spending cap exceeds $1,000,000 — confirm this matches the intended risk tolerance." -/
  | dailyCapUnusuallyHigh (suggestedValue : Int)
  /-- "Daily spending cap is 0. …" -/
  | dailyCapZero
  /-- "Max transaction size exceeds daily cap; …" -/
  | maxTxExceedsDailyCap (suggestedValue : Int)
  /-- "Protocol mode is ALLOWLIST but no protocols are listed; …" -/
  | noProtocolsApproved
  deriving DecidableEq, Repr

def PreviewCreateVaultConfig.buildWarnings (config : PreviewCreateVaultConfig) : List PreviewWarning :=
  (if config.dailyCapUsd > dailyCapHighThreshold then [.dailyCapUnusuallyHigh dailyCapHighThreshold] else []) ++
  (if config.dailyCapUsd = 0 then [.dailyCapZero] else []) ++
  (if config.maxTxSizeUsd > config.dailyCapUsd then [.maxTxExceedsDailyCap config.dailyCapUsd] else []) ++
  (if config.protocolMode = 1 ∧ config.protocols = [] then [.noProtocolsApproved] else [])

/-- What `buildOwnerTransaction` returns of the transaction. -/
structure OwnerTransaction where
  txSizeBytes : Nat
  lastValidBlockHeight : Int

/-- The chain, and the composition of a transaction with a limit of compute units and a priority fee. -/
structure PreviewEnv where
  findNextVaultId : Pubkey → Option Int
  /-- `getMinimumBalanceForRentExemption` -/
  rent : Nat → Option Int
  buildOwnerTransaction : CreateVaultResult → Int → Int → Option OwnerTransaction

structure CreateVaultPreview where
  pdaList : List VaultPdaInfo
  rentLamports : Int
  computeUnits : Int
  feeLamports : Int
  totalCostUsd : Int
  vaultAddress : Pubkey
  transaction : OwnerTransaction
  warnings : List PreviewWarning

def fetchRentForSize (env : PreviewEnv) (name : VaultPdaName) : Except CreateVaultError VaultPdaInfo := do
  let rentLamports ← okOr (env.rent name.previewSize) .badRent
  require (0 < rentLamports) .badRent
  pure { name, sizeBytes := name.previewSize, rentLamports }

/-- In the order in which the accounts are created. -/
def vaultPdas : List VaultPdaName := [.agentVault, .policyConfig, .spendTracker, .agentSpendOverlay]

/-- The preview, with the instructions of its transaction. -/
def previewCreateVault (env : PreviewEnv) (config : PreviewCreateVaultConfig) :
    Except CreateVaultError (CreateVaultPreview × CreateVaultResult) := do
  config.validateConfig
  let _ ← encodeU64 "vaultId" config.vaultId
  let pdaList ← vaultPdas.mapM (fetchRentForSize env)
  let created ← createVault env.findNextVaultId config.createVaultOptions
  let computeUnits := (config.computeUnits.map fun x => x.value.num).getD cuVaultCreation
  let priorityFee := (config.priorityFeeMicroLamports.map fun x => x.value.num).getD defaultPriorityFeeMicroLamports
  let transaction ← okOr (env.buildOwnerTransaction created computeUnits priorityFee) .ownerTransaction
  let rentLamports := (pdaList.map VaultPdaInfo.rentLamports).sum
  let feeLamports := (priorityFee * computeUnits).tdiv microLamportsPerLamport
  pure
    ({ pdaList := pdaList
       rentLamports := rentLamports
       computeUnits := computeUnits
       feeLamports := feeLamports
       totalCostUsd := ((rentLamports + feeLamports) * config.solPriceUsd).tdiv lamportsPerSol
       vaultAddress := .vault config.owner config.vaultId.toNat
       transaction := transaction
       warnings := config.buildWarnings }, created)

end Sigil.Sdk
