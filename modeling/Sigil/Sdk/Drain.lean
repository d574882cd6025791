import Sigil.Sdk.Dashboard
import Sigil.Sdk.Seal

/-!
# Drain detection

`detectDrainAttempt` of `simulation.ts`, and what `seal` hands over to it.
-/

namespace Sigil.Sdk

open Library

inductive RiskFlag where
  | largeOutflow | unknownRecipient | fullDrain | multiOutput
  deriving DecidableEq, Repr

/-- A change of the balance of a token account. -/
structure BalanceDelta where
  account : Pubkey
  delta : Int
  deriving DecidableEq, Repr

/-! ## Thresholds -/

/-- A percentage may be left out, and it may be infinite or no number. -/
structure DrainThresholds where
  warningPercent : Option (Option Double) := none
  blockPercent : Option (Option Double) := none

namespace DrainThresholds

variable (thresholds : DrainThresholds)

/-- What is not finite is replaced by the default, the rest is clamped to whole numbers up to 100. -/
def percent (raw : Option (Option Double)) (defaultPercent : Int) : Int :=
  match raw with
  | some (some percent) => ⌊max 0 (min 100 percent.value)⌋
  | _ => defaultPercent

def warningPct : Int := percent thresholds.warningPercent 50

def blockPct : Int := percent thresholds.blockPercent 95

end DrainThresholds

/-! ## Detection -/

structure DrainDetectionInput where
  balanceDeltas : List BalanceDelta
  vaultAddress : Pubkey
  totalVaultBalance : Int
  knownRecipients : Option (List Pubkey)

namespace DrainDetectionInput

variable (input : DrainDetectionInput)

/-- Only the first delta of the vault counts. -/
def vaultDelta : Option BalanceDelta := input.balanceDeltas.find? fun d => d.account = input.vaultAddress

/-- The vault has lost this much of its balance. -/
def outflowReaches (percent : Int) (d : BalanceDelta) : Bool :=
  d.delta < 0 ∧ input.totalVaultBalance > 0 ∧ -d.delta * 100 ≥ input.totalVaultBalance * percent

def flagOutflow (percent : Int) (flag : RiskFlag) : List RiskFlag :=
  if input.vaultDelta.any (input.outflowReaches percent) then [flag] else []

def isKnown (account : Pubkey) : Bool := input.knownRecipients.any fun known => account ∈ known

/-- Deltas of other accounts that gain tokens and are not known. -/
def unknownPositiveDeltas : List BalanceDelta :=
  input.balanceDeltas.filter fun d => d.delta > 0 ∧ d.account ≠ input.vaultAddress ∧ input.isKnown d.account = false

def flagUnknownRecipient : List RiskFlag :=
  if input.knownRecipients.isSome && !input.unknownPositiveDeltas.isEmpty then [.unknownRecipient] else []

def flagMultiOutput : List RiskFlag :=
  if input.unknownPositiveDeltas.length ≥ 2 then [.multiOutput] else []

end DrainDetectionInput

def detectDrainAttempt (input : DrainDetectionInput) (thresholds : DrainThresholds) : List RiskFlag :=
  input.flagOutflow thresholds.warningPct .largeOutflow ++ input.flagOutflow thresholds.blockPct .fullDrain ++
    input.flagUnknownRecipient ++ input.flagMultiOutput

/-! ## The context of a sealed transaction -/

structure VaultContext where
  vaultAddress : Pubkey
  vaultTokenAta : Pubkey
  tokenBalance : Int
  knownRecipients : List Pubkey

/-- The account of the vault for its token is not part of the input. -/
def detectDrainFromSealContext (balanceDeltas : List BalanceDelta) (vaultContext : VaultContext)
    (thresholds : DrainThresholds) : List RiskFlag :=
  detectDrainAttempt
    { balanceDeltas
      vaultAddress := vaultContext.vaultAddress
      totalVaultBalance := vaultContext.tokenBalance
      knownRecipients := some vaultContext.knownRecipients } thresholds

/-- An answer to `getAccountInfo`. -/
inductive AccountInfo where
  /-- No answer, or data that cannot be decoded. -/
  | unavailable
  | missing
  | data (bytes : List UInt8)

/-- Short data has no balance. -/
def parseTokenBalance (bytes : List UInt8) : Int := if bytes.length < 72 then 0 else leValue ((bytes.drop 64).take 8)

/-- Balances that `seal` reads: those of the resolved state, and any other from the chain. -/
structure BalanceReads where
  stablecoinBalances : StablecoinBalances
  getAccountInfo : Pubkey → AccountInfo

namespace SealParams

variable (reads : BalanceReads) (p : SealParams)

/-- A balance that is not available is as small as possible. -/
def tokenBalance : Int :=
  if p.tokenMint = p.network.usdcMint then reads.stablecoinBalances.usdc
  else if p.tokenMint = p.network.usdtMint then reads.stablecoinBalances.usdt
  else
    match reads.getAccountInfo (.ata p.vault p.tokenMint) with
    | .data bytes => parseTokenBalance bytes
    | .missing => 0
    | .unavailable => 1

/-- Known recipients are the token accounts that the session is opened with. -/
def vaultContext (transaction : SealedTransaction) : VaultContext :=
  { vaultAddress := p.vault
    vaultTokenAta := .ata p.vault p.tokenMint
    tokenBalance := p.tokenBalance reads
    knownRecipients :=
      .ata p.vault p.tokenMint :: (transaction.validateIx.protocolTreasuryTokenAccount.toList ++
        transaction.validateIx.feeDestinationTokenAccount.toList) }

/-- The context is built last. -/
def sealWithContext (env : SealEnv) : Except SealError (SealResult × VaultContext) := do
  let result ← p.seal env
  pure (result, p.vaultContext reads result.transaction)

end SealParams

end Sigil.Sdk
