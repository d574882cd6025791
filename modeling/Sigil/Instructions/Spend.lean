import Sigil.Library.Sha256
import Sigil.Instructions.Charge

/-!
# Transfers and escrows

`agent_transfer` pays a destination out of the vault. `create_escrow` moves tokens to an account of the
escrow, from which `settle_escrow` pays the destination vault and `refund_escrow` the source vault.
-/

namespace Sigil

open Library

/-! ## Transfers -/

structure AgentTransfer where
  agent : Pubkey
  vault : Pubkey
  vaultTokenAccount : Pubkey
  destinationTokenAccount : Pubkey
  feeDestinationTokenAccount : Option Pubkey := none
  protocolTreasuryTokenAccount : Option Pubkey := none
  amount : UInt64
  expectedPolicyVersion : UInt64

/-- What a transfer has to pass before it is charged. -/
def checkTransfer (a : AgentTransfer) (vault : AgentVault) (policy : PolicyConfig)
    (source destination : TokenAccount) : Result Unit := do
  require (policy.policyVersion = a.expectedPolicyVersion.toNat) SigilError.policyVersionMismatch
  require vault.isActive SigilError.vaultNotActive
  require (vault.isAgentPaused a.agent = false) SigilError.agentPaused
  require (vault.hasCapability a.agent true) SigilError.insufficientPermissions
  require (a.amount.toNat > 0) SigilError.transactionTooLarge
  require (isStablecoinMint source.mint) SigilError.unsupportedToken
  require (policy.isDestinationAllowed destination.owner) SigilError.destinationNotAllowed
  require (destination.mint = source.mint) SigilError.invalidTokenAccount

def agentTransfer (ctx : Ctx) (a : AgentTransfer) (w : World) : Result World := do
  ctx.requireSigner a.agent
  let vault ← w.loadVault a.vault
  require (vault.isAgent a.agent) SigilError.unauthorizedAgent
  let policy ← w.loadPolicy a.vault
  let tracker ← w.loadTracker a.vault
  let overlay ← w.loadOverlay a.vault
  let source ← w.loadToken a.vaultTokenAccount
  require (source.owner = a.vault) SigilError.invalidTokenAccount
  let mint ← w.loadMint source.mint
  let destination ← w.loadToken a.destinationTokenAccount
  w.loadTokenOption a.feeDestinationTokenAccount
  w.loadTokenOption a.protocolTreasuryTokenAccount
  checkTransfer a vault policy source destination
  let usdAmount ← stablecoinToUsd a.amount.toNat mint.decimals
  require (usdAmount ≤ policy.maxTransactionSizeUsd) SigilError.transactionTooLarge
  checkRollingCap policy tracker ctx.clock usdAmount
  let overlay' ← chargeAgent vault overlay ctx.clock a.agent usdAmount false
  let tracker' ← tracker.recordSpend ctx.clock usdAmount
  let protocolFee ← ceilFee a.amount.toNat protocolFeeRate
  let developerFee ← ceilFee a.amount.toNat policy.developerFeeRate
  let net ← netAmount a.amount.toNat protocolFee developerFee
  let ledger₁ ← w.ledger.transfer a.vaultTokenAccount a.destinationTokenAccount a.vault net
  let ledger₂ ← collectFee ledger₁ a.vaultTokenAccount a.vault a.protocolTreasuryTokenAccount
    protocolTreasury source.mint protocolFee .invalidProtocolTreasury
  let ledger₃ ← collectFee ledger₂ a.vaultTokenAccount a.vault a.feeDestinationTokenAccount
    vault.feeDestination source.mint developerFee .invalidFeeDestination
  let vault' ← addPayment vault a.amount.toNat developerFee
  pure ((((w.setTracker a.vault tracker' ctx.clock usdAmount).setOverlay a.vault overlay').setVault a.vault
    vault').setLedger ledger₃)

/-! ## Escrows -/

structure CreateEscrow where
  agent : Pubkey
  sourceVault : Pubkey
  destinationVault : Pubkey
  sourceVaultAta : Pubkey
  protocolTreasuryAta : Option Pubkey := none
  feeDestinationAta : Option Pubkey := none
  tokenMint : Pubkey
  escrowId : UInt64
  amount : UInt64
  expiresAt : Int64
  conditionHash : List UInt8

def CreateEscrow.escrow (a : CreateEscrow) : Pubkey := .escrow a.sourceVault a.destinationVault a.escrowId.toNat

/-- Hash of an escrow that anybody of the destination vault may settle. -/
def unconditional : List UInt8 := List.replicate 32 0

/-- `init_if_needed` of an associated account: an account that is there has to have the right owner and mint. -/
def ensureAssociated (ledger : Ledger) (owner mint : Pubkey) : Result Ledger :=
  match ledger.accounts (.ata owner mint) with
  | none => ledger.initializeAccount (.ata owner mint) mint owner
  | some account => do
      require (account.mint = mint) AnchorError.constraintTokenMint
      require (account.owner = owner) AnchorError.constraintTokenOwner
      pure ledger

/-- What an escrow has to pass before it is charged. -/
def checkEscrow (clock : Clock) (a : CreateEscrow) (vault : AgentVault) : Result Unit := do
  require (vault.isAgentPaused a.agent = false) SigilError.agentPaused
  require (vault.hasCapability a.agent true) SigilError.insufficientPermissions
  require (isStablecoinMint a.tokenMint) SigilError.unsupportedToken
  require (a.amount.toNat > 0) SigilError.insufficientBalance
  require (a.expiresAt.toInt > clock.unixTimestamp ∧
    a.expiresAt.toInt ≤ saturatingAddI64 clock.unixTimestamp maxEscrowDuration) SigilError.escrowDurationExceeded

/-- Fees and net amount leave the source vault's account. -/
def fundEscrow (ledger : Ledger) (a : CreateEscrow) (vault : AgentVault) (protocolFee developerFee net : Nat) :
    Result Ledger := do
  let ledger₁ ← collectFee ledger a.sourceVaultAta a.sourceVault a.protocolTreasuryAta
    protocolTreasury a.tokenMint protocolFee .invalidProtocolTreasury
  let ledger₂ ← collectFee ledger₁ a.sourceVaultAta a.sourceVault a.feeDestinationAta
    vault.feeDestination a.tokenMint developerFee .invalidFeeDestination
  if net > 0 then ledger₂.transfer a.sourceVaultAta (.ata a.escrow a.tokenMint) a.sourceVault net else pure ledger₂

def createEscrow (ctx : Ctx) (a : CreateEscrow) (w : World) : Result World := do
  ctx.requireSigner a.agent
  let vault ← w.loadVault a.sourceVault
  require (vault.isAgent a.agent) SigilError.unauthorizedAgent
  require vault.isActive SigilError.vaultNotActive
  let policy ← w.loadPolicy a.sourceVault
  let tracker ← w.loadTracker a.sourceVault
  let overlay ← w.loadOverlay a.sourceVault
  let destination ← w.loadVault a.destinationVault
  require destination.isActive SigilError.vaultNotActive
  require (a.destinationVault ≠ a.sourceVault) SigilError.invalidEscrowVault
  require (w.escrows a.escrow).isNone AnchorError.accountAlreadyInUse
  let mint ← w.loadMint a.tokenMint
  let source ← w.loadToken a.sourceVaultAta
  require (source.mint = a.tokenMint) AnchorError.constraintTokenMint
  require (source.owner = a.sourceVault) AnchorError.constraintTokenOwner
  let ledger ← ensureAssociated w.ledger a.escrow a.tokenMint
  w.loadTokenOption a.protocolTreasuryAta
  w.loadTokenOption a.feeDestinationAta
  checkEscrow ctx.clock a vault
  let usdAmount ← stablecoinToUsd a.amount.toNat mint.decimals
  require (usdAmount ≤ policy.maxTransactionSizeUsd) SigilError.transactionTooLarge
  checkRollingCap policy tracker ctx.clock usdAmount
  let tracker' ← tracker.recordSpend ctx.clock usdAmount
  let overlay' ← chargeAgent vault overlay ctx.clock a.agent usdAmount false
  let protocolFee ← ceilFee a.amount.toNat protocolFeeRate
  let developerFee ← ceilFee a.amount.toNat policy.developerFeeRate
  let net ← netAmount a.amount.toNat protocolFee developerFee
  let ledger' ← fundEscrow ledger a vault protocolFee developerFee net
  let activeEscrowCount ← okOr (checkedAdd 8 vault.activeEscrowCount 1) SigilError.overflow
  let vault' ← addPayment vault a.amount.toNat developerFee
  let escrow : EscrowDeposit :=
    { sourceVault := a.sourceVault
      destinationVault := a.destinationVault
      escrowId := a.escrowId.toNat
      amount := net
      tokenMint := a.tokenMint
      createdAt := ctx.clock.unixTimestamp
      expiresAt := a.expiresAt.toInt
      status := .active
      conditionHash := a.conditionHash }
  pure (((((w.setTracker a.sourceVault tracker' ctx.clock usdAmount).setOverlay a.sourceVault overlay').setVault
    a.sourceVault { vault' with activeEscrowCount := activeEscrowCount }).setEscrow a.escrow (some escrow)).setLedger
    ledger')

/-- Accounts of a payout: the mint decides which token account of the escrow is emptied. -/
structure Payout where
  escrow : Pubkey
  vaultAta : Pubkey
  tokenMint : Pubkey
  rentDestination : Pubkey

/-- The escrow's account of the passed mint pays `amount` to the passed account and is closed. -/
def payOut (w : World) (p : Payout) (recipient : Pubkey) (sourceOwner : Pubkey) (amount : Nat) : Result Ledger := do
  let _ ← w.loadMint p.tokenMint
  let escrowAta ← w.loadToken (.ata p.escrow p.tokenMint)
  require (escrowAta.mint = p.tokenMint) AnchorError.constraintTokenMint
  require (escrowAta.owner = p.escrow) AnchorError.constraintTokenOwner
  let vaultAta ← w.loadToken p.vaultAta
  require (vaultAta.mint = p.tokenMint) AnchorError.constraintTokenMint
  require (vaultAta.owner = recipient) AnchorError.constraintTokenOwner
  require (p.rentDestination = sourceOwner) SigilError.unauthorizedOwner
  let ledger ← w.ledger.transfer (.ata p.escrow p.tokenMint) p.vaultAta p.escrow amount
  ledger.closeAccount (.ata p.escrow p.tokenMint) p.escrow

def loadEscrow (w : World) (address source : Pubkey) : Result EscrowDeposit := do
  let escrow ← okOr (w.escrows address) AnchorError.accountNotInitialized
  require (escrow.sourceVault = source) SigilError.invalidEscrowVault
  require (address = .escrow source escrow.destinationVault escrow.escrowId) AnchorError.constraintSeeds
  pure escrow

/-- The escrow leaves the active state and its source vault counts one less. -/
def releaseEscrow (w : World) (address source : Pubkey) (vault : AgentVault) (escrow : EscrowDeposit)
    (status : EscrowStatus) (ledger : Ledger) : World :=
  ((w.setEscrow address (some { escrow with status := status })).setVault source
    { vault with activeEscrowCount := vault.activeEscrowCount - 1 }).setLedger ledger

structure SettleEscrow extends Payout where
  destinationAgent : Pubkey
  destinationVault : Pubkey
  sourceVault : Pubkey
  proof : List UInt8

def settleEscrow (ctx : Ctx) (a : SettleEscrow) (w : World) : Result World := do
  ctx.requireSigner a.destinationAgent
  let destination ← w.loadVault a.destinationVault
  require (destination.isAgent a.destinationAgent) SigilError.unauthorizedAgent
  let source ← w.loadVault a.sourceVault
  let escrow ← loadEscrow w a.escrow a.sourceVault
  require (escrow.destinationVault = a.destinationVault) SigilError.invalidEscrowVault
  require (destination.isAgentPaused a.destinationAgent = false) SigilError.agentPaused
  require (destination.hasCapability a.destinationAgent true) SigilError.insufficientPermissions
  require (escrow.status = .active) SigilError.escrowNotActive
  require (ctx.clock.unixTimestamp < escrow.expiresAt) SigilError.escrowExpired
  require (escrow.conditionHash ≠ unconditional → Sha256.digest a.proof = escrow.conditionHash)
    SigilError.escrowConditionsNotMet
  let ledger ← payOut w a.toPayout a.destinationVault source.owner escrow.amount
  pure (releaseEscrow w a.escrow a.sourceVault source escrow .settled ledger)

structure RefundEscrow extends Payout where
  sourceSigner : Pubkey
  sourceVault : Pubkey

def refundEscrow (ctx : Ctx) (a : RefundEscrow) (w : World) : Result World := do
  ctx.requireSigner a.sourceSigner
  let source ← w.loadVault a.sourceVault
  require (source.isAgent a.sourceSigner ∨ source.owner = a.sourceSigner) SigilError.unauthorizedAgent
  let escrow ← loadEscrow w a.escrow a.sourceVault
  require (source.owner ≠ a.sourceSigner → source.isAgentPaused a.sourceSigner = false) SigilError.agentPaused
  require (source.owner ≠ a.sourceSigner → source.hasCapability a.sourceSigner true)
    SigilError.insufficientPermissions
  require (escrow.status = .active) SigilError.escrowNotActive
  require (ctx.clock.unixTimestamp ≥ escrow.expiresAt) SigilError.escrowNotExpired
  let ledger ← payOut w a.toPayout a.sourceVault source.owner escrow.amount
  pure (releaseEscrow w a.escrow a.sourceVault source escrow .refunded ledger)

structure CloseSettledEscrow where
  signer : Pubkey
  sourceVault : Pubkey
  destinationVaultKey : Pubkey
  escrowId : UInt64

def closeSettledEscrow (ctx : Ctx) (a : CloseSettledEscrow) (w : World) : Result World := do
  let _ ← w.loadOwnedVault ctx a.signer a.sourceVault
  let address := Pubkey.escrow a.sourceVault a.destinationVaultKey a.escrowId.toNat
  let escrow ← okOr (w.escrows address) AnchorError.accountNotInitialized
  require (escrow.sourceVault = a.sourceVault) SigilError.invalidEscrowVault
  require (escrow.status = .settled ∨ escrow.status = .refunded) SigilError.escrowNotActive
  pure (w.setEscrow address none)

end Sigil
