import Sigil.Library.Double
import Sigil.Library.LittleEndian
import Sigil.Program.Transaction
import Sigil.Sdk.Addresses
import Sigil.Sdk.StateResolver

/-!
# Sealing

`seal` of `seal.ts` with the composer: instructions are checked against the resolved state of a vault and put between
`validate_and_authorize` and `finalize_session`. Warnings are left out.
-/

namespace Sigil.Sdk

open Library

/-! ## Instructions -/

inductive AccountRole where
  | readonly | writable | readonlySigner | writableSigner
  deriving DecidableEq, Repr

def AccountRole.isWritable : AccountRole → Bool
  | .writable => true
  | .writableSigner => true
  | _ => false

structure InstructionAccount where
  address : Pubkey
  role : AccountRole
  deriving DecidableEq, Repr

structure KitInstruction where
  programAddress : Pubkey
  accounts : List InstructionAccount := []
  data : List UInt8 := []
  deriving DecidableEq, Repr

namespace KitInstruction

variable (ix : KitInstruction)

/-- What the chain sees of it. -/
def raw : RawInstruction :=
  { programId := ix.programAddress
    accounts := ix.accounts.map fun a => { pubkey := a.address, isWritable := a.role.isWritable }
    data := ix.data }

/-- Operations of the token programs that are refused. -/
def blockedOperation : Option String :=
  if ix.programAddress = splTokenProgramId ∨ ix.programAddress = token2022ProgramId then
    match ix.data.head? with
    | none => none
    | some disc =>
        if disc = 4 then some "Approve"
        else if disc = 13 then some "ApproveChecked"
        else if disc = 3 ∨ disc = 12 ∨ (ix.programAddress = token2022ProgramId ∧ disc = 26) then some "Transfer"
        else if disc = 6 ∨ disc = 9 then some "SetAuthority/CloseAccount"
        else if disc = 8 ∨ disc = 15 then some "Burn/BurnChecked"
        else none
  else none

/-- Only writable accounts are replaced. -/
def replaceAccounts (replacements : List (Pubkey × Pubkey)) : KitInstruction :=
  { ix with accounts := ix.accounts.map fun a =>
      match replacements.lookup a.address with
      | some replacement => if a.role.isWritable then { a with address := replacement } else a
      | none => a }

end KitInstruction

/-- `replaceAgentAtas` -/
def replaceAgentAtas (instructions : List KitInstruction) (replacements : List (Pubkey × Pubkey)) :
    List KitInstruction :=
  instructions.map fun ix => ix.replaceAccounts replacements

/-! ## Protocols -/

structure ProtocolMeta where
  instructionCountLimited : Bool
  defaultCU : Nat
  deriving DecidableEq, Repr

def kaminoProgram : Pubkey := .ofBytes
  [4, 178, 172, 177, 18, 88, 204, 227, 104, 40, 231, 185, 98, 195, 192, 8, 166, 78, 30, 249, 120, 151,
   243, 0, 25, 182, 210, 36, 231, 212, 115, 134]

def supportedProtocols : List (Pubkey × ProtocolMeta) :=
  [(jupiterProgram, { instructionCountLimited := true, defaultCU := 600000 }),
   (flashTradeProgram, { instructionCountLimited := true, defaultCU := 800000 }),
   (jupiterLendProgram, { instructionCountLimited := true, defaultCU := 400000 }),
   (jupiterEarnProgram, { instructionCountLimited := true, defaultCU := 400000 }),
   (jupiterBorrowProgram, { instructionCountLimited := true, defaultCU := 400000 }),
   (driftV2Program, { instructionCountLimited := false, defaultCU := 800000 }),
   (kaminoProgram, { instructionCountLimited := false, defaultCU := 400000 })]

def recognizedDefiPrograms : List Pubkey :=
  (supportedProtocols.filter fun entry => entry.2.instructionCountLimited).map Prod.fst

/-- `isProtocolAllowed` of `protocol-resolver.ts`. Any other mode is read as a denylist. -/
def isProtocolAllowed (programId : Pubkey) (policy : PolicyConfig) : Bool :=
  if policy.protocolMode = 0 then true
  else if policy.protocolMode = 1 then programId ∈ policy.protocols
  else programId ∉ policy.protocols

/-! ## Compute budget -/

/-- `estimateComposedCU` -/
def estimateComposedCU (defiInstructions : List KitInstruction) : Nat :=
  if defiInstructions.isEmpty then 200000
  else if jupiterProgram ∈ defiInstructions.map KitInstruction.programAddress ∧ defiInstructions.length > 2 then 900000
  else
    match defiInstructions.findSome? fun ix => supportedProtocols.lookup ix.programAddress with
    | some entry => entry.defaultCU
    | none => 800000

def computeBudgetInstruction (data : List UInt8) : KitInstruction :=
  { programAddress := computeBudgetProgramId, data }

/-! ## Parameters -/

inductive SealError where
  /-- "seal() aborted by onBeforeBuild hook: …" -/
  | hookAborted
  /-- `resolveVaultState` has failed. -/
  | stateUnavailable
  /-- "Vault is not active (status: …)" -/
  | vaultInactive (status : VaultStatus)
  /-- "Agent … is not registered in vault …" -/
  | agentNotRegistered
  /-- "Agent … is paused in vault …" -/
  | agentPaused
  | pluginRejected
  /-- "Amount must be non-negative, got …", or "Amount exceeds u64 maximum, got …" -/
  | invalidAmount (amount : Int)
  /-- "Top-level SPL Token … not allowed in sealed transactions. …" -/
  | splTokenOpBlocked (operation : String)
  /-- "No target protocol: provide targetProtocol or include DeFi instructions" -/
  | protocolNotTargeted
  /-- "Agent … has zero capability in vault …" -/
  | agentZeroCapability
  /-- "Protocol … is not allowed by vault policy" -/
  | protocolNotAllowed (protocol : Pubkey)
  /-- "At most 1 recognized DeFi instruction for stablecoin input …", or "Exactly 1 …" -/
  | instructionCount (got : Nat)
  /-- "Amount … + fees (…) = … exceeds remaining daily cap headroom …" -/
  | capExceeded (cap attempted : Int)
  /-- "Non-canonical output stablecoin ATA. Expected …, got …" -/
  | ataNonCanonical (expected got : Pubkey)
  /-- "additionalAtaReplacements key … conflicts with canonical ATA replacement. …" -/
  | conflictingReplacement (key : Pubkey)
  /-- A codec has refused an argument. -/
  | outOfRange (field : String)
  /-- No blockhash, or no lookup tables, or not those that are expected. -/
  | networkUnavailable
  /-- "Transaction size … bytes exceeds 1232 byte limit. …" -/
  | txTooLarge (byteLength : Nat)
  deriving DecidableEq, Repr

structure SealParams where
  vault : Pubkey
  agent : Pubkey
  instructions : List KitInstruction
  network : Network
  tokenMint : Pubkey
  amount : Int
  targetProtocol : Option Pubkey := none
  computeUnits : Option Double := none
  priorityFeeMicroLamports : Option Double := none
  outputStablecoinAccount : Option Pubkey := none
  cachedState : Option ResolvedVaultState := none
  maxCacheAgeMs : Option Double := none
  /-- A map, in the order of its keys. -/
  additionalAtaReplacements : List (Pubkey × Pubkey) := []

structure SealedTransaction where
  feePayer : Pubkey
  computeBudget : List KitInstruction
  validateIx : ValidateAndAuthorize
  defiInstructions : List KitInstruction
  finalizeIx : FinalizeSession

/-- What the instructions sysvar shows of the transaction. -/
def SealedTransaction.instructions (tx : SealedTransaction) : List RawInstruction :=
  tx.computeBudget.map KitInstruction.raw ++ (Instruction.validateAndAuthorize tx.validateIx).toTopLevel.raw ::
    (tx.defiInstructions.map KitInstruction.raw ++ [(Instruction.finalizeSession tx.finalizeIx).toTopLevel.raw])

structure SealResult where
  transaction : SealedTransaction
  isSpending : Bool
  txSizeBytes : Nat
  lastValidBlockHeight : Nat

/-- What `seal` gets from elsewhere: hooks and plugins, the chain, and the size of a compiled transaction. -/
structure SealEnv where
  /-- `Date.now()` -/
  now : Int
  skipSeal : Bool
  pluginsAllow : ResolvedVaultState → Bool
  resolveVaultState : Option ResolvedVaultState
  lastValidBlockHeight : Option Nat
  lookupTablesVerified : Bool
  measureTransactionSize : SealedTransaction → Nat

namespace SealParams

variable (env : SealEnv) (p : SealParams) (state : ResolvedVaultState)

/-! ## The state -/

/-- The age of a cached state is a `number`. -/
def isStale : Bool :=
  let seconds := Double.ofRat ((env.now : ℚ) / 1000)
  let ageSeconds := Double.ofRat (seconds.value - (Double.ofRat state.resolvedAtTimestamp).value)
  (Double.ofRat (ageSeconds.value * 1000)).value > (p.maxCacheAgeMs.getD (.ofRat 30000)).value

def resolvedState : Except SealError ResolvedVaultState :=
  match p.cachedState with
  | some state => if p.isStale env state then okOr env.resolveVaultState .stateUnavailable else pure state
  | none => okOr env.resolveVaultState .stateUnavailable

/-! ## Checks -/

def spending : Bool := p.amount > 0

def isStablecoinInput : Bool := isStablecoinMint p.tokenMint p.network

def needsOutputStablecoin : Bool := p.spending && !p.isStablecoinInput

/-- Instructions without those of the infrastructure. -/
def defiInstructions : List KitInstruction :=
  p.instructions.filter fun ix =>
    ix.programAddress ≠ computeBudgetProgramId ∧ ix.programAddress ≠ systemProgramId

def checkAgent : Except SealError AgentEntry := do
  require (state.vault.status = .active) (.vaultInactive state.vault.status)
  let agentEntry ← okOr (state.vault.getAgent p.agent) .agentNotRegistered
  require (agentEntry.paused = false) .agentPaused
  pure agentEntry

def checkTokenOperation (ix : KitInstruction) : Except SealError Unit :=
  match ix.blockedOperation with
  | some operation => .error (.splTokenOpBlocked operation)
  | none => pure ()

def checkInstructionCount : Except SealError Unit :=
  let defiCount := (p.defiInstructions.filter fun ix => ix.programAddress ∈ recognizedDefiPrograms).length
  if p.spending then
    require (if p.isStablecoinInput then defiCount ≤ 1 else defiCount = 1) (.instructionCount defiCount)
  else
    pure ()

def ceilFee (amount rate : Int) : Int := (amount * rate + 1000000 - 1) / 1000000

/-- Fees count as spend. -/
def checkHeadroom : Except SealError Unit :=
  let totalWithFees := p.amount + ceilFee p.amount 200 + ceilFee p.amount state.policy.developerFeeRate
  let headroom := state.globalBudget.remaining
  if p.spending then require (totalWithFees ≤ headroom) (.capExceeded headroom totalWithFees) else pure ()

/-- `deriveAta` of the vault, with USDC for the mint. -/
def canonicalOutput : Pubkey := .ata p.vault p.network.usdcMint

def checkOutput : Except SealError Unit :=
  match p.outputStablecoinAccount with
  | some got =>
      require (p.needsOutputStablecoin = true → got = p.canonicalOutput) (.ataNonCanonical p.canonicalOutput got)
  | none => pure ()

/-! ## Accounts -/

def resolvedOutput : Option Pubkey :=
  p.outputStablecoinAccount.or (if p.needsOutputStablecoin then some p.canonicalOutput else none)

/-- The accounts of the agent for the token and the output, with those of the vault. -/
def canonicalReplacements : List (Pubkey × Pubkey) :=
  (.ata p.agent p.tokenMint, .ata p.vault p.tokenMint) ::
    match p.resolvedOutput with
    | some output => if p.needsOutputStablecoin then [(.ata p.agent p.network.usdcMint, output)] else []
    | none => []

def addReplacement (replacements : List (Pubkey × Pubkey)) (entry : Pubkey × Pubkey) :
    Except SealError (List (Pubkey × Pubkey)) := do
  require (replacements.lookup entry.1 = none) (.conflictingReplacement entry.1)
  pure (replacements ++ [entry])

def ataReplacements : Except SealError (List (Pubkey × Pubkey)) :=
  p.additionalAtaReplacements.foldlM addReplacement p.canonicalReplacements

/-! ## The transaction -/

/-- The constraints account is the only one of the remaining accounts. -/
def validateInstruction (targetProtocol : Pubkey) : Except SealError ValidateAndAuthorize := do
  require (state.policy.policyVersion < 2 ^ 64) (.outOfRange "expectedPolicyVersion")
  pure
    { agent := p.agent
      vault := p.vault
      vaultTokenAccount := .ata p.vault p.tokenMint
      protocolTreasuryTokenAccount := if p.spending then some (.ata protocolTreasury p.tokenMint) else none
      feeDestinationTokenAccount :=
        if p.spending ∧ state.policy.developerFeeRate > 0 then some (.ata state.vault.feeDestination p.tokenMint)
        else none
      outputStablecoinAccount := p.resolvedOutput
      remainingAccounts := if state.policy.hasConstraints then [.constraints p.vault] else []
      tokenMint := p.tokenMint
      amount := .ofNat p.amount.toNat
      targetProtocol
      expectedPolicyVersion := .ofNat state.policy.policyVersion }

def finalizeInstruction : FinalizeSession :=
  { payer := p.agent
    vault := p.vault
    session := .session p.vault p.agent p.tokenMint
    sessionRentRecipient := p.agent
    vaultTokenAccount := some (.ata p.vault p.tokenMint)
    outputStablecoinAccount := p.resolvedOutput }

def computeUnitLimit (defiInstructions : List KitInstruction) : Except SealError KitInstruction :=
  match p.computeUnits with
  | some units => do
      require (0 ≤ units.value ∧ units.value < 2 ^ 32) (.outOfRange "units")
      pure (computeBudgetInstruction (2 :: leDigits 4 ⌊units.value⌋.toNat))
  | none => pure (computeBudgetInstruction (2 :: leDigits 4 (estimateComposedCU defiInstructions)))

/-- No price is set without a positive fee. -/
def computeUnitPrice : Except SealError (List KitInstruction) :=
  match p.priorityFeeMicroLamports.filter fun fee => fee.value > 0 with
  | some fee => do
      require (fee.value.den = 1 ∧ fee.value < 2 ^ 64) (.outOfRange "microLamports")
      pure [computeBudgetInstruction (3 :: leDigits 8 fee.value.num.toNat)]
  | none => pure []

/-- `composeSigilTransaction` -/
def compose (validateIx : ValidateAndAuthorize) (replacements : List (Pubkey × Pubkey)) :
    Except SealError SealedTransaction := do
  let defiInstructions := replaceAgentAtas p.defiInstructions replacements
  let limit ← p.computeUnitLimit defiInstructions
  let price ← p.computeUnitPrice
  pure
    { feePayer := p.agent
      computeBudget := limit :: price
      validateIx
      defiInstructions
      finalizeIx := p.finalizeInstruction }

end SealParams

def SealParams.seal (env : SealEnv) (p : SealParams) : Except SealError SealResult := do
  require (env.skipSeal = false) .hookAborted
  let state ← p.resolvedState env
  let agentEntry ← p.checkAgent state
  require (env.pluginsAllow state = true) .pluginRejected
  require (0 ≤ p.amount ∧ p.amount < 2 ^ 64) (.invalidAmount p.amount)
  p.defiInstructions.forM SealParams.checkTokenOperation
  let targetProtocol ←
    okOr (p.targetProtocol.or (p.defiInstructions.head?.map KitInstruction.programAddress)) .protocolNotTargeted
  require (agentEntry.capability ≠ 0) .agentZeroCapability
  require (isProtocolAllowed targetProtocol state.policy = true) (.protocolNotAllowed targetProtocol)
  p.checkInstructionCount
  p.checkHeadroom state
  p.checkOutput
  let replacements ← p.ataReplacements
  let validateIx ← p.validateInstruction state targetProtocol
  let lastValidBlockHeight ← okOr env.lastValidBlockHeight .networkUnavailable
  require (env.lookupTablesVerified = true) .networkUnavailable
  let transaction ← p.compose validateIx replacements
  let byteLength := env.measureTransactionSize transaction
  require (byteLength ≤ 1232) (.txTooLarge byteLength)
  pure { transaction, isSpending := p.spending, txSizeBytes := byteLength, lastValidBlockHeight }

end Sigil.Sdk
