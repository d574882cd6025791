import Sigil.Instructions.Charge
import Sigil.Instructions.Scan

/-!
# Sessions

`validate_and_authorize` opens a session and delegates the vault's tokens to the agent, `finalize_session`
measures what was spent, charges it and closes the session.
-/

namespace Sigil

open Library

/-! ## Opening a session -/

structure ValidateAndAuthorize where
  agent : Pubkey
  vault : Pubkey
  vaultTokenAccount : Pubkey
  protocolTreasuryTokenAccount : Option Pubkey := none
  feeDestinationTokenAccount : Option Pubkey := none
  outputStablecoinAccount : Option Pubkey := none
  remainingAccounts : List Pubkey := []
  tokenMint : Pubkey
  amount : UInt64
  targetProtocol : Pubkey
  expectedPolicyVersion : UInt64

/-- Address of the session an instruction opens. -/
def ValidateAndAuthorize.session (a : ValidateAndAuthorize) : Pubkey := .session a.vault a.agent a.tokenMint

/-- Snapshot and fees of a session. -/
structure SpendPlan where
  outputMint : Pubkey := .default
  stablecoinBalanceBefore : Nat := 0
  protocolFee : Nat := 0
  developerFee : Nat := 0
  deriving DecidableEq, Repr

/-- The first remaining account has to be the constraints account; without one the policy must have none. -/
def loadConstraints (w : World) (v : Pubkey) (policy : PolicyConfig) (remaining : List Pubkey) :
    Result (Option InstructionConstraints) :=
  match remaining.head? with
  | none => do
      require (policy.hasConstraints = false) SigilError.invalidConstraintsPda
      pure none
  | some address => do
      require (address = .constraints v) SigilError.invalidConstraintsPda
      let account ← okOr (w.constraints v) SigilError.invalidConstraintsPda
      require (instructionConstraintsSize ≤ account.size) SigilError.invalidConstraintsPda
      let c ← okOr account.content SigilError.invalidConstraintsPda
      require (account.vault = v) SigilError.invalidConstraintsPda
      pure (some c)

def planSpend (w : World) (a : ValidateAndAuthorize) (policy : PolicyConfig) (tokenAccount : TokenAccount) :
    Result SpendPlan :=
  if a.amount.toNat = 0 then
    pure {}
  else if isStablecoinMint a.tokenMint then do
    let protocolFee ← ceilFee a.amount.toNat protocolFeeRate
    let developerFee ← ceilFee a.amount.toNat policy.developerFeeRate
    pure { outputMint := a.tokenMint, stablecoinBalanceBefore := tokenAccount.amount,
           protocolFee := protocolFee, developerFee := developerFee }
  else do
    -- the value is measured when the stablecoin comes in
    let address ← okOr a.outputStablecoinAccount SigilError.invalidTokenAccount
    let stablecoin ← w.loadToken address
    require (stablecoin.owner = a.vault) SigilError.invalidTokenAccount
    require (isStablecoinMint stablecoin.mint) SigilError.unsupportedToken
    pure { outputMint := stablecoin.mint, stablecoinBalanceBefore := stablecoin.amount }

def checkScans (ctx : Ctx) (a : ValidateAndAuthorize) (policy : PolicyConfig)
    (constraints : Option InstructionConstraints) : Result Unit := do
  scanBefore (ctx.instructions.take ctx.index) 0
  let rest := ctx.instructions.drop (ctx.index + 1)
  if a.amount.toNat > 0 then do
    let scan ← scanSpending policy constraints a.targetProtocol rest 0 0
    require (if isStablecoinMint a.tokenMint then scan.1 ≤ 1 else scan.1 = 1) SigilError.tooManyDeFiInstructions
    require (scan.2 = true) SigilError.missingFinalizeInstruction
  else do
    let found ← scanNonSpending policy constraints rest 0
    require (found = true) SigilError.missingFinalizeInstruction

def collectFeesAndDelegate (ledger : Ledger) (a : ValidateAndAuthorize) (vault : AgentVault) (plan : SpendPlan) :
    Result Ledger :=
  if a.amount.toNat > 0 then do
    let delegation ← netAmount a.amount.toNat plan.protocolFee plan.developerFee
    let ledger₁ ← collectFee ledger a.vaultTokenAccount a.vault a.protocolTreasuryTokenAccount
      protocolTreasury a.tokenMint plan.protocolFee .invalidProtocolTreasury
    let ledger₂ ← collectFee ledger₁ a.vaultTokenAccount a.vault a.feeDestinationTokenAccount
      vault.feeDestination a.tokenMint plan.developerFee .invalidFeeDestination
    ledger₂.approve a.vaultTokenAccount a.agent a.vault delegation
  else
    pure ledger

/-- Bytes of the account an assertion is about. -/
def readTarget (ctx : Ctx) (remaining : List Pubkey) (entry : PostAssertionEntry) (missing : SigilError) :
    Result (List UInt8) := do
  require (entry.targetAccount ∈ remaining) missing
  let data := ctx.accountData entry.targetAccount
  require (entry.offset + entry.valueLen ≤ data.length) SigilError.postAssertionFailed
  pure ((data.drop entry.offset).take entry.valueLen)

/-- Only the modes that compare with an earlier value take a snapshot. -/
def snapshotEntry (ctx : Ctx) (remaining : List Pubkey) (entry : PostAssertionEntry) : Result (List UInt8) :=
  if entry.assertionMode = 0 then pure [] else readTarget ctx remaining entry .postAssertionFailed

def captureSnapshots (w : World) (ctx : Ctx) (a : ValidateAndAuthorize) (policy : PolicyConfig) :
    Result (Fin 4 → List UInt8) :=
  if policy.hasPostAssertions ≠ 0 ∧ .postAssertions a.vault ∈ a.remainingAccounts then do
    let assertions ← okOr (w.postAssertions a.vault) SigilError.postAssertionFailed
    let snapshots ← assertions.entries.mapM (snapshotEntry ctx a.remainingAccounts)
    pure fun i => (snapshots[i.val]?).getD []
  else
    pure fun _ => []

/-- What a request has to pass before the plan is made. -/
def checkRequest (w : World) (a : ValidateAndAuthorize) (vault : AgentVault) (policy : PolicyConfig) :
    Result (Option InstructionConstraints) := do
  require (policy.policyVersion = a.expectedPolicyVersion.toNat) SigilError.policyVersionMismatch
  let constraints ← loadConstraints w a.vault policy a.remainingAccounts
  require vault.isActive SigilError.vaultNotActive
  require (vault.isAgentPaused a.agent = false) SigilError.agentPaused
  require (vault.hasCapability a.agent (a.amount.toNat > 0)) SigilError.insufficientPermissions
  require (policy.isProtocolAllowed a.targetProtocol) SigilError.protocolNotAllowed
  pure constraints

def newSession (ctx : Ctx) (a : ValidateAndAuthorize) (policy : PolicyConfig) (plan : SpendPlan)
    (snapshots : Fin 4 → List UInt8) : SessionAuthority :=
  { vault := a.vault
    agent := a.agent
    authorized := true
    authorizedAmount := a.amount.toNat
    authorizedToken := a.tokenMint
    authorizedProtocol := a.targetProtocol
    isSpending := a.amount.toNat > 0
    expiresAtTimestamp := SessionAuthority.calculateExpiry ctx.clock.unixTimestamp policy.effectiveSessionExpirySeconds
    delegated := a.amount.toNat > 0
    delegationTokenAccount := a.vaultTokenAccount
    protocolFee := plan.protocolFee
    developerFee := plan.developerFee
    outputMint := plan.outputMint
    stablecoinBalanceBefore := plan.stablecoinBalanceBefore
    assertionSnapshots := snapshots }

def validateAndAuthorize (ctx : Ctx) (a : ValidateAndAuthorize) (w : World) : Result World := do
  ctx.requireSigner a.agent
  let vault ← w.loadVault a.vault
  require (vault.isAgent a.agent) SigilError.unauthorizedAgent
  let policy ← w.loadPolicy a.vault
  let _ ← w.loadTracker a.vault
  let _ ← w.loadOverlay a.vault
  require (w.sessions a.session).isNone AnchorError.accountAlreadyInUse
  let tokenAccount ← w.loadToken a.vaultTokenAccount
  require (tokenAccount.owner = a.vault) SigilError.invalidTokenAccount
  require (tokenAccount.mint = a.tokenMint) SigilError.invalidTokenAccount
  let _ ← w.loadMint a.tokenMint
  w.loadTokenOption a.protocolTreasuryTokenAccount
  w.loadTokenOption a.feeDestinationTokenAccount
  w.loadTokenOption a.outputStablecoinAccount
  let constraints ← checkRequest w a vault policy
  let plan ← planSpend w a policy tokenAccount
  checkScans ctx a policy constraints
  let ledger ← collectFeesAndDelegate w.ledger a vault plan
  let snapshots ← captureSnapshots w ctx a policy
  let activeSessions ← okOr (checkedAdd 8 vault.activeSessions 1) SigilError.overflow
  pure (((w.setSession a.session (some (newSession ctx a policy plan snapshots))).setVault a.vault
    { vault with activeSessions := activeSessions }).setLedger ledger)

/-! ## Closing a session -/

structure FinalizeSession where
  payer : Pubkey
  vault : Pubkey
  session : Pubkey
  sessionRentRecipient : Pubkey
  vaultTokenAccount : Option Pubkey := none
  outputStablecoinAccount : Option Pubkey := none
  remainingAccounts : List Pubkey := []

/-- The delegated account has to be passed, so that the delegation can be revoked. -/
def revokeDelegation (ledger : Ledger) (a : FinalizeSession) (session : SessionAuthority) : Result Ledger :=
  if session.delegated then do
    let address ← okOr a.vaultTokenAccount SigilError.invalidTokenAccount
    require (address = session.delegationTokenAccount) SigilError.invalidTokenAccount
    ledger.revoke address a.vault
  else
    pure ledger

/-- Stablecoin that left the vault's account, beyond the fees. -/
def measureDecrease (w : World) (a : FinalizeSession) (session : SessionAuthority) : Result Nat := do
  let address ← okOr a.vaultTokenAccount SigilError.invalidTokenAccount
  let account ← w.loadToken address
  let decrease := session.stablecoinBalanceBefore - account.amount
  require (session.delegated → decrease ≤ session.authorizedAmount) SigilError.unexpectedBalanceDecrease
  let fees ← okOr (checkedAdd 64 session.protocolFee session.developerFee) SigilError.overflow
  pure (decrease - fees)

/-- Stablecoin that came into the account passed as output. -/
def measureIncrease (w : World) (a : FinalizeSession) (session : SessionAuthority) : Result Nat := do
  let address ← okOr a.outputStablecoinAccount SigilError.invalidTokenAccount
  let account ← w.loadToken address
  require (account.owner = a.vault) SigilError.invalidTokenAccount
  require (account.mint = session.outputMint) SigilError.invalidTokenAccount
  require (account.amount > session.stablecoinBalanceBefore) SigilError.nonTrackedSwapMustReturnStablecoin
  pure (account.amount - session.stablecoinBalanceBefore)

def measureSpend (w : World) (a : FinalizeSession) (session : SessionAuthority) (isExpired : Bool) : Result Nat :=
  if isExpired ∨ session.outputMint = .default then pure 0
  else if isStablecoinMint session.authorizedToken then measureDecrease w a session
  else measureIncrease w a session

/-- Fees of a session without measured spend are charged in its place. -/
def chargeFees (policy : PolicyConfig) (tracker : SpendTracker) (clock : Clock) (fees : Nat) :
    Result SpendTracker := do
  checkRollingCap policy tracker clock fees
  tracker.recordSpend clock fees

/-- State after the charge: the measured spend, or else the fees, or nothing. -/
def chargeSession (w : World) (clock : Clock) (v : Pubkey) (vault : AgentVault) (policy : PolicyConfig)
    (session : SessionAuthority) (spend : Nat) : Result World := do
  let tracker ← w.loadTracker v
  let overlay ← w.loadOverlay v
  let fees ← okOr (checkedAdd 64 session.protocolFee session.developerFee) SigilError.overflow
  if spend > 0 then do
    let charged ← chargeSpend policy vault tracker overlay clock session.agent session.authorizedProtocol spend
    pure ((w.setTracker v charged.1 clock spend).setOverlay v charged.2)
  else if fees > 0 then do
    let tracker' ← chargeFees policy tracker clock fees
    pure (w.setTracker v tracker' clock fees)
  else
    pure w

/-- Counters of the vault after a session. -/
def finalizeStats (vault : AgentVault) (session : SessionAuthority) (isExpired : Bool) (spend : Nat) :
    Result AgentVault := do
  let fees ← okOr (checkedAdd 64 vault.totalFeesCollected session.developerFee) SigilError.overflow
  let transactions ← okOr (checkedAdd 64 vault.totalTransactions (if isExpired then 0 else 1)) SigilError.overflow
  let volume ← okOr (checkedAdd 64 vault.totalVolume (if isExpired = false ∧ session.isSpending then spend else 0))
    SigilError.overflow
  let failed ← okOr (checkedAdd 64 vault.totalFailedTransactions (if isExpired then 1 else 0)) SigilError.overflow
  pure { vault with
    totalFeesCollected := fees
    totalTransactions := transactions
    totalVolume := volume
    totalFailedTransactions := failed
    activeSessions := vault.activeSessions - 1 }

/-- Field A of a ratio is at most `multiplierBps / 10000` of field B. -/
def checkCrossField (data actual : List UInt8) (entry : PostAssertionEntry) : Result Unit := do
  require (entry.crossFieldOffsetB + entry.valueLen ≤ data.length) SigilError.postAssertionFailed
  let fieldA := leNat actual
  let fieldB := leNat ((data.drop entry.crossFieldOffsetB).take entry.valueLen)
  if fieldB = 0 then
    require (fieldA = 0) SigilError.postAssertionFailed
  else
    require (fieldA * 10000 ≤ entry.crossFieldMultiplierBps * fieldB) SigilError.postAssertionFailed

/-- One assertion on the state after the instructions of the session. -/
def checkAssertion (ctx : Ctx) (remaining : List Pubkey) (entry : PostAssertionEntry) (snapshot : List UInt8) :
    Result Unit := do
  let actual ← readTarget ctx remaining entry .invalidPostAssertionIndex
  let expected := entry.expectedValue.take entry.valueLen
  let mode ← okOr (AssertionMode.ofByte entry.assertionMode) SigilError.invalidConstraintConfig
  match mode with
  | .absolute => do
      let operator ← okOr (ConstraintOperator.ofByte entry.operator) SigilError.invalidConstraintOperator
      if entry.crossFieldFlags % 2 = 1 then
        checkCrossField (ctx.accountData entry.targetAccount) actual entry
      else
        require (bytesMatch actual operator expected) SigilError.postAssertionFailed
  | .maxDecrease => do
      require (snapshot.length = entry.valueLen) SigilError.snapshotNotCaptured
      require (leNat snapshot - leNat actual ≤ leNat expected) SigilError.postAssertionFailed
  | .maxIncrease => do
      require (snapshot.length = entry.valueLen) SigilError.snapshotNotCaptured
      require (leNat actual - leNat snapshot ≤ leNat expected) SigilError.postAssertionFailed
  | .noChange => do
      require (snapshot.length = entry.valueLen) SigilError.snapshotNotCaptured
      require (actual = snapshot) SigilError.postAssertionFailed

def checkAssertionList (ctx : Ctx) (remaining : List Pubkey) (snapshots : Fin 4 → List UInt8) :
    List PostAssertionEntry → Nat → Result Unit
  | [], _ => pure ()
  | entry :: entries, i => do
      checkAssertion ctx remaining entry (if h : i < 4 then snapshots ⟨i, h⟩ else [])
      checkAssertionList ctx remaining snapshots entries (i + 1)

def checkAssertions (w : World) (ctx : Ctx) (a : FinalizeSession) (policy : PolicyConfig)
    (session : SessionAuthority) (isExpired : Bool) : Result Unit :=
  if isExpired = false ∧ policy.hasPostAssertions ≠ 0 then do
    require (.postAssertions a.vault ∈ a.remainingAccounts) SigilError.postAssertionFailed
    let assertions ← okOr (w.postAssertions a.vault) SigilError.postAssertionFailed
    checkAssertionList ctx a.remainingAccounts session.assertionSnapshots assertions.entries 0
  else
    pure ()

/-- The session belongs to the vault and lies at the address its agent and token derive. -/
def loadSession (w : World) (a : FinalizeSession) : Result SessionAuthority := do
  let session ← okOr (w.sessions a.session) AnchorError.accountNotInitialized
  require (session.vault = a.vault) SigilError.invalidSession
  require (a.session = .session a.vault session.agent session.authorizedToken) AnchorError.constraintSeeds
  pure session

def finalizeSession (ctx : Ctx) (a : FinalizeSession) (w : World) : Result World := do
  ctx.requireSigner a.payer
  let vault ← w.loadVault a.vault
  let session ← loadSession w a
  let policy ← w.loadPolicy a.vault
  w.loadTokenOption a.vaultTokenAccount
  w.loadTokenOption a.outputStablecoinAccount
  let isExpired := session.isExpired ctx.clock.unixTimestamp
  require (a.sessionRentRecipient = session.agent) SigilError.invalidSession
  -- an expired session can be closed by anyone
  require (isExpired = false → a.payer = session.agent) SigilError.unauthorizedAgent
  require (isExpired = false → session.authorized) SigilError.sessionNotAuthorized
  let ledger ← revokeDelegation w.ledger a session
  let spend ← measureSpend w a session isExpired
  let charged ← chargeSession w ctx.clock a.vault vault policy session spend
  let vault' ← finalizeStats vault session isExpired spend
  checkAssertions w ctx a policy session isExpired
  scanAfter (ctx.instructions.drop (ctx.index + 1)) 0
  pure (((charged.setSession a.session none).setVault a.vault vault').setLedger ledger)

end Sigil
