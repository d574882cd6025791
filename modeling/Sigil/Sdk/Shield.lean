import Sigil.Instructions.Scan
import Sigil.Sdk.Inspector
import Sigil.Sdk.Policies
import Sigil.Sdk.ShieldState
import Sigil.Sdk.StateResolver

/-!
# Shield

`shield.ts`: what the shield checks of instructions, what it records of those it lets pass, and how it takes over the
spending of the chain. Warnings and callbacks are left out; times are in milliseconds.
-/

namespace Sigil.Sdk

open Library

/-! ## State -/

/-- `ShieldState` with what the last sync has set. -/
structure SyncedState extends ShieldState where
  resolvedState : Option ResolvedVaultState
  localUsdAdditions : Int
  network : Option Network
  enforceUsed : Bool

namespace SyncedState

def initial : SyncedState :=
  { spendEntries := [], txEntries := [], resolvedState := none, localUsdAdditions := 0, network := none,
    enforceUsed := false }

variable (s : SyncedState)

def recordSpend (now : Int) (mint : String) (amount : Int) : SyncedState :=
  { s with toShieldState := s.toShieldState.recordSpend now mint amount }

def recordTransaction (now : Int) : SyncedState :=
  { s with toShieldState := s.toShieldState.recordTransaction now }

/-- Local additions are reset. -/
def syncFromOnChain (state : ResolvedVaultState) (network : Option Network) : SyncedState :=
  { s with resolvedState := some state, localUsdAdditions := 0, network := network.or s.network }

def recordUsdSpend (amount : Int) : SyncedState := { s with localUsdAdditions := s.localUsdAdditions + amount }

def markEnforceUsed : SyncedState := { s with enforceUsed := true }

/-- What the chain had spent at the last sync, and what has been recorded since. -/
def getEffectiveGlobalSpent24h : Int :=
  match s.resolvedState with
  | some state => state.globalBudget.spent24h + s.localUsdAdditions
  | none => s.localUsdAdditions

def getEffectiveAgentSpent24h : Option Int :=
  (s.resolvedState.bind ResolvedVaultState.agentBudget).map fun budget => budget.spent24h + s.localUsdAdditions

end SyncedState

/-! ## Policies -/

inductive Direction where
  | outgoing | incoming | unknown
  deriving DecidableEq, Repr

structure TokenTransfer where
  /-- The empty string if it is not known. -/
  mint : String
  amount : Int
  direction : Direction
  destination : Pubkey

structure TransactionAnalysis where
  programIds : List Pubkey
  transfers : List TokenTransfer
  estimatedValueLamports : Int

structure PolicyCheckResult where
  allowed : Bool
  reason : Option String

structure CheckedPolicies extends ResolvedPolicies where
  customCheck : Option (TransactionAnalysis → PolicyCheckResult)

inductive PolicyViolation where
  /-- "Shield is paused — all operations blocked until resume()" -/
  | paused
  /-- "Program … is not in the allowed list" -/
  | programAllowlist (program : Pubkey)
  /-- "Spend limit exceeded for …: … > …" -/
  | spendLimit (mint : Pubkey) (spend limit : Int)
  /-- "Rate limit exceeded: …/… transactions in window" -/
  | rateLimit (count : Nat) (limit : Int)
  | custom (reason : String)
  /-- "Transaction … exceeds max …" -/
  | onChainTxSize (amount limit : Int)
  /-- "Would exceed on-chain daily cap: … > …" -/
  | onChainVaultCap (spend cap : Int)
  /-- "Would exceed agent spend limit: … > …" -/
  | onChainAgentCap (spend cap : Int)
  /-- "Transaction rate …/… per hour exceeded" -/
  | velocityRate (count : Nat) (limit : Int)
  /-- "Hourly USD spend … exceeds ceiling …" -/
  | velocitySpend (spend limit : Int)
  /-- "Simulation failed: …" -/
  | simulation
  /-- "[ShieldedSigner] No Sigil instructions found in transaction", or the session binding is incomplete -/
  | sessionBinding
  deriving DecidableEq, Repr

def ataProgramId : Pubkey := .ofBytes
  [140, 151, 37, 143, 78, 36, 137, 241, 187, 61, 16, 41, 20, 142, 13, 131, 11, 90, 19, 153, 218, 255,
   16, 132, 4, 142, 123, 216, 219, 233, 248, 89]

/-- `SYSTEM_PROGRAMS` -/
def systemPrograms : List Pubkey := [systemProgramId, computeBudgetProgramId, ataProgramId]

def isOutgoing (signerAddress : Pubkey) (t : TokenTransferInfo) : Bool := t.authority = signerAddress

/-- Plain transfers do not count. -/
def computeStablecoinUsd (transfers : List TokenTransferInfo) (signerAddress : Pubkey) (network : Network) : Int :=
  ((transfers.filter fun t => isOutgoing signerAddress t && t.mint.any fun mint => isStablecoinMint mint network).map
    TokenTransferInfo.amount).sum

section
variable (base58 : Pubkey → String) (now : Int) (signerAddress : Pubkey) (resolved : CheckedPolicies)
  (analysis : InstructionAnalysis) (state : SyncedState)

def checkPrograms : List PolicyViolation :=
  match resolved.allowedProtocols with
  | some allowed =>
      if resolved.blockUnknownPrograms then
        (analysis.programIds.filter fun pid => pid ∉ systemPrograms ∧ pid ∉ allowed).map .programAllowlist
      else []
  | none => []

def checkSpendLimit (limit : SpendLimit) : Option PolicyViolation :=
  let currentSpend := state.getSpendInWindow now (base58 limit.mint) (limit.windowMs.getD dayMs)
  let txSpend := ((analysis.tokenTransfers.filter fun t =>
    isOutgoing signerAddress t ∧ (t.mint = some limit.mint ∨ t.mint = none)).map TokenTransferInfo.amount).sum
  if currentSpend + txSpend > limit.amount then some (.spendLimit limit.mint (currentSpend + txSpend) limit.amount)
  else none

def checkRateLimit : List PolicyViolation :=
  let count := state.getTransactionCountInWindow now resolved.rateWindowMs
  if count ≥ resolved.maxTransactions then [.rateLimit count resolved.maxTransactions] else []

def customAnalysis : TransactionAnalysis :=
  { programIds := analysis.programIds
    transfers := analysis.tokenTransfers.map fun t =>
      { mint := (t.mint.map base58).getD ""
        amount := t.amount
        direction := if isOutgoing signerAddress t then .outgoing else .unknown
        destination := t.destination }
    estimatedValueLamports := analysis.estimatedValue }

def checkCustom : List PolicyViolation :=
  match resolved.customCheck with
  | some check =>
      let result := check (customAnalysis base58 signerAddress analysis)
      if result.allowed then [] else [.custom (result.reason.getD "Custom policy check failed")]
  | none => []

def checkAgentCap (rs : ResolvedVaultState) (amount : Int) : List PolicyViolation :=
  match state.getEffectiveAgentSpent24h, rs.agentBudget with
  | some spent, some budget =>
      if spent + amount > budget.cap then [.onChainAgentCap (spent + amount) budget.cap] else []
  | _, _ => []

def checkOnChain (rs : ResolvedVaultState) (network : Network) : List PolicyViolation :=
  let amount := computeStablecoinUsd analysis.tokenTransfers signerAddress network
  let spent := state.getEffectiveGlobalSpent24h
  if amount > 0 then
    (if amount > rs.maxTransactionUsd then [.onChainTxSize amount rs.maxTransactionUsd] else []) ++
    (if spent + amount > rs.globalBudget.cap then [.onChainVaultCap (spent + amount) rs.globalBudget.cap] else []) ++
    checkAgentCap state rs amount
  else []

/-- The caps of the chain are checked once a sync has read them. -/
def checkOnChainCaps (network : Option Network) : List PolicyViolation :=
  match state.resolvedState, network.or state.network with
  | some rs, some network => checkOnChain signerAddress analysis state rs network
  | _, _ => []

/-- Without a violation the instructions are allowed. -/
def evaluateInstructions (instructions : List InspectableInstruction) (network : Option Network) :
    List PolicyViolation :=
  let analysis := analyzeInstructions instructions signerAddress
  checkPrograms resolved analysis ++
    resolved.spendLimits.filterMap (checkSpendLimit base58 now signerAddress analysis state) ++
    checkRateLimit now resolved state ++
    checkCustom base58 signerAddress resolved analysis ++
    checkOnChainCaps signerAddress analysis state network

end

/-! ## The context -/

structure ShieldedContext where
  resolved : CheckedPolicies
  paused : Bool
  state : SyncedState
  /-- Network of `onChainSync`; `none` if that is not configured. -/
  syncNetwork : Option Network

section
variable (base58 : Pubkey → String) (now : Int) (instructions : List InspectableInstruction) (signerAddress : Pubkey)

def ShieldedContext.check (c : ShieldedContext) : List PolicyViolation :=
  if c.paused then [.paused]
  else evaluateInstructions base58 now signerAddress c.resolved c.state instructions c.syncNetwork

def recordTransfer (state : SyncedState) (t : TokenTransferInfo) : SyncedState :=
  if isOutgoing signerAddress t then state.recordSpend now ((t.mint.map base58).getD "") t.amount else state

/-- Stablecoins are counted once a sync has read what the chain had spent. -/
def recordStablecoins (transfers : List TokenTransferInfo) (network : Option Network) (state : SyncedState) :
    SyncedState :=
  match state.resolvedState, network with
  | some _, some network =>
      let stablecoinUsd := computeStablecoinUsd transfers signerAddress network
      if stablecoinUsd > 0 then state.recordUsdSpend stablecoinUsd else state
  | _, _ => state

/-- What `enforce` and a shielded signer record of instructions that they let pass. -/
def recordApproved (network : Option Network) (state : SyncedState) : SyncedState :=
  let transfers := (analyzeInstructions instructions signerAddress).tokenTransfers
  recordStablecoins signerAddress transfers network
    ((transfers.foldl (recordTransfer base58 now signerAddress) state).recordTransaction now)

def ShieldedContext.enforce (c : ShieldedContext) : Except (List PolicyViolation) ShieldedContext :=
  match c.check base58 now instructions signerAddress with
  | [] => .ok { c with
      state := (recordApproved base58 now instructions signerAddress c.syncNetwork c.state).markEnforceUsed }
  | violations => .error violations

end

/-! ## Shielded signers -/

inductive BindingSeverity where
  | soft | hard
  deriving DecidableEq, Repr

structure ShieldedSignerOptions where
  /-- Whether transactions are simulated before they are signed. -/
  simulate : Bool
  /-- Severity of the session binding; `none` without a session context. -/
  sessionBinding : Option BindingSeverity
  maxTxPerHour : Option Int
  maxUsdPerHour : Option Int
  deriving DecidableEq, Repr

/-- One transaction that a shielded signer is asked to sign, with the instructions that are read from it. -/
structure SigningRequest where
  instructions : List InspectableInstruction
  signerAddress : Pubkey
  options : ShieldedSignerOptions
  deriving DecidableEq, Repr

abbrev hourMs : Int := 3600000

def validateAndAuthorizeDiscriminator : List UInt8 := [22, 183, 48, 222, 218, 11, 197, 152]

namespace SigningRequest

variable (r : SigningRequest)

def checkVelocityCeiling (now : Int) (state : ShieldState) : List PolicyViolation :=
  let count := state.getTransactionCountInWindow now hourMs
  let projected := state.getTotalSpendInWindow now hourMs +
    (analyzeInstructions r.instructions r.signerAddress).estimatedValue
  match r.options.maxTxPerHour.filter fun limit => (count : Int) ≥ limit with
  | some limit => [.velocityRate count limit]
  | none =>
      match r.options.maxUsdPerHour.filter fun limit => projected > limit with
      | some limit => [.velocitySpend projected limit]
      | none => []

/-- The first instruction of the program opens the session and the last one closes it. -/
def hasSessionBinding : Bool :=
  let sigilIxs := r.instructions.filter fun ix => ix.programAddress = crateId
  sigilIxs.head?.any (fun ix => ix.data.take 8 = validateAndAuthorizeDiscriminator) &&
    sigilIxs.getLast?.any (fun ix => ix.data.take 8 = finalizeSessionDiscriminator)

def checkSessionBinding : List PolicyViolation :=
  if r.options.sessionBinding = some .hard ∧ ¬ r.hasSessionBinding then [.sessionBinding] else []

/-- What comes after the simulation, with whether that has succeeded. -/
def approve (base58 : Pubkey → String) (now : Int) (simulated : Bool) (c : ShieldedContext) :
    Except (List PolicyViolation) ShieldedContext :=
  if r.options.simulate ∧ ¬ simulated then .error [.simulation]
  else
    match c.check base58 now r.instructions r.signerAddress, r.checkSessionBinding with
    | [], [] => .ok { c with state := recordApproved base58 now r.instructions r.signerAddress c.state.network c.state }
    | [], violations => .error violations
    | violations, _ => .error violations

end SigningRequest

end Sigil.Sdk
