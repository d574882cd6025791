import Sigil.Library.Async
import Sigil.Library.Base64
import Sigil.Sdk.ConstraintBuilders
import Sigil.Sdk.Drain
import Sigil.Sdk.Events

/-!
# Sending a transaction

`TransactionExecutor` with the composer, the cache of the blockhash, the simulation and the confirmation that it calls.
A call of `executeTransaction` waits whenever it has asked the node or the signer.
-/

namespace Sigil.Sdk

open Library

/-! ## Blockhashes -/

structure Blockhash where
  blockhash : String
  lastValidBlockHeight : Nat
  deriving DecidableEq, Repr

structure BlockhashCache where
  cached : Option Blockhash := none
  fetchedAt : Int := 0

/-- What `get` answers at once. -/
def BlockhashCache.fresh (c : BlockhashCache) (ttlMs now : Int) : Option Blockhash :=
  c.cached.filter fun _ => now - c.fetchedAt < ttlMs

/-! ## Composing -/

/-- Accounts whose balances are watched while a transaction is simulated. -/
structure VaultMonitoring where
  vaultAddress : Pubkey
  monitorAccounts : List Pubkey
  /-- A map. -/
  preBalances : List (Pubkey × Int)
  totalVaultBalance : Int
  knownRecipients : Option (List Pubkey)

structure ExecuteTransactionParams where
  feePayer : Pubkey
  validateIx : KitInstruction
  defiInstructions : List KitInstruction
  finalizeIx : KitInstruction
  computeUnits : Option Double := none
  priorityFeeMicroLamports : Option Double := none
  addressLookupTables : List (Pubkey × List Pubkey) := []
  vaultMonitoring : Option VaultMonitoring := none

structure ComposedTransaction where
  feePayer : Pubkey
  blockhash : Blockhash
  instructions : List KitInstruction
  addressLookupTables : List (Pubkey × List Pubkey)
  deriving DecidableEq, Repr

inductive ExecuteError where
  /-- The node or the signer has not answered. -/
  | rejected (message : String)
  /-- A codec has refused an argument. -/
  | outOfRange (field : String)
  | notCompiled
  /-- "Transaction …B exceeds 1232B limit …" -/
  | txTooLarge (byteLength : Nat) (altsApplied : Bool)
  /-- "Simulation failed: …" -/
  | simulationFailed
  /-- "Transaction blocked: drain detection triggered (…)" -/
  | drainDetected (riskFlags : List RiskFlag)
  /-- "Signer must implement signTransactions() or modifyAndSignTransactions()" -/
  | signerInvalid
  /-- "signTransactions returned invalid result: expected non-empty array" -/
  | signatureInvalid
  /-- "Transaction … failed: …" -/
  | txFailed (signature err : String)
  /-- "Transaction … confirmation timed out after …ms" -/
  | confirmationTimeout (signature : String) (timeoutMs : Int)
  deriving DecidableEq, Repr

inductive Commitment where
  | processed | confirmed | finalized
  deriving DecidableEq, Repr

structure ExecutorOptions where
  blockhashCacheTtlMs : Int := 30000
  timeoutMs : Int := 30000
  pollIntervalMs : Double := .ofRat 1000
  commitment : Commitment := .confirmed
  dangerouslySkipSimulation : Option String := none
  skipSimulation : Bool := false
  drainThresholds : DrainThresholds := {}

/-- The options, and what the packages and the signer do. -/
structure ExecutorEnv extends ExecutorOptions where
  /-- Bytes of a transaction on the wire; `none` is a transaction that cannot be compiled. -/
  wireBytes : ComposedTransaction → Option (List UInt8)
  /-- The signer has a method that signs. -/
  canSign : Bool := true

/-- `base64ByteLength`; the length of a text with padding is a multiple of four. -/
def base64ByteLength (b64 : List Char) : Nat :=
  let padding := (if b64.getLast? = some '=' then 1 else 0) + (if b64.dropLast.getLast? = some '=' then 1 else 0)
  b64.length / 4 * 3 - padding

def setComputeUnitLimit (units : Double) : Except ExecuteError KitInstruction := do
  require (0 ≤ units.value ∧ units.value ≤ 2 ^ 32 - 1) (.outOfRange "units")
  pure (computeBudgetInstruction (2 :: leDigits 4 ⌊units.value⌋.toNat))

namespace ExecuteTransactionParams

variable (p : ExecuteTransactionParams)

/-- No price is set without a positive fee. -/
def setComputeUnitPrice : Except ExecuteError (List KitInstruction) :=
  match p.priorityFeeMicroLamports.filter fun fee => fee.value > 0 with
  | some fee => do
      require (fee.value.den = 1 ∧ fee.value < 2 ^ 64) (.outOfRange "microLamports")
      pure [computeBudgetInstruction (3 :: leDigits 8 fee.value.num.toNat)]
  | none => pure []

/-- Units that are asked for, or as many as the instructions are known to take. -/
def units : Double := p.computeUnits.getD (.ofRat (estimateComposedCU p.defiInstructions))

/-- The instructions behind those of the compute budget. -/
def transaction (blockhash : Blockhash) (computeBudget : List KitInstruction) : ComposedTransaction :=
  { feePayer := p.feePayer
    blockhash
    instructions := computeBudget ++ p.validateIx :: (p.defiInstructions ++ [p.finalizeIx])
    addressLookupTables := p.addressLookupTables }

end ExecuteTransactionParams

namespace ExecutorEnv

variable (env : ExecutorEnv) (p : ExecuteTransactionParams)

/-- `_skipSimulation` -/
def skips : Bool :=
  env.dangerouslySkipSimulation = some "I_UNDERSTAND_DRAIN_DETECTION_IS_DISABLED" ∨ env.skipSimulation = true

def composeSigilTransaction (blockhash : Blockhash) (computeUnits : Double) :
    Except ExecuteError ComposedTransaction := do
  let limit ← setComputeUnitLimit computeUnits
  let price ← p.setComputeUnitPrice
  let tx := p.transaction blockhash (limit :: price)
  require ((env.wireBytes tx).isSome) .notCompiled
  pure tx

/-- `measureTransactionSize` -/
def byteLength (tx : ComposedTransaction) : Nat :=
  base64ByteLength (Base64.encode ((env.wireBytes tx).getD []))

/-- `composeTransaction` once the blockhash is known. -/
def composeTransaction (blockhash : Blockhash) : Except ExecuteError ComposedTransaction := do
  let tx ← env.composeSigilTransaction p blockhash p.units
  require (env.byteLength tx ≤ maxTxSize)
    (.txTooLarge (env.byteLength tx) !p.addressLookupTables.isEmpty)
  pure tx

end ExecutorEnv

/-! ## Simulating -/

/-- The answer to `simulateTransaction`. -/
structure SimulationValue where
  /-- The error, if there is one. -/
  err : Option String := none
  logs : List String := []
  unitsConsumed : Option Nat := none
  accounts : Option (List AccountInfo) := none

/-- A simulation that has succeeded. -/
structure SimulationResult where
  unitsConsumed : Option Double
  logs : List String
  riskFlags : List RiskFlag
  deriving DecidableEq

/-- `none` where the data cannot be decoded; the inner `none` is an account without data. -/
def balanceDelta (m : VaultMonitoring) (account : Pubkey) : AccountInfo → Option (Option BalanceDelta)
  | .unavailable => none
  | .missing => some none
  | .data bytes =>
      some (if bytes = [] then none
        else some { account, delta := parseTokenBalance bytes - (m.preBalances.lookup account).getD 0 })

namespace VaultMonitoring

variable (m : VaultMonitoring)

/-- An account without an answer is passed over. -/
def balanceDeltas (accounts : List AccountInfo) : Option (List BalanceDelta) :=
  ((m.monitorAccounts.zip accounts).mapM fun entry => balanceDelta m entry.1 entry.2).map List.reduceOption

def riskFlags (thresholds : DrainThresholds) (accounts : List AccountInfo) : Option (List RiskFlag) :=
  (m.balanceDeltas accounts).map fun deltas =>
    if deltas = [] then []
    else detectDrainAttempt
      { balanceDeltas := deltas
        vaultAddress := m.vaultAddress
        totalVaultBalance := m.totalVaultBalance
        knownRecipients := m.knownRecipients } thresholds

end VaultMonitoring

/-- What a simulation finds that has run without an error. -/
def simulationFlags (monitoring : Option VaultMonitoring) (thresholds : DrainThresholds)
    (accounts : Option (List AccountInfo)) : Option (List RiskFlag) :=
  match monitoring, accounts with
  | some m, some accounts => m.riskFlags thresholds accounts
  | _, _ => some []

/-- Fails closed, but an answer without a value is a success. Units of zero count as unknown. -/
def simulateBeforeSend (monitoring : Option VaultMonitoring) (thresholds : DrainThresholds)
    (value : Option SimulationValue) : Option SimulationResult :=
  let value := value.getD {}
  if value.err.isSome then none
  else (simulationFlags monitoring thresholds value.accounts).map fun riskFlags =>
    { unitsConsumed := (value.unitsConsumed.filter fun units => units ≠ 0).map fun units => .ofRat units
      logs := value.logs
      riskFlags }

/-- A tenth more than what was consumed, if that is more than a fifth away. Without an estimate the quotient is
infinite, or no number. -/
def adjustCU (estimated : Double) (simulated : Option Double) : Double :=
  match simulated with
  | none => estimated
  | some simulated =>
      let headroom := Double.ofRat ⌈(Double.ofRat (simulated.value * (Double.ofRat (11 / 10)).value)).value⌉
      let gap := |(Double.ofRat (headroom.value - estimated.value)).value|
      let isFar := if estimated.value = 0 then gap ≠ 0
        else (Double.ofRat (gap / estimated.value)).value > (Double.ofRat (1 / 5)).value
      if isFar then headroom else estimated

/-! ## A call -/

deriving instance DecidableEq for SigilEvent

structure ExecuteTransactionResult where
  signature : String
  unitsConsumed : Option Double
  logs : Option (List String)
  events : List SigilEvent
  /-- Never empty. -/
  warnings : Option (List RiskFlag)
  deriving DecidableEq

/-- A signature whose status is polled; `delay` is the next time to sleep. -/
structure Polling where
  signature : String
  deadline : Int
  delay : Double
  simulation : Option SimulationResult
  deriving DecidableEq

/-- What a call waits for. -/
inductive ExecutorWait where
  | blockhash
  | simulation (tx : ComposedTransaction)
  | signature (tx : ComposedTransaction) (simulation : Option SimulationResult)
  | send (wire : List UInt8) (simulation : Option SimulationResult)
  | statuses (polling : Polling)
  | sleep (polling : Polling)
  deriving DecidableEq

structure SignatureStatusValue where
  err : Option String
  confirmationStatus : Commitment

/-- What a call is answered. A clock is read when the answer is processed. -/
inductive ExecutorAnswer where
  | rejected (message : String)
  | blockhash (value : Blockhash) (now : Int)
  | simulation (value : Option SimulationValue)
  | signed (wires : List (List UInt8))
  | sent (signature : String) (now now' : Int)
  | statuses (status : Option SignatureStatusValue)
  /-- The time to sleep is over; `random` is below one. -/
  | awake (now : Int) (random : Double)

structure ExecuteCall where
  params : ExecuteTransactionParams
  now : Int

abbrev ExecuteOutcome : Type := Except ExecuteError ExecuteTransactionResult

abbrev ExecutorStage : Type := Stage ExecutorWait ExecuteOutcome

def stageOf : Except ExecuteError ExecutorWait → ExecutorStage
  | .ok w => .waits w
  | .error e => .settled (.error e)

def executeResult (signature : String) (simulation : Option SimulationResult) : ExecuteTransactionResult :=
  { signature
    unitsConsumed := simulation.bind SimulationResult.unitsConsumed
    logs := simulation.map SimulationResult.logs
    events := (simulation.map fun s => parseLogs s.logs).getD []
    warnings := (simulation.map SimulationResult.riskFlags).filter fun flags => flags ≠ [] }

namespace ExecutorEnv

variable (env : ExecutorEnv) (p : ExecuteTransactionParams)

/-- A signer that cannot sign is noticed before it is asked. -/
def sign (tx : ComposedTransaction) (simulation : Option SimulationResult) : Except ExecuteError ExecutorWait := do
  require (env.canSign = true) .signerInvalid
  pure (.signature tx simulation)

def composed (blockhash : Blockhash) : Except ExecuteError ExecutorWait := do
  let tx ← env.composeTransaction p blockhash
  if env.skips then env.sign tx none else pure (.simulation tx)

/-- A transaction is composed again for an adjusted number of units, and not measured again. -/
def recompose (tx : ComposedTransaction) (simulation : SimulationResult) : Except ExecuteError ComposedTransaction :=
  let adjusted := adjustCU p.units simulation.unitsConsumed
  if adjusted = p.units then pure tx else env.composeSigilTransaction p tx.blockhash adjusted

def simulated (tx : ComposedTransaction) (result : Option SimulationResult) : Except ExecuteError ExecutorWait := do
  let simulation ← okOr result .simulationFailed
  let txToSign ← env.recompose p tx simulation
  require (.fullDrain ∉ simulation.riskFlags) (.drainDetected simulation.riskFlags)
  env.sign txToSign (some simulation)

/-- The head of the loop of `sendAndConfirmTransaction`. -/
def poll (polling : Polling) (now : Int) : Except ExecuteError ExecutorWait := do
  require (now < polling.deadline) (.confirmationTimeout polling.signature env.timeoutMs)
  pure (.statuses polling)

/-- Sufficient confirmation. -/
def confirms (level : Commitment) : Bool :=
  level = .confirmed ∨ level = .finalized ∨ (env.commitment = .processed ∧ level = .processed)

def polled (polling : Polling) (status : Option SignatureStatusValue) : ExecutorStage :=
  match status with
  | none => .waits (.sleep polling)
  | some status =>
      match status.err with
      | some err => .settled (.error (.txFailed polling.signature err))
      | none =>
          if env.confirms status.confirmationStatus then
            .settled (.ok (executeResult polling.signature polling.simulation))
          else .waits (.sleep polling)

/-- `Math.min(delay * (1.3 + Math.random() * 0.4), 5_000)` -/
def nextDelay (delay random : Double) : Double :=
  let factor := Double.ofRat ((Double.ofRat (13 / 10)).value +
    (Double.ofRat (random.value * (Double.ofRat (2 / 5)).value)).value)
  let next := Double.ofRat (delay.value * factor.value)
  if next.value ≤ 5000 then next else .ofRat 5000

def call (cache : BlockhashCache) (c : ExecuteCall) : BlockhashCache × ExecutorStage :=
  match cache.fresh env.blockhashCacheTtlMs c.now with
  | some blockhash => (cache, stageOf (env.composed c.params blockhash))
  | none => (cache, .waits .blockhash)

/-- Turns that leave the cache as it is. -/
def proceed (c : ExecuteCall) : ExecutorWait → ExecutorAnswer → Option ExecutorStage
  | .simulation tx, .simulation value =>
      let result := simulateBeforeSend c.params.vaultMonitoring env.drainThresholds value
      some (stageOf (env.simulated c.params tx result))
  | .simulation tx, .rejected _ => some (stageOf (env.simulated c.params tx none))
  | .signature _ simulation, .signed wires =>
      some (stageOf ((okOr wires.head? .signatureInvalid).map fun wire => .send wire simulation))
  | .send _ simulation, .sent signature now now' =>
      let polling : Polling :=
        { signature, deadline := now + env.timeoutMs, delay := env.pollIntervalMs, simulation }
      some (stageOf (env.poll polling now'))
  | .statuses polling, .statuses status => some (env.polled polling status)
  | .sleep polling, .awake now random =>
      some (stageOf (env.poll { polling with delay := nextDelay polling.delay random } now))
  | .sleep _, .rejected _ => none
  | _, .rejected message => some (.settled (.error (.rejected message)))
  | _, _ => none

def resume (cache : BlockhashCache) (c : ExecuteCall) (w : ExecutorWait) (a : ExecutorAnswer) :
    Option (BlockhashCache × ExecutorStage) :=
  match w, a with
  | .blockhash, .blockhash value now =>
      some ({ cached := some value, fetchedAt := now }, stageOf (env.composed c.params value))
  | w, a => (env.proceed c w a).map fun stage => (cache, stage)

/-- `executeTransaction` of one executor. -/
def executor : AsyncFunction BlockhashCache ExecuteCall ExecutorWait ExecutorAnswer ExecuteOutcome where
  call := env.call
  resume := env.resume

end ExecutorEnv

end Sigil.Sdk
