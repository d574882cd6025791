import Sigil.Library.Run
import Sigil.Sdk.X402

/-!
# `shieldedFetch`

Any number of calls run in one process. A turn starts a call, or lets one go on from the `await` at which it waits to
the next one; between two turns of a call any turns of the others may come. What a promise delivers is free, so the
server and the RPC node are. The last four fields of a process are its history, which no call reads.
-/

namespace Sigil.Sdk

open Library

/-- The arguments of `shieldedFetch`. A context is known by its number. -/
structure FetchRequest where
  signer : String
  url : String
  config : X402Config
  shieldCtx : Option Nat
  rpc : Bool
  dryRun : Bool
  maxPayment : Option Int
  paymentSignatureHeader : Bool
  deriving DecidableEq, Repr

structure SignedTransaction where
  signer : String
  payTo : String
  asset : String
  amount : Int
  blockhash : String
  signature : String
  deriving DecidableEq, Repr

/-- A header that is absent or empty is `none`. -/
structure FetchResponse where
  status : Nat
  paymentRequired : Option (Option (List PaymentRequirements))
  paymentResponse : Option SettleResponse
  deriving DecidableEq, Repr

def FetchResponse.ok (response : FetchResponse) : Bool := 200 ≤ response.status ∧ response.status < 300

structure SignatureStatus where
  err : Bool
  confirmationStatus : String
  deriving DecidableEq, Repr

/-- A selected option with the transaction that was signed for it. -/
structure Payment where
  selected : PaymentRequirements
  transaction : SignedTransaction
  deriving DecidableEq, Repr

inductive FetchOutcome where
  | threw (error : X402Error)
  | passedThrough
  | dryRun
  | returned (paid : Bool)
  deriving DecidableEq, Repr

/-- Where a call waits. -/
inductive Phase where
  /-- step 2 -/
  | requesting
  /-- step 9 -/
  | checking (selected : PaymentRequirements) (duplicate : Bool)
  /-- step 13 -/
  | building (selected : PaymentRequirements) (amount : Int)
  /-- step 14 -/
  | fetchingBlockhash (selected : PaymentRequirements) (amount : Int)
  | signing (selected : PaymentRequirements) (amount : Int) (blockhash : String)
  /-- step 15 -/
  | sending (payment : Payment) (attempt : Nat)
  /-- step 16 -/
  | validating (payment : Payment) (ok : Bool) (settlement : SettleResponse)
  /-- step 17 -/
  | recording (payment : Payment) (settlement : Option SettleResponse)
  | confirming (payment : Payment) (signature : String) (deadline : Int)
  | sleeping (payment : Payment) (signature : String) (deadline : Int)
  | finished (outcome : FetchOutcome)
  deriving DecidableEq, Repr

structure FetchCall where
  request : FetchRequest
  phase : Phase
  deriving DecidableEq, Repr

/-- A payment given to a server. -/
structure Handover where
  call : Nat
  shieldCtx : Option Nat
  key : String
  transaction : SignedTransaction
  time : Int
  deriving DecidableEq, Repr

structure Process where
  now : Int
  globalNonceTracker : NonceTracker
  recentPayments : List Int
  contexts : Nat → ShieldState
  calls : List FetchCall
  handed : List Handover
  /-- the calls that recorded their nonce -/
  recorded : List Nat
  /-- the calls that recorded their spend -/
  charged : List Nat
  /-- the signatures that the RPC node reported as failed -/
  failed : List String

/-- A process in which no call was made yet. -/
def Process.initial (now : Int) (contexts : Nat → ShieldState) : Process :=
  { now, globalNonceTracker := .empty, recentPayments := [], contexts, calls := [], handed := [], recorded := []
    charged := [], failed := [] }

/-- What a call finds around it in a turn: whether the shield is paused, what its policies say, and whether the callback
`onPayment` throws. -/
structure Surroundings where
  isPaused : Bool
  checked : List String
  onPaymentThrows : Bool
  deriving DecidableEq, Repr

/-- What an awaited promise delivers. -/
inductive Answer where
  | done
  | response (response : FetchResponse)
  | blockhash (blockhash : String)
  | signed (signature : String)
  | status (status : Option SignatureStatus)
  | rejected
  deriving DecidableEq, Repr

inductive Turn where
  | start (now : Int) (request : FetchRequest)
  | resume (now : Int) (call : Nat) (answer : Answer) (around : Surroundings)
  deriving DecidableEq, Repr

inductive TurnError where
  | clockRunsBackwards
  | noSuchCall
  /-- the call does not wait for this -/
  | notAwaited
  deriving DecidableEq, Repr

namespace FetchRequest

def replayProtection (request : FetchRequest) : Bool := request.config.enableReplayProtection ≠ some false

def maxRetries (request : FetchRequest) : Nat := (min (max (request.config.maxRetries.getD 1) 1) 3).toNat

/-- Step 1. -/
def checkUrl (request : FetchRequest) : Except X402Error Unit :=
  if request.config.allowInsecureUrls then
    require (startsWith request.url "https://" ∨ startsWith request.url "http://") .httpOnly
  else require (startsWith request.url "https://") .httpsOnly

/-- Steps 3 to 8: the selected option, or `none` for a response that is passed through. -/
def demanded (request : FetchRequest) (response : FetchResponse) : Except X402Error (Option PaymentRequirements) :=
  if response.status ≠ 402 then pure none
  else
    match response.paymentRequired with
    | none => pure none
    | some header => do
        require (¬ request.paymentSignatureHeader) .alreadyAttempted
        let accepts ← decodePaymentRequiredHeader header
        let selected ← selectPaymentOption accepts request.config
        pure (some selected)

/-- The signature to ask the RPC node about, where the payment is confirmed. -/
def confirmable (request : FetchRequest) (settlement : Option SettleResponse) : Option String :=
  if request.config.confirmPayment ≠ some false ∧ request.rpc then
    settlement.bind fun response => response.transaction.filter (· ≠ "")
  else none

end FetchRequest

/-- The server names another transaction than the one it was given. -/
def mismatched (payment : Payment) (settlement : Option SettleResponse) : Bool :=
  match settlement.bind SettleResponse.transaction with
  | some signature => signature ≠ "" && signature ≠ payment.transaction.signature
  | none => false

namespace Process

variable (parseUrl : String → Option String) (around : Surroundings) (i : Nat) (request : FetchRequest)

/-- Call `i` waits, or has ended. -/
def goto (phase : Phase) (s : Process) : Process := { s with calls := s.calls.set i ⟨request, phase⟩ }

def throws (error : X402Error) (s : Process) : Process := s.goto i request (.finished (.threw error))

def nonceKey (selected : PaymentRequirements) : String :=
  NonceTracker.buildKey parseUrl request.url selected.payTo selected.amount

/-- Step 11. -/
def checkPolicies (selected : PaymentRequirements) (s : Process) : Except X402Error Unit :=
  match request.shieldCtx with
  | some c => do
      let violations ← evaluateX402Payment s.now selected (s.contexts c) around.isPaused around.checked request.config
        request.signer
      require (violations ≠ [] → ¬ around.onPaymentThrows) .external
      require (violations = []) (.denied violations)
  | none => pure ()

/-- Steps 10 to 13: the amount to pay, or `none` for a dry run. -/
def approve (selected : PaymentRequirements) (s : Process) : Except X402Error (Option Int) := do
  let parsedAmount ← validatePaymentAmount s.recentPayments selected.amount request.config
  requireAtMost request.maxPayment parsedAmount (.exceedsMaxPayment selected.amount)
  s.checkPolicies around request selected
  if request.dryRun then pure none
  else do
    require request.rpc .rpcRequired
    pure (some parsedAmount)

def authorize (selected : PaymentRequirements) (s : Process) : Process :=
  match s.approve around request selected with
  | .error error => s.throws i request error
  | .ok none => s.goto i request (.finished .dryRun)
  | .ok (some amount) => s.goto i request (.building selected amount)

/-- Steps 3 to 9. -/
def onResponse (response : FetchResponse) (s : Process) : Process :=
  match request.demanded response with
  | .error error => s.throws i request error
  | .ok none => s.goto i request (.finished .passedThrough)
  | .ok (some selected) =>
      if request.replayProtection then
        let duplicate := s.globalNonceTracker.isDuplicate s.now (nonceKey parseUrl request selected)
        goto i request (.checking selected duplicate)
          { s with globalNonceTracker := s.globalNonceTracker.gc s.now }
      else s.authorize around i request selected

/-- Step 15: the header is sent. -/
def handOver (payment : Payment) (attempt : Nat) (s : Process) : Process :=
  goto i request (.sending payment attempt)
    { s with
      handed := ⟨i, request.shieldCtx, nonceKey parseUrl request payment.selected, payment.transaction, s.now⟩ ::
        s.handed }

def sign (selected : PaymentRequirements) (amount : Int) (blockhash signature : String) : Payment :=
  { selected
    transaction :=
      { signer := request.signer, payTo := selected.payTo, asset := selected.asset, amount, blockhash, signature } }

/-- The end of step 17; a throwing callback comes too late. -/
def charge (payment : Payment) (s : Process) : Process :=
  let amount := payment.transaction.amount
  goto i request (.finished (if around.onPaymentThrows then .threw .external else .returned true))
    (match request.shieldCtx with
      | some c =>
          { s with
            contexts :=
              Function.update s.contexts c (recordX402Spend (s.contexts c) s.now payment.selected.asset amount)
            charged := i :: s.charged }
      | none => s)

/-- The head of the `while` loop of `confirmSettlementOnChain`; after a timeout the spend is recorded. -/
def awaitStatus (payment : Payment) (signature : String) (deadline : Int) (s : Process) : Process :=
  if s.now < deadline then s.goto i request (.confirming payment signature deadline)
  else s.charge around i request payment

def onStatus (payment : Payment) (signature : String) (deadline : Int) (status : Option SignatureStatus)
    (s : Process) : Process :=
  match status with
  | none => s.goto i request (.sleeping payment signature deadline)
  | some status =>
      if status.err then
        goto i request (.finished (if around.onPaymentThrows then .threw .external else .returned true))
          { s with failed := signature :: s.failed }
      else if status.confirmationStatus = "confirmed" ∨ status.confirmationStatus = "finalized" then
        s.charge around i request payment
      else s.goto i request (.sleeping payment signature deadline)

/-- Step 17 after the nonce was recorded. -/
def confirm (payment : Payment) (settlement : Option SettleResponse) (s : Process) : Process :=
  let s := { s with recentPayments := recordPaymentAmount s.recentPayments payment.transaction.amount }
  match request.confirmable settlement with
  | some signature =>
      s.awaitStatus around i request payment signature
        (s.now + request.config.confirmPaymentTimeoutMs.getD 10000)
  | none => s.charge around i request payment

/-- From the comparison of the signatures to the record of the nonce. -/
def settle (payment : Payment) (ok : Bool) (settlement : Option SettleResponse) (s : Process) : Process :=
  if mismatched payment settlement ∧ around.onPaymentThrows then s.throws i request .external
  else if ok then
    if request.replayProtection then
      goto i request (.recording payment settlement)
        { s with
          globalNonceTracker := s.globalNonceTracker.record s.now (nonceKey parseUrl request payment.selected)
          recorded := i :: s.recorded }
    else s.confirm around i request payment settlement
  else s.goto i request (.finished (if around.onPaymentThrows then .threw .external else .returned false))

/-- The loop of step 15, and step 16. -/
def onPaymentResponse (payment : Payment) (attempt : Nat) (response : FetchResponse) (s : Process) : Process :=
  if attempt < request.maxRetries ∧ ¬ response.ok then
    s.handOver parseUrl i request payment (attempt + 1)
  else
    match response.paymentResponse with
    | some settlement => s.goto i request (.validating payment response.ok settlement)
    | none => s.settle parseUrl around i request payment response.ok none

/-- A call goes on to its next `await`. -/
def proceed (s : Process) : Phase → Answer → Except TurnError Process
  | .requesting, .response response => pure (s.onResponse parseUrl around i request response)
  | .requesting, .rejected => pure (s.throws i request .external)
  | .checking selected duplicate, .done =>
      pure (if duplicate then s.throws i request (.replay (nonceKey parseUrl request selected))
        else s.authorize around i request selected)
  | .building selected amount, .done => pure (s.goto i request (.fetchingBlockhash selected amount))
  | .building _ _, .rejected => pure (s.throws i request .external)
  | .fetchingBlockhash selected amount, .blockhash blockhash =>
      pure (s.goto i request (.signing selected amount blockhash))
  | .fetchingBlockhash _ _, .rejected => pure (s.throws i request .external)
  | .signing selected amount blockhash, .signed signature =>
      pure (s.handOver parseUrl i request (sign request selected amount blockhash signature) 1)
  | .signing _ _ _, .rejected => pure (s.throws i request .external)
  | .sending payment attempt, .response response =>
      pure (s.onPaymentResponse parseUrl around i request payment attempt response)
  | .sending _ _, .rejected => pure (s.throws i request .external)
  -- a rejection of `validateSettlement` is caught
  | .validating payment ok settlement, .done => pure (s.settle parseUrl around i request payment ok (some settlement))
  | .validating payment ok settlement, .rejected =>
      pure (s.settle parseUrl around i request payment ok (some settlement))
  | .recording payment settlement, .done => pure (s.confirm around i request payment settlement)
  | .confirming payment signature deadline, .status status =>
      pure (s.onStatus around i request payment signature deadline status)
  | .confirming _ _ _, .rejected => pure (s.throws i request .external)
  | .sleeping payment signature deadline, .done => pure (s.awaitStatus around i request payment signature deadline)
  | _, _ => .error .notAwaited

end Process

def Turn.now : Turn → Int
  | .start now _ => now
  | .resume now _ _ _ => now

/-- The call that the turn starts. -/
def Turn.started : Turn → Option FetchRequest
  | .start _ request => some request
  | .resume _ _ _ _ => none

def FetchRequest.begin (request : FetchRequest) : FetchCall :=
  match request.checkUrl with
  | .ok _ => ⟨request, .requesting⟩
  | .error error => ⟨request, .finished (.threw error)⟩

def Process.turn (parseUrl : String → Option String) (t : Turn) (s : Process) : Except TurnError Process := do
  require (s.now ≤ t.now) .clockRunsBackwards
  let s := { s with now := t.now }
  match t with
  | .start _ request => pure { s with calls := s.calls ++ [request.begin] }
  | .resume _ i answer around => do
      let call ← okOr s.calls[i]? .noSuchCall
      s.proceed parseUrl around i call.request call.phase answer

end Sigil.Sdk
