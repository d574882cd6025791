import Mathlib.Data.List.Sort
import Sigil.Library.Result
import Sigil.Sdk.ShieldState
import Sigil.Sdk.Strings

/-!
# Payments over HTTP 402

The checks of the modules under `x402/`. A header is taken after base64 and JSON have been decoded; `new URL` is a
parameter.
-/

namespace Sigil.Sdk

open Library

/-- One of the payments that the server accepts. -/
structure PaymentRequirements where
  network : String
  asset : String
  amount : String
  payTo : String
  deriving DecidableEq, Repr

/-- A value that is no string is one that no transaction has as its signature. -/
structure SettleResponse where
  transaction : Option String
  deriving DecidableEq, Repr

structure X402Config where
  allowedDestinations : Option (List String)
  allowedTokens : Option (List String)
  maxPaymentPerRequest : Option Int
  maxCumulativeSpend : Option Int
  cumulativeWindowMs : Option Int
  maxRetries : Option Int
  enableReplayProtection : Option Bool
  allowInsecureUrls : Bool
  confirmPayment : Option Bool
  confirmPaymentTimeoutMs : Option Int
  deriving DecidableEq, Repr

/-- No configuration. -/
def X402Config.default : X402Config :=
  { allowedDestinations := none
    allowedTokens := none
    maxPaymentPerRequest := none
    maxCumulativeSpend := none
    cumulativeWindowMs := none
    maxRetries := none
    enableReplayProtection := none
    allowInsecureUrls := false
    confirmPayment := none
    confirmPaymentTimeoutMs := none }

/-- What `evaluateX402Payment` finds. -/
inductive Violation where
  /-- "Cumulative x402 spend … exceeds limit … in …ms window" -/
  | cumulativeSpend (spend limit windowMs : Int)
  /-- "Payment … exceeds per-request ceiling …" -/
  | perRequestCeiling (amount : String) (limit : Int)
  | shield (message : String)
  deriving DecidableEq, Repr

inductive X402Error where
  /-- "Only HTTPS URLs are supported for x402 payments. …" -/
  | httpsOnly
  /-- "Only HTTP/HTTPS URLs are supported for x402 payments" -/
  | httpOnly
  /-- "Payment already attempted — refusing to retry to prevent infinite loops" -/
  | alreadyAttempted
  /-- "Failed to decode PAYMENT-REQUIRED header: …", or a field of another type -/
  | undecodable
  /-- "accepts must be a non-empty array" -/
  | noAccepts
  /-- "accepts[…].amount must be a non-empty string" -/
  | emptyAmount (index : Nat)
  /-- "accepts[…].amount must be a valid integer string …" -/
  | noInteger (index : Nat)
  /-- "accepts[…].amount must be non-negative …" -/
  | negative (index : Nat)
  /-- "accepts[…].amount exceeds u64 max …" -/
  | exceedsU64 (index : Nat)
  /-- "No compatible Solana payment option found in accepts array" -/
  | unsupported
  /-- `X402DestinationBlockedError` -/
  | destinationBlocked (payTo : String)
  /-- `X402ReplayError` -/
  | replay (nonceKey : String)
  /-- "Invalid payment amount: … is not a valid integer" -/
  | invalidAmount (amount : String)
  /-- "Invalid payment amount: … must be positive" -/
  | notPositive (amount : String)
  /-- "Payment amount … exceeds per-request ceiling …" -/
  | exceedsCeiling (amount : String) (limit : Int)
  /-- "Suspicious payment spike: … is > 10x the median of recent payments (…)" -/
  | spike (amount : String) (median : Int)
  /-- "Server requires … but maxPayment is …" -/
  | exceedsMaxPayment (amount : String) (limit : Int)
  /-- "Shield is paused — all x402 payments are blocked until resume()" -/
  | paused
  /-- "x402 payment denied by policy: …" -/
  | denied (violations : List Violation)
  /-- "RPC connection required for x402 payments. Pass rpc in options." -/
  | rpcRequired
  /-- what a promise was rejected with, or a callback threw -/
  | external
  deriving DecidableEq, Repr

/-! ## The demand -/

/-- Each amount is checked in turn. -/
def checkAccepts : Nat → List PaymentRequirements → Except X402Error Unit
  | _, [] => pure ()
  | i, entry :: entries => do
      require (entry.amount ≠ "") (.emptyAmount i)
      let parsed ← okOr (bigInt entry.amount) (.noInteger i)
      require (0 ≤ parsed) (.negative i)
      require (parsed ≤ 18446744073709551615) (.exceedsU64 i)
      checkAccepts (i + 1) entries

/-- `none` stands for a header that is not the encoding of an object with fields of the right types. -/
def decodePaymentRequiredHeader (header : Option (List PaymentRequirements)) :
    Except X402Error (List PaymentRequirements) := do
  let accepts ← okOr header .undecodable
  require (accepts ≠ []) .noAccepts
  checkAccepts 0 accepts
  pure accepts

/-- The loop over the options; `blocked` is the first Solana option passed over. -/
def selectFrom (config : X402Config) : List PaymentRequirements → Option PaymentRequirements →
    Except X402Error PaymentRequirements
  | [], some option => .error (.destinationBlocked option.payTo)
  | [], none => .error .unsupported
  | option :: options, blocked =>
      if !startsWith option.network "solana:" then selectFrom config options blocked
      else if config.allowedTokens.any (!·.contains option.asset) then selectFrom config options blocked
      else if config.allowedDestinations.any (!·.contains option.payTo) then
        selectFrom config options (blocked.or (some option))
      else .ok option

def selectPaymentOption (accepts : List PaymentRequirements) (config : X402Config) :
    Except X402Error PaymentRequirements :=
  selectFrom config accepts none

/-! ## Replay protection -/

abbrev defaultTtlMs : Int := 300000

/-- The entries in memory: a key and when it expires. -/
structure NonceTracker where
  entries : String → Option Int

namespace NonceTracker

/-- `parseUrl` is what `new URL` reads with the query taken out, and `none` where it throws. -/
def buildKey (parseUrl : String → Option String) (url payTo amount : String) : String :=
  let normalizedUrl :=
    match parseUrl url with
    | some parsed => if parsed.toList.getLast? = some '/' then String.ofList parsed.toList.dropLast else parsed
    | none => url
  normalizedUrl ++ "|" ++ payTo ++ "|" ++ amount

def empty : NonceTracker := ⟨fun _ => none⟩

/-- Expired entries are deleted. -/
def gc (tracker : NonceTracker) (now : Int) : NonceTracker :=
  ⟨fun key => (tracker.entries key).filter fun expiresAt => now ≤ expiresAt⟩

def has (tracker : NonceTracker) (key : String) : Bool := (tracker.entries key).isSome

/-- The answer of `isDuplicate`, which collects garbage first. -/
def isDuplicate (tracker : NonceTracker) (now : Int) (key : String) : Bool := (tracker.gc now).has key

def record (tracker : NonceTracker) (now : Int) (key : String) : NonceTracker :=
  ⟨Function.update tracker.entries key (some (now + defaultTtlMs))⟩

end NonceTracker

/-! ## Amounts -/

abbrev maxRecent : Nat := 20
abbrev spikeMultiplier : Int := 10

def getMedian (payments : List Int) : Int :=
  let sorted := payments.insertionSort (· ≤ ·)
  let mid := sorted.length / 2
  if sorted.length % 2 = 0 then (sorted.getD (mid - 1) 0 + sorted.getD mid 0).tdiv 2 else sorted.getD mid 0

/-- A limit that is not set lets everything pass. -/
def requireAtMost (limit : Option Int) (value : Int) (error : Int → X402Error) : Except X402Error Unit :=
  match limit with
  | some limit => require (value ≤ limit) (error limit)
  | none => pure ()

def validatePaymentAmount (recentPayments : List Int) (amount : String) (config : X402Config) :
    Except X402Error Int := do
  let parsed ← okOr (bigInt amount) (.invalidAmount amount)
  require (0 < parsed) (.notPositive amount)
  requireAtMost config.maxPaymentPerRequest parsed (.exceedsCeiling amount)
  let median := getMedian recentPayments
  require (recentPayments.length ≥ 3 → 0 < median → parsed ≤ median * spikeMultiplier) (.spike amount median)
  pure parsed

def recordPaymentAmount (recentPayments : List Int) (amount : Int) : List Int :=
  let payments := recentPayments ++ [amount]
  if payments.length > maxRecent then payments.tail else payments

/-! ## The policy bridge -/

def checkCumulativeSpend (now : Int) (selected : PaymentRequirements) (state : ShieldState) (config : X402Config) :
    Except X402Error (List Violation) :=
  match config.maxCumulativeSpend with
  | some limit => do
      let windowMs := config.cumulativeWindowMs.getD dayMs
      let paymentAmount ← okOr (bigInt selected.amount) .external
      let spend := state.getTotalSpendInWindow now windowMs + paymentAmount
      pure (if spend > limit then [.cumulativeSpend spend limit windowMs] else [])
  | none => pure []

def checkPerRequest (selected : PaymentRequirements) (config : X402Config) : Except X402Error (List Violation) :=
  match config.maxPaymentPerRequest with
  | some limit => do
      let paymentAmount ← okOr (bigInt selected.amount) .external
      pure (if paymentAmount > limit then [.perRequestCeiling selected.amount limit] else [])
  | none => pure []

/-- `checked` is what `shieldCtx.check` answers for the synthetic transfer. -/
def evaluateX402Payment (now : Int) (selected : PaymentRequirements) (state : ShieldState) (isPaused : Bool)
    (checked : List String) (config : X402Config) (signerAddress : String) : Except X402Error (List Violation) := do
  require (¬ isPaused) .paused
  let cumulative ← checkCumulativeSpend now selected state config
  let ceiling ← checkPerRequest selected config
  let shield := if signerAddress ≠ "" then checked.map .shield else []
  pure (cumulative ++ ceiling ++ shield)

def recordX402Spend (state : ShieldState) (now : Int) (asset : String) (amount : Int) : ShieldState :=
  (state.recordSpend now asset amount).recordTransaction now

end Sigil.Sdk
