import Sigil.Library.Double
import Sigil.Library.Result
import Sigil.Sdk.Addresses
import Sigil.Sdk.Strings

/-!
# Policies of the client

`resolvePolicies` of `core/policies.ts`, and `mapPoliciesToVaultParams` of `inscribe.ts`, which turns the resolved
policies into the arguments of a new vault. A `Set` is the list of its elements in the order of insertion.
-/

namespace Sigil.Sdk

open Library

structure SpendLimit where
  mint : Pubkey
  /-- In the native decimals of the token. -/
  amount : Int
  windowMs : Option Int
  deriving DecidableEq, Repr

/-- An object, or a text such as "500 USDC/day". -/
inductive LimitInput where
  | limit (l : SpendLimit)
  | text (s : String)
  deriving DecidableEq, Repr

inductive SizeInput where
  | amount (n : Int)
  | text (s : String)
  deriving DecidableEq, Repr

structure RateLimitConfig where
  maxTransactions : Int
  windowMs : Option Int
  deriving DecidableEq, Repr

/-- A single limit is the list of one limit. -/
structure ShieldPolicies where
  maxSpend : Option (List LimitInput) := none
  maxTransactionSize : Option SizeInput := none
  allowedProtocols : Option (List Pubkey) := none
  allowedTokens : Option (List Pubkey) := none
  blockUnknownPrograms : Option Bool := none
  rateLimit : Option RateLimitConfig := none
  deriving DecidableEq, Repr

structure ResolvedPolicies where
  spendLimits : List SpendLimit
  maxTransactionSize : Option Int
  allowedProtocols : Option (List Pubkey)
  allowedTokens : Option (List Pubkey)
  blockUnknownPrograms : Bool
  maxTransactions : Int
  rateWindowMs : Int
  deriving DecidableEq, Repr

inductive PolicyError where
  /-- "Invalid spend limit format: …" -/
  | invalidFormat (input : String)
  /-- "Unknown time window: …" -/
  | unknownWindow (window : List Char)
  /-- "Unknown token symbol: …" -/
  | unknownSymbol (symbol : List Char)
  /-- `BigInt` of an infinite number -/
  | infinite
  deriving DecidableEq, Repr

def defaultWindowMs : Int := 86400000

/-- `DEFAULT_POLICIES.maxSpend` -/
def defaultMaxSpend : List SpendLimit :=
  [{ mint := usdcMintMainnet, amount := 1000000000, windowMs := some defaultWindowMs },
   { mint := usdtMintMainnet, amount := 1000000000, windowMs := some defaultWindowMs },
   { mint := solMint, amount := 10000000000, windowMs := some defaultWindowMs }]

/-! ## Limits as texts -/

def windowAlias (window : List Char) : Option Int :=
  match String.ofList window with
  | "/day" => some 86400000
  | "/hour" => some 3600000
  | "/hr" => some 3600000
  | "/min" => some 60000
  | "/minute" => some 60000
  | _ => none

/-- `\w`: a letter, a digit or an underscore. -/
def isWordChar (c : Char) : Bool := c.isAlphanum || c = '_'

structure LimitText where
  whole : List Char
  fraction : List Char
  symbol : List Char
  window : List Char
  deriving DecidableEq, Repr

/-- The match of `^(\d+(?:\.\d+)?)\s+(\w+)(\/\w+)?$`. -/
def matchLimit (cs : List Char) : Option LimitText :=
  let whole := cs.takeWhile Char.isDigit
  let rest := cs.drop whole.length
  let fraction := if rest.head? = some '.' then (rest.drop 1).takeWhile Char.isDigit else []
  let rest := if fraction = [] then rest else rest.drop (fraction.length + 1)
  let space := rest.takeWhile isWhiteSpace
  let rest := rest.drop space.length
  let symbol := rest.takeWhile isWordChar
  let window := rest.drop symbol.length
  if whole ≠ [] ∧ space ≠ [] ∧ symbol ≠ [] ∧
      (window = [] ∨ window.head? = some '/' ∧ window.tail ≠ [] ∧ window.tail.all isWordChar) then
    some ⟨whole, fraction, symbol, window⟩
  else none

/-- `parseFloat` of digits with a fraction. -/
def parseFloat (whole fraction : List Char) : ℚ :=
  Double.round ((((whole ++ fraction).foldl (fun n c => n * 10 + (c.toNat - 48)) 0 : Nat) : ℚ) / 10 ^ fraction.length)

def parseWindow (window : List Char) : Except PolicyError Int :=
  if window = [] then pure defaultWindowMs else okOr (windowAlias window) (.unknownWindow window)

def parseSpendLimit (input : String) : Except PolicyError SpendLimit := do
  let parts ← okOr (matchLimit (trim input.toList)) (.invalidFormat input)
  let windowMs ← parseWindow parts.window
  let token ← okOr (knownTokens.find? fun token =>
    token.symbol.toList.map Char.toUpper = parts.symbol.map Char.toUpper) (.unknownSymbol parts.symbol)
  let amountFloat := parseFloat parts.whole parts.fraction
  let scaled := Double.round (amountFloat * 10 ^ token.decimals)
  require (amountFloat < Double.limit ∧ scaled < Double.limit) .infinite
  pure { mint := token.mint, amount := Double.mathRound scaled, windowMs := some windowMs }

/-! ## Resolution -/

def LimitInput.resolve : LimitInput → Except PolicyError SpendLimit
  | .limit l => pure l
  | .text s => parseSpendLimit s

def SizeInput.resolve : SizeInput → Except PolicyError Int
  | .amount n => pure n
  | .text s => do
      let limit ← parseSpendLimit s
      pure limit.amount

def resolveSpendLimits : Option (List LimitInput) → Except PolicyError (List SpendLimit)
  | some limits => limits.mapM LimitInput.resolve
  | none => pure defaultMaxSpend

/-- Without an input the defaults are in force. -/
def resolvePolicies (input : Option ShieldPolicies) : Except PolicyError ResolvedPolicies := do
  let input := input.getD {}
  let spendLimits ← resolveSpendLimits input.maxSpend
  let maxTransactionSize ← input.maxTransactionSize.mapM SizeInput.resolve
  pure { spendLimits := spendLimits
         maxTransactionSize := maxTransactionSize
         allowedProtocols := input.allowedProtocols.map List.eraseDups
         allowedTokens := input.allowedTokens.map List.eraseDups
         blockUnknownPrograms := input.blockUnknownPrograms.getD true
         maxTransactions := (input.rateLimit.map RateLimitConfig.maxTransactions).getD 60
         rateWindowMs := (input.rateLimit.bind RateLimitConfig.windowMs).getD 3600000 }

/-! ## Arguments of a vault -/

structure MapOptions where
  developerFeeRate : Option Nat := none
  timelockDuration : Option Nat := none
  allowedDestinations : Option (List Pubkey) := none
  maxSlippageBps : Option Nat := none
  deriving DecidableEq, Repr

structure VaultParams where
  vaultId : Int
  dailySpendingCap : Int
  maxTransactionSize : Int
  protocolMode : Nat
  protocols : List Pubkey
  feeDestination : Pubkey
  developerFeeRate : Nat
  timelockDuration : Nat
  allowedDestinations : List Pubkey
  maxSlippageBps : Nat
  deriving DecidableEq, Repr

/-- The loop over the limits. -/
def largestAmount (limits : List SpendLimit) : Int :=
  limits.foldl (fun maxCap limit => if limit.amount > maxCap then limit.amount else maxCap) 0

def mapPoliciesToVaultParams (resolved : ResolvedPolicies) (vaultId : Int) (feeDestination : Pubkey)
    (opts : MapOptions) : VaultParams :=
  let maxCap := largestAmount resolved.spendLimits
  let protocols := (resolved.allowedProtocols.getD []).take 10
  { vaultId := vaultId
    dailySpendingCap := maxCap
    maxTransactionSize := resolved.maxTransactionSize.getD maxCap
    protocolMode := if protocols.length > 0 then 1 else 0
    protocols := protocols
    feeDestination := feeDestination
    developerFeeRate := opts.developerFeeRate.getD 0
    timelockDuration := opts.timelockDuration.getD 0
    allowedDestinations := opts.allowedDestinations.getD []
    maxSlippageBps := opts.maxSlippageBps.getD 100 }

end Sigil.Sdk
