import Sigil.Instructions.Timelock
import Sigil.Sdk.Dashboard
import Sigil.Sdk.PostAssertionValidation

/-!
# Queueing a change of the policy

`queuePolicyUpdate` of `dashboard/mutations.ts`, up to the arguments of the instruction.
-/

namespace Sigil.Sdk

open Library

inductive MutationError where
  /-- "At least one policy change is required" -/
  | noChange
  /-- "Timelock must be >= 1800 seconds (30 minutes). …" -/
  | timelockTooShort (got : JsNumber)
  /-- "… must be positive, got …" -/
  | notPositive (field : String) (amount : Int)
  /-- "… exceeds u64 maximum …" -/
  | aboveMaximum (field : String)
  /-- "Developer fee rate cannot exceed 500 BPS (0.05%). …" -/
  | developerFeeTooHigh (got : JsNumber)
  /-- "approvedApps length exceeds on-chain MAX_ALLOWED_PROTOCOLS (10). …" -/
  | tooManyApps (got : Nat)
  /-- `BigInt` of a number that is no integer -/
  | notInteger (got : JsNumber)
  /-- A codec refuses the value. -/
  | notEncodable
  deriving DecidableEq

def requirePositiveAmount (amount : Int) (field : String) : Except MutationError Unit := do
  require (amount > 0) (.notPositive field amount)
  require (amount ≤ 18446744073709551615) (.aboveMaximum field)

def mapProtocolMode : ProtocolMode → UInt8
  | .unrestricted => 0
  | .whitelist => 1
  | .blacklist => 2

/-- A check of a field that is given. -/
def checkGiven {α : Type} (check : α → Except MutationError Unit) : Option α → Except MutationError Unit
  | none => pure ()
  | some x => check x

/-- `null` for a field that is not given. -/
def encodeGiven {α β : Type} (encode : α → Option β) : Option α → Except MutationError (Option β)
  | none => pure none
  | some x => do
      let y ← okOr (encode x) .notEncodable
      pure (some y)

/-- The encoders of small numbers: the range is checked of the number itself, its fraction is not written. -/
def numberEncoder (max : Nat) (x : JsNumber) : Option Nat :=
  if x.lt 0 || x.gt max then none else some x.toUint32

/-- `getU8Encoder` -/
def u8Encoder (x : JsNumber) : Option UInt8 := (numberEncoder 255 x).map UInt8.ofNat

/-- `getU16Encoder` -/
def u16Encoder (x : JsNumber) : Option UInt16 := (numberEncoder 65535 x).map UInt16.ofNat

/-- `BigInt` of a number. -/
def bigIntOfNumber (x : JsNumber) : Except MutationError Int :=
  match x with
  | .finite y => do
      require ((y.value.floor : ℚ) = y.value) (.notInteger x)
      pure y.value.floor
  | .nan => .error (.notInteger x)
  | .infinity _ => .error (.notInteger x)

def encodeTimelock (codecs : Codecs) : Option JsNumber → Except MutationError (Option UInt64)
  | none => pure none
  | some x => do
      let seconds ← bigIntOfNumber x
      encodeGiven codecs.u64 (some seconds)

def checkChanges (changes : PolicyChanges JsNumber) : Except MutationError Unit := do
  require (changes ≠ {}) .noChange
  checkGiven (fun x => require (¬ x.lt 1800) (.timelockTooShort x)) changes.timelock
  checkGiven (requirePositiveAmount · "Daily cap") changes.dailyCap
  checkGiven (requirePositiveAmount · "Max per trade") changes.maxPerTrade
  checkGiven (fun x => require (¬ x.gt 500) (.developerFeeTooHigh x)) changes.developerFeeRate
  checkGiven (fun l : List String => require (l.length ≤ maxAllowedProtocols) (.tooManyApps l.length))
    changes.approvedApps

def queuePolicyUpdate (codecs : Codecs) (changes : PolicyChanges JsNumber) : Except MutationError PolicyUpdate := do
  checkChanges changes
  let dailySpendingCapUsd ← encodeGiven codecs.u64 changes.dailyCap
  let maxTransactionAmountUsd ← encodeGiven codecs.u64 changes.maxPerTrade
  let protocols ← encodeGiven (List.mapM codecs.address) changes.approvedApps
  let developerFeeRate ← encodeGiven u16Encoder changes.developerFeeRate
  let maxSlippageBps ← encodeGiven u16Encoder changes.maxSlippageBps
  let timelockDuration ← encodeTimelock codecs changes.timelock
  let allowedDestinations ← encodeGiven (List.mapM codecs.address) changes.allowedDestinations
  let sessionExpirySeconds ← encodeGiven codecs.u64 changes.sessionExpirySeconds
  let protocolCaps ← encodeGiven (List.mapM codecs.u64) changes.protocolCaps
  let destinationMode ← encodeGiven u8Encoder changes.destinationMode
  pure { dailySpendingCapUsd := dailySpendingCapUsd
         maxTransactionAmountUsd := maxTransactionAmountUsd
         protocolMode := changes.protocolMode.map mapProtocolMode
         protocols := protocols
         developerFeeRate := developerFeeRate
         maxSlippageBps := maxSlippageBps
         timelockDuration := timelockDuration
         allowedDestinations := allowedDestinations
         sessionExpirySeconds := sessionExpirySeconds
         hasProtocolCaps := changes.hasProtocolCaps
         protocolCaps := protocolCaps
         destinationMode := destinationMode }

end Sigil.Sdk
