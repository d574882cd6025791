import Sigil.Library.Result
import Sigil.Library.Machine
import Sigil.State.Errors
import Sigil.State.Pubkey

/-!
# Constants, the clock and amounts

The constants and the helpers of `state/mod.rs` and `instructions/utils.rs`.
-/

namespace Sigil

open Library

abbrev maxAgentsPerVault : Nat := 10
abbrev maxAllowedProtocols : Nat := 10
abbrev maxAllowedDestinations : Nat := 10

abbrev sessionDurationSeconds : Nat := 30
abbrev minSessionDurationSeconds : Nat := 5
abbrev maxOwnerSessionDurationSeconds : Nat := 90

abbrev feeRateDenominator : Nat := 1000000
abbrev protocolFeeRate : Nat := 200
abbrev maxDeveloperFeeRate : Nat := 500
abbrev maxSlippageBps : Nat := 5000

abbrev maxEscrowDuration : Int := 2592000
abbrev minTimelockDuration : Nat := 1800
abbrev maxApplyAgeSlots : Nat := 216000

abbrev usdDecimals : Nat := 6

abbrev capabilityDisabled : Nat := 0
abbrev capabilityObserver : Nat := 1
abbrev capabilityOperator : Nat := 2
abbrev fullCapability : Nat := capabilityOperator

abbrev protocolModeAll : Nat := 0
abbrev protocolModeAllowlist : Nat := 1
abbrev protocolModeDenylist : Nat := 2

abbrev destinationModeRestricted : Nat := 0
abbrev destinationModeOpenWithCap : Nat := 1

/-- The clock sysvar. The time is an `i64` and the slot a `u64`. -/
structure Clock where
  unixTimestamp : Int
  slot : Nat
  timestamp_range : i64Min ≤ unixTimestamp ∧ unixTimestamp ≤ i64Max := by decide
  slot_range : slot ≤ uMax 64 := by decide

/-- Fee rounded up. -/
def ceilFee (amount rate : Nat) : Result Nat := do
  let product ← okOr (checkedMul 64 amount rate) SigilError.overflow
  let padded ← okOr (checkedAdd 64 product (feeRateDenominator - 1)) SigilError.overflow
  pure (padded / feeRateDenominator)

/-- Amount of a stablecoin in USD with six decimals. -/
def stablecoinToUsd (amount tokenDecimals : Nat) : Result Nat :=
  if tokenDecimals = usdDecimals then
    pure amount
  else if tokenDecimals < usdDecimals then
    okOr (checkedMul 64 amount (10 ^ (usdDecimals - tokenDecimals))) SigilError.overflow
  else do
    let divisor := 10 ^ (tokenDecimals - usdDecimals)
    require (divisor ≤ uMax 64) SigilError.overflow
    pure (amount / divisor)

end Sigil
