import Sigil.Sdk.Dashboard
import Sigil.State.Overlay

/-!
# Readings of the SDK

The pure functions of `state-resolver.ts` on decoded accounts. A `bigint` is an integer without bounds.
-/

namespace Sigil.Sdk

open Library

abbrev u64Max : Int := 18446744073709551615
abbrev epochDuration : Int := 600
abbrev numEpochs : Int := 144
abbrev overlayEpochDuration : Int := 3600
abbrev overlayNumEpochs : Int := 24
abbrev rollingWindowSeconds : Int := 86400

/-- `windowStart` does not become negative. -/
def windowStart (nowUnix : Int) : Int := if nowUnix > rollingWindowSeconds then nowUnix - rollingWindowSeconds else 0

/-- `total > U64_MAX ? U64_MAX : total`. -/
def clampU64 (total : Int) : Int := if total > u64Max then u64Max else total

/-- One turn of the loop over the buckets. -/
def addBucket (currentEpoch windowStart total : Int) (bucket : EpochBucket) : Int :=
  if bucket.usdAmount = 0 then total
  else
    let bucketStart := bucket.epochId * epochDuration
    let bucketEnd := bucketStart + epochDuration
    if bucketEnd ≤ windowStart ∨ bucket.epochId > currentEpoch then total
    else if bucketStart ≥ windowStart then total + bucket.usdAmount
    else total + (bucket.usdAmount * (bucketEnd - windowStart)).tdiv epochDuration

def getRolling24hUsd (tracker : SpendTracker) (nowUnix : Int) : Int :=
  if nowUnix ≤ 0 then 0
  else
    let currentEpoch := nowUnix.tdiv epochDuration
    if currentEpoch - tracker.lastWriteEpoch > numEpochs then 0
    else
      clampU64 (((List.finRange 144).map tracker.buckets).foldl (addBucket currentEpoch (windowStart nowUnix)) 0)

def contributionIndex (epochForK : Int) : Fin 24 :=
  ⟨(epochForK.tmod overlayNumEpochs).toNat % 24, Nat.mod_lt _ (Nat.succ_pos 23)⟩

/-- The loop over `k`, with its early exits. -/
def sumContributions (entry : AgentContributionEntry) (currentEpoch windowStart : Int) : List Nat → Int → Int
  | [], total => total
  | k :: ks, total =>
      let epochForK := entry.lastWriteEpoch - k
      if epochForK < 0 then total
      else
        let bucketStart := epochForK * overlayEpochDuration
        let bucketEnd := bucketStart + overlayEpochDuration
        if bucketEnd ≤ windowStart then total
        else if epochForK > currentEpoch then sumContributions entry currentEpoch windowStart ks total
        else
          let contribution := entry.contributions (contributionIndex epochForK)
          if contribution = 0 then sumContributions entry currentEpoch windowStart ks total
          else if bucketStart ≥ windowStart then
            sumContributions entry currentEpoch windowStart ks (total + contribution)
          else
            sumContributions entry currentEpoch windowStart ks
              (total + (contribution * (bucketEnd - windowStart)).tdiv overlayEpochDuration)

def getAgentRolling24hUsd (entry : AgentContributionEntry) (nowUnix : Int) : Int :=
  if nowUnix ≤ 0 then 0
  else
    let currentEpoch := nowUnix.tdiv overlayEpochDuration
    if currentEpoch - entry.lastWriteEpoch > overlayNumEpochs then 0
    else clampU64 (sumContributions entry currentEpoch (windowStart nowUnix) (List.range 24) 0)

def getProtocolSpend (tracker : SpendTracker) (protocolAddress : Pubkey) (nowUnix : Int) : Int :=
  if nowUnix ≤ 0 then 0
  else
    let currentEpoch := nowUnix.tdiv epochDuration
    match ((List.finRange maxAllowedProtocols).map tracker.protocolCounters).find? fun counter =>
      counter.protocol = protocolAddress with
    | some counter => if currentEpoch - counter.windowStart < numEpochs then counter.windowSpend else 0
    | none => 0

/-! ## Resolved vaults -/

/-- What `resolveVaultState` gives to the shield and to `seal`. -/
structure ResolvedVaultState where
  vault : AgentVault
  policy : PolicyConfig
  globalBudget : EffectiveBudget
  /-- `none` if the agent has no limit of its own. -/
  agentBudget : Option EffectiveBudget
  maxTransactionUsd : Int
  resolvedAtTimestamp : Int

/-- The budget of the vault, of a vault that has a tracker. -/
def resolveGlobalBudget (policy : PolicyConfig) (tracker : SpendTracker) (timestamp : Int) : EffectiveBudget :=
  let globalSpent := getRolling24hUsd tracker timestamp
  let globalCap : Int := policy.dailySpendingCapUsd
  { spent24h := globalSpent
    cap := globalCap
    remaining := if globalCap > globalSpent then globalCap - globalSpent else 0 }

end Sigil.Sdk
