import Sigil.State.Constants

/-!
# Spend of the single agents

The overlay of `state/agent_spend_overlay.rs`: ten slots with 24 hourly buckets each. An empty slot holds
the zero address.
-/

namespace Sigil

open Library

abbrev overlayEpochDuration : Int := 3600
abbrev overlayNumEpochs : Nat := 24
abbrev overlayRollingWindowSeconds : Int := 86400
abbrev maxOverlayEntries : Nat := 10

structure AgentContributionEntry where
  agent : Pubkey := .default
  lastWriteEpoch : Int := 0
  contributions : Fin overlayNumEpochs → Nat := fun _ => 0

structure AgentSpendOverlay where
  entries : Fin maxOverlayEntries → AgentContributionEntry := fun _ => {}
  lifetimeSpend : Fin maxOverlayEntries → Nat := fun _ => 0
  lifetimeTxCount : Fin maxOverlayEntries → Nat := fun _ => 0

def overlayEpochOf (clock : Clock) : Int := clock.unixTimestamp.tdiv overlayEpochDuration

def overlayIndex (epoch : Int) : Fin overlayNumEpochs :=
  Fin.ofNat overlayNumEpochs (epoch.tmod overlayNumEpochs).toNat

namespace AgentSpendOverlay

def findAgentSlot (overlay : AgentSpendOverlay) (agent : Pubkey) : Option (Fin maxOverlayEntries) :=
  (List.finRange maxOverlayEntries).find? fun i => (overlay.entries i).agent = agent

def claimSlot (overlay : AgentSpendOverlay) (agent : Pubkey) : Option AgentSpendOverlay :=
  (overlay.findAgentSlot .default).map fun i =>
    { overlay with entries := Function.update overlay.entries i { overlay.entries i with agent := agent } }

def releaseSlot (overlay : AgentSpendOverlay) (slot : Fin maxOverlayEntries) : AgentSpendOverlay :=
  { entries := Function.update overlay.entries slot {}
    lifetimeSpend := Function.update overlay.lifetimeSpend slot 0
    lifetimeTxCount := Function.update overlay.lifetimeTxCount slot 0 }

/-- The hours between the last write and now hold nothing. -/
def zeroGapBuckets (entry : AgentContributionEntry) (currentEpoch : Int) : AgentContributionEntry :=
  let gap := currentEpoch - entry.lastWriteEpoch
  if gap ≤ 0 then
    entry
  else if gap ≥ overlayNumEpochs then
    { entry with contributions := fun _ => 0 }
  else
    let clear (c : Fin overlayNumEpochs → Nat) (offset : Nat) :=
      Function.update c (overlayIndex (entry.lastWriteEpoch + offset + 1)) 0
    { entry with contributions := (List.range gap.toNat).foldl clear entry.contributions }

/-- The loop over `k`, from the last written hour backwards, with its early exits. -/
def sumContributions (entry : AgentContributionEntry) (currentEpoch windowStartTs : Int) :
    List Nat → Nat → Nat
  | [], total => total
  | k :: ks, total =>
      let epoch := entry.lastWriteEpoch - k
      let bucketStart := epoch * overlayEpochDuration
      let bucketEnd := bucketStart + overlayEpochDuration
      if epoch < 0 ∨ bucketEnd ≤ windowStartTs then
        total
      else if epoch > currentEpoch then
        sumContributions entry currentEpoch windowStartTs ks total
      else
        let contribution := entry.contributions (overlayIndex epoch)
        let counted := if bucketStart ≥ windowStartTs then contribution
          else saturatingMul 128 contribution (bucketEnd - windowStartTs).toNat / overlayEpochDuration.toNat
        sumContributions entry currentEpoch windowStartTs ks (saturatingAdd 128 total counted)

def getAgentRolling24hUsd (overlay : AgentSpendOverlay) (clock : Clock) (slot : Fin maxOverlayEntries) : Nat :=
  let entry := overlay.entries slot
  if clock.unixTimestamp ≤ 0 then
    0
  else if overlayEpochOf clock - entry.lastWriteEpoch > overlayNumEpochs then
    0
  else
    let windowStartTs := saturatingSubI64 clock.unixTimestamp overlayRollingWindowSeconds
    min (sumContributions entry (overlayEpochOf clock) windowStartTs (List.range overlayNumEpochs) 0) (uMax 64)

def recordAgentContribution (overlay : AgentSpendOverlay) (clock : Clock) (slot : Fin maxOverlayEntries)
    (usdAmount : Nat) : Result AgentSpendOverlay := do
  let currentEpoch := overlayEpochOf clock
  let entry := zeroGapBuckets (overlay.entries slot) currentEpoch
  let idx := overlayIndex currentEpoch
  let amount ← okOr (checkedAdd 64 (entry.contributions idx) usdAmount) SigilError.overflow
  let entry' := { entry with
    lastWriteEpoch := currentEpoch
    contributions := Function.update entry.contributions idx amount }
  pure { overlay with entries := Function.update overlay.entries slot entry' }

/-! ## Overflow checks

The release build checks every operation on 64 bits. `get_agent_rolling_24h_usd` multiplies and adds without
saturation: where the result does not fit, it panics. -/

/-- The loop over `k`; `none` stands for a panic. -/
def checkedContributions (entry : AgentContributionEntry) (currentEpoch windowStartTs : Int) :
    List Nat → Nat → Option Nat
  | [], total => some total
  | k :: ks, total => do
      let epoch ← checkedSubI64 entry.lastWriteEpoch k
      if epoch < 0 then
        some total
      else do
        let product ← checkedMulI64 epoch overlayEpochDuration
        let bucketEnd ← checkedAddI64 product overlayEpochDuration
        if bucketEnd ≤ windowStartTs then
          some total
        else if epoch > currentEpoch then
          checkedContributions entry currentEpoch windowStartTs ks total
        else
          let contribution := entry.contributions (overlayIndex epoch)
          if contribution = 0 then
            checkedContributions entry currentEpoch windowStartTs ks total
          else if product ≥ windowStartTs then
            checkedContributions entry currentEpoch windowStartTs ks (saturatingAdd 128 total contribution)
          else do
            let overlap ← checkedSubI64 bucketEnd windowStartTs
            let scaled := saturatingMul 128 contribution overlap.toNat / overlayEpochDuration.toNat
            checkedContributions entry currentEpoch windowStartTs ks (saturatingAdd 128 total scaled)

def checkedAgentRolling24hUsd (overlay : AgentSpendOverlay) (clock : Clock) (slot : Fin maxOverlayEntries) :
    Option Nat :=
  let entry := overlay.entries slot
  if clock.unixTimestamp ≤ 0 then
    some 0
  else do
    let age ← checkedSubI64 (overlayEpochOf clock) entry.lastWriteEpoch
    if age > overlayNumEpochs then
      some 0
    else do
      let windowStartTs := saturatingSubI64 clock.unixTimestamp overlayRollingWindowSeconds
      let total ← checkedContributions entry (overlayEpochOf clock) windowStartTs (List.range overlayNumEpochs) 0
      some (min total (uMax 64))

end AgentSpendOverlay

end Sigil
