import Sigil.State.Constants

/-!
# Rolling spend tracker

The ring of `state/tracker.rs`: 144 buckets of ten minutes, indexed by epoch, and the counters of the
protocols.
-/

namespace Sigil

open Library

abbrev epochDuration : Int := 600
abbrev numEpochs : Nat := 144
abbrev rollingWindowSeconds : Int := 86400

structure EpochBucket where
  epochId : Int := 0
  usdAmount : Nat := 0
  deriving DecidableEq, Repr

structure ProtocolSpendCounter where
  protocol : Pubkey := .default
  windowStart : Int := 0
  windowSpend : Nat := 0
  deriving DecidableEq, Repr

structure SpendTracker where
  buckets : Fin numEpochs → EpochBucket := fun _ => {}
  protocolCounters : Fin maxAllowedProtocols → ProtocolSpendCounter := fun _ => {}
  lastWriteEpoch : Int := 0

/-- Epoch of a time: division truncates towards zero. -/
def epochOf (clock : Clock) : Int := clock.unixTimestamp.tdiv epochDuration

/-- Slot of an epoch in the ring. -/
def bucketIndex (epoch : Int) : Fin numEpochs := Fin.ofNat numEpochs (epoch.tmod numEpochs).toNat

namespace SpendTracker

def recordSpend (tracker : SpendTracker) (clock : Clock) (usdAmount : Nat) : Result SpendTracker := do
  require (clock.unixTimestamp > 0) SigilError.overflow
  let currentEpoch := epochOf clock
  let idx := bucketIndex currentEpoch
  let bucket := if (tracker.buckets idx).epochId = currentEpoch then tracker.buckets idx
    else { epochId := currentEpoch, usdAmount := 0 }
  let amount ← okOr (checkedAdd 64 bucket.usdAmount usdAmount) SigilError.overflow
  pure { tracker with
    buckets := Function.update tracker.buckets idx { bucket with usdAmount := amount }
    lastWriteEpoch := currentEpoch }

/-- One turn of the loop over the buckets. -/
def addBucket (currentEpoch windowStartTs : Int) (total : Nat) (bucket : EpochBucket) : Nat :=
  let bucketStart := saturatingMulI64 bucket.epochId epochDuration
  let bucketEnd := saturatingAddI64 bucketStart epochDuration
  if bucket.usdAmount = 0 then
    total
  else if bucketEnd ≤ windowStartTs ∨ bucket.epochId > currentEpoch then
    total
  else if bucketStart ≥ windowStartTs then
    saturatingAdd 128 total bucket.usdAmount
  else
    let overlap := (bucketEnd - windowStartTs).toNat
    let scaled := saturatingMul 128 bucket.usdAmount overlap / epochDuration.toNat
    saturatingAdd 128 total scaled

def getRolling24hUsd (tracker : SpendTracker) (clock : Clock) : Nat :=
  if clock.unixTimestamp ≤ 0 then
    0
  else if epochOf clock - tracker.lastWriteEpoch > numEpochs then
    -- no write for more than 144 epochs: everything has expired
    0
  else
    let windowStartTs := saturatingSubI64 clock.unixTimestamp rollingWindowSeconds
    let total := ((List.finRange numEpochs).map tracker.buckets).foldl
      (addBucket (epochOf clock) windowStartTs) 0
    min total (uMax 64)

/-- Position of the first counter with a property. -/
def findCounter (tracker : SpendTracker) (p : ProtocolSpendCounter → Bool) : Option (Fin maxAllowedProtocols) :=
  (List.finRange maxAllowedProtocols).find? fun i => p (tracker.protocolCounters i)

def setCounter (tracker : SpendTracker) (i : Fin maxAllowedProtocols) (counter : ProtocolSpendCounter) :
    SpendTracker :=
  { tracker with protocolCounters := Function.update tracker.protocolCounters i counter }

def getProtocolSpend (tracker : SpendTracker) (clock : Clock) (protocolId : Pubkey) : Nat :=
  if clock.unixTimestamp ≤ 0 then
    0
  else
    match tracker.findCounter fun c => c.protocol = protocolId with
    | none => 0
    | some i =>
        let counter := tracker.protocolCounters i
        if epochOf clock - counter.windowStart < numEpochs then counter.windowSpend else 0

/-- An expired window starts over, a running one accumulates, and an unknown protocol takes the first
empty counter. -/
def recordProtocolSpend (tracker : SpendTracker) (clock : Clock) (protocolId : Pubkey) (usdAmount : Nat) :
    Result SpendTracker := do
  require (clock.unixTimestamp > 0) SigilError.overflow
  let currentEpoch := epochOf clock
  match tracker.findCounter fun c => c.protocol = protocolId with
  | some i =>
      let counter := tracker.protocolCounters i
      if currentEpoch - counter.windowStart ≥ numEpochs then
        pure (tracker.setCounter i { counter with windowStart := currentEpoch, windowSpend := usdAmount })
      else do
        let spend ← okOr (checkedAdd 64 counter.windowSpend usdAmount) SigilError.overflow
        pure (tracker.setCounter i { counter with windowSpend := spend })
  | none =>
      let i ← okOr (tracker.findCounter fun c => c.protocol = .default) SigilError.protocolCapExceeded
      pure (tracker.setCounter i { protocol := protocolId, windowStart := currentEpoch, windowSpend := usdAmount })

end SpendTracker

end Sigil
