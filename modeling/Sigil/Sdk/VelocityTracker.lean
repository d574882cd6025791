import Sigil.Sdk.Shield

/-!
# Velocity of an agent

`VelocityTracker` of `velocity-tracker.ts`. The signer that is checked is not looked at, and the spend status is left
out. A call reads the clock once.
-/

namespace Sigil.Sdk

structure RapidFireThreshold where
  count : Int
  windowMs : Int
  deriving DecidableEq, Repr

structure VelocityInput where
  maxTxPerMinute : Option Int := none
  maxTxPerHour : Option Int := none
  maxUsdPerHour : Option Int := none
  rapidFireThreshold : Option RapidFireThreshold := none
  cooldownMs : Option Int := none
  deriving DecidableEq, Repr

structure VelocityConfig where
  maxTxPerMinute : Int
  maxTxPerHour : Int
  maxUsdPerHour : Int
  rapidFireThreshold : RapidFireThreshold
  cooldownMs : Int
  deriving DecidableEq, Repr

/-- `DEFAULT_CONFIG` fills in what is not given. -/
def VelocityInput.config (input : VelocityInput) : VelocityConfig :=
  { maxTxPerMinute := input.maxTxPerMinute.getD 10
    maxTxPerHour := input.maxTxPerHour.getD 60
    maxUsdPerHour := input.maxUsdPerHour.getD 500000000
    rapidFireThreshold := input.rapidFireThreshold.getD { count := 5, windowMs := 10000 }
    cooldownMs := input.cooldownMs.getD 30000 }

inductive VelocityViolation where
  /-- "Velocity cooldown active — …s remaining" -/
  | cooldown (seconds : Int)
  /-- "Transaction rate …/… per minute exceeded" -/
  | txPerMinute (count : Nat) (limit : Int)
  /-- "Transaction rate …/… per hour exceeded" -/
  | txPerHour (count : Nat) (limit : Int)
  /-- "Hourly USD spend … exceeds ceiling …" -/
  | usdPerHour (spend ceiling : Int)
  /-- "On-chain daily cap reached: … >= …" -/
  | onChainCap (spent cap : Int)
  /-- "Rapid-fire detected: … transactions in …ms" -/
  | rapidFire (count : Nat) (windowMs : Int)
  deriving DecidableEq, Repr

structure VelocityStats where
  txPerMinute : Nat
  txPerHour : Nat
  usdPerHour : Int
  inCooldown : Bool
  cooldownRemainingMs : Int
  deriving DecidableEq, Repr

structure VelocityTracker where
  state : SyncedState
  config : VelocityConfig
  cooldownUntil : Int
  txTimestamps : List Int

namespace VelocityTracker

def create (state : SyncedState) (input : VelocityInput) : VelocityTracker :=
  { state, config := input.config, cooldownUntil := 0, txTimestamps := [] }

variable (t : VelocityTracker) (now : Int)

def isInCooldown : Bool := now < t.cooldownUntil

def getCooldownRemainingMs : Int := if t.cooldownUntil - now > 0 then t.cooldownUntil - now else 0

/-- The checks of the recorded state. -/
def checkState : List VelocityViolation :=
  let txPerMinute := t.state.getTransactionCountInWindow now 60000
  let txPerHour := t.state.getTransactionCountInWindow now 3600000
  let usdPerHour := t.state.getTotalSpendInWindow now 3600000
  (if txPerMinute ≥ t.config.maxTxPerMinute then [.txPerMinute txPerMinute t.config.maxTxPerMinute] else []) ++
  (if txPerHour ≥ t.config.maxTxPerHour then [.txPerHour txPerHour t.config.maxTxPerHour] else []) ++
  (if usdPerHour ≥ t.config.maxUsdPerHour then [.usdPerHour usdPerHour t.config.maxUsdPerHour] else []) ++
  match t.state.resolvedState with
  | some rs =>
      let effectiveSpent := t.state.getEffectiveGlobalSpent24h
      if effectiveSpent ≥ rs.globalBudget.cap then [.onChainCap effectiveSpent rs.globalBudget.cap] else []
  | none => []

def recentTimestamps : List Int := t.txTimestamps.filter fun time => now - t.config.rapidFireThreshold.windowMs ≤ time

def checkRapidFire : List VelocityViolation :=
  let wouldBeCount := (t.recentTimestamps now).length + 1
  if wouldBeCount ≥ t.config.rapidFireThreshold.count then
    [.rapidFire wouldBeCount t.config.rapidFireThreshold.windowMs]
  else []

def violations : List VelocityViolation := t.checkState now ++ t.checkRapidFire now

/-- What is thrown, nothing if the check passes. -/
def outcome : List VelocityViolation :=
  if t.isInCooldown now then [.cooldown ((t.cooldownUntil - now + 999) / 1000)] else t.violations now

/-- What a check leaves behind. -/
def check (dryRun : Bool) : VelocityTracker :=
  if t.isInCooldown now then t
  else
    let t' := { t with txTimestamps := t.recentTimestamps now }
    if t.violations now ≠ [] then { t' with cooldownUntil := now + t.config.cooldownMs }
    else if dryRun then t'
    else { t' with txTimestamps := t'.txTimestamps ++ [now] }

def recordTransaction (usdAmount : Option Int) : VelocityTracker :=
  let state := t.state.recordTransaction now
  { t with
    state :=
      match usdAmount with
      | some amount => state.recordSpend now "" amount
      | none => state }

def reset : VelocityTracker := { t with cooldownUntil := 0, txTimestamps := [] }

def getStats : VelocityStats :=
  { txPerMinute := t.state.getTransactionCountInWindow now 60000
    txPerHour := t.state.getTransactionCountInWindow now 3600000
    usdPerHour := t.state.getTotalSpendInWindow now 3600000
    inCooldown := t.isInCooldown now
    cooldownRemainingMs := t.getCooldownRemainingMs now }

end VelocityTracker

end Sigil.Sdk
