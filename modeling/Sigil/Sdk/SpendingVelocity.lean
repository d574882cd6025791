import Sigil.Sdk.ConstraintSummaries
import Sigil.Sdk.Reads
import Sigil.Sdk.StateResolver

/-!
# Spending velocity and alerts

`getSpendingVelocity` of `spending-analytics.ts` and `evaluateAlertConditions` of `security-analytics.ts`.
-/

namespace Sigil.Sdk

open Library

/-! ## Velocity -/

structure SpendingVelocity where
  currentRate : Int
  averageRate : Int
  peakRate : Int
  peakTimestamp : Double
  isAccelerating : Bool
  timeToCapSeconds : Option Double
  projectedCapHitTime : Option Double

def SpendingVelocity.zero : SpendingVelocity where
  currentRate := 0
  averageRate := 0
  peakRate := 0
  peakTimestamp := .ofRat 0
  isAccelerating := false
  timeToCapSeconds := none
  projectedCapHitTime := none

/-- In the window and not empty. -/
def isValidBucket (currentEpoch : Int) (bucket : EpochBucket) : Bool :=
  currentEpoch - numEpochs ≤ bucket.epochId && bucket.epochId ≤ currentEpoch && bucket.usdAmount != 0

def validBuckets (tracker : SpendTracker) (currentEpoch : Int) : List EpochBucket :=
  ((List.finRange 144).map tracker.buckets).filter (isValidBucket currentEpoch)

/-- Most recent first. The number of a difference has the sign of the difference. -/
def sortedBuckets (tracker : SpendTracker) (currentEpoch : Int) : List EpochBucket :=
  (validBuckets tracker currentEpoch).mergeSort fun a b => b.epochId ≤ a.epochId

/-- The first bucket with the highest amount; it starts from nothing at epoch 0. -/
def peakBucket (buckets : List EpochBucket) : EpochBucket :=
  buckets.foldl (fun peak b => if b.usdAmount > peak.usdAmount then b else peak) {}

/-- `recentSum * 6n / BigInt(recentEpochs.length)`. -/
def hourlyRate (recentEpochs : List EpochBucket) : Int :=
  let recentSum : Int := (recentEpochs.map fun b => (b.usdAmount : Int)).sum
  if recentEpochs.length > 0 then (recentSum * 6).tdiv recentEpochs.length else 0

def timeToCap (remaining rate : Int) : Option Double :=
  if rate > 0 ∧ remaining > 0 then
    let hoursToCapx1000 := (remaining * 1000).tdiv rate
    some (.ofRat ((Double.ofRat ((numberOf hoursToCapx1000).value * 3600)).value / 1000))
  else none

def getSpendingVelocity (tracker : Option SpendTracker) (nowUnix : Int) (globalBudget : EffectiveBudget) :
    SpendingVelocity :=
  match tracker with
  | none => .zero
  | some tracker =>
      if nowUnix ≤ 0 then .zero
      else
        let currentEpoch := nowUnix.tdiv epochDuration
        let peak := peakBucket (validBuckets tracker currentEpoch)
        let currentRate := hourlyRate ((sortedBuckets tracker currentEpoch).take 3)
        let averageRate := globalBudget.spent24h.tdiv 24
        let timeToCapSeconds := timeToCap globalBudget.remaining currentRate
        { currentRate := currentRate
          averageRate := averageRate
          peakRate := peak.usdAmount
          peakTimestamp := numberOf (peak.epochId * epochDuration)
          isAccelerating :=
            if averageRate > 0 then currentRate > (averageRate * 3).tdiv 2 else currentRate > 0
          timeToCapSeconds := timeToCapSeconds
          projectedCapHitTime := timeToCapSeconds.map fun s => .ofRat ((numberOf nowUnix).value + s.value) }

/-! ## Alerts -/

/-- `Alert` of `security-analytics.ts`. -/
structure ActiveAlert where
  id : String
  severity : Severity
  title : String
  description : String
  vaultAddress : String
  agentAddress : Option String
  actionHref : String
  actionLabel : String

/-- What the alerts are evaluated from. -/
structure AlertState where
  vault : AgentVault
  tracker : Option SpendTracker
  globalBudget : EffectiveBudget
  /-- In the order of the map. -/
  allAgentBudgets : List (String × EffectiveBudget)
  resolvedAtTimestamp : Int

/-- Texts of the platform: of a number, of an amount with two decimals, of an address. -/
structure AlertTexts where
  number : Double → String
  usd : Int → String
  address : Pubkey → String

/-- `Number(spent24h * 100n / cap)`. -/
def utilization (budget : EffectiveBudget) : Double := numberOf ((budget.spent24h * 100).tdiv budget.cap)

namespace AlertState

variable (texts : AlertTexts) (state : AlertState) (vaultAddress : String)

def capAlerts : List ActiveAlert :=
  let budget := state.globalBudget
  if budget.cap > 0 then
    let util := utilization budget
    if util.value ≥ 95 then
      [{ id := "cap-critical-" ++ vaultAddress
         severity := .critical
         title := "Daily budget nearly exhausted"
         description := texts.number util ++ "% of daily budget used — " ++ texts.usd budget.remaining ++
           " remaining."
         vaultAddress := vaultAddress
         agentAddress := none
         actionHref := "/dashboard/vault/" ++ vaultAddress ++ "?tab=policy"
         actionLabel := "Adjust budget" }]
    else if util.value ≥ 80 then
      [{ id := "cap-warning-" ++ vaultAddress
         severity := .warning
         title := "Daily budget " ++ texts.number util ++ "% used"
         description := texts.usd budget.remaining ++ " remaining of " ++ texts.usd budget.cap ++ " daily budget."
         vaultAddress := vaultAddress
         agentAddress := none
         actionHref := "/dashboard/vault/" ++ vaultAddress ++ "?tab=spending"
         actionLabel := "Review spending" }]
    else []
  else []

def frozenAlerts : List ActiveAlert :=
  if state.vault.status = .frozen then
    [{ id := "frozen-" ++ vaultAddress
       severity := .critical
       title := "Vault is paused"
       description := "All agent activity is stopped. Reactivate when ready."
       vaultAddress := vaultAddress
       agentAddress := none
       actionHref := "/dashboard/vault/" ++ vaultAddress ++ "?tab=security"
       actionLabel := "Review security" }]
  else []

def pausedAlerts : List ActiveAlert :=
  (state.vault.agents.filter (·.paused)).map fun agent =>
    { id := "agent-paused-" ++ texts.address agent.pubkey
      severity := .info
      title := "Agent " ++ formatAddress (texts.address agent.pubkey) ++ " is paused"
      description := "This agent cannot execute any actions until resumed."
      vaultAddress := vaultAddress
      agentAddress := some (texts.address agent.pubkey)
      actionHref := "/dashboard/vault/" ++ vaultAddress ++ "?tab=agents"
      actionLabel := "Manage agents" }

def agentCapAlert (agentAddr : String) (budget : EffectiveBudget) : ActiveAlert :=
  let util := utilization budget
  { id := "agent-cap-" ++ agentAddr
    severity := if util.value ≥ 95 then .critical else .warning
    title := "Agent " ++ formatAddress agentAddr ++ " at " ++ texts.number util ++ "% of spending limit"
    description := texts.usd budget.remaining ++ " remaining of " ++ texts.usd budget.cap ++ " daily limit."
    vaultAddress := vaultAddress
    agentAddress := some agentAddr
    actionHref := "/dashboard/vault/" ++ vaultAddress ++ "/agent/" ++ agentAddr
    actionLabel := "View agent" }

def agentCapAlerts : List ActiveAlert :=
  (state.allAgentBudgets.filter fun entry => 0 < entry.2.cap ∧ 80 ≤ (utilization entry.2).value).map fun entry =>
    agentCapAlert texts vaultAddress entry.1 entry.2

def noAgentsAlerts : List ActiveAlert :=
  if state.vault.agents = [] ∧ state.vault.status = .active then
    [{ id := "no-agents-" ++ vaultAddress
       severity := .warning
       title := "No agents registered"
       description := "This vault has no agents and cannot execute any DeFi operations."
       vaultAddress := vaultAddress
       agentAddress := none
       actionHref := "/dashboard/vault/" ++ vaultAddress ++ "?tab=agents"
       actionLabel := "Register agent" }]
  else []

def allPausedAlerts : List ActiveAlert :=
  if state.vault.agents ≠ [] ∧ state.vault.agents.all (·.paused) then
    [{ id := "all-paused-" ++ vaultAddress
       severity := .warning
       title := "All agents are paused"
       description := "No agent can execute actions. Unpause at least one to resume operations."
       vaultAddress := vaultAddress
       agentAddress := none
       actionHref := "/dashboard/vault/" ++ vaultAddress ++ "?tab=agents"
       actionLabel := "Manage agents" }]
  else []

def highVelocityAlert (velocity : SpendingVelocity) : ActiveAlert where
  id := "high-velocity-" ++ vaultAddress
  severity := .warning
  title := "Unusual spending velocity detected"
  description := "Current spend rate is " ++
    texts.number (numberOf (velocity.currentRate.tdiv velocity.averageRate)) ++ "x the 24h average."
  vaultAddress := vaultAddress
  agentAddress := none
  actionHref := "/dashboard/vault/" ++ vaultAddress ++ "?tab=spending"
  actionLabel := "Review spending"

def drainAlert : ActiveAlert where
  id := "drain-detected-" ++ vaultAddress
  severity := .critical
  title := "Potential drain detected"
  description := "Spending rate would consume over 50% of daily budget in one hour. Consider freezing the vault."
  vaultAddress := vaultAddress
  agentAddress := none
  actionHref := "/dashboard/vault/" ++ vaultAddress ++ "?tab=security"
  actionLabel := "Freeze vault"

def velocityAlerts : List ActiveAlert :=
  if state.tracker.isSome ∧ state.globalBudget.cap > 0 then
    let velocity := getSpendingVelocity state.tracker state.resolvedAtTimestamp state.globalBudget
    (if velocity.averageRate > 0 ∧ velocity.currentRate > velocity.averageRate * 2 then
      [highVelocityAlert texts vaultAddress velocity] else []) ++
    (if velocity.currentRate > 0 ∧ velocity.currentRate > state.globalBudget.cap.tdiv 2 then
      [drainAlert vaultAddress] else [])
  else []

def severityOrder : Severity → Nat
  | .critical => 0
  | .warning => 1
  | .info => 2

/-- Critical first. -/
def evaluateAlertConditions : List ActiveAlert :=
  (state.capAlerts texts vaultAddress ++ state.frozenAlerts vaultAddress ++ state.pausedAlerts texts vaultAddress ++
    state.agentCapAlerts texts vaultAddress ++ state.noAgentsAlerts vaultAddress ++
    state.allPausedAlerts vaultAddress ++ state.velocityAlerts texts vaultAddress).mergeSort
      fun a b => severityOrder a.severity ≤ severityOrder b.severity

end AlertState

end Sigil.Sdk
