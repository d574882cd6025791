import Sigil.Sdk.Reads
import Sigil.Sdk.Strings

/-!
# Reading the dashboard back

The functions of `dashboard/from-json.ts`. A value that has not the type of its reader is not read.
-/

namespace Sigil.Sdk

open Library

/-- 0 for what is absent or no integer. -/
def bi : JsValue → Option Int
  | .undefined => some 0
  | .null => some 0
  | .string s => some ((bigInt s).getD 0)
  | _ => none

/-- A reading whose `toJSON` returns what it was read from. -/
def withSource {α : Type} (read : JsValue → Option α) (v : JsValue) : Option (View α) :=
  (read v).map fun data => { data := data, toJSON := v }

def readCheck (v : JsValue) : Option HealthCheck := do
  let name ← (v.get "name").asString
  let passed ← (v.get "passed").asBool
  pure { name := name, passed := passed }

def readToken (v : JsValue) : Option TokenBalance := do
  let mint ← (v.get "mint").asString
  let amount ← bi (v.get "amount")
  let decimals ← (v.get "decimals").asNumber
  pure { mint := mint, amount := amount, decimals := decimals }

def readVaultSummary (v : JsValue) : Option VaultSummary := do
  let address ← (v.get "address").asString
  let status ← (v.get "status").asOneOf statuses statusText
  let owner ← (v.get "owner").asString
  let agentCount ← (v.get "agentCount").asNumber
  let totalVolume ← bi (v.get "totalVolume")
  let totalFees ← bi (v.get "totalFees")
  pure { address := address, status := status, owner := owner, agentCount := agentCount, totalVolume := totalVolume
         totalFees := totalFees }

def readBalance (v : JsValue) : Option VaultBalance := do
  let total ← bi (v.get "total")
  let tokens ← (v.get "tokens").asListOf readToken
  pure { total := total, tokens := tokens }

def readProfitAndLoss (v : JsValue) : Option ProfitAndLoss := do
  let percent ← (v.get "percent").asNumber
  let absolute ← bi (v.get "absolute")
  pure { percent := percent, absolute := absolute }

def readHealthSummary (v : JsValue) : Option HealthSummary := do
  let level ← (v.get "level").asOneOf HealthLevel.all HealthLevel.text
  let alertCount ← (v.get "alertCount").asNumber
  let checks ← (v.get "checks").asListOf readCheck
  pure { level := level, alertCount := alertCount, checks := checks }

def vaultStateFromJSON : JsValue → Option (View VaultState) := withSource fun v => do
  let vault ← readVaultSummary (v.get "vault")
  let balance ← readBalance (v.get "balance")
  let pnl ← readProfitAndLoss (v.get "pnl")
  let health ← readHealthSummary (v.get "health")
  pure { vault := vault, balance := balance, pnl := pnl, health := health }

def readAgentSpending (v : JsValue) : Option AgentSpending := do
  let amount ← bi (v.get "amount")
  let limit ← bi (v.get "limit")
  let percent ← (v.get "percent").asNumber
  pure { amount := amount, limit := limit, percent := percent }

def agentDataFromJSON : JsValue → Option (View AgentData) := withSource fun v => do
  let address ← (v.get "address").asString
  let status ← (v.get "status").asOneOf AgentStatus.all AgentStatus.text
  let capabilityLabel ← (v.get "capabilityLabel").asString
  let capability ← (v.get "capability").asNumber
  let spending ← readAgentSpending (v.get "spending")
  let lastActionType ← (v.get "lastActionType").asString
  let lastActionProtocol ← (v.get "lastActionProtocol").asString
  let lastActionTimestamp ← (v.get "lastActionTimestamp").asNumber
  let blockedCount24h ← (v.get "blockedCount24h").asNumber
  pure { address := address, status := status, capabilityLabel := capabilityLabel, capability := capability
         spending := spending, lastActionType := lastActionType, lastActionProtocol := lastActionProtocol
         lastActionTimestamp := lastActionTimestamp, blockedCount24h := blockedCount24h }

def readGlobalSpending (v : JsValue) : Option GlobalSpending := do
  let today ← bi (v.get "today")
  let cap ← bi (v.get "cap")
  let remaining ← bi (v.get "remaining")
  let percent ← (v.get "percent").asNumber
  let rundownMs ← (v.get "rundownMs").asNumber
  pure { today := today, cap := cap, remaining := remaining, percent := percent, rundownMs := rundownMs }

def readChartPoint (v : JsValue) : Option ChartPoint := do
  let time ← (v.get "time").asString
  let amount ← (v.get "amount").asNumber
  pure { time := time, amount := amount }

def readBreakdownEntry (v : JsValue) : Option ProtocolBreakdownEntry := do
  let name ← (v.get "name").asString
  let programId ← (v.get "programId").asString
  let amount ← bi (v.get "amount")
  let percent ← (v.get "percent").asNumber
  pure { name := name, programId := programId, amount := amount, percent := percent }

def spendingDataFromJSON : JsValue → Option (View SpendingData) := withSource fun v => do
  let global ← readGlobalSpending (v.get "global")
  let chart ← (v.get "chart").asListOf readChartPoint
  let protocolBreakdown ← (v.get "protocolBreakdown").asListOf readBreakdownEntry
  pure { global := global, chart := chart, protocolBreakdown := protocolBreakdown }

def activityRowFromJSON : JsValue → Option (View ActivityRow) := withSource fun v => do
  let id ← (v.get "id").asString
  let timestamp ← (v.get "timestamp").asNumber
  let type ← (v.get "type").asOneOf ActivityType.all ActivityType.text
  let protocol ← (v.get "protocol").asString
  let protocolId ← (v.get "protocolId").asString
  let agent ← (v.get "agent").asString
  let amount ← bi (v.get "amount")
  let status ← (v.get "status").asOneOf ActivityStatus.all ActivityStatus.text
  let reason ← (v.get "reason").asOptionalString
  let txSignature ← (v.get "txSignature").asString
  pure { id := id, timestamp := timestamp, type := type, protocol := protocol, protocolId := protocolId
         agent := agent, amount := amount, status := status, reason := reason, txSignature := txSignature }

def readLastBlock (v : JsValue) : Option LastBlock := do
  let agent ← (v.get "agent").asString
  let reason ← (v.get "reason").asString
  let amount ← bi (v.get "amount")
  let timestamp ← (v.get "timestamp").asNumber
  pure { agent := agent, reason := reason, amount := amount, timestamp := timestamp }

/-- `v ? … : undefined`. -/
def ifTruthy {α : Type} (read : JsValue → Option α) (v : JsValue) : Option (Option α) :=
  if v.truthy then (read v).map some else some none

def healthDataFromJSON : JsValue → Option (View HealthData) := withSource fun v => do
  let level ← (v.get "level").asOneOf HealthLevel.all HealthLevel.text
  let blockedCount24h ← (v.get "blockedCount24h").asNumber
  let checks ← (v.get "checks").asListOf readCheck
  let lastBlock ← ifTruthy readLastBlock (v.get "lastBlock")
  pure { level := level, blockedCount24h := blockedCount24h, checks := checks, lastBlock := lastBlock }

def readApp (v : JsValue) : Option ApprovedApp := do
  let name ← (v.get "name").asString
  let programId ← (v.get "programId").asString
  pure { name := name, programId := programId }

/-- The pending update is taken as it is. -/
def policyDataFromJSON : JsValue → Option (View PolicyData) := withSource fun v => do
  let dailyCap ← bi (v.get "dailyCap")
  let maxPerTrade ← bi (v.get "maxPerTrade")
  let approvedApps ← (v.get "approvedApps").asListOf readApp
  let protocolMode ← (v.get "protocolMode").asOneOf ProtocolMode.all ProtocolMode.text
  let hasProtocolCaps ← (v.get "hasProtocolCaps").asBool
  let protocolCaps ← (v.get "protocolCaps").asListOf bi
  let maxSlippageBps ← (v.get "maxSlippageBps").asNumber
  let allowedDestinations ← (v.get "allowedDestinations").asListOf JsValue.asString
  let developerFeeRate ← (v.get "developerFeeRate").asNumber
  let sessionExpirySeconds ← bi (v.get "sessionExpirySeconds")
  let timelockSeconds ← (v.get "timelockSeconds").asNumber
  let policyVersion ← bi (v.get "policyVersion")
  pure { dailyCap := dailyCap, maxPerTrade := maxPerTrade, approvedApps := approvedApps, protocolMode := protocolMode
         hasProtocolCaps := hasProtocolCaps, protocolCaps := protocolCaps, maxSlippageBps := maxSlippageBps
         allowedDestinations := allowedDestinations, developerFeeRate := developerFeeRate
         sessionExpirySeconds := sessionExpirySeconds, timelockSeconds := timelockSeconds
         policyVersion := policyVersion, pendingUpdate := v.get "pendingUpdate" }

def overviewDataFromJSON : JsValue → Option (View OverviewData) := withSource fun v => do
  let vault ← vaultStateFromJSON (v.get "vault")
  let agents ← (v.get "agents").asListOf agentDataFromJSON
  let spending ← spendingDataFromJSON (v.get "spending")
  let health ← healthDataFromJSON (v.get "health")
  let policy ← policyDataFromJSON (v.get "policy")
  let activity ← (v.get "activity").asListOf activityRowFromJSON
  pure { vault := vault.data, agents := agents.map View.data, spending := spending.data, health := health.data
         policy := policy.data, activity := activity.map View.data }

end Sigil.Sdk
