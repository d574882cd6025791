import Sigil.Sdk.Dashboard

/-!
# Composing the dashboard

The `build*` functions of `dashboard/reads.ts`, and the composition of `getOverview`. Analytics and the clock are a
parameter.
-/

namespace Sigil.Sdk

open Library

inductive ReadError where
  /-- "[dashboard/reads] OverviewContext.state.… is required but missing" -/
  | missingField (field : String)
  /-- `toISOString` of a time out of range -/
  | invalidTime
  deriving DecidableEq, Repr

/-- What the helpers call. -/
structure Environment where
  codecs : Codecs
  /-- `Date.now()` -/
  nowMs : Int
  getSecurityPosture : ResolvedVaultStateForOwner → SecurityPosture
  getSpendingBreakdown : ResolvedVaultStateForOwner → SpendingBreakdown
  evaluateAlertConditions : ResolvedVaultStateForOwner → String → List Alert
  getAgentProfile : ResolvedVaultStateForOwner → String → Option AgentProfile
  getSpendingHistory : Option SpendTracker → Int → List SpendingEpoch
  resolveProtocolName : String → String
  toISOString : Double → Option String
  /-- Text of a number. -/
  numberText : Double → String

/-! ## Numbers and texts -/

/-- `Number` of a `bigint`. -/
def numberOf (n : Int) : Double := .ofRat n

def bs (v : Int) : JsValue := .string (toString v)

mutual

def serializeBigints : JsValue → JsValue
  | .bigint n => bs n
  | .array items => .array (serializeItems items)
  | .object fields => .object (serializeFields fields)
  | .undefined => .undefined
  | .null => .null
  | .bool b => .bool b
  | .number x => .number x
  | .string s => .string s

def serializeItems : List JsValue → List JsValue
  | [] => []
  | v :: items => serializeBigints v :: serializeItems items

def serializeFields : List (String × JsValue) → List (String × JsValue)
  | [] => []
  | (key, v) :: fields => (key, serializeBigints v) :: serializeFields fields

end

/-- `s || other`. -/
def textOr (s : Option String) (other : String) : String :=
  match s with
  | none => other
  | some s => if s = "" then other else s

def computeUtilizationPercent (spent cap : Int) : Double :=
  if cap > 0 then .ofRat ((numberOf ((spent * 10000).tdiv cap)).value / 100) else .ofRat 0

/-- `a.includes(b)`. -/
def includes (s part : String) : Bool := s.toList.tails.any part.toList.isPrefixOf

def mapCategory (category eventType : String) (actionType : Option String) : ActivityType :=
  if category = "trade" then
    let action := (textOr actionType "").toLower
    if includes action "lend" || includes action "deposit" || includes action "withdraw" then .lend else .swap
  else if category = "deposit" then .deposit
  else if category = "withdrawal" then .withdraw
  else if eventType = "AgentTransferExecuted" then .transfer
  else .swap

/-! ## Serialized views -/

def HealthCheck.toObject (c : HealthCheck) : JsValue := .object [("name", .string c.name), ("passed", .bool c.passed)]

def checksToArray (checks : List HealthCheck) : JsValue := .array (checks.map HealthCheck.toObject)

def TokenBalance.serialize (t : TokenBalance) : JsValue :=
  .object [("mint", .string t.mint), ("amount", bs t.amount), ("decimals", .number t.decimals)]

def VaultSummary.serialize (v : VaultSummary) : JsValue :=
  .object
    [("address", .string v.address), ("status", .string (statusText v.status)), ("owner", .string v.owner),
      ("agentCount", .number v.agentCount), ("totalVolume", bs v.totalVolume), ("totalFees", bs v.totalFees)]

def VaultBalance.serialize (b : VaultBalance) : JsValue :=
  .object [("total", bs b.total), ("tokens", .array (b.tokens.map TokenBalance.serialize))]

def ProfitAndLoss.serialize (p : ProfitAndLoss) : JsValue :=
  .object [("percent", .number p.percent), ("absolute", bs p.absolute)]

def HealthSummary.serialize (h : HealthSummary) : JsValue :=
  .object [("level", .string h.level.text), ("alertCount", .number h.alertCount), ("checks", checksToArray h.checks)]

def VaultState.serialize (v : VaultState) : JsValue :=
  .object [("vault", v.vault.serialize), ("balance", v.balance.serialize), ("pnl", v.pnl.serialize),
    ("health", v.health.serialize)]

def AgentSpending.serialize (s : AgentSpending) : JsValue :=
  .object [("amount", bs s.amount), ("limit", bs s.limit), ("percent", .number s.percent)]

def AgentData.serialize (a : AgentData) : JsValue :=
  .object
    [("address", .string a.address), ("status", .string a.status.text), ("capabilityLabel", .string a.capabilityLabel),
      ("capability", .number a.capability), ("spending", a.spending.serialize),
      ("lastActionType", .string a.lastActionType), ("lastActionProtocol", .string a.lastActionProtocol),
      ("lastActionTimestamp", .number a.lastActionTimestamp), ("blockedCount24h", .number a.blockedCount24h)]

def GlobalSpending.serialize (g : GlobalSpending) : JsValue :=
  .object
    [("today", bs g.today), ("cap", bs g.cap), ("remaining", bs g.remaining), ("percent", .number g.percent),
      ("rundownMs", .number g.rundownMs)]

def ChartPoint.toObject (p : ChartPoint) : JsValue := .object [("time", .string p.time), ("amount", .number p.amount)]

def ProtocolBreakdownEntry.serialize (p : ProtocolBreakdownEntry) : JsValue :=
  .object
    [("name", .string p.name), ("programId", .string p.programId), ("amount", bs p.amount),
      ("percent", .number p.percent)]

def SpendingData.serialize (s : SpendingData) : JsValue :=
  .object
    [("global", s.global.serialize), ("chart", .array (s.chart.map ChartPoint.toObject)),
      ("protocolBreakdown", .array (s.protocolBreakdown.map ProtocolBreakdownEntry.serialize))]

def ActivityRow.serialize (r : ActivityRow) : JsValue :=
  .object
    [("id", .string r.id), ("timestamp", .number r.timestamp), ("type", .string r.type.text),
      ("protocol", .string r.protocol), ("protocolId", .string r.protocolId), ("agent", .string r.agent),
      ("amount", bs r.amount), ("status", .string r.status.text),
      ("reason", (r.reason.map JsValue.string).getD .undefined), ("txSignature", .string r.txSignature)]

def LastBlock.serialize (b : LastBlock) : JsValue :=
  .object
    [("agent", .string b.agent), ("reason", .string b.reason), ("amount", bs b.amount),
      ("timestamp", .number b.timestamp)]

def HealthData.serialize (h : HealthData) : JsValue :=
  .object
    [("level", .string h.level.text), ("blockedCount24h", .number h.blockedCount24h),
      ("checks", checksToArray h.checks), ("lastBlock", (h.lastBlock.map LastBlock.serialize).getD .undefined)]

def ApprovedApp.toObject (a : ApprovedApp) : JsValue :=
  .object [("name", .string a.name), ("programId", .string a.programId)]

/-- The pending update, its changes with texts in place of `bigint`s. -/
def serializePending (pending : JsValue) : JsValue :=
  if pending.truthy then
    .object
      [("changes", serializeBigints (pending.get "changes")), ("appliesAt", pending.get "appliesAt"),
        ("canApply", pending.get "canApply"), ("canCancel", pending.get "canCancel")]
  else .undefined

def PolicyData.serialize (p : PolicyData) : JsValue :=
  .object
    [("dailyCap", bs p.dailyCap), ("maxPerTrade", bs p.maxPerTrade),
      ("approvedApps", .array (p.approvedApps.map ApprovedApp.toObject)),
      ("protocolMode", .string p.protocolMode.text), ("hasProtocolCaps", .bool p.hasProtocolCaps),
      ("protocolCaps", .array (p.protocolCaps.map bs)), ("maxSlippageBps", .number p.maxSlippageBps),
      ("allowedDestinations", .array (p.allowedDestinations.map .string)),
      ("developerFeeRate", .number p.developerFeeRate), ("sessionExpirySeconds", bs p.sessionExpirySeconds),
      ("timelockSeconds", .number p.timelockSeconds), ("policyVersion", bs p.policyVersion),
      ("pendingUpdate", serializePending p.pendingUpdate)]

/-! ## Building the views -/

section
variable (env : Environment)

def requireCtxField {α : Type} (value : Option α) (field : String) : Except ReadError α :=
  okOr value (.missingField field)

def healthLevel (posture : SecurityPosture) : HealthLevel :=
  if posture.criticalFailures.length > 0 then .critical
  else if posture.failCount.value > 0 then .elevated
  else .healthy

def healthChecks (posture : SecurityPosture) : List HealthCheck :=
  posture.checks.map fun c => { name := c.id, passed := c.passed }

def tokenBalances (bal : StablecoinBalances) : List TokenBalance :=
  (if bal.usdc > 0 then [{ mint := "USDC", amount := bal.usdc, decimals := .ofRat 6 }] else []) ++
    (if bal.usdt > 0 then [{ mint := "USDT", amount := bal.usdt, decimals := .ofRat 6 }] else [])

def buildVaultState (ctx : OverviewContext) : Except ReadError (View VaultState) := do
  let v ← requireCtxField ctx.state.vault "vault"
  let posture := ctx.posture.getD (env.getSecurityPosture ctx.state)
  let bal := ctx.state.stablecoinBalances
  let data : VaultState :=
    { vault :=
        { address := ctx.vault
          status := v.status
          owner := env.codecs.base58 v.owner
          agentCount := numberOf v.agents.length
          totalVolume := v.totalVolume
          totalFees := v.totalFeesCollected }
      balance := { total := bal.usdc + bal.usdt, tokens := tokenBalances bal }
      pnl :=
        { percent := (ctx.pnl.bind VaultPnL.pnlPercent).getD (.ofRat 0)
          absolute := (ctx.pnl.map VaultPnL.pnl).getD 0 }
      health := { level := healthLevel posture, alertCount := posture.failCount, checks := healthChecks posture } }
  pure { data := data, toJSON := data.serialize }

/-- Times a thousand. -/
def toMs (seconds : Double) : Double := .ofRat (seconds.value * 1000)

def lastAction (last : Option VaultActivityItem) : String :=
  match last with
  | some item => (mapCategory item.category item.eventType item.actionType).text
  | none => ""

/-- The entry of one agent. -/
def buildAgent (ctx : OverviewContext) (entry : AgentEntry) : View AgentData :=
  let addr := env.codecs.base58 entry.pubkey
  let profile := env.getAgentProfile ctx.state addr
  let budget := ctx.state.allAgentBudgets addr
  let spentAmt := (budget.map EffectiveBudget.spent24h).getD 0
  let capAmt := (budget.map EffectiveBudget.cap).getD 0
  let agentActivity := (ctx.activity.getD []).filter fun item => item.agent = some addr
  let blocked := agentActivity.filter fun item =>
    !item.success && (toMs item.timestamp).value ≥ env.nowMs - 24 * 3600 * 1000
  let data : AgentData :=
    { address := addr
      status := if (profile.map AgentProfile.paused).getD false then .paused else .active
      capabilityLabel := (profile.map AgentProfile.capabilityLabel).getD "Disabled"
      capability := (profile.map AgentProfile.capability).getD (.ofRat 0)
      spending := { amount := spentAmt, limit := capAmt, percent := computeUtilizationPercent spentAmt capAmt }
      lastActionType := lastAction agentActivity.head?
      lastActionProtocol := (agentActivity.head?.bind VaultActivityItem.protocolName).getD ""
      lastActionTimestamp := (agentActivity.head?.map fun item => toMs item.timestamp).getD (.ofRat 0)
      blockedCount24h := numberOf blocked.length }
  { data := data, toJSON := data.serialize }

def buildAgents (ctx : OverviewContext) : Except ReadError (List (View AgentData)) := do
  let v ← requireCtxField ctx.state.vault "vault"
  pure (v.agents.map (buildAgent env ctx))

def buildChartPoint (e : SpendingEpoch) : Except ReadError ChartPoint := do
  let time ← okOr (env.toISOString (toMs e.timestamp)) .invalidTime
  pure { time := time, amount := .ofRat ((numberOf e.usdAmount).value / 1000000) }

/-- Milliseconds until the cap is reached at the speed of the last day. -/
def rundown (spent remaining : Int) : Double :=
  let velocityPerMs : ℚ := if spent > 0 then Double.round ((numberOf spent).value / (24 * 3600 * 1000)) else 0
  if velocityPerMs > 0 ∧ remaining > 0 then
    .ofRat (Double.round ((numberOf remaining).value / velocityPerMs)).floor
  else .ofRat 0

def buildSpending (ctx : OverviewContext) : Except ReadError (View SpendingData) := do
  let breakdown := ctx.breakdown.getD (env.getSpendingBreakdown ctx.state)
  let chart ← (env.getSpendingHistory ctx.state.tracker (env.nowMs.fdiv 1000)).mapM (buildChartPoint env)
  let budget := ctx.state.globalBudget
  let data : SpendingData :=
    { global :=
        { today := budget.spent24h
          cap := budget.cap
          remaining := budget.remaining
          percent := computeUtilizationPercent budget.spent24h budget.cap
          rundownMs := rundown budget.spent24h budget.remaining }
      chart := chart
      protocolBreakdown := breakdown.byProtocol.map fun p =>
        { name := env.resolveProtocolName p.protocol
          programId := p.protocol
          amount := p.spent24h
          percent := p.utilization } }
  pure { data := data, toJSON := data.serialize }

def buildHealth (ctx : OverviewContext) : Except ReadError (View HealthData) := do
  require (ctx.posture.isSome ∧ ctx.alerts.isSome ∨ ctx.state.vault.isSome) (.missingField "vault")
  let posture := ctx.posture.getD (env.getSecurityPosture ctx.state)
  let alerts := ctx.alerts.getD (env.evaluateAlertConditions ctx.state ctx.vault)
  let critAlerts := alerts.filter fun a => a.severity = .critical
  let data : HealthData :=
    { level := healthLevel posture
      blockedCount24h := numberOf critAlerts.length
      checks := healthChecks posture
      lastBlock := critAlerts.head?.map fun a =>
        { agent := textOr a.agentAddress "", reason := a.title, amount := 0, timestamp := numberOf env.nowMs } }
  pure { data := data, toJSON := data.serialize }

/-- The fields of a pending update that are there; it has one more, `destinationMode`. -/
def decodeChanges (pp : PendingPolicyUpdate) : PolicyChanges Double :=
  { dailyCap := pp.dailySpendingCapUsd.map Int.ofNat
    maxPerTrade := pp.maxTransactionAmountUsd.map Int.ofNat
    approvedApps := pp.protocols.map (List.map env.codecs.base58)
    protocolMode := pp.protocolMode.map ProtocolMode.modeMap
    hasProtocolCaps := pp.hasProtocolCaps
    protocolCaps := pp.protocolCaps.map (List.map Int.ofNat)
    maxSlippageBps := pp.maxSlippageBps.map fun n : Nat => numberOf n
    allowedDestinations := pp.allowedDestinations.map (List.map env.codecs.base58)
    developerFeeRate := pp.developerFeeRate.map fun n : Nat => numberOf n
    sessionExpirySeconds := pp.sessionExpirySeconds.map Int.ofNat
    timelock := pp.timelockDuration.map fun n : Nat => numberOf n }

def pendingObject (pp : PendingPolicyUpdate) : JsValue :=
  let executesAtSec := numberOf pp.executesAt
  .object
    [("changes", (decodeChanges env pp).toObject), ("appliesAt", .number (toMs executesAtSec)),
      ("canApply", .bool (executesAtSec.value > 0 && executesAtSec.value ≤ (env.nowMs.fdiv 1000 : Int))),
      ("canCancel", .bool true)]

def buildPolicy (ctx : OverviewContext) : Except ReadError (View PolicyData) := do
  let p ← requireCtxField ctx.state.policy "policy"
  let data : PolicyData :=
    { dailyCap := p.dailySpendingCapUsd
      maxPerTrade := p.maxTransactionSizeUsd
      approvedApps := p.protocols.map fun k =>
        { name := env.resolveProtocolName (env.codecs.base58 k), programId := env.codecs.base58 k }
      protocolMode := ProtocolMode.modeMap p.protocolMode
      hasProtocolCaps := p.hasProtocolCaps
      protocolCaps := p.protocolCaps.map Int.ofNat
      maxSlippageBps := numberOf p.maxSlippageBps
      allowedDestinations := p.allowedDestinations.map env.codecs.base58
      developerFeeRate := numberOf p.developerFeeRate
      sessionExpirySeconds := p.sessionExpirySeconds
      timelockSeconds := numberOf p.timelockDuration
      policyVersion := p.policyVersion
      pendingUpdate := (ctx.pendingPolicy.map (pendingObject env)).getD .undefined }
  pure { data := data, toJSON := data.serialize }

def buildActivityRow (item : VaultActivityItem) : View ActivityRow :=
  let data : ActivityRow :=
    { id := textOr (some item.txSignature) ("evt-" ++ env.numberText item.timestamp ++ "-" ++ item.eventType)
      timestamp := toMs item.timestamp
      type := mapCategory item.category item.eventType item.actionType
      protocol := textOr item.protocolName ""
      protocolId := textOr item.protocol ""
      agent := textOr item.agent ""
      amount := item.amount.getD 0
      status := if item.success then .approved else .blocked
      reason := if item.success then none else some item.description
      txSignature := item.txSignature }
  { data := data, toJSON := data.serialize }

def buildActivityRows (items : List VaultActivityItem) : List (View ActivityRow) := items.map (buildActivityRow env)

/-- The composition of `getOverview`. -/
def buildOverview (ctx : OverviewContext) : Except ReadError (View OverviewData) := do
  let vault ← buildVaultState env ctx
  let agents ← buildAgents env ctx
  let spending ← buildSpending env ctx
  let health ← buildHealth env ctx
  let policy ← buildPolicy env ctx
  let activity := buildActivityRows env (ctx.activity.getD [])
  pure
    { data :=
        { vault := vault.data
          agents := agents.map View.data
          spending := spending.data
          health := health.data
          policy := policy.data
          activity := activity.map View.data }
      toJSON := .object
        [("vault", vault.toJSON), ("agents", .array (agents.map View.toJSON)), ("spending", spending.toJSON),
          ("health", health.toJSON), ("policy", policy.toJSON), ("activity", .array (activity.map View.toJSON))] }

end

end Sigil.Sdk
