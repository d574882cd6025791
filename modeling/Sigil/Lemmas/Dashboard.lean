import Sigil.Sdk.Strings
import Sigil.Sdk.FromJson

/-!
# Views through a text

Every view but the pending update is read back from a copy as it was written.
-/

namespace Sigil.Sdk

open Library Library.JsValue

/-! ## Amounts and records -/

@[simp] theorem bi_bs (n : Int) : bi (bs n) = some n := by
  change some ((bigInt (toString n)).getD 0) = some n
  rw [bigInt_toString, Option.getD_some]

@[simp] theorem clean_bs (n : Int) : (bs n).clean = bs n := rfl

@[simp] theorem isUndefined_bs (n : Int) : (bs n).isUndefined = false := rfl

@[simp] theorem hasBigint_bs (n : Int) : (bs n).hasBigint = false := rfl

theorem roundTrips_bs : RoundTrips bs bi where
  defined _ := rfl
  plain _ := rfl
  reads := by simp

theorem roundTrips_check : RoundTrips HealthCheck.toObject readCheck where
  defined _ := rfl
  plain _ := rfl
  reads _ := rfl

theorem roundTrips_token : RoundTrips TokenBalance.serialize readToken where
  defined _ := rfl
  plain _ := rfl
  reads t := by simp [TokenBalance.serialize, readToken]

theorem roundTrips_chartPoint : RoundTrips ChartPoint.toObject readChartPoint where
  defined _ := rfl
  plain _ := rfl
  reads _ := rfl

theorem roundTrips_breakdownEntry : RoundTrips ProtocolBreakdownEntry.serialize readBreakdownEntry where
  defined _ := rfl
  plain _ := rfl
  reads p := by simp [ProtocolBreakdownEntry.serialize, readBreakdownEntry]

theorem roundTrips_app : RoundTrips ApprovedApp.toObject readApp where
  defined _ := rfl
  plain _ := rfl
  reads _ := rfl

theorem roundTrips_status : RoundTrips (fun s => string (statusText s)) (asOneOf statuses statusText) :=
  roundTrips_oneOf fun s => by cases s <;> rfl

theorem roundTrips_level :
    RoundTrips (fun l => string (HealthLevel.text l)) (asOneOf HealthLevel.all HealthLevel.text) :=
  roundTrips_oneOf fun l => by cases l <;> rfl

theorem roundTrips_agentStatus :
    RoundTrips (fun s => string (AgentStatus.text s)) (asOneOf AgentStatus.all AgentStatus.text) :=
  roundTrips_oneOf fun s => by cases s <;> rfl

theorem roundTrips_activityType :
    RoundTrips (fun t => string (ActivityType.text t)) (asOneOf ActivityType.all ActivityType.text) :=
  roundTrips_oneOf fun t => by cases t <;> rfl

theorem roundTrips_activityStatus :
    RoundTrips (fun s => string (ActivityStatus.text s)) (asOneOf ActivityStatus.all ActivityStatus.text) :=
  roundTrips_oneOf fun s => by cases s <;> rfl

theorem roundTrips_mode :
    RoundTrips (fun m => string (ProtocolMode.text m)) (asOneOf ProtocolMode.all ProtocolMode.text) :=
  roundTrips_oneOf fun m => by cases m <;> rfl

/-! ## Parts of the views -/

theorem roundTrips_summary : RoundTrips VaultSummary.serialize readVaultSummary where
  defined _ := rfl
  plain _ := rfl
  reads v := by
    have hstatus := roundTrips_status.reads v.status
    simp only [clean_string] at hstatus
    simp [VaultSummary.serialize, readVaultSummary, hstatus]

theorem roundTrips_balance : RoundTrips VaultBalance.serialize readBalance where
  defined _ := rfl
  plain b := by simp [VaultBalance.serialize, roundTrips_token.list.plain]
  reads b := by simp [VaultBalance.serialize, readBalance, roundTrips_token.list.reads]

theorem roundTrips_pnl : RoundTrips ProfitAndLoss.serialize readProfitAndLoss where
  defined _ := rfl
  plain _ := rfl
  reads p := by simp [ProfitAndLoss.serialize, readProfitAndLoss]

theorem roundTrips_checks : RoundTrips checksToArray (asListOf readCheck) := roundTrips_check.list

theorem roundTrips_healthSummary : RoundTrips HealthSummary.serialize readHealthSummary where
  defined _ := rfl
  plain h := by simp [HealthSummary.serialize, roundTrips_checks.plain]
  reads h := by
    have hlevel := roundTrips_level.reads h.level
    simp only [clean_string] at hlevel
    simp [HealthSummary.serialize, readHealthSummary, hlevel, roundTrips_checks.reads, roundTrips_checks.defined]

theorem roundTrips_agentSpending : RoundTrips AgentSpending.serialize readAgentSpending where
  defined _ := rfl
  plain _ := rfl
  reads s := by simp [AgentSpending.serialize, readAgentSpending]

theorem roundTrips_global : RoundTrips GlobalSpending.serialize readGlobalSpending where
  defined _ := rfl
  plain _ := rfl
  reads g := by simp [GlobalSpending.serialize, readGlobalSpending]

theorem roundTrips_lastBlock : RoundTrips LastBlock.serialize readLastBlock where
  defined _ := rfl
  plain _ := rfl
  reads b := by simp [LastBlock.serialize, readLastBlock]

theorem roundTrips_texts : RoundTrips (fun l => array (l.map string)) (asListOf asString) := roundTrips_string.list

/-! ## The views -/

/-- A view that is read back, and keeps what it was read from. -/
def readBack {α : Type} (write : α → JsValue) (x : α) : View α := { data := x, toJSON := (write x).clean }

theorem reads_vaultState (v : VaultState) :
    vaultStateFromJSON v.serialize.clean = some (readBack VaultState.serialize v) := by
  simp [VaultState.serialize, vaultStateFromJSON, withSource, readBack, roundTrips_summary.defined,
    roundTrips_balance.defined, roundTrips_pnl.defined, roundTrips_healthSummary.defined, roundTrips_summary.reads,
    roundTrips_balance.reads, roundTrips_pnl.reads, roundTrips_healthSummary.reads]

theorem plain_vaultState (v : VaultState) : v.serialize.hasBigint = false := by
  simp [VaultState.serialize, roundTrips_summary.plain, roundTrips_balance.plain, roundTrips_pnl.plain,
    roundTrips_healthSummary.plain]

theorem reads_agentData (a : AgentData) :
    agentDataFromJSON a.serialize.clean = some (readBack AgentData.serialize a) := by
  have hstatus := roundTrips_agentStatus.reads a.status
  simp only [clean_string] at hstatus
  simp [AgentData.serialize, agentDataFromJSON, withSource, readBack, hstatus, roundTrips_agentSpending.defined,
    roundTrips_agentSpending.reads]

theorem plain_agentData (a : AgentData) : a.serialize.hasBigint = false := by
  simp [AgentData.serialize, roundTrips_agentSpending.plain]

theorem reads_spendingData (s : SpendingData) :
    spendingDataFromJSON s.serialize.clean = some (readBack SpendingData.serialize s) := by
  simp [SpendingData.serialize, spendingDataFromJSON, withSource, readBack, roundTrips_global.defined,
    roundTrips_global.reads, roundTrips_chartPoint.list.reads, roundTrips_breakdownEntry.list.reads]

theorem plain_spendingData (s : SpendingData) : s.serialize.hasBigint = false := by
  simp [SpendingData.serialize, roundTrips_global.plain, roundTrips_chartPoint.list.plain,
    roundTrips_breakdownEntry.list.plain]

theorem reads_activityRow (r : ActivityRow) :
    activityRowFromJSON r.serialize.clean = some (readBack ActivityRow.serialize r) := by
  have htype := roundTrips_activityType.reads r.type
  have hstatus := roundTrips_activityStatus.reads r.status
  simp only [clean_string] at htype hstatus
  obtain ⟨id, timestamp, type, protocol, protocolId, agent, amount, status, reason, txSignature⟩ := r
  cases reason <;>
    simp_all [ActivityRow.serialize, activityRowFromJSON, withSource, readBack]

theorem plain_activityRow (r : ActivityRow) : r.serialize.hasBigint = false := by
  obtain ⟨id, timestamp, type, protocol, protocolId, agent, amount, status, reason, txSignature⟩ := r
  cases reason <;> simp [ActivityRow.serialize]

theorem reads_healthData (h : HealthData) :
    healthDataFromJSON h.serialize.clean = some (readBack HealthData.serialize h) := by
  have hlevel := roundTrips_level.reads h.level
  simp only [clean_string] at hlevel
  obtain ⟨level, blockedCount24h, checks, lastBlock⟩ := h
  cases lastBlock with
  | none =>
      simp_all [HealthData.serialize, healthDataFromJSON, withSource, readBack, roundTrips_checks.defined,
        roundTrips_checks.reads, ifTruthy, truthy]
  | some b =>
      have htruthy : b.serialize.clean.truthy = true := rfl
      simp_all [HealthData.serialize, healthDataFromJSON, withSource, readBack, roundTrips_checks.defined,
        roundTrips_checks.reads, roundTrips_lastBlock.defined, roundTrips_lastBlock.reads, ifTruthy]

theorem plain_healthData (h : HealthData) : h.serialize.hasBigint = false := by
  obtain ⟨level, blockedCount24h, checks, lastBlock⟩ := h
  cases lastBlock <;> simp [HealthData.serialize, roundTrips_checks.plain, roundTrips_lastBlock.plain]

/-- The pending update is read back as what is left of its serialization. -/
theorem reads_policyData (p : PolicyData) : policyDataFromJSON p.serialize.clean =
    some { data := { p with pendingUpdate := (serializePending p.pendingUpdate).clean }
           toJSON := p.serialize.clean } := by
  have hmode := roundTrips_mode.reads p.protocolMode
  simp only [clean_string] at hmode
  have hrest : (object (cleanFields [("pendingUpdate", serializePending p.pendingUpdate)])).get "pendingUpdate" =
      (serializePending p.pendingUpdate).clean := by
    generalize serializePending p.pendingUpdate = pending
    cases pending <;> simp [isUndefined]
  simp [PolicyData.serialize, policyDataFromJSON, withSource, hmode, hrest, roundTrips_app.list.reads,
    roundTrips_bs.list.reads, roundTrips_texts.reads]

/-! ### The pending update -/

mutual

/-- Amounts become texts. -/
theorem plain_serializeBigints : ∀ v : JsValue, (serializeBigints v).hasBigint = false
  | array items => by simp [serializeBigints, hasBigint, plain_serializeItems items]
  | object fields => by simp [serializeBigints, plain_serializeFields fields]
  | undefined => rfl
  | null => rfl
  | JsValue.bool _ => rfl
  | number _ => rfl
  | string _ => rfl
  | bigint _ => rfl

theorem plain_serializeItems : ∀ items : List JsValue, anyBigint (serializeItems items) = false
  | [] => rfl
  | v :: items => by simp [serializeItems, anyBigint, plain_serializeBigints v, plain_serializeItems items]

theorem plain_serializeFields : ∀ fields : List (String × JsValue), anyFieldBigint (serializeFields fields) = false
  | [] => rfl
  | (key, v) :: fields => by simp [serializeFields, plain_serializeBigints v, plain_serializeFields fields]

end

mutual

/-- Without amounts nothing changes. -/
theorem serializeBigints_of_plain : ∀ v : JsValue, v.hasBigint = false → serializeBigints v = v
  | array items => fun h => by rw [serializeBigints, serializeItems_of_plain items h]
  | object fields => fun h => by rw [serializeBigints, serializeFields_of_plain fields h]
  | undefined => fun _ => rfl
  | null => fun _ => rfl
  | JsValue.bool _ => fun _ => rfl
  | number _ => fun _ => rfl
  | string _ => fun _ => rfl
  | bigint _ => fun h => by cases h

theorem serializeItems_of_plain : ∀ items : List JsValue, anyBigint items = false → serializeItems items = items
  | [] => fun _ => rfl
  | v :: items => fun h => by
      simp only [anyBigint, Bool.or_eq_false_iff] at h
      rw [serializeItems, serializeBigints_of_plain v h.1, serializeItems_of_plain items h.2]

theorem serializeFields_of_plain : ∀ fields : List (String × JsValue),
    anyFieldBigint fields = false → serializeFields fields = fields
  | [] => fun _ => rfl
  | (key, v) :: fields => fun h => by
      simp only [anyFieldBigint_cons, Bool.or_eq_false_iff] at h
      rw [serializeFields, serializeBigints_of_plain v h.1, serializeFields_of_plain fields h.2]

end

/-- What is serialized comes back from a copy as it was exactly if it has no amount. -/
theorem clean_serializeBigints_iff {v : JsValue} (h : v.clean = v) :
    (serializeBigints v).clean = v ↔ v.hasBigint = false := by
  constructor
  · intro heq
    rw [← heq, hasBigint_clean, plain_serializeBigints]
  · intro hplain
    rw [serializeBigints_of_plain v hplain, h]

theorem stable_string : Stable string := ⟨fun _ => rfl, fun _ => rfl⟩

theorem stable_number : Stable number := ⟨fun _ => rfl, fun _ => rfl⟩

theorem stable_bool : Stable JsValue.bool := ⟨fun _ => rfl, fun _ => rfl⟩

theorem stable_bigint : Stable bigint := ⟨fun _ => rfl, fun _ => rfl⟩

theorem stable_mode : Stable fun m : ProtocolMode => string m.text := ⟨fun _ => rfl, fun _ => rfl⟩

theorem clean_toObject (c : PolicyChanges Double) : c.toObject.clean = c.toObject := by
  simp only [PolicyChanges.toObject, clean_object, cleanFields_append, stable_string.list.optionalField,
    stable_number.optionalField, stable_bool.optionalField, stable_bigint.optionalField,
    stable_bigint.list.optionalField, stable_mode.optionalField]

/-- The amounts among the changes. -/
theorem hasBigint_toObject (c : PolicyChanges Double) : c.toObject.hasBigint = false ↔
    c.dailyCap = none ∧ c.maxPerTrade = none ∧ c.sessionExpirySeconds = none ∧ c.protocolCaps.getD [] = [] := by
  have hstrings (l : List String) : (array (l.map string)).hasBigint = false := roundTrips_texts.plain l
  have hamount (n : Int) : (bigint n).hasBigint = true := rfl
  have hamounts (l : List Int) : (array (l.map bigint)).hasBigint = !l.isEmpty := by
    cases l <;> simp [hasBigint, anyBigint]
  obtain ⟨dailyCap, maxPerTrade, approvedApps, protocolMode, hasProtocolCaps, protocolCaps, maxSlippageBps,
    allowedDestinations, developerFeeRate, sessionExpirySeconds, timelock, destinationMode⟩ := c
  simp only [PolicyChanges.toObject, hasBigint_object, anyFieldBigint_append, anyFieldBigint_optionalField,
    Option.any_map, Bool.or_eq_false_iff]
  cases dailyCap <;> cases maxPerTrade <;> cases sessionExpirySeconds <;> cases protocolCaps <;>
    simp [hstrings, hamounts, hamount]

end Sigil.Sdk
