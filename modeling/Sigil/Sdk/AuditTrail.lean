import Mathlib.Data.List.Sort
import Sigil.Sdk.Events
import Sigil.Sdk.Reads

/-!
# Audit trails

The two audit trails of the kit: `buildAuditTrail` of `dashboard/reads.ts` over the items of `getVaultActivity`, and
`getAuditTrail` of `security-analytics.ts` over decoded events.
-/

namespace Sigil.Sdk

open Library

/-- What the trails rest on beside the names of the events. -/
structure EventReader where
  decoders : EventDecoders
  describeEvent : DecodedSigilEvent → String
  resolveProtocolName : String → String

/-! ## Activity -/

inductive EventCategory where
  | trade | deposit | withdrawal | policy | agent | escrow | security | fee
  deriving DecidableEq, Repr

/-- `EVENT_CATEGORY_MAP`. -/
def eventCategoryMap : List (String × EventCategory) :=
  [("ActionAuthorized", .trade), ("SessionFinalized", .trade), ("DelegationRevoked", .trade),
   ("AgentTransferExecuted", .trade), ("AgentSpendLimitChecked", .trade), ("FundsDeposited", .deposit),
   ("FundsWithdrawn", .withdrawal), ("PolicyUpdated", .policy), ("PolicyChangeQueued", .policy),
   ("PolicyChangeApplied", .policy), ("PolicyChangeCancelled", .policy),
   ("InstructionConstraintsCreated", .policy), ("InstructionConstraintsUpdated", .policy),
   ("InstructionConstraintsClosed", .policy), ("ConstraintsChangeQueued", .policy),
   ("ConstraintsChangeApplied", .policy), ("ConstraintsChangeCancelled", .policy), ("AgentRegistered", .agent),
   ("AgentRevoked", .agent), ("AgentPermissionsUpdated", .agent), ("AgentUnpausedEvent", .agent),
   ("VaultCreated", .security), ("VaultFrozen", .security), ("VaultReactivated", .security),
   ("VaultClosed", .security), ("AgentPausedEvent", .security), ("FeesCollected", .fee),
   ("EscrowCreated", .escrow), ("EscrowSettled", .escrow), ("EscrowRefunded", .escrow)]

/-- A name without a category counts as a trade. -/
def categorizeEvent (eventName : String) : EventCategory := (eventCategoryMap.lookup eventName).getD .trade

def EventCategory.text : EventCategory → String
  | .trade => "trade"
  | .deposit => "deposit"
  | .withdrawal => "withdrawal"
  | .policy => "policy"
  | .agent => "agent"
  | .escrow => "escrow"
  | .security => "security"
  | .fee => "fee"

/-- A field that holds a text, unless it is empty. -/
def extractAddress (fields : Option JsValue) (key : String) : Option String :=
  (fields.bind fun f => (f.get key).asString).filter (· ≠ "")

def extractBigInt (fields : Option JsValue) (key : String) : Option Int :=
  fields.bind fun f => (f.get key).asBigint

/-- `ACTION_TYPE_NAMES_BY_INDEX`. -/
def actionTypeNames : List String :=
  ["swap", "openPosition", "closePosition", "increasePosition", "decreasePosition", "deposit", "withdraw", "transfer",
   "addCollateral", "removeCollateral", "placeTriggerOrder", "editTriggerOrder", "cancelTriggerOrder",
   "placeLimitOrder", "editLimitOrder", "cancelLimitOrder", "swapAndOpenPosition", "closeAndSwapPosition",
   "createEscrow", "settleEscrow", "refundEscrow"]

/-- The name at an index; `Number` of a `bigint` is taken before. -/
def parseActionType (index : Double) : Option String :=
  if index.value.den = 1 ∧ 0 ≤ index.value.num then actionTypeNames[index.value.num.toNat]? else none

/-- A field that is neither `undefined` nor `null`. -/
def presentField (f : JsValue) (key : String) : Option JsValue :=
  if (f.get key).isUndefined || (f.get key).isNull then none else some (f.get key)

/-- Events before the sixth version carry an action type in place of `isSpending`. -/
def legacyActionType (f : JsValue) : Option String :=
  if (presentField f "isSpending").isSome then none
  else (presentField f "actionType").bind fun actionType =>
    (actionType.get "__kind").asString.orElse fun _ =>
      (actionType.asNumber.orElse fun _ => actionType.asBigint.map numberOf).bind parseActionType

def buildActivityItem (reader : EventReader) (decoded : DecodedSigilEvent) (txSignature : String) (blockTime : Double) :
    VaultActivityItem :=
  let protocol := extractAddress decoded.fields "protocol"
  { timestamp := blockTime
    txSignature := txSignature
    eventType := decoded.name
    category := (categorizeEvent decoded.name).text
    agent := extractAddress decoded.fields "agent"
    amount := (extractBigInt decoded.fields "amount").orElse fun _ => extractBigInt decoded.fields "usdAmount"
    actionType := decoded.fields.bind legacyActionType
    protocol := protocol
    protocolName := protocol.map reader.resolveProtocolName
    success := decoded.fields.all fun f => (f.get "success").asBool ≠ some false
    description := reader.describeEvent decoded }

/-- A transaction as the RPC node answers. -/
structure FetchedTransaction where
  signature : String
  blockTime : Option Int
  logMessages : Option (List LogLine)

def activityOf (reader : EventReader) (tx : FetchedTransaction) : List VaultActivityItem :=
  (parseAndDecodeSigilEvents reader.decoders (tx.logMessages.getD [])).map fun event =>
    buildActivityItem reader event tx.signature (numberOf (tx.blockTime.getD 0))

/-- Newest first; the sort is stable. -/
def getVaultActivity (reader : EventReader) (txs : List FetchedTransaction) : List VaultActivityItem :=
  (txs.flatMap (activityOf reader)).mergeSort fun a b => b.timestamp.value ≤ a.timestamp.value

/-! ## `buildAuditTrail` -/

inductive AuditEventType where
  | policyChange | agentChange | vaultSecurity | escrow
  deriving DecidableEq, Repr

/-- `AUDIT_CATEGORY_TO_TYPE`. -/
def auditCategoryToType (category : String) : Option AuditEventType :=
  [("policy", AuditEventType.policyChange), ("agent", .agentChange), ("security", .vaultSecurity),
   ("escrow", .escrow)].lookup category

structure AuditTrailEntry where
  timestamp : Double
  eventType : AuditEventType
  eventName : String
  actor : String
  details : String
  txSignature : String

def auditTrailEntry (item : VaultActivityItem) : Option AuditTrailEntry :=
  (auditCategoryToType item.category).map fun eventType =>
    { timestamp := toMs item.timestamp
      eventType := eventType
      eventName := item.eventType
      actor := item.agent.getD ""
      details := item.description
      txSignature := item.txSignature }

def buildAuditTrail (items : List VaultActivityItem) : List AuditTrailEntry := items.filterMap auditTrailEntry

/-! ## `getAuditTrail` -/

inductive AuditCategory where
  | policyChange | agentChange | emergency | escrow | constraintChange
  deriving DecidableEq, Repr

/-- `AUDIT_EVENTS`. -/
def auditEvents : List (String × AuditCategory) :=
  [("PolicyUpdated", .policyChange), ("PolicyChangeQueued", .policyChange), ("PolicyChangeApplied", .policyChange),
   ("PolicyChangeCancelled", .policyChange), ("AgentRegistered", .agentChange), ("AgentRevoked", .agentChange),
   ("AgentPermissionsUpdated", .agentChange), ("AgentPausedEvent", .emergency),
   ("AgentUnpausedEvent", .agentChange), ("VaultFrozen", .emergency), ("VaultReactivated", .emergency),
   ("VaultClosed", .emergency), ("VaultCreated", .emergency), ("EscrowCreated", .escrow),
   ("EscrowSettled", .escrow), ("EscrowRefunded", .escrow), ("InstructionConstraintsCreated", .constraintChange),
   ("InstructionConstraintsUpdated", .constraintChange), ("InstructionConstraintsClosed", .constraintChange),
   ("ConstraintsChangeQueued", .constraintChange), ("ConstraintsChangeApplied", .constraintChange),
   ("ConstraintsChangeCancelled", .constraintChange)]

structure AuditEntry where
  timestamp : Double
  txSignature : String
  category : AuditCategory
  action : String
  actor : JsValue
  details : JsValue
  description : String

structure AuditOptions where
  categories : Option (List AuditCategory) := none
  since : Option Double := none
  actor : Option String := none

def firstField (f : JsValue) (keys : List String) : Option JsValue := keys.findSome? (presentField f)

/-- `Number` of a decoded integer. -/
def toNumber (v : JsValue) : Double := ((v.asBigint.map numberOf).orElse fun _ => v.asNumber).getD (.ofRat 0)

def keepsCategory (options : AuditOptions) (category : AuditCategory) : Bool :=
  options.categories.all fun categories => category ∈ categories

/-- An event without a timestamp is kept, whatever the bound. -/
def keepsSince (options : AuditOptions) (timestamp : Double) : Bool :=
  options.since.all fun since => since.value = 0 || timestamp.value ≤ 0 || since.value ≤ timestamp.value

def keepsActor (options : AuditOptions) (actor : JsValue) : Bool :=
  options.actor.all fun address => actor.asString = some address

def auditEntry (reader : EventReader) (options : AuditOptions) (e : DecodedSigilEvent) : Option AuditEntry := do
  let category ← auditEvents.lookup e.name
  let f := e.fields.getD (.object [])
  let timestamp := ((firstField f ["timestamp", "executes_at", "applied_at"]).map toNumber).getD (.ofRat 0)
  let actor := (firstField f ["owner", "agent", "settled_by", "refunded_by", "vault"]).getD (.string "unknown")
  if keepsCategory options category && keepsSince options timestamp && keepsActor options actor then
    pure { timestamp := timestamp, txSignature := "", category := category, action := e.name, actor := actor,
           details := f, description := reader.describeEvent e }
  else none

def getAuditTrail (reader : EventReader) (events : List DecodedSigilEvent) (options : AuditOptions) : List AuditEntry :=
  events.filterMap (auditEntry reader options)

end Sigil.Sdk
