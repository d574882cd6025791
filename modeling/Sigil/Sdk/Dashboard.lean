import Sigil.Library.JsValue
import Sigil.State.Tracker
import Sigil.State.Vault

/-!
# Types of the dashboard

The views of `dashboard/types.ts`, and the context they are composed from. A number is a `Double`, a `bigint` an
integer, an address its text. Fields that no view reads are left out.
-/

namespace Sigil.Sdk

open Library

/-- A view and the value of its `toJSON`. -/
structure View (α : Type) where
  data : α
  toJSON : JsValue

/-! ## Changes of a policy -/

inductive ProtocolMode where
  | whitelist | blacklist | unrestricted
  deriving DecidableEq, Repr

namespace ProtocolMode

def all : List ProtocolMode := [.whitelist, .blacklist, .unrestricted]

def text : ProtocolMode → String
  | whitelist => "whitelist"
  | blacklist => "blacklist"
  | unrestricted => "unrestricted"

/-- `modeMap[n] || "unrestricted"`. -/
def modeMap : Nat → ProtocolMode
  | 0 => unrestricted
  | 1 => whitelist
  | 2 => blacklist
  | _ => unrestricted

end ProtocolMode

/-- `ν` is what a `number` can be. -/
structure PolicyChanges (ν : Type) where
  dailyCap : Option Int := none
  maxPerTrade : Option Int := none
  approvedApps : Option (List String) := none
  protocolMode : Option ProtocolMode := none
  hasProtocolCaps : Option Bool := none
  protocolCaps : Option (List Int) := none
  maxSlippageBps : Option ν := none
  allowedDestinations : Option (List String) := none
  developerFeeRate : Option ν := none
  sessionExpirySeconds : Option Int := none
  timelock : Option ν := none
  destinationMode : Option ν := none
  deriving DecidableEq

open JsValue (optionalField) in
/-- The object with the fields that are present. -/
def PolicyChanges.toObject (c : PolicyChanges Double) : JsValue :=
  .object
    (optionalField "dailyCap" (c.dailyCap.map .bigint) ++
      optionalField "maxPerTrade" (c.maxPerTrade.map .bigint) ++
      optionalField "approvedApps" (c.approvedApps.map fun l => .array (l.map .string)) ++
      optionalField "protocolMode" (c.protocolMode.map fun m => .string m.text) ++
      optionalField "hasProtocolCaps" (c.hasProtocolCaps.map .bool) ++
      optionalField "protocolCaps" (c.protocolCaps.map fun l => .array (l.map .bigint)) ++
      optionalField "maxSlippageBps" (c.maxSlippageBps.map .number) ++
      optionalField "allowedDestinations" (c.allowedDestinations.map fun l => .array (l.map .string)) ++
      optionalField "developerFeeRate" (c.developerFeeRate.map .number) ++
      optionalField "sessionExpirySeconds" (c.sessionExpirySeconds.map .bigint) ++
      optionalField "timelock" (c.timelock.map .number) ++
      optionalField "destinationMode" (c.destinationMode.map .number))

/-! ## Codecs -/

/-- The codecs of `bigint` and of addresses, as far as they can refuse a value. What they do not refuse is encoded as it
is. -/
structure Codecs where
  u64 : Int → Option UInt64
  address : String → Option Pubkey
  /-- The text of an address. -/
  base58 : Pubkey → String
  u64_exact : ∀ {i n}, u64 i = some n → i = n.toNat
  address_exact : ∀ {s k}, address s = some k → base58 k = s

/-! ## Views -/

inductive HealthLevel where
  | healthy | elevated | critical
  deriving DecidableEq, Repr

namespace HealthLevel

def all : List HealthLevel := [.healthy, .elevated, .critical]

def text : HealthLevel → String
  | healthy => "healthy"
  | elevated => "elevated"
  | critical => "critical"

end HealthLevel

inductive AgentStatus where
  | active | paused
  deriving DecidableEq, Repr

namespace AgentStatus

def all : List AgentStatus := [.active, .paused]

def text : AgentStatus → String
  | active => "active"
  | paused => "paused"

end AgentStatus

inductive ActivityType where
  | swap | lend | transfer | deposit | withdraw
  deriving DecidableEq, Repr

namespace ActivityType

def all : List ActivityType := [.swap, .lend, .transfer, .deposit, .withdraw]

def text : ActivityType → String
  | swap => "swap"
  | lend => "lend"
  | transfer => "transfer"
  | deposit => "deposit"
  | withdraw => "withdraw"

end ActivityType

inductive ActivityStatus where
  | approved | blocked
  deriving DecidableEq, Repr

namespace ActivityStatus

def all : List ActivityStatus := [.approved, .blocked]

def text : ActivityStatus → String
  | approved => "approved"
  | blocked => "blocked"

end ActivityStatus

/-- Status of a vault in a view. -/
def statuses : List VaultStatus := [.active, .frozen, .closed]

def statusText : VaultStatus → String
  | .active => "active"
  | .frozen => "frozen"
  | .closed => "closed"

structure HealthCheck where
  name : String
  passed : Bool

structure TokenBalance where
  mint : String
  amount : Int
  decimals : Double

/-- Field `vault` of `VaultState`. -/
structure VaultSummary where
  address : String
  status : VaultStatus
  owner : String
  agentCount : Double
  totalVolume : Int
  totalFees : Int

structure VaultBalance where
  total : Int
  tokens : List TokenBalance

structure ProfitAndLoss where
  percent : Double
  absolute : Int

structure HealthSummary where
  level : HealthLevel
  alertCount : Double
  checks : List HealthCheck

structure VaultState where
  vault : VaultSummary
  balance : VaultBalance
  pnl : ProfitAndLoss
  health : HealthSummary

structure AgentSpending where
  amount : Int
  limit : Int
  percent : Double

structure AgentData where
  address : String
  status : AgentStatus
  capabilityLabel : String
  capability : Double
  spending : AgentSpending
  lastActionType : String
  lastActionProtocol : String
  lastActionTimestamp : Double
  blockedCount24h : Double

structure GlobalSpending where
  today : Int
  cap : Int
  remaining : Int
  percent : Double
  rundownMs : Double

structure ChartPoint where
  time : String
  amount : Double

structure ProtocolBreakdownEntry where
  name : String
  programId : String
  amount : Int
  percent : Double

structure SpendingData where
  global : GlobalSpending
  chart : List ChartPoint
  protocolBreakdown : List ProtocolBreakdownEntry

structure ActivityRow where
  id : String
  timestamp : Double
  type : ActivityType
  protocol : String
  protocolId : String
  agent : String
  amount : Int
  status : ActivityStatus
  reason : Option String
  txSignature : String

structure LastBlock where
  agent : String
  reason : String
  amount : Int
  timestamp : Double

structure HealthData where
  level : HealthLevel
  blockedCount24h : Double
  checks : List HealthCheck
  lastBlock : Option LastBlock

structure ApprovedApp where
  name : String
  programId : String

structure PolicyData where
  dailyCap : Int
  maxPerTrade : Int
  approvedApps : List ApprovedApp
  protocolMode : ProtocolMode
  hasProtocolCaps : Bool
  protocolCaps : List Int
  maxSlippageBps : Double
  allowedDestinations : List String
  developerFeeRate : Double
  sessionExpirySeconds : Int
  timelockSeconds : Double
  policyVersion : Int
  /-- An object or `undefined`; the reader takes it as it is. -/
  pendingUpdate : JsValue

structure OverviewData where
  vault : VaultState
  agents : List AgentData
  spending : SpendingData
  health : HealthData
  policy : PolicyData
  activity : List ActivityRow

/-! ## Context -/

structure EffectiveBudget where
  spent24h : Int
  cap : Int
  remaining : Int

structure StablecoinBalances where
  usdc : Int
  usdt : Int

/-- The vault and the policy may be missing in a context made by hand. -/
structure ResolvedVaultStateForOwner where
  vault : Option AgentVault
  policy : Option PolicyConfig
  tracker : Option SpendTracker
  globalBudget : EffectiveBudget
  allAgentBudgets : String → Option EffectiveBudget
  stablecoinBalances : StablecoinBalances

/-- The percentage may be infinite or no number. -/
structure VaultPnL where
  pnl : Int
  pnlPercent : Option Double

structure VaultActivityItem where
  timestamp : Double
  txSignature : String
  eventType : String
  category : String
  agent : Option String
  amount : Option Int
  actionType : Option String
  protocol : Option String
  protocolName : Option String
  success : Bool
  description : String

structure SecurityCheck where
  id : String
  passed : Bool

structure SecurityPosture where
  checks : List SecurityCheck
  failCount : Double
  criticalFailures : List SecurityCheck

inductive Severity where
  | info | warning | critical
  deriving DecidableEq, Repr

structure Alert where
  severity : Severity
  title : String
  agentAddress : Option String

structure ProtocolSpending where
  protocol : String
  spent24h : Int
  utilization : Double

structure SpendingBreakdown where
  byProtocol : List ProtocolSpending

structure SpendingEpoch where
  timestamp : Double
  usdAmount : Int

structure AgentProfile where
  paused : Bool
  capabilityLabel : String
  capability : Double

structure OverviewContext where
  vault : String
  state : ResolvedVaultStateForOwner
  pnl : Option VaultPnL := none
  activity : Option (List VaultActivityItem) := none
  pendingPolicy : Option PendingPolicyUpdate := none
  posture : Option SecurityPosture := none
  breakdown : Option SpendingBreakdown := none
  alerts : Option (List Alert) := none

end Sigil.Sdk
