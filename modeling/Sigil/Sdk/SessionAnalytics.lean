import Sigil.Sdk.Events
import Sigil.Sdk.Reads

/-!
# Session analytics

`getSlippageEfficiency` and `getSessionDeviationRate` of `advanced-analytics.ts`. An authorization is paired with one
of the four events after it.
-/

namespace Sigil.Sdk

open Library

/-! ## Pairs -/

/-- Fields of an event with this name; without fields the event is skipped. -/
def fieldsNamed (name : String) (event : DecodedSigilEvent) : Option JsValue :=
  if event.name = name then event.fields else none

/-- The agent of an event is a text. -/
def sameAgent (auth fin : JsValue) : Bool := (auth.get "agent").asString = (fin.get "agent").asString

/-- Anything but a `bigint` counts as nothing. -/
def actualSpend (fin : JsValue) : Int := ((fin.get "actualSpendUsd").asBigint).getD 0

/-- An authorization and the finalization found for it, with their positions. -/
structure EventPair where
  authorizedAt : Nat
  auth : JsValue
  finalizedAt : Nat
  fin : JsValue

/-- The loop over `j`, which stops at the first finalization that is taken. -/
def findFinalization (takes : JsValue → JsValue → Bool) (auth : JsValue) : Nat → List DecodedSigilEvent →
    Option (Nat × JsValue)
  | _, [] => none
  | j, event :: rest =>
      (((fieldsNamed "SessionFinalized" event).filter (takes auth)).map fun fin => (j, fin)).or
        (findFinalization takes auth (j + 1) rest)

/-- The pair of the event at `i`: `j` ends at `min(i + 5, events.length)`. -/
def pairAt (takes : JsValue → JsValue → Bool) (i : Nat) (event : DecodedSigilEvent) (rest : List DecodedSigilEvent) :
    Option EventPair :=
  (fieldsNamed "ActionAuthorized" event).bind fun auth =>
    (findFinalization takes auth (i + 1) (rest.take 4)).map fun found =>
      { authorizedAt := i, auth := auth, finalizedAt := found.1, fin := found.2 }

/-- The loop over `i`, from the event at `i` on. -/
def pairsFrom (takes : JsValue → JsValue → Bool) : Nat → List DecodedSigilEvent → List EventPair
  | _, [] => []
  | i, event :: rest => (pairAt takes i event rest).toList ++ pairsFrom takes (i + 1) rest

/-! ## Slippage -/

def takesSlippage (auth fin : JsValue) : Bool := sameAgent auth fin

def slippagePairs (events : List DecodedSigilEvent) : List EventPair := pairsFrom takesSlippage 0 events

structure Trade where
  agent : String
  /-- `none` is no `bigint`. -/
  authorized : Option Int
  actual : Int
  deriving DecidableEq

def EventPair.trade (p : EventPair) : Trade where
  agent := ((p.auth.get "agent").asString).getD ""
  authorized := (p.auth.get "usdAmount").asBigint
  actual := actualSpend p.fin

structure AgentSlippage where
  agent : String
  avgSlippageBps : Double
  worstSlippageBps : Double
  tradeCount : Nat
  estimatedWasteUsd : Int

structure SlippageReport where
  byAgent : List AgentSlippage
  vaultAvgSlippageBps : Double

/-- Sum, worst and waste of the trades so far. -/
structure SlippageTotals where
  worstBps : Double := .ofRat 0
  totalBps : Double := .ofRat 0
  totalWaste : Int := 0

/-- A `bigint` cannot be divided by anything else, so such a trade is a `TypeError`. -/
def SlippageTotals.add (totals : SlippageTotals) (trade : Trade) : Option SlippageTotals :=
  trade.authorized.map fun authorized =>
    if authorized = 0 then totals
    else
      let diff := if trade.actual > authorized then trade.actual - authorized else 0
      let bps := numberOf ((diff * 10000).tdiv authorized)
      { worstBps := if bps.value > totals.worstBps.value then bps else totals.worstBps
        totalBps := .ofRat (totals.totalBps.value + bps.value)
        totalWaste := totals.totalWaste + diff }

/-- A mean of nothing is zero. -/
def average (total : Double) (count : Nat) : Double := if count > 0 then .ofRat (total.value / count) else .ofRat 0

def agentSlippage (agent : String) (trades : List Trade) : Option (Double × AgentSlippage) :=
  (trades.foldlM SlippageTotals.add {}).map fun totals =>
    (totals.totalBps,
      { agent := agent
        avgSlippageBps := average totals.totalBps trades.length
        worstSlippageBps := totals.worstBps
        tradeCount := trades.length
        estimatedWasteUsd := totals.totalWaste })

/-- The trades of each agent; the agents in the order in which they appear. -/
def agentTrades (trades : List Trade) : List (String × List Trade) :=
  ((trades.map Trade.agent).eraseDups).map fun agent => (agent, trades.filter fun t => t.agent = agent)

/-- The report over trades. -/
def slippageReport (trades : List Trade) : Option SlippageReport :=
  ((agentTrades trades).mapM fun entry => agentSlippage entry.1 entry.2).map fun rows =>
    { byAgent := rows.map Prod.snd
      vaultAvgSlippageBps :=
        average (rows.foldl (fun total row => .ofRat (total.value + row.1.value)) (.ofRat 0)) trades.length }

def getSlippageEfficiency (events : List DecodedSigilEvent) : Option SlippageReport :=
  slippageReport ((slippagePairs events).map EventPair.trade)

/-! ## Deviation -/

def takesDeviation (auth fin : JsValue) : Bool := sameAgent auth fin && actualSpend fin > 0

def deviationPairs (events : List DecodedSigilEvent) : List EventPair := pairsFrom takesDeviation 0 events

structure Deviation where
  agent : String
  authorizedAmount : Int
  actualSpend : Int
  deviationBps : Double

structure DeviationReport where
  totalSessions : Nat
  deviatedSessions : Nat
  deviationRate : Double
  maxDeviationBps : Double
  deviations : List Deviation

/-- More than two percent above the authorized amount. -/
def deviationOf (trade : Trade) : Option Deviation :=
  let authorized := trade.authorized.getD 0
  if authorized ≠ 0 ∧ trade.actual > authorized then
    let bps := numberOf (((trade.actual - authorized) * 10000).tdiv authorized)
    if bps.value > 200 then
      some { agent := trade.agent, authorizedAmount := authorized, actualSpend := trade.actual, deviationBps := bps }
    else none
  else none

def deviationReport (pairs : List Trade) : DeviationReport :=
  let deviations := pairs.filterMap deviationOf
  { totalSessions := pairs.length
    deviatedSessions := deviations.length
    deviationRate :=
      if pairs.length > 0 then
        .ofRat ((Double.ofRat ((deviations.length : ℚ) / pairs.length)).value * 100)
      else .ofRat 0
    maxDeviationBps :=
      deviations.foldl (fun maxBps d => if d.deviationBps.value > maxBps.value then d.deviationBps else maxBps)
        (.ofRat 0)
    deviations := deviations }

def getSessionDeviationRate (events : List DecodedSigilEvent) : DeviationReport :=
  deviationReport ((deviationPairs events).map EventPair.trade)

end Sigil.Sdk
