import Sigil.Library.JsValue
import Sigil.Sdk.PreviewCreateVault
import Sigil.Sdk.Strings

/-!
# Snapshots of balances

`BalanceSnapshotStore` of `balance-tracker.ts`. A `Map` is the list of its entries in the order of insertion, and the
text of `toJSON` is the value that it stands for.
-/

namespace Sigil.Sdk

open Library

structure TrackedBalance where
  mint : String
  balance : Int
  symbol : String
  decimals : Double

structure BalanceSnapshot where
  timestamp : Int
  balances : List TrackedBalance

structure BalanceSnapshotStore where
  maxEntries : Double := .ofRat 144
  baseline : Option BalanceSnapshot := none
  snapshots : List (Int × List TrackedBalance) := []
  orderedTimestamps : List Int := []

namespace BalanceSnapshotStore

variable (store : BalanceSnapshotStore)

/-! ## Snapshots -/

/-- `shift()` of the timestamps, and the entry of what it returns. Nothing is left to shift of no timestamps. -/
def shiftOldest : BalanceSnapshotStore :=
  match store.orderedTimestamps with
  | [] => store
  | oldest :: rest =>
      { store with
        orderedTimestamps := rest
        snapshots := store.snapshots.filter fun entry => entry.1 ≠ oldest }

/-- The loop of `snapshot`; `none` if it is not done after so many turns. -/
def evict : Nat → BalanceSnapshotStore → Option BalanceSnapshotStore
  | 0, _ => none
  | turns + 1, store =>
      if (store.orderedTimestamps.length : ℚ) > store.maxEntries.value then evict turns store.shiftOldest
      else some store

def withBaseline (timestamp : Int) (balances : List TrackedBalance) : BalanceSnapshotStore :=
  if store.baseline.isSome then store
  else { store with baseline := some { timestamp := timestamp, balances := balances } }

def snapshot (turns : Nat) (timestamp : Int) (balances : List TrackedBalance) : Option BalanceSnapshotStore :=
  let store := store.withBaseline timestamp balances
  if (store.snapshots.lookup timestamp).isSome then
    some
      { store with
        snapshots := store.snapshots.map fun entry => if entry.1 = timestamp then (timestamp, balances) else entry }
  else
    evict turns
      { store with
        snapshots := store.snapshots ++ [(timestamp, balances)]
        orderedTimestamps := store.orderedTimestamps ++ [timestamp] }

def clear : BalanceSnapshotStore :=
  { store with baseline := none, snapshots := [], orderedTimestamps := [] }

/-! ## Observations -/

def getBaseline : Option BalanceSnapshot := store.baseline

/-- The entry of a timestamp next to it; the entry may be `undefined`. -/
def getFirst : Option (Int × Option (List TrackedBalance)) :=
  store.orderedTimestamps.head?.map fun ts => (ts, store.snapshots.lookup ts)

def getLatest : Option (Int × Option (List TrackedBalance)) :=
  store.orderedTimestamps.getLast?.map fun ts => (ts, store.snapshots.lookup ts)

def size : Nat := store.orderedTimestamps.length

end BalanceSnapshotStore

/-! ## JSON -/

namespace TrackedBalance

def toJSON (b : TrackedBalance) : JsValue :=
  .object [("mint", .string b.mint), ("balance", .string (toString b.balance)), ("symbol", .string b.symbol),
    ("decimals", .number b.decimals)]

end TrackedBalance

def BalanceSnapshot.toJSON (s : BalanceSnapshot) : JsValue :=
  .object [("timestamp", .string (toString s.timestamp)), ("balances", .array (s.balances.map TrackedBalance.toJSON))]

def baselineToJSON : Option BalanceSnapshot → JsValue
  | none => .null
  | some s => s.toJSON

def BalanceSnapshotStore.toJSON (store : BalanceSnapshotStore) : JsValue :=
  .object [("baseline", baselineToJSON store.baseline),
    ("snapshots", .array (store.snapshots.map fun entry =>
      BalanceSnapshot.toJSON { timestamp := entry.1, balances := entry.2 })),
    ("maxEntries", .number store.maxEntries)]

/-- `BigInt` of a value, 0 where it throws; an array or an object is not read. -/
def safeBigInt : JsValue → Option Int
  | .string s => some ((bigInt s).getD 0)
  | .number x => some (if isInteger x then x.value.num else 0)
  | .bool b => some (if b then 1 else 0)
  | .bigint n => some n
  | .null => some 0
  | .undefined => some 0
  | .array _ => none
  | .object _ => none

def readTracked (v : JsValue) : Option TrackedBalance := do
  let mint ← (v.get "mint").asString
  let balance ← safeBigInt (v.get "balance")
  let symbol ← (v.get "symbol").asString
  let decimals ← (v.get "decimals").asNumber
  pure { mint := mint, balance := balance, symbol := symbol, decimals := decimals }

def readSnapshot (balances : JsValue) (v : JsValue) : Option BalanceSnapshot := do
  let timestamp ← safeBigInt (v.get "timestamp")
  let tracked ← balances.asListOf readTracked
  pure { timestamp := timestamp, balances := tracked }

/-- `v ?? []` -/
def orEmpty : JsValue → JsValue
  | .undefined => .array []
  | .null => .array []
  | v => v

def readMaxEntries (v : JsValue) : Double :=
  match v.asNumber with
  | some x => if isInteger x then x else .ofRat 144
  | none => .ofRat 144

def readBaseline (v : JsValue) : Option (Option BalanceSnapshot) :=
  if v.truthy then (readSnapshot (v.get "balances") v).map some else some none

/-- One turn of the loop over the snapshots. -/
def BalanceSnapshotStore.restore (store : BalanceSnapshotStore) (s : BalanceSnapshot) : BalanceSnapshotStore :=
  { store with
    snapshots :=
      if (store.snapshots.lookup s.timestamp).isSome then
        store.snapshots.map fun entry => if entry.1 = s.timestamp then (s.timestamp, s.balances) else entry
      else store.snapshots ++ [(s.timestamp, s.balances)]
    orderedTimestamps := store.orderedTimestamps ++ [s.timestamp] }

def BalanceSnapshotStore.fromJSON (data : JsValue) : Option BalanceSnapshotStore := do
  let baseline ← readBaseline (data.get "baseline")
  let snapshots ← (orEmpty (data.get "snapshots")).asListOf fun snap =>
    readSnapshot (orEmpty (snap.get "balances")) snap
  let empty : BalanceSnapshotStore := { maxEntries := readMaxEntries (data.get "maxEntries"), baseline := baseline }
  pure (snapshots.foldl BalanceSnapshotStore.restore empty)

end Sigil.Sdk
