import Mathlib.Algebra.BigOperators.Group.List.Basic
import Mathlib.Algebra.Ring.Int.Defs

/-!
# What a shield records

The local record of `ShieldState`: spends and transactions with the times they were recorded at, in milliseconds. A
`bigint` is an integer without bounds.
-/

namespace Sigil.Sdk

structure SpendEntry where
  mint : String
  amount : Int
  timestamp : Int
  deriving DecidableEq, Repr

structure ShieldState where
  spendEntries : List SpendEntry
  txEntries : List Int
  deriving DecidableEq, Repr

abbrev pruneThreshold : Nat := 10000
abbrev dayMs : Int := 86400000

namespace ShieldState

/-- The sum of the entries that are not older than `cutoff`. -/
def totalSince (cutoff : Int) (s : ShieldState) : Int :=
  ((s.spendEntries.filter fun e => cutoff ≤ e.timestamp).map SpendEntry.amount).sum

def getTotalSpendInWindow (s : ShieldState) (now windowMs : Int) : Int := s.totalSince (now - windowMs)

def getSpendInWindow (s : ShieldState) (now : Int) (mint : String) (windowMs : Int) : Int :=
  ((s.spendEntries.filter fun e => e.mint = mint ∧ now - windowMs ≤ e.timestamp).map SpendEntry.amount).sum

def getTransactionCountInWindow (s : ShieldState) (now windowMs : Int) : Nat :=
  (s.txEntries.filter fun t => now - windowMs ≤ t).length

/-- Stale entries are dropped from a list that has grown too long. -/
def prune (s : ShieldState) (now : Int) : ShieldState :=
  let cutoff := now - dayMs
  { spendEntries :=
      if s.spendEntries.length > pruneThreshold then
        s.spendEntries.filter fun e => cutoff ≤ e.timestamp
      else s.spendEntries
    txEntries :=
      if s.txEntries.length > pruneThreshold then s.txEntries.filter fun t => cutoff ≤ t else s.txEntries }

def recordSpend (s : ShieldState) (now : Int) (mint : String) (amount : Int) : ShieldState :=
  prune { s with spendEntries := s.spendEntries ++ [⟨mint, amount, now⟩] } now

def recordTransaction (s : ShieldState) (now : Int) : ShieldState :=
  prune { s with txEntries := s.txEntries ++ [now] } now

end ShieldState

/-! ## The core shield

`core/state.ts`: its lists hold what those of the kit hold and are asked the same way; storage is left out. -/

namespace Core

abbrev maxSpendEntries : Nat := 5000
abbrev maxTxEntries : Nat := 5000

abbrev ShieldState : Type := Sdk.ShieldState

/-- `slice(-count)` -/
def lastEntries {α : Type} (count : Nat) (entries : List α) : List α := entries.drop (entries.length - count)

def recordSpend (s : ShieldState) (now : Int) (mint : String) (amount : Int) : ShieldState :=
  let entries := s.spendEntries ++ [⟨mint, amount, now⟩]
  { s with
    spendEntries := if entries.length > maxSpendEntries then lastEntries maxSpendEntries entries else entries }

def recordTransaction (s : ShieldState) (now : Int) : ShieldState :=
  let entries := s.txEntries ++ [now]
  { s with txEntries := if entries.length > maxTxEntries then lastEntries maxTxEntries entries else entries }

end Core

end Sigil.Sdk
