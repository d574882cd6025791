import Sigil.Library.PrunedLog
import Sigil.Sdk.ShieldState

/-!
# Sequences of records

The calls of `recordSpend` and `recordTransaction` on one state, and the history that they would leave if nothing were
pruned.
-/

namespace Sigil.Sdk

open Library

/-- A call with what `Date.now()` has given it. -/
inductive ShieldRecord where
  | spend (now : Int) (mint : String) (amount : Int)
  | transaction (now : Int)
  deriving DecidableEq, Repr

namespace ShieldRecord

def now : ShieldRecord → Int
  | spend now _ _ => now
  | transaction now => now

def spendEntries : ShieldRecord → List SpendEntry
  | spend now mint amount => [⟨mint, amount, now⟩]
  | transaction _ => []

def txEntries : ShieldRecord → List Int
  | spend _ _ _ => []
  | transaction now => [now]

end ShieldRecord

namespace ShieldState

def empty : ShieldState := { spendEntries := [], txEntries := [] }

/-- Nothing is pruned. -/
def appended (s : ShieldState) (r : ShieldRecord) : ShieldState :=
  { spendEntries := s.spendEntries ++ r.spendEntries, txEntries := s.txEntries ++ r.txEntries }

def record (s : ShieldState) : ShieldRecord → ShieldState
  | .spend now mint amount => s.recordSpend now mint amount
  | .transaction now => s.recordTransaction now

def recordAll (s : ShieldState) (records : List ShieldRecord) : ShieldState := records.foldl record s

/-- The full history. -/
def appendAll (s : ShieldState) (records : List ShieldRecord) : ShieldState := records.foldl appended s

/-- In a window from `since` on, spends of nothing do not count. -/
def counts (since : Int) (e : SpendEntry) : Bool := since ≤ e.timestamp ∧ e.amount ≠ 0

/-- What is dropped of the spends at `now` is not missed in the window. -/
def KeepsSpends (since now : Int) (s : ShieldState) : Prop :=
  s.spendEntries.length ≤ pruneThreshold ∨
    ∀ e ∈ s.spendEntries, since ≤ e.timestamp → e.amount ≠ 0 → now - dayMs ≤ e.timestamp

def KeepsTransactions (since now : Int) (s : ShieldState) : Prop :=
  s.txEntries.length ≤ pruneThreshold ∨ ∀ t ∈ s.txEntries, since ≤ t → now - dayMs ≤ t

/-- A window of a day or less misses nothing, unless the record is later than the question. -/
theorem keeps_of_day {s : ShieldState} {now recordedAt windowMs : Int} (hwindow : windowMs ≤ dayMs)
    (hearlier : recordedAt ≤ now) :
    s.KeepsSpends (now - windowMs) recordedAt ∧ s.KeepsTransactions (now - windowMs) recordedAt := by
  constructor
  · right
    intro e _ hsince _
    omega
  · right
    intro t _ hsince
    omega

section
variable {s : ShieldState} {r : ShieldRecord} {records records' : List ShieldRecord} {since now : Int}

theorem record_eq_prune : s.record r = (s.appended r).prune r.now := by
  cases r <;> simp [record, appended, recordSpend, recordTransaction, ShieldRecord.spendEntries,
    ShieldRecord.txEntries, ShieldRecord.now]

theorem recordAll_append : s.recordAll (records ++ records') = (s.recordAll records).recordAll records' :=
  List.foldl_append ..

theorem appendAll_append : s.appendAll (records ++ records') = (s.appendAll records).appendAll records' :=
  List.foldl_append ..

/-! ## The two lists as logs -/

def spendWrite (r : ShieldRecord) : Write SpendEntry :=
  .pruned pruneThreshold (fun e => r.now - dayMs ≤ e.timestamp) r.spendEntries

def txWrite (r : ShieldRecord) : Write Int := .pruned pruneThreshold (fun t => r.now - dayMs ≤ t) r.txEntries

theorem recordAll_spendEntries :
    (s.recordAll records).spendEntries = Write.kept (records.map spendWrite) s.spendEntries := by
  induction records generalizing s with
  | nil => rfl
  | cons r records ih =>
      have hfirst : (s.record r).spendEntries = (spendWrite r).apply s.spendEntries := by
        rw [record_eq_prune]
        rfl
      rw [recordAll, List.foldl_cons, ← recordAll, ih, hfirst]
      rfl

theorem recordAll_txEntries : (s.recordAll records).txEntries = Write.kept (records.map txWrite) s.txEntries := by
  induction records generalizing s with
  | nil => rfl
  | cons r records ih =>
      have hfirst : (s.record r).txEntries = (txWrite r).apply s.txEntries := by
        rw [record_eq_prune]
        rfl
      rw [recordAll, List.foldl_cons, ← recordAll, ih, hfirst]
      rfl

theorem appendAll_spendEntries :
    (s.appendAll records).spendEntries = Write.history (records.map spendWrite) s.spendEntries := by
  induction records generalizing s with
  | nil => simp [appendAll, Write.history]
  | cons r records ih =>
      rw [appendAll, List.foldl_cons, ← appendAll, ih, List.map_cons, Write.history_cons]
      rfl

theorem appendAll_txEntries : (s.appendAll records).txEntries = Write.history (records.map txWrite) s.txEntries := by
  induction records generalizing s with
  | nil => simp [appendAll, Write.history]
  | cons r records ih =>
      rw [appendAll, List.foldl_cons, ← appendAll, ih, List.map_cons, Write.history_cons]
      rfl

end

/-! ## Windows -/

section
variable {s s' : ShieldState} {records : List ShieldRecord} {since now windowMs : Int} {mint : String}

/-- The entries with a property are all kept if, at each record, the list is short or they are recent. -/
theorem retains_spendWrite_iff {p : SpendEntry → Bool} :
    Write.Retains p (records.map spendWrite) s.spendEntries ↔
      ∀ before r after, records = before ++ r :: after →
        ((s.recordAll before).appended r).spendEntries.length ≤ pruneThreshold ∨
          ∀ e ∈ ((s.recordAll before).appended r).spendEntries, p e → r.now - dayMs ≤ e.timestamp := by
  refine Write.retains_map_iff.trans (forall₃_congr fun before r after => imp_congr_right fun _ => ?_)
  rw [← recordAll_spendEntries, spendWrite]
  apply Write.pruned_filter_iff.trans
  simp [appended]

theorem retains_txWrite_iff {p : Int → Bool} :
    Write.Retains p (records.map txWrite) s.txEntries ↔
      ∀ before r after, records = before ++ r :: after →
        ((s.recordAll before).appended r).txEntries.length ≤ pruneThreshold ∨
          ∀ t ∈ ((s.recordAll before).appended r).txEntries, p t → r.now - dayMs ≤ t := by
  refine Write.retains_map_iff.trans (forall₃_congr fun before r after => imp_congr_right fun _ => ?_)
  rw [← recordAll_txEntries, txWrite]
  apply Write.pruned_filter_iff.trans
  simp [appended]

theorem retains_spends_iff : Write.Retains (counts since) (records.map spendWrite) s.spendEntries ↔
    ∀ before r after, records = before ++ r :: after → ((s.recordAll before).appended r).KeepsSpends since r.now := by
  rw [retains_spendWrite_iff]
  simp [KeepsSpends, counts]

theorem retains_transactions_iff :
    Write.Retains (fun t => since ≤ t) (records.map txWrite) s.txEntries ↔
      ∀ before r after, records = before ++ r :: after →
        ((s.recordAll before).appended r).KeepsTransactions since r.now := by
  rw [retains_txWrite_iff]
  simp [KeepsTransactions]

/-- Spends of nothing do not change the sums. -/
theorem getSpendInWindow_eq : s.getSpendInWindow now mint windowMs =
    (((s.spendEntries.filter (counts (now - windowMs))).filter fun e => e.mint = mint).map SpendEntry.amount).sum := by
  rw [getSpendInWindow, ← Write.sum_filter_ne_zero, List.filter_filter, List.filter_filter]
  congr 2
  apply List.filter_congr
  intro e _
  simp only [counts, Bool.decide_and, Bool.and_comm, Bool.and_assoc, ne_eq]

theorem totalSince_eq : s.totalSince since =
    ((s.spendEntries.filter (counts since)).map SpendEntry.amount).sum := by
  rw [totalSince, ← Write.sum_filter_ne_zero, List.filter_filter]
  congr 2
  apply List.filter_congr
  intro e _
  simp only [counts, Bool.decide_and, Bool.and_comm, ne_eq]

/-- Without spends below nothing, the sums of a window show whether anything is missing in it. -/
theorem counts_eq_of_spend (h : s.spendEntries.Sublist s'.spendEntries)
    (hnonneg : ∀ e ∈ s'.spendEntries, 0 ≤ e.amount)
    (hspend : ∀ mint, s.getSpendInWindow now mint windowMs = s'.getSpendInWindow now mint windowMs) :
    s.spendEntries.filter (counts (now - windowMs)) = s'.spendEntries.filter (counts (now - windowMs)) := by
  apply Write.eq_of_filter_key SpendEntry.mint (h.filter _)
  intro mint
  have hsum := hspend mint
  rw [getSpendInWindow_eq, getSpendInWindow_eq] at hsum
  have hsame := Write.filter_eq_of_sum_eq ((h.filter _).filter _) (fun e he =>
    hnonneg e (List.mem_of_mem_filter (List.mem_of_mem_filter he))) hsum
  simpa [List.filter_filter, counts, Bool.and_assoc, Bool.and_comm, Bool.and_left_comm] using hsame

end

end ShieldState

/-! ## The core shield -/

namespace Core

def record (s : ShieldState) : ShieldRecord → ShieldState
  | .spend now mint amount => recordSpend s now mint amount
  | .transaction now => recordTransaction s now

def recordAll (s : ShieldState) (records : List ShieldRecord) : ShieldState := records.foldl record s

/-- What a record forces out, the entry itself being appended, is not missed in the window. -/
def Keeps (since : Int) (s : ShieldState) : ShieldRecord → Prop
  | .spend _ _ _ => ∀ e ∈ s.spendEntries.take (s.spendEntries.length - maxSpendEntries),
      since ≤ e.timestamp → e.amount = 0
  | .transaction _ => ∀ t ∈ s.txEntries.take (s.txEntries.length - maxTxEntries), t < since

def spendWrite : ShieldRecord → Write SpendEntry
  | .spend now mint amount => .trimmed maxSpendEntries [⟨mint, amount, now⟩]
  | .transaction _ => .idle

def txWrite : ShieldRecord → Write Int
  | .spend _ _ _ => .idle
  | .transaction now => .trimmed maxTxEntries [now]

section
variable {s : ShieldState} {records : List ShieldRecord} {since : Int}

theorem lastEntries_of_le {α : Type} {count : Nat} {entries : List α} :
    (if entries.length > count then lastEntries count entries else entries) = lastEntries count entries := by
  split
  · rfl
  · rw [lastEntries, Nat.sub_eq_zero_of_le (by omega), List.drop_zero]

theorem record_spendEntries {r : ShieldRecord} :
    (record s r).spendEntries = (spendWrite r).apply s.spendEntries := by
  cases r with
  | spend now mint amount =>
      rw [record, recordSpend, lastEntries_of_le]
      rfl
  | transaction now => exact Write.idle_apply.symm

theorem record_txEntries {r : ShieldRecord} : (record s r).txEntries = (txWrite r).apply s.txEntries := by
  cases r with
  | spend now mint amount => exact Write.idle_apply.symm
  | transaction now =>
      rw [record, recordTransaction, lastEntries_of_le]
      rfl

theorem recordAll_spendEntries :
    (recordAll s records).spendEntries = Write.kept (records.map spendWrite) s.spendEntries := by
  induction records generalizing s with
  | nil => rfl
  | cons r records ih =>
      rw [recordAll, List.foldl_cons, ← recordAll, ih, record_spendEntries]
      rfl

theorem recordAll_txEntries : (recordAll s records).txEntries = Write.kept (records.map txWrite) s.txEntries := by
  induction records generalizing s with
  | nil => rfl
  | cons r records ih =>
      rw [recordAll, List.foldl_cons, ← recordAll, ih, record_txEntries]
      rfl

theorem appendAll_spendEntries :
    (Sdk.ShieldState.appendAll s records).spendEntries = Write.history (records.map spendWrite) s.spendEntries := by
  induction records generalizing s with
  | nil => simp [Sdk.ShieldState.appendAll, Write.history]
  | cons r records ih =>
      rw [Sdk.ShieldState.appendAll, List.foldl_cons, ← Sdk.ShieldState.appendAll, ih, List.map_cons,
        Write.history_cons]
      cases r <;> rfl

theorem appendAll_txEntries :
    (Sdk.ShieldState.appendAll s records).txEntries = Write.history (records.map txWrite) s.txEntries := by
  induction records generalizing s with
  | nil => simp [Sdk.ShieldState.appendAll, Write.history]
  | cons r records ih =>
      rw [Sdk.ShieldState.appendAll, List.foldl_cons, ← Sdk.ShieldState.appendAll, ih, List.map_cons,
        Write.history_cons]
      cases r <;> rfl

end

end Core

end Sigil.Sdk
