import Sigil.Lemmas.ShieldRecords

/-!
# Windows and pruning

What a state answers for a window, compared with the full history. Nothing is missed if and only if no record drops an
entry that the window still covers: of the kit that is so for every window of a day or less, of the core shield as long
as its newest entries reach back far enough.
-/

namespace Sigil.Sdk

open Library

namespace ShieldState

/-- Two states give the same answers for a window. The core shield is not asked for the total. -/
structure SameAnswers (now windowMs : Int) (s s' : ShieldState) : Prop where
  spend : ∀ mint, s.getSpendInWindow now mint windowMs = s'.getSpendInWindow now mint windowMs
  total : s.getTotalSpendInWindow now windowMs = s'.getTotalSpendInWindow now windowMs
  count : s.getTransactionCountInWindow now windowMs = s'.getTransactionCountInWindow now windowMs

/-- No record drops what a window from `since` on covers. -/
def RetainsWindow (since : Int) (s : ShieldState) (records : List ShieldRecord) : Prop :=
  ∀ before r after, records = before ++ r :: after →
    ((s.recordAll before).appended r).KeepsSpends since r.now ∧
      ((s.recordAll before).appended r).KeepsTransactions since r.now

def NonNegative (s : ShieldState) : Prop := ∀ e ∈ s.spendEntries, 0 ≤ e.amount

section
variable {s s' : ShieldState} {records : List ShieldRecord} {since now windowMs : Int}

theorem retainsWindow_iff : s.RetainsWindow since records ↔
    Write.Retains (counts since) (records.map spendWrite) s.spendEntries ∧
      Write.Retains (fun t => since ≤ t) (records.map txWrite) s.txEntries := by
  rw [retains_spends_iff, retains_transactions_iff]
  constructor
  · intro h
    exact ⟨fun before r after hsplit => (h before r after hsplit).1,
      fun before r after hsplit => (h before r after hsplit).2⟩
  · intro h before r after hsplit
    exact ⟨h.1 before r after hsplit, h.2 before r after hsplit⟩

theorem SameAnswers.of_filter (hspends : s.spendEntries.filter (counts (now - windowMs)) =
      s'.spendEntries.filter (counts (now - windowMs)))
    (htxs : (s.txEntries.filter fun t => now - windowMs ≤ t) = s'.txEntries.filter fun t => now - windowMs ≤ t) :
    s.SameAnswers now windowMs s' := by
  constructor
  case spend =>
    intro mint
    rw [getSpendInWindow_eq, getSpendInWindow_eq, hspends]
  case total => rw [getTotalSpendInWindow, getTotalSpendInWindow, totalSince_eq, totalSince_eq, hspends]
  case count => rw [getTransactionCountInWindow, getTransactionCountInWindow, htxs]

/-- What is missing shows in the answers, if no spend is below nothing. -/
theorem SameAnswers.filter_eq (h : s.SameAnswers now windowMs s') (hspends : s.spendEntries.Sublist s'.spendEntries)
    (htxs : s.txEntries.Sublist s'.txEntries) (hnonneg : s'.NonNegative) :
    s.spendEntries.filter (counts (now - windowMs)) = s'.spendEntries.filter (counts (now - windowMs)) ∧
      (s.txEntries.filter fun t => now - windowMs ≤ t) = s'.txEntries.filter fun t => now - windowMs ≤ t := by
  constructor
  · exact counts_eq_of_spend hspends hnonneg h.spend
  · apply (htxs.filter _).eq_of_length
    exact h.count

/-- A window of a day or less is retained, unless a record is later than the question. -/
theorem retainsWindow_of_day (hwindow : windowMs ≤ dayMs) (hclock : ∀ r ∈ records, r.now ≤ now) :
    s.RetainsWindow (now - windowMs) records := by
  intro before r after hsplit
  exact keeps_of_day hwindow (hclock r (by simp [hsplit]))

end

end ShieldState

namespace Core

/-- The newest entries reach back to `since`. -/
def RetainsWindow (since : Int) (s : ShieldState) (records : List ShieldRecord) : Prop :=
  ∀ before r after, records = before ++ r :: after → Keeps since ((recordAll s before).appended r) r

section
variable {s : ShieldState} {records : List ShieldRecord} {since : Int}

theorem keeps_iff {r : ShieldRecord} : Keeps since (s.appended r) r ↔
    ((spendWrite r).apply s.spendEntries).filter (Sdk.ShieldState.counts since) =
        (s.spendEntries ++ (spendWrite r).entries).filter (Sdk.ShieldState.counts since) ∧
      ((txWrite r).apply s.txEntries).filter (fun t => since ≤ t) =
        (s.txEntries ++ (txWrite r).entries).filter fun t => since ≤ t := by
  cases r with
  | spend now mint amount =>
      have htxs : ((txWrite (.spend now mint amount)).apply s.txEntries).filter (fun t => decide (since ≤ t)) =
          (s.txEntries ++ (txWrite (.spend now mint amount)).entries).filter fun t => decide (since ≤ t) := by
        simp [txWrite]
      rw [and_iff_left htxs]
      refine Iff.trans ?_ Write.trimmed_filter_iff.symm
      simp [Keeps, Sdk.ShieldState.counts, Sdk.ShieldState.appended, ShieldRecord.spendEntries]
  | transaction now =>
      have hspends : ((spendWrite (.transaction now)).apply s.spendEntries).filter (Sdk.ShieldState.counts since) =
          (s.spendEntries ++ (spendWrite (.transaction now)).entries).filter (Sdk.ShieldState.counts since) := by
        simp [spendWrite]
      rw [and_iff_right hspends]
      refine Iff.trans ?_ Write.trimmed_filter_iff.symm
      simp [Keeps, Sdk.ShieldState.appended, ShieldRecord.txEntries]

theorem retainsWindow_iff : RetainsWindow since s records ↔
    Write.Retains (Sdk.ShieldState.counts since) (records.map spendWrite) s.spendEntries ∧
      Write.Retains (fun t => since ≤ t) (records.map txWrite) s.txEntries := by
  rw [Write.retains_map_iff, Write.retains_map_iff]
  simp only [RetainsWindow, keeps_iff, recordAll_spendEntries, recordAll_txEntries]
  constructor
  · intro h
    exact ⟨fun before r after hsplit => (h before r after hsplit).1,
      fun before r after hsplit => (h before r after hsplit).2⟩
  · intro h before r after hsplit
    exact ⟨h.1 before r after hsplit, h.2 before r after hsplit⟩

end

end Core

/-- A window is answered as from the full history if no record drops what it covers, and, of spends that are not below
nothing, only then. -/
theorem window_answers_iff (s : ShieldState) (records : List ShieldRecord) (now windowMs : Int) :
    ((s.RetainsWindow (now - windowMs) records →
        (s.recordAll records).SameAnswers now windowMs (s.appendAll records)) ∧
      ((s.appendAll records).NonNegative →
        (s.recordAll records).SameAnswers now windowMs (s.appendAll records) →
        s.RetainsWindow (now - windowMs) records)) ∧
    (Core.RetainsWindow (now - windowMs) s records →
        (Core.recordAll s records).SameAnswers now windowMs (s.appendAll records)) ∧
      ((s.appendAll records).NonNegative →
        (Core.recordAll s records).SameAnswers now windowMs (s.appendAll records) →
        Core.RetainsWindow (now - windowMs) s records) := by
  rw [ShieldState.retainsWindow_iff, Core.retainsWindow_iff]
  simp only [← Write.filter_kept_iff]
  refine ⟨⟨?_, ?_⟩, ?_, ?_⟩
  · rw [← ShieldState.recordAll_spendEntries, ← ShieldState.recordAll_txEntries,
      ← ShieldState.appendAll_spendEntries, ← ShieldState.appendAll_txEntries]
    exact fun h => .of_filter h.1 h.2
  · intro hnonneg h
    have hspends : (s.recordAll records).spendEntries.Sublist (s.appendAll records).spendEntries := by
      rw [ShieldState.recordAll_spendEntries, ShieldState.appendAll_spendEntries]
      exact Write.kept_sublist
    have htxs : (s.recordAll records).txEntries.Sublist (s.appendAll records).txEntries := by
      rw [ShieldState.recordAll_txEntries, ShieldState.appendAll_txEntries]
      exact Write.kept_sublist
    rw [← ShieldState.recordAll_spendEntries, ← ShieldState.recordAll_txEntries,
      ← ShieldState.appendAll_spendEntries, ← ShieldState.appendAll_txEntries]
    exact h.filter_eq hspends htxs hnonneg
  · rw [← Core.recordAll_spendEntries, ← Core.recordAll_txEntries, ← Core.appendAll_spendEntries,
      ← Core.appendAll_txEntries]
    exact fun h => .of_filter h.1 h.2
  · intro hnonneg h
    have hspends : (Core.recordAll s records).spendEntries.Sublist (s.appendAll records).spendEntries := by
      rw [Core.recordAll_spendEntries, Core.appendAll_spendEntries]
      exact Write.kept_sublist
    have htxs : (Core.recordAll s records).txEntries.Sublist (s.appendAll records).txEntries := by
      rw [Core.recordAll_txEntries, Core.appendAll_txEntries]
      exact Write.kept_sublist
    rw [← Core.recordAll_spendEntries, ← Core.recordAll_txEntries, ← Core.appendAll_spendEntries,
      ← Core.appendAll_txEntries]
    exact h.filter_eq hspends htxs hnonneg

/-! ### Two days, and one entry too many -/

/-- `n` spends of 1 at one time. -/
def ones (n : Nat) : List ShieldRecord := List.replicate n (.spend 0 "" 1)

theorem recordAll_ones {n : Nat} (h : n ≤ pruneThreshold) :
    ShieldState.empty.recordAll (ones n) = { spendEntries := List.replicate n ⟨"", 1, 0⟩, txEntries := [] } := by
  induction n with
  | zero => rfl
  | succ n ih =>
      have hshort : ¬ n + 1 > pruneThreshold := Nat.not_lt.mpr h
      rw [ones, List.replicate_succ', ShieldState.recordAll_append, ← ones, ih (by omega)]
      simp [ShieldState.recordAll, ShieldState.record_eq_prune, ShieldState.appended, ShieldState.prune,
        ShieldRecord.spendEntries, ShieldRecord.txEntries, List.replicate_succ', -gt_iff_lt, hshort]

theorem appendAll_ones (n : Nat) :
    ShieldState.empty.appendAll (ones n) = { spendEntries := List.replicate n ⟨"", 1, 0⟩, txEntries := [] } := by
  induction n with
  | zero => rfl
  | succ n ih =>
      rw [ones, List.replicate_succ', ShieldState.appendAll_append, ← ones, ih]
      simp [ShieldState.appendAll, ShieldState.appended, ShieldRecord.spendEntries, ShieldRecord.txEntries,
        List.replicate_succ']

/-- The last spend comes a day and a millisecond later. -/
def dayLater (n : Nat) : List ShieldRecord := ones n ++ [.spend (dayMs + 1) "" 1]

theorem totalSince_of_all {s : ShieldState} {since : Int} (h : ∀ e ∈ s.spendEntries, since ≤ e.timestamp) :
    s.totalSince since = (s.spendEntries.map SpendEntry.amount).sum := by
  rw [ShieldState.totalSince, List.filter_eq_self.mpr]
  intro e he
  exact decide_eq_true (h e he)

theorem dayLater_full (n : Nat) :
    (ShieldState.empty.appendAll (dayLater n)).getTotalSpendInWindow (dayMs + 1) (2 * dayMs) = n + 1 := by
  have hentries : (ShieldState.empty.appendAll (dayLater n)).spendEntries =
      List.replicate n ⟨"", 1, 0⟩ ++ [⟨"", 1, dayMs + 1⟩] := by
    rw [dayLater, ShieldState.appendAll_append, appendAll_ones]
    rfl
  rw [ShieldState.getTotalSpendInWindow, totalSince_of_all, hentries]
  · simp
  · intro e he
    rw [hentries] at he
    rcases List.mem_append.mp he with he | he
    · rw [List.eq_of_mem_replicate he]
      decide
    · rw [List.mem_singleton.mp he]
      decide

theorem dayLater_kept :
    (ShieldState.empty.recordAll (dayLater pruneThreshold)).getTotalSpendInWindow (dayMs + 1) (2 * dayMs) = 1 := by
  have hentries : (ShieldState.empty.recordAll (dayLater pruneThreshold)).spendEntries = [⟨"", 1, dayMs + 1⟩] := by
    rw [dayLater, ShieldState.recordAll_append, recordAll_ones le_rfl]
    simp [ShieldState.recordAll, ShieldState.record_eq_prune, ShieldState.appended, ShieldState.prune,
      ShieldRecord.spendEntries, ShieldRecord.txEntries, ShieldRecord.now]
  rw [ShieldState.getTotalSpendInWindow, totalSince_of_all, hentries]
  · rfl
  · intro e he
    rw [hentries] at he
    rw [List.mem_singleton.mp he]
    decide

/-- Windows are not answered as from the full history: 10,000 spends are missing from a window of two days. -/
theorem window_forgets : ¬ ∀ (s : ShieldState) (records : List ShieldRecord) (now windowMs : Int),
    (s.recordAll records).SameAnswers now windowMs (s.appendAll records) ∧
      (Core.recordAll s records).SameAnswers now windowMs (s.appendAll records) := by
  intro h
  have htotal := (h ShieldState.empty (dayLater pruneThreshold) (dayMs + 1) (2 * dayMs)).1.total
  rw [dayLater_kept, dayLater_full] at htotal
  exact absurd htotal (by decide)

end Sigil.Sdk
