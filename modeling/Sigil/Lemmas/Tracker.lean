import Mathlib.Algebra.BigOperators.Fin
import Sigil.Library.EpochLog
import Sigil.State.Tracker

/-!
# The tracker is a ring over the log of its records

`Represents` ties the buckets to the log of everything recorded so far. One record keeps it, and a read
is the weighted sum of the cells of the log.
-/

namespace Sigil

open Library

/-! ## Epochs -/

theorem epochOf_eq {clock : Clock} (h : 0 ≤ clock.unixTimestamp) :
    epochOf clock = clock.unixTimestamp / 600 := Int.tdiv_eq_ediv_of_nonneg h

theorem epochOf_nonneg {clock : Clock} (h : 0 ≤ clock.unixTimestamp) : 0 ≤ epochOf clock := by
  rw [epochOf_eq h]; omega

theorem epochOf_mono {clock clock' : Clock} (h : 0 ≤ clock.unixTimestamp)
    (hle : clock.unixTimestamp ≤ clock'.unixTimestamp) : epochOf clock ≤ epochOf clock' := by
  rw [epochOf_eq h, epochOf_eq (h.trans hle)]; omega

theorem bucketIndex_val {epoch : Int} (h : 0 ≤ epoch) :
    ((bucketIndex epoch : Fin numEpochs) : Int) = epoch % numEpochs := by
  have h₁ := Int.emod_nonneg epoch (show (numEpochs : Int) ≠ 0 by decide)
  have h₂ := Int.emod_lt_of_pos epoch (show (0 : Int) < numEpochs by decide)
  simp only [bucketIndex, Fin.val_ofNat, Int.tmod_eq_emod_of_nonneg h, numEpochs, Nat.cast_ofNat] at *
  omega

theorem bucketIndex_eq_iff {epoch : Int} (h : 0 ≤ epoch) (i : Fin numEpochs) :
    i = bucketIndex epoch ↔ epoch % numEpochs = i := by
  rw [← bucketIndex_val h, Fin.ext_iff]
  omega

/-! ## What one bucket counts -/

/-- What an amount of an epoch is worth in the window that ends at `now`. -/
def counted (now epoch : Int) (amount : Nat) : Nat :=
  if now - rollingWindowSeconds ≤ epoch * epochDuration then
    amount
  else if now - rollingWindowSeconds < (epoch + 1) * epochDuration then
    amount * ((epoch + 1) * epochDuration - (now - rollingWindowSeconds)).toNat / epochDuration.toNat
  else
    0

@[simp] theorem counted_zero (now epoch : Int) : counted now epoch 0 = 0 := by
  unfold counted; split_ifs <;> simp

theorem counted_old {now epoch : Int} (amount : Nat) (h : epoch < now / 600 - 144) :
    counted now epoch amount = 0 := by
  simp only [counted, rollingWindowSeconds, epochDuration]
  rw [if_neg (by omega), if_neg (by omega)]

/-- The last 144 epochs count in full. -/
theorem counted_recent {now epoch : Int} (amount : Nat) (h : now / 600 - 144 < epoch) :
    counted now epoch amount = amount := by
  simp only [counted, rollingWindowSeconds, epochDuration]
  rw [if_pos (by omega)]

theorem sum_counted_recent (log : EpochLog) {now e : Int} (he : e = now / 600) :
    ∑ j ∈ Finset.range numEpochs, counted now (e - j) (log.total (e - j)) =
      log.windowTotal (e - 143) e := by
  refine Eq.trans (Finset.sum_congr rfl fun j hj => ?_) (log.windowTotal_eq_sum e 143).symm
  have := Finset.mem_range.mp hj
  simp only [numEpochs] at this
  exact counted_recent _ (by omega)

/-- One turn of the loop adds what the bucket counts, unless it saturates. -/
theorem min_addBucket {now : Int} {bucket : EpochBucket} (hnow : 0 < now) (hmax : now ≤ i64Max)
    (h₀ : 0 ≤ bucket.epochId) (he : bucket.epochId * 600 ≤ now) (hb : bucket.usdAmount ≤ uMax 64)
    (total : Nat) :
    min (SpendTracker.addBucket (now / 600) (saturatingSubI64 now rollingWindowSeconds) total bucket)
        (uMax 64) =
      min (total + counted now bucket.epochId bucket.usdAmount) (uMax 64) := by
  have hle : uMax 64 ≤ uMax 128 := by decide
  simp only [i64Max] at hmax
  have hstart : saturatingMulI64 bucket.epochId 600 = bucket.epochId * 600 :=
    clampI64_of_mem (by simp only [i64Min]; omega) (by simp only [i64Max]; omega)
  have hws : saturatingSubI64 now 86400 = now - 86400 :=
    clampI64_of_mem (by simp only [i64Min]; omega) (by simp only [i64Max]; omega)
  have hend : saturatingAddI64 (bucket.epochId * 600) 600 =
      min (2 ^ 63 - 1) (bucket.epochId * 600 + 600) := by
    simp only [saturatingAddI64, clampI64, i64Min, i64Max]; omega
  simp only [SpendTracker.addBucket, epochDuration, rollingWindowSeconds, hstart, hws, hend]
  split_ifs with h0 hout hin
  · simp [h0]
  · rw [counted_old _ (by omega), add_zero]
  · rw [min_saturatingAdd hle, counted, if_pos (by simp only [epochDuration, rollingWindowSeconds]; omega)]
  · -- the bucket straddles the start of the window
    have hov : min (2 ^ 63 - 1) (bucket.epochId * 600 + 600) - (now - 86400) =
        (bucket.epochId + 1) * 600 - (now - 86400) := by omega
    have hmul : bucket.usdAmount * ((bucket.epochId + 1) * 600 - (now - 86400)).toNat ≤ uMax 128 := by
      calc bucket.usdAmount * ((bucket.epochId + 1) * 600 - (now - 86400)).toNat
          ≤ uMax 64 * 600 := Nat.mul_le_mul hb (by omega)
        _ ≤ uMax 128 := by decide
    rw [min_saturatingAdd hle, hov, saturatingMul, min_eq_right hmul]
    simp only [counted, epochDuration, rollingWindowSeconds]
    rw [if_neg (by omega), if_pos (by omega)]

/-! ## The representation -/

/-- The buckets hold, for each slot, the newest epoch of the log and its total. -/
structure SpendTracker.Represents (tracker : SpendTracker) (log : EpochLog) : Prop where
  chronological : log.Chronological
  epoch_range : ∀ k ∈ log.epochs, 0 ≤ k ∧ k * epochDuration ≤ i64Max
  bucket : ∀ i : Fin numEpochs, tracker.buckets i =
    match log.newest numEpochs i with
    | some k => ⟨k, log.total k⟩
    | none => {}
  bounded : ∀ i, (tracker.buckets i).usdAmount ≤ uMax 64
  last : tracker.lastWriteEpoch = log.epochs.head?.getD 0

namespace SpendTracker

variable {tracker tracker' : SpendTracker} {log : EpochLog} {clock : Clock} {x : Nat}

theorem recordSpend_ok (h : tracker.recordSpend clock x = .ok tracker') :
    0 < clock.unixTimestamp ∧ ∃ bucket : EpochBucket,
      bucket = (if (tracker.buckets (bucketIndex (epochOf clock))).epochId = epochOf clock
        then tracker.buckets (bucketIndex (epochOf clock)) else ⟨epochOf clock, 0⟩) ∧
      bucket.usdAmount + x ≤ uMax 64 ∧
      tracker' = { tracker with
        buckets := Function.update tracker.buckets (bucketIndex (epochOf clock))
          { bucket with usdAmount := bucket.usdAmount + x }
        lastWriteEpoch := epochOf clock } := by
  unfold recordSpend at h
  obtain ⟨hpos, h⟩ := require_bind_eq_ok.mp h
  obtain ⟨amount, ha, h⟩ := bind_eq_ok.mp h
  simp only [okOr_eq_ok, checkedAdd_eq_some] at ha
  obtain ⟨hle, rfl⟩ := ha
  exact ⟨hpos, _, rfl, hle, (pure_eq_ok.mp h).symm⟩

theorem represents_empty : Represents {} [] where
  chronological := .nil
  epoch_range := by simp [EpochLog.epochs]
  bucket _ := rfl
  bounded _ := Nat.zero_le _
  last := rfl

/-- What the ring holds for the current epoch is what the log holds for it. -/
theorem Represents.current (h : Represents tracker log) {e : Int} (he : 0 ≤ e)
    (hle : ∀ k ∈ log.epochs, k ≤ e) :
    (if (tracker.buckets (bucketIndex e)).epochId = e then tracker.buckets (bucketIndex e)
      else ⟨e, 0⟩) = ⟨e, log.total e⟩ := by
  have hb := h.bucket (bucketIndex e)
  rw [bucketIndex_val he] at hb
  cases hn : log.newest numEpochs (e % numEpochs) with
  | none =>
      have h0 := EpochLog.total_eq_zero (EpochLog.not_mem_of_newest_none hn)
      simp only [hn] at hb
      rw [hb, h0]
      split
      · rename_i heq; rw [← heq]
      · rfl
  | some k =>
      simp only [hn] at hb
      rw [hb]
      by_cases hk : k = e
      · simp [hk]
      · rw [if_neg hk, EpochLog.total_eq_zero]
        intro hmem
        have h₁ := h.chronological.le_newest hn hmem rfl
        have h₂ := hle k (EpochLog.newest_mem hn)
        omega

theorem recordSpend_represents (h : Represents tracker log) (hle : ∀ k ∈ log.epochs, k ≤ epochOf clock)
    (hr : tracker.recordSpend clock x = .ok tracker') :
    Represents tracker' ((epochOf clock, x) :: log) := by
  obtain ⟨hpos, bucket, hbucket, hbound, rfl⟩ := recordSpend_ok hr
  have he := epochOf_nonneg hpos.le
  rw [h.current he hle] at hbucket
  subst hbucket
  have htotal : log.total (epochOf clock) + x = EpochLog.total ((epochOf clock, x) :: log) (epochOf clock) := by
    rw [EpochLog.total_cons, if_pos rfl, add_comm]
  refine ⟨h.chronological.cons hle, ?_, ?_, ?_, rfl⟩
  · intro k hk
    rcases List.mem_cons.mp hk with rfl | hk
    · refine ⟨he, ?_⟩
      have hmax := clock.timestamp_range.2
      simp only [epochOf_eq hpos.le, epochDuration]
      omega
    · exact h.epoch_range k hk
  · intro i
    simp only [EpochLog.newest_cons]
    by_cases hi : i = bucketIndex (epochOf clock)
    · rw [if_pos ((bucketIndex_eq_iff he i).mp hi), hi, Function.update_self, htotal]
    · have hne := fun heq => hi ((bucketIndex_eq_iff he i).mpr heq)
      rw [if_neg hne, Function.update_of_ne hi, h.bucket i]
      cases hn : log.newest numEpochs i with
      | none => rfl
      | some k =>
          have hk : epochOf clock ≠ k := by
            rintro rfl
            exact hne (EpochLog.newest_residue hn)
          simp only [EpochLog.total_cons, if_neg hk, zero_add]
  · intro i
    dsimp only
    by_cases hi : i = bucketIndex (epochOf clock)
    · rw [hi, Function.update_self]; exact hbound
    · rw [Function.update_of_ne hi]; exact h.bounded i

/-! ## Reading the ring -/

theorem Represents.le_last (h : Represents tracker log) {k : Int} (hk : k ∈ log.epochs) :
    k ≤ tracker.lastWriteEpoch := by
  rw [h.last]
  cases log with
  | nil => simp [EpochLog.epochs] at hk
  | cons r log =>
      rcases List.mem_cons.mp hk with rfl | hk
      · exact le_rfl
      · exact h.chronological.le_head hk

/-- A bucket counts what its cell of the log counts. -/
theorem Represents.counted_bucket (h : Represents tracker log) (now : Int) (i : Fin numEpochs) :
    counted now (tracker.buckets i).epochId (tracker.buckets i).usdAmount =
      EpochLog.cell numEpochs (counted now) log i := by
  rw [h.bucket i, EpochLog.cell]
  cases log.newest numEpochs i with
  | none => exact counted_zero now 0
  | some k => rfl

theorem Represents.bucket_range (h : Represents tracker log) (hpos : 0 < clock.unixTimestamp)
    (hle : ∀ k ∈ log.epochs, k ≤ epochOf clock) (i : Fin numEpochs) :
    0 ≤ (tracker.buckets i).epochId ∧ (tracker.buckets i).epochId * 600 ≤ clock.unixTimestamp := by
  rw [h.bucket i]
  cases hn : log.newest numEpochs i with
  | none => exact ⟨le_rfl, by dsimp only; omega⟩
  | some k =>
      have hk := hle k (EpochLog.newest_mem hn)
      rw [epochOf_eq hpos.le] at hk
      exact ⟨(h.epoch_range k (EpochLog.newest_mem hn)).1, by dsimp only; omega⟩

/-- The read is what the last 144 epochs hold and, while nothing is recorded in the current epoch, the
part of the epoch before them that is still in the window. -/
theorem Represents.rolling (h : Represents tracker log) (hpos : 0 < clock.unixTimestamp)
    (hle : ∀ k ∈ log.epochs, k ≤ epochOf clock) :
    tracker.getRolling24hUsd clock =
      min (log.windowTotal (epochOf clock - 143) (epochOf clock) +
        if epochOf clock ∈ log.epochs then 0
        else counted clock.unixTimestamp (epochOf clock - 144) (log.total (epochOf clock - 144))) (uMax 64) := by
  unfold getRolling24hUsd
  rw [if_neg (by omega)]
  split
  · -- every record has left the window
    rename_i hgap
    have hnone : ∀ k, epochOf clock - 144 ≤ k → k ∉ log.epochs := by
      intro k hk hmem
      have := h.le_last hmem
      simp only [numEpochs, Nat.cast_ofNat] at hgap
      omega
    rw [EpochLog.windowTotal_eq_zero fun k hk => hnone k (by omega),
      if_neg (hnone _ (by omega)), EpochLog.total_eq_zero (hnone _ le_rfl), counted_zero]
    rfl
  · have hstep : ∀ total (i : Fin numEpochs),
        min (addBucket (epochOf clock) (saturatingSubI64 clock.unixTimestamp rollingWindowSeconds) total
          (tracker.buckets i)) (uMax 64) =
        min (total + EpochLog.cell numEpochs (counted clock.unixTimestamp) log i) (uMax 64) := by
      intro total i
      obtain ⟨h₀, h₁⟩ := h.bucket_range hpos hle i
      rw [epochOf_eq hpos.le, ← h.counted_bucket]
      exact min_addBucket hpos clock.timestamp_range.2 h₀ h₁ (h.bounded i) total
    have he := epochOf_eq hpos.le
    dsimp only
    rw [List.foldl_map, min_foldl_add hstep, zero_add, ← Fin.sum_univ_def,
      EpochLog.sum_cells (e := epochOf clock) h.chronological (by decide) (counted_zero _)
        (fun k x hk => counted_old x (by simpa [he] using hk)) hle, sum_counted_recent log he]
    rfl

end SpendTracker

end Sigil
