import Sigil.Lemmas.Overlay
import Sigil.Lemmas.Tracker
import Sigil.Sdk.StateResolver
import Sigil.State.Overlay
import Sigil.Theorems.SpendingCap

/-!
# Readings of the SDK and of the program

Both read the same account. The SDK computes without bounds, and the program saturates, except for the hours of the
overlay, where it panics.
-/

namespace Sigil

open Library

/-- What an account with a tracker holds, at epochs that are not negative. -/
structure SpendTracker.Stored (tracker : SpendTracker) : Prop where
  lastWriteEpoch : 0 ≤ tracker.lastWriteEpoch
  epochId : ∀ i, 0 ≤ (tracker.buckets i).epochId
  usdAmount : ∀ i, (tracker.buckets i).usdAmount ≤ uMax 64
  windowStart : ∀ i, 0 ≤ (tracker.protocolCounters i).windowStart

structure AgentContributionEntry.Stored (entry : AgentContributionEntry) : Prop where
  lastWriteEpoch : 0 ≤ entry.lastWriteEpoch
  contributions : ∀ i, entry.contributions i ≤ uMax 64

section
variable {tracker : SpendTracker} {entry : AgentContributionEntry} {overlay : AgentSpendOverlay} {clock : Clock}
  {now : Int}

/-! ## The tracker -/

/-- What a bucket counts, which is nothing if it lies in the future. -/
def worth (now : Int) (bucket : EpochBucket) : Nat :=
  if bucket.epochId > now / 600 then 0 else counted now bucket.epochId bucket.usdAmount

theorem min_addBucket_worth (hnow : 0 < now) (hmax : now ≤ i64Max) {bucket : EpochBucket} (h₀ : 0 ≤ bucket.epochId)
    (hb : bucket.usdAmount ≤ uMax 64) (total : Nat) :
    min (SpendTracker.addBucket (now / 600) (saturatingSubI64 now rollingWindowSeconds) total bucket) (uMax 64) =
      min (total + worth now bucket) (uMax 64) := by
  unfold worth
  split
  · rename_i hfuture
    unfold SpendTracker.addBucket
    split
    · rfl
    · dsimp only
      rw [if_pos (.inr hfuture)]
      rfl
  · rename_i hpast
    exact min_addBucket hnow hmax h₀ (by omega) hb total

/-- Where the window starts is clamped by the SDK only. No bucket lies before zero. -/
theorem Sdk.windowStart_lt_iff (now : Int) {t : Int} (ht : 0 ≤ t) : t < Sdk.windowStart now ↔ t < now - 86400 := by
  simp only [Sdk.windowStart, Sdk.rollingWindowSeconds]
  split <;> omega

theorem Sdk.windowStart_of_lt (now : Int) {t : Int} (ht : 0 ≤ t) (h : t < Sdk.windowStart now) :
    Sdk.windowStart now = now - 86400 := by
  simp only [Sdk.windowStart, Sdk.rollingWindowSeconds] at h ⊢
  split <;> omega

/-- Scaling with and without bounds. -/
theorem tdiv_scaled {d : Nat} (amount : Nat) {overlap : Int} (h : 0 ≤ overlap) :
    ((amount : Int) * overlap).tdiv d = ((amount * overlap.toNat / d : Nat) : Int) := by
  rw [Int.tdiv_eq_ediv_of_nonneg (Int.mul_nonneg (Int.natCast_nonneg _) h), Int.natCast_ediv, Nat.cast_mul,
    Int.toNat_of_nonneg h]

theorem addBucket_worth {bucket : EpochBucket} (h₀ : 0 ≤ bucket.epochId) (total : Int) :
    Sdk.addBucket (now / 600) (Sdk.windowStart now) total bucket = total + worth now bucket := by
  have hstart := Sdk.windowStart_lt_iff now (t := bucket.epochId * 600) (by omega)
  have hend := Sdk.windowStart_lt_iff now (t := bucket.epochId * 600 + 599) (by omega)
  unfold Sdk.addBucket worth
  by_cases hzero : bucket.usdAmount = 0
  · rw [if_pos hzero, hzero, counted_zero]
    simp
  rw [if_neg hzero]
  dsimp only [Sdk.epochDuration, counted, rollingWindowSeconds, epochDuration]
  by_cases hfuture : bucket.epochId > now / 600
  · rw [if_pos (.inr hfuture), if_pos hfuture]
    simp
  rw [if_neg hfuture]
  by_cases hin : now - 86400 ≤ bucket.epochId * 600
  · have hover : ¬ (bucket.epochId * 600 + 600 ≤ Sdk.windowStart now ∨ bucket.epochId > now / 600) := by omega
    have hinside : bucket.epochId * 600 ≥ Sdk.windowStart now := by omega
    rw [if_neg hover, if_pos hinside, if_pos hin]
  rw [if_neg hin]
  by_cases hover : now - 86400 < (bucket.epochId + 1) * 600
  · -- the bucket straddles the start of the window
    have hclamp := Sdk.windowStart_of_lt now (t := bucket.epochId * 600) (by omega) (by omega)
    have hlength : bucket.epochId * 600 + 600 - (now - 86400) = (bucket.epochId + 1) * 600 - (now - 86400) := by omega
    have hout : ¬ (bucket.epochId * 600 + 600 ≤ now - 86400 ∨ bucket.epochId > now / 600) := by omega
    have hscaled := tdiv_scaled (d := 600) bucket.usdAmount (Int.le_of_lt (Int.sub_pos.mpr hover))
    rw [if_pos hover, hclamp, if_neg hout, if_neg (by omega), hlength]
    exact congrArg (total + ·) hscaled
  · have hout : bucket.epochId * 600 + 600 ≤ Sdk.windowStart now := by omega
    rw [if_neg hover, if_pos (.inl hout)]
    simp

/-- A loop that adds natural numbers to an integer. -/
theorem foldl_add_natCast {α : Type} {f : Int → α → Int} {g : α → Nat} (hf : ∀ a b, f a b = a + g b) (l : List α)
    (a : Int) : l.foldl f a = a + ((l.map g).sum : Nat) := by
  induction l generalizing a with
  | nil => simp
  | cons b l ih =>
      rw [List.foldl_cons, ih, hf, List.map_cons, List.sum_cons, Nat.cast_add, Int.add_assoc]

theorem clampU64_natCast (n : Nat) : Sdk.clampU64 n = (min n (uMax 64) : Nat) := by
  have hmax : ((uMax 64 : Nat) : Int) = Sdk.u64Max := rfl
  rw [Sdk.clampU64, ← hmax, Nat.cast_min]
  split <;> omega

theorem getRolling24hUsd_agree (h : tracker.Stored) (hclock : clock.unixTimestamp ≤ i64Max) :
    Sdk.getRolling24hUsd tracker clock.unixTimestamp = tracker.getRolling24hUsd clock := by
  unfold Sdk.getRolling24hUsd SpendTracker.getRolling24hUsd
  by_cases hpos : clock.unixTimestamp ≤ 0
  · rw [if_pos hpos, if_pos hpos]
    rfl
  have hnow : 0 < clock.unixTimestamp := Int.not_le.mp hpos
  have hepoch : clock.unixTimestamp.tdiv Sdk.epochDuration = epochOf clock := rfl
  have hdiv : epochOf clock = clock.unixTimestamp / 600 := epochOf_eq hnow.le
  rw [if_neg hpos, if_neg hpos, hepoch]
  by_cases hold : epochOf clock - tracker.lastWriteEpoch > 144
  · rw [if_pos (by exact hold), if_pos (by exact hold)]
    rfl
  rw [if_neg (by exact hold), if_neg (by exact hold)]
  dsimp only
  rw [hdiv, List.foldl_map, List.foldl_map,
    foldl_add_natCast (g := fun i => worth clock.unixTimestamp (tracker.buckets i))
      fun total i => addBucket_worth (h.epochId i) total,
    min_foldl_add (g := fun i => worth clock.unixTimestamp (tracker.buckets i))
      fun total i => min_addBucket_worth hnow hclock (h.epochId i) (h.usdAmount i) total,
    Int.zero_add, Nat.zero_add, clampU64_natCast]

theorem getProtocolSpend_agree (tracker : SpendTracker) (clock : Clock) (protocol : Pubkey) :
    Sdk.getProtocolSpend tracker protocol clock.unixTimestamp = tracker.getProtocolSpend clock protocol := by
  unfold Sdk.getProtocolSpend SpendTracker.getProtocolSpend
  by_cases hpos : clock.unixTimestamp ≤ 0
  · rw [if_pos hpos, if_pos hpos]
    rfl
  have hfind : ((List.finRange maxAllowedProtocols).map tracker.protocolCounters).find? (fun counter =>
      counter.protocol = protocol) = (tracker.findCounter fun c => c.protocol = protocol).map
        tracker.protocolCounters := by
    rw [List.find?_map]
    rfl
  rw [if_neg hpos, if_neg hpos, hfind]
  cases tracker.findCounter fun c => c.protocol = protocol with
  | none => rfl
  | some i =>
      dsimp only [Option.map_some]
      rw [apply_ite Nat.cast]
      rfl

/-! ## The overlay -/

/-- Without overflow, and as long as the sum is small, the two loops add the same. -/
theorem sumContributions_agree (h : entry.Stored) (hclock : clock.unixTimestamp ≤ i64Max)
    (hpos : 0 < clock.unixTimestamp) (hfits : (entry.lastWriteEpoch + 1) * 3600 ≤ i64Max) {ks : List Nat}
    (hks : ∀ k ∈ ks, k < 24) {total : Nat} (hroom : total + ks.length * uMax 64 ≤ uMax 128) :
    ∃ n : Nat, AgentSpendOverlay.checkedContributions entry (overlayEpochOf clock)
        (saturatingSubI64 clock.unixTimestamp overlayRollingWindowSeconds) ks total = some n ∧
      Sdk.sumContributions entry (overlayEpochOf clock) (Sdk.windowStart clock.unixTimestamp) ks total = n := by
  induction ks generalizing total with
  | nil => exact ⟨total, rfl, rfl⟩
  | cons k ks ih =>
      have hk : k < 24 := hks k (by simp)
      have hlast := h.lastWriteEpoch
      have hrest {x : Nat} (hx : x ≤ uMax 64) : total + x + ks.length * uMax 64 ≤ uMax 128 := by
        rw [List.length_cons, Nat.succ_mul] at hroom
        omega
      have ih {x : Nat} (hx : x ≤ uMax 64) := ih (fun j hj => hks j (List.mem_cons_of_mem _ hj)) (hrest hx)
      have hws : saturatingSubI64 clock.unixTimestamp overlayRollingWindowSeconds = clock.unixTimestamp - 86400 :=
        clampI64_of_mem (by simp only [i64Min, overlayRollingWindowSeconds]; omega)
          (by simp only [i64Max, overlayRollingWindowSeconds] at hclock ⊢; omega)
      generalize he : entry.lastWriteEpoch - (k : Int) = e
      have hsub : checkedSubI64 entry.lastWriteEpoch k = some e :=
        checkedSubI64_eq_some.mpr ⟨⟨by simp only [i64Min]; omega, by simp only [i64Max] at hfits ⊢; omega⟩, he.symm⟩
      rw [AgentSpendOverlay.checkedContributions, Sdk.sumContributions, hsub, hws]
      dsimp only [Option.bind_eq_bind, Option.bind_some, overlayEpochDuration, Sdk.overlayEpochDuration]
      rw [he]
      by_cases hneg : e < 0
      · rw [if_pos hneg, if_pos hneg]
        exact ⟨total, rfl, rfl⟩
      have hmul : checkedMulI64 e 3600 = some (e * 3600) :=
        checkedMulI64_eq_some.mpr ⟨⟨by simp only [i64Min]; omega, by simp only [i64Max] at hfits ⊢; omega⟩, rfl⟩
      have hadd : checkedAddI64 (e * 3600) 3600 = some (e * 3600 + 3600) :=
        checkedAddI64_eq_some.mpr ⟨⟨by simp only [i64Min]; omega, by simp only [i64Max] at hfits ⊢; omega⟩, rfl⟩
      have hstart := Sdk.windowStart_lt_iff clock.unixTimestamp (t := e * 3600) (by omega)
      have hend := Sdk.windowStart_lt_iff clock.unixTimestamp (t := e * 3600 + 3599) (by omega)
      rw [if_neg hneg, if_neg hneg, hmul]
      dsimp only [Option.bind_some]
      rw [hadd]
      dsimp only [Option.bind_some]
      have hstop : e * 3600 + 3600 ≤ Sdk.windowStart clock.unixTimestamp ↔
          e * 3600 + 3600 ≤ clock.unixTimestamp - 86400 := by omega
      by_cases hout : e * 3600 + 3600 ≤ clock.unixTimestamp - 86400
      · rw [if_pos hout, if_pos (hstop.mpr hout)]
        exact ⟨total, rfl, rfl⟩
      rw [if_neg hout, if_neg (mt hstop.mp hout)]
      by_cases hfuture : e > overlayEpochOf clock
      · rw [if_pos hfuture, if_pos hfuture, ← hws]
        exact ih (Nat.zero_le _)
      rw [if_neg hfuture, if_neg hfuture]
      have hcell : Sdk.contributionIndex e = overlayIndex e := rfl
      rw [hcell]
      by_cases hzero : entry.contributions (overlayIndex e) = 0
      · rw [if_pos hzero, if_pos hzero, ← hws]
        exact ih (Nat.zero_le _)
      rw [if_neg hzero, if_neg hzero]
      have hamount : entry.contributions (overlayIndex e) ≤ uMax 64 := h.contributions _
      have hsat {x : Nat} (hx : x ≤ uMax 64) : saturatingAdd 128 total x = total + x := by
        have := hrest hx
        rw [saturatingAdd, min_eq_right (by omega)]
      by_cases hin : e * 3600 ≥ clock.unixTimestamp - 86400
      · rw [if_pos hin, if_pos (by omega), hsat hamount, ← hws, ← Nat.cast_add]
        exact ih hamount
      · -- the hour straddles the start of the window
        have hoverlap : 0 ≤ e * 3600 + 3600 - (clock.unixTimestamp - 86400) := by omega
        have hsub' : checkedSubI64 (e * 3600 + 3600) (clock.unixTimestamp - 86400) =
            some (e * 3600 + 3600 - (clock.unixTimestamp - 86400)) :=
          checkedSubI64_eq_some.mpr ⟨⟨by simp only [i64Min]; omega, by simp only [i64Max] at hclock ⊢; omega⟩, rfl⟩
        have hclamp := Sdk.windowStart_of_lt clock.unixTimestamp (t := e * 3600) (by omega) (by omega)
        rw [if_neg hin, if_neg (by omega), hsub', hclamp]
        dsimp only [Option.bind_some]
        have hlength : (e * 3600 + 3600 - (clock.unixTimestamp - 86400)).toNat ≤ 3600 := by omega
        generalize e * 3600 + 3600 - (clock.unixTimestamp - 86400) = overlap at hoverlap hlength
        generalize entry.contributions (overlayIndex e) = amount at hamount
        have hproduct : amount * overlap.toNat ≤ uMax 128 :=
          (Nat.mul_le_mul hamount hlength).trans (by decide)
        have hscaled : amount * overlap.toNat / 3600 ≤ uMax 64 := by
          refine (Nat.div_le_of_le_mul ?_).trans hamount
          rw [Nat.mul_comm 3600]
          exact Nat.mul_le_mul_left _ hlength
        have hdiv : ((amount : Int) * overlap).tdiv 3600 = ((amount * overlap.toNat / 3600 : Nat) : Int) :=
          tdiv_scaled (d := 3600) amount hoverlap
        rw [saturatingMul, min_eq_right hproduct, hdiv, ← Nat.cast_add, ← hws]
        have hsaturated : saturatingAdd 128 total (amount * overlap.toNat / (3600 : Int).toNat) =
            total + amount * overlap.toNat / 3600 := hsat hscaled
        rw [hsaturated]
        have hrest := ih hscaled
        rwa [hclamp, ← hws] at hrest

/-- The loop fails where the hour of the last write does not end within 64 bits. -/
theorem checkedContributions_overflow (hlast : 0 ≤ entry.lastWriteEpoch)
    (hfits : ¬ (entry.lastWriteEpoch + 1) * 3600 ≤ i64Max) {currentEpoch windowStartTs : Int} {ks : List Nat}
    {total : Nat} :
    AgentSpendOverlay.checkedContributions entry currentEpoch windowStartTs (0 :: ks) total = none := by
  rw [AgentSpendOverlay.checkedContributions]
  have hsub : ∀ e, checkedSubI64 entry.lastWriteEpoch ((0 : Nat) : Int) = some e → e = entry.lastWriteEpoch := by
    intro e he
    rw [(checkedSubI64_eq_some.mp he).2, Nat.cast_zero, Int.sub_zero]
  cases hepoch : checkedSubI64 entry.lastWriteEpoch ((0 : Nat) : Int) with
  | none => rfl
  | some e =>
      obtain rfl := hsub e hepoch
      dsimp only [Option.bind_eq_bind, Option.bind_some]
      rw [if_neg (Int.not_lt.mpr hlast)]
      cases hproduct : checkedMulI64 entry.lastWriteEpoch overlayEpochDuration with
      | none => rfl
      | some product =>
          obtain ⟨-, rfl⟩ := checkedMulI64_eq_some.mp hproduct
          have hadd : checkedAddI64 (entry.lastWriteEpoch * overlayEpochDuration) overlayEpochDuration = none := by
            rw [checkedAddI64, if_neg]
            dsimp only [overlayEpochDuration]
            omega
          dsimp only [Option.bind_some]
          rw [hadd]
          rfl

/-- The overlay is read the same exactly if the hour of the last write ends within 64 bits. -/
theorem getAgentRolling24hUsd_agree_iff {slot : Fin maxOverlayEntries} (h : (overlay.entries slot).Stored)
    (hclock : clock.unixTimestamp ≤ i64Max) :
    (∃ n : Nat, overlay.checkedAgentRolling24hUsd clock slot = some n ∧
      Sdk.getAgentRolling24hUsd (overlay.entries slot) clock.unixTimestamp = n) ↔
      clock.unixTimestamp ≤ 0 ∨ ((overlay.entries slot).lastWriteEpoch + 1) * 3600 ≤ i64Max := by
  unfold AgentSpendOverlay.checkedAgentRolling24hUsd Sdk.getAgentRolling24hUsd
  generalize overlay.entries slot = entry at h
  by_cases hnonpos : clock.unixTimestamp ≤ 0
  · simp [hnonpos]
  have hpos : 0 < clock.unixTimestamp := Int.not_le.mp hnonpos
  have hepoch : clock.unixTimestamp.tdiv Sdk.overlayEpochDuration = overlayEpochOf clock := rfl
  have hlast := h.lastWriteEpoch
  have hdiv := overlayEpochOf_eq hpos
  dsimp only
  rw [if_neg hnonpos, if_neg hnonpos, hepoch]
  refine Iff.trans ?_ (or_iff_right hnonpos).symm
  constructor
  · rintro ⟨n, hn, -⟩
    by_contra hfits
    have hrecent : ¬ overlayEpochOf clock - entry.lastWriteEpoch > overlayNumEpochs := by
      simp only [i64Max] at hclock hfits
      dsimp only [overlayNumEpochs]
      omega
    cases hage : checkedSubI64 (overlayEpochOf clock) entry.lastWriteEpoch with
    | none =>
        rw [hage] at hn
        cases hn
    | some age =>
        obtain ⟨-, rfl⟩ := checkedSubI64_eq_some.mp hage
        rw [hage] at hn
        dsimp only [Option.bind_eq_bind, Option.bind_some] at hn
        rw [if_neg hrecent, List.range_succ_eq_map, checkedContributions_overflow hlast hfits] at hn
        cases hn
  · intro hfits
    have hage : checkedSubI64 (overlayEpochOf clock) entry.lastWriteEpoch =
        some (overlayEpochOf clock - entry.lastWriteEpoch) := by
      refine checkedSubI64_eq_some.mpr ⟨⟨?_, ?_⟩, rfl⟩
      · simp only [i64Max, i64Min] at hclock hfits ⊢
        omega
      · simp only [i64Max] at hclock hfits ⊢
        omega
    rw [hage]
    dsimp only [Option.bind_eq_bind, Option.bind_some]
    by_cases hold : overlayEpochOf clock - entry.lastWriteEpoch > 24
    · rw [if_pos (by exact hold), if_pos (by exact hold)]
      exact ⟨0, rfl, rfl⟩
    · rw [if_neg (by exact hold), if_neg (by exact hold)]
      have hagree : ∃ n : Nat, AgentSpendOverlay.checkedContributions entry (overlayEpochOf clock)
          (saturatingSubI64 clock.unixTimestamp overlayRollingWindowSeconds) (List.range 24) 0 = some n ∧ _ :=
        sumContributions_agree h hclock hpos hfits (fun k hk => List.mem_range.mp hk) (by decide)
      obtain ⟨n, hchecked, hsum⟩ := hagree
      refine ⟨min n (uMax 64), ?_, ?_⟩
      · rw [hchecked]
        rfl
      · rw [← clampU64_natCast, ← hsum]
        rfl

/-- The SDK reads what the program reads. Of an agent it does so exactly if the hour of the last write ends within
64 bits; otherwise the program panics. -/
theorem readings_agree (htracker : tracker.Stored) (hoverlay : ∀ i, (overlay.entries i).Stored)
    (hclock : clock.unixTimestamp ≤ i64Max) :
    Sdk.getRolling24hUsd tracker clock.unixTimestamp = tracker.getRolling24hUsd clock ∧
    (∀ protocol, Sdk.getProtocolSpend tracker protocol clock.unixTimestamp =
      tracker.getProtocolSpend clock protocol) ∧
    ∀ slot, (∃ n : Nat, overlay.checkedAgentRolling24hUsd clock slot = some n ∧
      Sdk.getAgentRolling24hUsd (overlay.entries slot) clock.unixTimestamp = n) ↔
      clock.unixTimestamp ≤ 0 ∨ ((overlay.entries slot).lastWriteEpoch + 1) * 3600 ≤ i64Max :=
  ⟨getRolling24hUsd_agree htracker hclock, getProtocolSpend_agree tracker clock,
    fun slot => getAgentRolling24hUsd_agree_iff (hoverlay slot) hclock⟩

end

/-! ### An hour that lies ahead -/

def busyTracker : SpendTracker :=
  { buckets := fun i => { epochId := 860 + 2 * i.val, usdAmount := 600 }, lastWriteEpoch := 1000 }

/-- Every agent spent last in an hour. -/
def hourlyOverlay (hour : Int) : AgentSpendOverlay :=
  { entries := fun _ => { lastWriteEpoch := hour, contributions := fun _ => 25 } }

theorem hourlyOverlay_stored {hour : Int} (h : 0 ≤ hour) (i : Fin maxOverlayEntries) :
    ((hourlyOverlay hour).entries i).Stored := ⟨h, fun _ => (by decide : 25 ≤ uMax 64)⟩

theorem readings_agree_busy : Sdk.getRolling24hUsd busyTracker payClock.unixTimestamp =
      busyTracker.getRolling24hUsd payClock ∧
    Sdk.getProtocolSpend busyTracker (.key 9) payClock.unixTimestamp =
      busyTracker.getProtocolSpend payClock (.key 9) ∧
    ∃ n : Nat, (hourlyOverlay 167).checkedAgentRolling24hUsd payClock 0 = some n ∧
      Sdk.getAgentRolling24hUsd ((hourlyOverlay 167).entries 0) payClock.unixTimestamp = n := by
  have htracker : busyTracker.Stored :=
    ⟨by decide, fun i => by simp only [busyTracker]; omega, fun i => by simp only [busyTracker]; decide, by decide⟩
  obtain ⟨hrolling, hprotocol, hagent⟩ :=
    readings_agree htracker (hourlyOverlay_stored (by decide : (0 : Int) ≤ 167))
      (by decide : payClock.unixTimestamp ≤ _)
  exact ⟨hrolling, hprotocol (.key 9), (hagent 0).mpr (.inr (by decide))⟩

theorem readings_overflow : (∀ i, ((hourlyOverlay (2 ^ 62)).entries i).Stored) ∧
    (hourlyOverlay (2 ^ 62)).checkedAgentRolling24hUsd payClock 0 = none ∧
    Sdk.getAgentRolling24hUsd ((hourlyOverlay (2 ^ 62)).entries 0) payClock.unixTimestamp = 0 :=
  ⟨hourlyOverlay_stored (by decide), by decide +kernel, by decide +kernel⟩

end Sigil
