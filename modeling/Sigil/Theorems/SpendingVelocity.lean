import Sigil.Sdk.SpendingVelocity
import Sigil.Theorems.Tracker

/-!
# What the velocity of a vault tells

The rate is meant for the last three epochs. It is taken from the last three buckets that hold something, and divided
by how many there are.
-/

namespace Sigil

open Library

/-! ## Rate of sorted buckets -/

namespace Sdk

/-- What a bucket adds to the epochs from `e - 2` on. -/
def recentPart (e : Int) (bucket : EpochBucket) : Nat := if e - 2 ≤ bucket.epochId then bucket.usdAmount else 0

/-- Buckets that hold something, up to an epoch, most recent first. -/
structure Descending (e : Int) (l : List EpochBucket) : Prop where
  sorted : l.Pairwise fun a b => b.epochId < a.epochId
  le : ∀ b ∈ l, b.epochId ≤ e
  pos : ∀ b ∈ l, 0 < b.usdAmount

variable {e : Int} {l : List EpochBucket}

theorem recentPart_le (b : EpochBucket) : recentPart e b ≤ b.usdAmount := by
  unfold recentPart; split <;> omega

theorem recentPart_old {b : EpochBucket} (h : b.epochId < e - 2) : recentPart e b = 0 := if_neg (by omega)

theorem recentPart_new {b : EpochBucket} (h : e - 2 ≤ b.epochId) : recentPart e b = b.usdAmount := if_pos h

theorem sum_recentPart_old (h : ∀ b ∈ l, b.epochId < e - 2) : (l.map (recentPart e)).sum = 0 := by
  apply List.sum_eq_zero
  intro x hx
  obtain ⟨b, hb, rfl⟩ := List.mem_map.mp hx
  exact recentPart_old (h b hb)

theorem sum_recentPart_le (l : List EpochBucket) : (l.map (recentPart e)).sum ≤ (l.map (·.usdAmount)).sum :=
  List.sum_le_sum fun b _ => recentPart_le b

theorem hourlyRate_mul (hne : l ≠ []) (hlen : l.length ≤ 3) :
    hourlyRate l * l.length = 6 * ((l.map (·.usdAmount)).sum : Nat) := by
  have hpos := List.length_pos_iff.mpr hne
  have hsum : (l.map fun b => (b.usdAmount : Int)).sum = ((l.map (·.usdAmount)).sum : Nat) := by
    rw [Nat.cast_list_sum, List.map_map]
    rfl
  rw [hourlyRate, hsum, if_pos hpos, Int.tdiv_eq_ediv_of_nonneg (by omega)]
  obtain h | h | h : l.length = 1 ∨ l.length = 2 ∨ l.length = 3 := by omega
  all_goals
    rw [h]
    omega

/-- There is a bucket for each of the last three epochs. -/
def CoversWindow (e : Int) (l : List EpochBucket) : Prop := ∀ k, e - 2 ≤ k → k ≤ e → ∃ b ∈ l, b.epochId = k

theorem CoversWindow.length (h : CoversWindow e l) : 3 ≤ l.length := by
  have hsub : [e, e - 1, e - 2] ⊆ l.map (·.epochId) := by
    intro k hk
    simp only [List.mem_cons, List.not_mem_nil, or_false] at hk
    exact List.mem_map.mpr (h k (by omega) (by omega))
  have hnodup : [e, e - 1, e - 2].Nodup := by
    simp
    omega
  have hle := (List.subperm_of_subset hnodup hsub).length_le
  rwa [List.length_map] at hle

namespace Descending

/-- Fewer buckets are divided by too small a number. -/
theorem lt_hourlyRate (h : Descending e l) (hne : l ≠ []) (hlen : l.length < 3) :
    2 * ((l.map (recentPart e)).sum : Nat) < hourlyRate l := by
  have hmul := hourlyRate_mul hne hlen.le
  have hle := sum_recentPart_le (e := e) l
  have hsum : 0 < (l.map (·.usdAmount)).sum := by
    obtain ⟨b, hb⟩ := List.exists_mem_of_ne_nil l hne
    exact (h.pos b hb).trans_le (List.single_le_sum (fun _ _ => Nat.zero_le _) _ (List.mem_map_of_mem hb))
  have hpos := List.length_pos_iff.mpr hne
  obtain hone | htwo : l.length = 1 ∨ l.length = 2 := by omega
  · rw [hone] at hmul
    omega
  · rw [htwo] at hmul
    omega

section
variable {a b c : EpochBucket} {rest : List EpochBucket}

theorem order (h : Descending e (a :: b :: c :: rest)) : c.epochId < b.epochId ∧ b.epochId < a.epochId ∧
    a.epochId ≤ e ∧ ∀ r ∈ rest, r.epochId < c.epochId := by
  obtain ⟨ha, hsorted⟩ := List.pairwise_cons.mp h.sorted
  obtain ⟨hb, hsorted⟩ := List.pairwise_cons.mp hsorted
  exact ⟨hb c (by simp), ha b (by simp), h.le a (by simp), (List.pairwise_cons.mp hsorted).1⟩

theorem covers_iff (h : Descending e (a :: b :: c :: rest)) :
    CoversWindow e (a :: b :: c :: rest) ↔ e - 2 ≤ c.epochId := by
  obtain ⟨hcb, hba, hae, hrest⟩ := h.order
  constructor
  · intro hall
    by_contra hlt
    have hpair : CoversWindow e [a, b] := by
      intro k hlo hhi
      obtain ⟨x, hx, rfl⟩ := hall k hlo hhi
      simp only [List.mem_cons] at hx
      rcases hx with rfl | rfl | rfl | hx
      · exact ⟨x, by simp, rfl⟩
      · exact ⟨x, by simp, rfl⟩
      · omega
      · have := hrest x hx
        omega
    exact absurd hpair.length (by simp)
  · intro hnew k hlo hhi
    obtain rfl | rfl | rfl : k = a.epochId ∨ k = b.epochId ∨ k = c.epochId := by omega
    · exact ⟨a, by simp, rfl⟩
    · exact ⟨b, by simp, rfl⟩
    · exact ⟨c, by simp, rfl⟩

theorem hourlyRate_three_iff (h : Descending e (a :: b :: c :: rest)) :
    hourlyRate [a, b, c] = 2 * (((a :: b :: c :: rest).map (recentPart e)).sum : Nat) ↔ e - 2 ≤ c.epochId := by
  obtain ⟨hcb, hba, hae, hrest⟩ := h.order
  have hmul := hourlyRate_mul (l := [a, b, c]) (by simp) (by simp)
  have hc := h.pos c (by simp)
  have hold : ∀ r ∈ rest, r.epochId < e - 2 := by
    intro r hr
    have := hrest r hr
    omega
  simp only [List.map_cons, List.map_nil, List.sum_cons, List.sum_nil, List.length_cons, List.length_nil,
    sum_recentPart_old hold] at hmul ⊢
  constructor
  · intro heq
    by_contra hlt
    have hpa := recentPart_le (e := e) a
    have hpb := recentPart_le (e := e) b
    have hpc := recentPart_old (e := e) (b := c) (by omega)
    omega
  · intro hnew
    rw [recentPart_new (by omega), recentPart_new (by omega), recentPart_new hnew]
    omega

end

theorem hourlyRate_iff_of_length_lt (h : Descending e l) (hlen : l.length < 3) :
    hourlyRate (l.take 3) = 2 * ((l.map (recentPart e)).sum : Nat) ↔ l = [] ∨ CoversWindow e l := by
  rw [List.take_of_length_le hlen.le]
  by_cases hne : l = []
  · subst hne
    simp [hourlyRate]
  · apply iff_of_false (h.lt_hourlyRate hne hlen).ne'
    rintro (hnil | hall)
    · exact hne hnil
    · exact absurd hall.length (by omega)

/-- The rate is that of the last three epochs iff there is no bucket at all, or one for each of them. -/
theorem hourlyRate_iff (h : Descending e l) :
    hourlyRate (l.take 3) = 2 * ((l.map (recentPart e)).sum : Nat) ↔ l = [] ∨ CoversWindow e l := by
  match l, h with
  | [], h => exact h.hourlyRate_iff_of_length_lt (by simp)
  | [a], h => exact h.hourlyRate_iff_of_length_lt (by simp)
  | [a, b], h => exact h.hourlyRate_iff_of_length_lt (by simp)
  | a :: b :: c :: rest, h =>
      rw [h.covers_iff, or_iff_right (List.cons_ne_nil _ _)]
      exact h.hourlyRate_three_iff

end Descending

end Sdk

/-! ## The ring behind the buckets -/

namespace SpendTracker

variable {tracker : SpendTracker} {log : EpochLog} {e : Int}

theorem Represents.bucket_of_amount (h : tracker.Represents log) {i : Fin numEpochs}
    (hne : (tracker.buckets i).usdAmount ≠ 0) :
    (tracker.buckets i).epochId ∈ log.epochs ∧ (tracker.buckets i).epochId % numEpochs = i ∧
      (tracker.buckets i).usdAmount = log.total (tracker.buckets i).epochId := by
  rw [h.bucket i] at hne ⊢
  cases hn : log.newest numEpochs i with
  | none => simp [hn] at hne
  | some k => exact ⟨EpochLog.newest_mem hn, EpochLog.newest_residue hn, rfl⟩

/-- The last 144 epochs survive in the ring. -/
theorem Represents.survives (h : tracker.Represents log) (hle : ∀ k ∈ log.epochs, k ≤ e) {k : Int}
    (hlo : e - numEpochs < k) (hk : 0 < log.total k) : ∃ i, tracker.buckets i = ⟨k, log.total k⟩ := by
  have hmem : k ∈ log.epochs := by
    by_contra hnot
    rw [EpochLog.total_eq_zero hnot] at hk
    omega
  have hval := bucketIndex_val (h.epoch_range k hmem).1
  apply Exists.intro (bucketIndex k)
  rw [h.bucket, hval]
  cases hn : log.newest numEpochs (k % numEpochs) with
  | none => exact absurd hmem (EpochLog.not_mem_of_newest_none hn)
  | some newest =>
      have hge := h.chronological.le_newest hn hmem rfl
      have hnewest := hle newest (EpochLog.newest_mem hn)
      rcases EpochLog.eq_or_far (EpochLog.newest_residue hn) with rfl | hfar | hfar
      · rfl
      · omega
      · omega

end SpendTracker

namespace Sdk

variable {tracker : SpendTracker} {log : EpochLog} {e : Int}

theorem mem_validBuckets {b : EpochBucket} : b ∈ validBuckets tracker e ↔
    (∃ i, tracker.buckets i = b) ∧ e - numEpochs ≤ b.epochId ∧ b.epochId ≤ e ∧ b.usdAmount ≠ 0 := by
  simp [validBuckets, isValidBucket, and_assoc]

theorem mem_sortedBuckets {b : EpochBucket} : b ∈ sortedBuckets tracker e ↔ b ∈ validBuckets tracker e :=
  List.mem_mergeSort

theorem validBuckets_distinct (h : tracker.Represents log) :
    (validBuckets tracker e).Pairwise fun a b => a.epochId ≠ b.epochId := by
  rw [validBuckets, List.pairwise_filter, List.pairwise_map]
  apply (List.nodup_finRange 144).imp
  intro i j hij hi hj heq
  simp only [isValidBucket, Bool.and_eq_true, bne_iff_ne] at hi hj
  have hri := (h.bucket_of_amount hi.2).2.1
  have hrj := (h.bucket_of_amount hj.2).2.1
  rw [heq, hrj] at hri
  exact hij (Fin.ext (by omega))

theorem sortedBuckets_descending (h : tracker.Represents log) : Descending e (sortedBuckets tracker e) where
  sorted := by
    have hsorted : (sortedBuckets tracker e).Pairwise fun a b => decide (b.epochId ≤ a.epochId) :=
      List.pairwise_mergeSort (by simp only [decide_eq_true_eq]; omega) (by simp; omega) _
    have hdistinct : (sortedBuckets tracker e).Pairwise fun a b => a.epochId ≠ b.epochId :=
      (List.mergeSort_perm (validBuckets tracker e) _).symm.pairwise (validBuckets_distinct h) fun hne => hne.symm
    apply (hsorted.and hdistinct).imp
    intro a b hab
    simp only [decide_eq_true_eq] at hab
    omega
  le b hb := (mem_validBuckets.mp (mem_sortedBuckets.mp hb)).2.2.1
  pos b hb := Nat.pos_of_ne_zero (mem_validBuckets.mp (mem_sortedBuckets.mp hb)).2.2.2

theorem sum_validBuckets (h : tracker.Represents log) (hle : ∀ k ∈ log.epochs, k ≤ e) :
    ((validBuckets tracker e).map (recentPart e)).sum = ∑ i, recentPart e (tracker.buckets i) := by
  rw [Fin.sum_univ_def, validBuckets]
  induction List.finRange 144 with
  | nil => rfl
  | cons i is ih =>
      rw [List.map_cons, List.filter_cons, List.map_cons, List.sum_cons, ← ih]
      by_cases hvalid : isValidBucket e (tracker.buckets i)
      · rw [if_pos hvalid, List.map_cons, List.sum_cons]
      · rw [if_neg hvalid, Nat.right_eq_add]
        by_cases hne : (tracker.buckets i).usdAmount = 0
        · have := recentPart_le (e := e) (tracker.buckets i)
          omega
        · have := hle _ (h.bucket_of_amount hne).1
          apply recentPart_old
          simp only [isValidBucket, numEpochs, Bool.and_eq_true, decide_eq_true_eq, bne_iff_ne] at hvalid
          omega

theorem sum_recentPart (h : tracker.Represents log) (hle : ∀ k ∈ log.epochs, k ≤ e) :
    ((sortedBuckets tracker e).map (recentPart e)).sum = log.windowTotal (e - 2) e := by
  have hcell : ∀ i : Fin Sigil.numEpochs, recentPart e (tracker.buckets i) =
      EpochLog.cell Sigil.numEpochs (fun k x => recentPart e ⟨k, x⟩) log i := by
    intro i
    rw [h.bucket i, EpochLog.cell]
    cases log.newest Sigil.numEpochs i with
    | none => exact Nat.le_zero.mp (recentPart_le _)
    | some k => rfl
  have hempty : ∀ k, recentPart e ⟨k, 0⟩ = 0 := fun k => Nat.le_zero.mp (recentPart_le _)
  have hold : ∀ k x, k ≤ e - Sigil.numEpochs → recentPart e ⟨k, x⟩ = 0 := by
    intro k x hk
    simp only [Sigil.numEpochs] at hk
    exact recentPart_old (by simp only; omega)
  calc ((sortedBuckets tracker e).map (recentPart e)).sum
      = ((validBuckets tracker e).map (recentPart e)).sum := ((List.mergeSort_perm ..).map _).sum_eq
    _ = ∑ i : Fin Sigil.numEpochs, EpochLog.cell Sigil.numEpochs (fun k x => recentPart e ⟨k, x⟩) log i := by
        rw [sum_validBuckets h hle]
        exact Finset.sum_congr rfl fun i _ => hcell i
    _ = ∑ j ∈ Finset.range Sigil.numEpochs, recentPart e ⟨e - j, log.total (e - j)⟩ := by
        rw [EpochLog.sum_cells (w := fun k x => recentPart e ⟨k, x⟩) h.chronological (by decide) hempty
          (fun k x hk => hold k x hk.le) hle, hold _ _ le_rfl, ite_self, add_zero]
    _ = ∑ j ∈ Finset.range (2 + 1), recentPart e ⟨e - j, log.total (e - j)⟩ := by
        apply (Finset.sum_subset (Finset.range_subset_range.mpr (by decide)) ?_).symm
        intro j _ hj
        exact recentPart_old (by simp only [Finset.mem_range] at hj ⊢; omega)
    _ = log.windowTotal (e - 2) e := by
        apply Eq.trans _ (log.windowTotal_eq_sum e 2).symm
        apply Finset.sum_congr rfl
        intro j hj
        exact recentPart_new (by simp only [Finset.mem_range] at hj ⊢; omega)

end Sdk

namespace SpendTracker

/-- No bucket of the window of 24 hours that ends with an epoch holds anything. -/
def IsQuiet (tracker : SpendTracker) (e : Int) : Prop :=
  ∀ i, e - numEpochs ≤ (tracker.buckets i).epochId → (tracker.buckets i).epochId ≤ e → (tracker.buckets i).usdAmount = 0

theorem isQuiet_iff {tracker : SpendTracker} {e : Int} : tracker.IsQuiet e ↔ Sdk.sortedBuckets tracker e = [] := by
  rw [List.eq_nil_iff_forall_not_mem]
  constructor
  · intro hquiet b hb
    obtain ⟨⟨i, rfl⟩, hlo, hhi, hne⟩ := Sdk.mem_validBuckets.mp (Sdk.mem_sortedBuckets.mp hb)
    exact hne (hquiet i hlo hhi)
  · intro hnone i hlo hhi
    by_contra hne
    exact hnone _ (Sdk.mem_sortedBuckets.mpr (Sdk.mem_validBuckets.mpr ⟨⟨i, rfl⟩, hlo, hhi, hne⟩))

end SpendTracker

namespace SpendHistory

/-- Each of the last three epochs up to an epoch has a record that is not zero. -/
def IsSteady (history : SpendHistory) (e : Int) : Prop :=
  ∀ k, e - 2 ≤ k → k ≤ e → 0 < history.epochLog.total k

/-- What is recorded in the last three epochs up to an epoch. -/
def lastThree (history : SpendHistory) (e : Int) : Nat := history.epochLog.windowTotal (e - 2) e

end SpendHistory

namespace Sdk

variable {tracker : SpendTracker} {history : SpendHistory} {e now : Int} {budget : EffectiveBudget}
  {state : AlertState} {texts : AlertTexts}

theorem bucket_iff_isSteady (h : tracker.Represents history.epochLog) (hle : ∀ k ∈ history.epochLog.epochs, k ≤ e) :
    CoversWindow e (sortedBuckets tracker e) ↔ history.IsSteady e := by
  constructor
  · intro hall k hlo hhi
    obtain ⟨b, hb, rfl⟩ := hall k hlo hhi
    obtain ⟨⟨i, rfl⟩, -, -, hne⟩ := mem_validBuckets.mp (mem_sortedBuckets.mp hb)
    rw [← (h.bucket_of_amount hne).2.2]
    omega
  · intro hsteady k hlo hhi
    have hpos := hsteady k hlo hhi
    obtain ⟨i, hi⟩ := h.survives hle (by simp only [Sigil.numEpochs]; omega) hpos
    refine ⟨_, mem_sortedBuckets.mpr (mem_validBuckets.mpr ⟨⟨i, hi⟩, ?_, hhi, ?_⟩), rfl⟩
    · simp only [numEpochs]
      omega
    · simp only
      omega

theorem rate_iff (h : tracker.Represents history.epochLog) (hle : ∀ k ∈ history.epochLog.epochs, k ≤ e) :
    hourlyRate ((sortedBuckets tracker e).take 3) = 2 * (history.lastThree e : Nat) ↔
      tracker.IsQuiet e ∨ history.IsSteady e := by
  rw [SpendHistory.lastThree, ← sum_recentPart h hle, (sortedBuckets_descending h).hourlyRate_iff,
    SpendTracker.isQuiet_iff, bucket_iff_isSteady h hle]

/-! ## Alerts -/

/-- Alerts that the velocity does not raise have other ids. -/
theorem velocity_id_of_mem {vault : String} {a : ActiveAlert} (ha : a ∈ state.evaluateAlertConditions texts vault) :
    a ∈ state.velocityAlerts texts vault ∨ ∃ c rest, a.id.toList = c :: rest ∧ c ≠ 'h' ∧ c ≠ 'd' := by
  simp only [AlertState.evaluateAlertConditions, List.mem_mergeSort, List.mem_append] at ha
  rcases ha with (((((hcap | hfrozen) | hpaused) | hagent) | hnone) | hall) | hvelocity
  · right
    simp only [AlertState.capAlerts] at hcap
    split_ifs at hcap <;> simp only [List.mem_singleton, List.not_mem_nil] at hcap <;> subst hcap <;>
      simp [String.toList_append]
  · right
    simp only [AlertState.frozenAlerts] at hfrozen
    split_ifs at hfrozen <;> simp only [List.mem_singleton, List.not_mem_nil] at hfrozen
    subst hfrozen
    simp [String.toList_append]
  · right
    obtain ⟨agent, -, rfl⟩ := List.mem_map.mp hpaused
    simp [String.toList_append]
  · right
    obtain ⟨entry, -, rfl⟩ := List.mem_map.mp hagent
    simp [AlertState.agentCapAlert, String.toList_append]
  · right
    simp only [AlertState.noAgentsAlerts] at hnone
    split_ifs at hnone <;> simp only [List.mem_singleton, List.not_mem_nil] at hnone
    subst hnone
    simp [String.toList_append]
  · right
    simp only [AlertState.allPausedAlerts] at hall
    split_ifs at hall <;> simp only [List.mem_singleton, List.not_mem_nil] at hall
    subst hall
    simp [String.toList_append]
  · exact .inl hvelocity

theorem not_velocity_id {vault id : String} {c : Char} {rest : List Char} (hid : id.toList = c :: rest)
    (hh : c ≠ 'h') (hd : c ≠ 'd') : id ≠ "high-velocity-" ++ vault ∧ id ≠ "drain-detected-" ++ vault := by
  constructor
  · rintro rfl
    simp only [String.toList_append] at hid
    exact hh (List.cons.inj hid).1.symm
  · rintro rfl
    simp only [String.toList_append] at hid
    exact hd (List.cons.inj hid).1.symm

/-- Without a rate the velocity raises nothing. -/
theorem velocityAlerts_of_rate (vault : String)
    (h : (getSpendingVelocity state.tracker state.resolvedAtTimestamp state.globalBudget).currentRate = 0) :
    state.velocityAlerts texts vault = [] := by
  simp only [AlertState.velocityAlerts, h]
  split
  · rw [if_neg (by omega), if_neg (by omega), List.append_nil]
  · rfl

theorem drainAlert_mem {vault : String} {rate cap : Int}
    (h : (getSpendingVelocity state.tracker state.resolvedAtTimestamp state.globalBudget).currentRate = rate)
    (hcap : state.globalBudget.cap = cap) (hpos : cap > 0) (hrate : rate > 0 ∧ rate > cap.tdiv 2) :
    AlertState.drainAlert vault ∈ state.evaluateAlertConditions texts vault := by
  have htracker : state.tracker.isSome := by
    cases ht : state.tracker with
    | none =>
        rw [ht] at h
        have hzero : rate = 0 := h.symm
        omega
    | some => rfl
  have hvelocity : AlertState.drainAlert vault ∈ state.velocityAlerts texts vault := by
    simp only [AlertState.velocityAlerts, h, hcap]
    rw [if_pos ⟨htracker, hpos⟩, if_pos hrate]
    simp
  simp only [AlertState.evaluateAlertConditions, List.mem_mergeSort, List.mem_append]
  exact .inr hvelocity

/-! ## The last thirty minutes -/

theorem currentRate_of_pos (hnow : 0 < now) : (getSpendingVelocity (some tracker) now budget).currentRate =
    hourlyRate ((sortedBuckets tracker (now.tdiv epochDuration)).take 3) := by
  simp only [getSpendingVelocity]
  rw [if_neg (by omega)]

theorem currentRate_of_nonpos (hnow : now ≤ 0) : (getSpendingVelocity (some tracker) now budget).currentRate = 0 := by
  simp only [getSpendingVelocity]
  rw [if_pos hnow]
  rfl

theorem timeToCap_of_rate (tracker : Option SpendTracker)
    (h : (getSpendingVelocity tracker now budget).currentRate = 0) :
    (getSpendingVelocity tracker now budget).timeToCapSeconds = none := by
  cases tracker with
  | none => rfl
  | some tracker =>
      simp only [getSpendingVelocity] at h ⊢
      split at h
      · rename_i hnow
        rw [if_pos hnow]
        rfl
      · rename_i hnow
        rw [if_neg hnow]
        simp only at h
        simp only [h, timeToCap]
        rw [if_neg (by omega)]

/-- The rate is that of the last thirty minutes, and without a record in them nothing is projected or reported. -/
def ReflectsRecent (texts : AlertTexts) (state : AlertState) (history : SpendHistory) : Prop :=
  let velocity := getSpendingVelocity state.tracker state.resolvedAtTimestamp state.globalBudget
  let recorded := history.lastThree (state.resolvedAtTimestamp.tdiv epochDuration)
  velocity.currentRate = 2 * (recorded : Nat) ∧
    (recorded = 0 → velocity.currentRate = 0 ∧ velocity.timeToCapSeconds = none ∧
      ∀ vault, ∀ a ∈ state.evaluateAlertConditions texts vault,
        a.id ≠ "high-velocity-" ++ vault ∧ a.id ≠ "drain-detected-" ++ vault)

/-- Everything but the rate follows from the rate. -/
theorem reflectsRecent_iff_rate : ReflectsRecent texts state history ↔
    (getSpendingVelocity state.tracker state.resolvedAtTimestamp state.globalBudget).currentRate =
      2 * (history.lastThree (state.resolvedAtTimestamp.tdiv epochDuration) : Nat) := by
  constructor
  · exact fun h => h.1
  · intro hrate
    refine ⟨hrate, fun hnone => ?_⟩
    have hzero : (getSpendingVelocity state.tracker state.resolvedAtTimestamp state.globalBudget).currentRate = 0 := by
      rw [hrate, hnone]
      rfl
    refine ⟨hzero, timeToCap_of_rate _ hzero, fun vault a ha => ?_⟩
    rcases velocity_id_of_mem ha with hvelocity | ⟨c, rest, hid, hh, hd⟩
    · rw [velocityAlerts_of_rate vault hzero] at hvelocity
      cases hvelocity
    · exact not_velocity_id hid hh hd

theorem represents_until (hrun : ({} : SpendTracker).recordSpends history = .ok tracker)
    (hclocks : history.Nondecreasing) (hnow : ∀ r ∈ history, r.1.unixTimestamp ≤ now) :
    tracker.Represents history.epochLog ∧ (∀ k ∈ history.epochLog.epochs, k ≤ now.tdiv epochDuration) ∧
      (now ≤ 0 → history = []) := by
  obtain ⟨hrep, hpos⟩ := SpendHistory.recordSpends_represents SpendTracker.represents_empty hrun hclocks
    (by simp [EpochLog.epochs])
  rw [List.append_nil] at hrep
  refine ⟨hrep, fun k hk => ?_, fun hle => ?_⟩
  · obtain ⟨r, hr, rfl⟩ := SpendHistory.mem_epochs.mp hk
    have h₁ := hpos r hr
    have h₂ := hnow r hr
    rw [epochOf_eq h₁.le, Int.tdiv_eq_ediv_of_nonneg (by omega), epochDuration]
    omega
  · apply List.eq_nil_iff_forall_not_mem.mpr
    intro r hr
    have h₁ := hpos r hr
    have h₂ := hnow r hr
    omega

/-- The velocity tells of the last thirty minutes iff the window of 24 hours is quiet, or something was recorded in
each of the last three epochs. -/
theorem velocity_reflects_iff (hrun : ({} : SpendTracker).recordSpends history = .ok tracker)
    (hclocks : history.Nondecreasing) (htracker : state.tracker = some tracker)
    (hnow : ∀ r ∈ history, r.1.unixTimestamp ≤ state.resolvedAtTimestamp) :
    ReflectsRecent texts state history ↔
      tracker.IsQuiet (state.resolvedAtTimestamp.tdiv epochDuration) ∨
        history.IsSteady (state.resolvedAtTimestamp.tdiv epochDuration) := by
  obtain ⟨hrep, hle, hnil⟩ := represents_until hrun hclocks hnow
  rw [reflectsRecent_iff_rate, htracker]
  by_cases hpos : 0 < state.resolvedAtTimestamp
  · rw [currentRate_of_pos hpos, rate_iff hrep hle]
  · -- nothing can have been recorded yet
    obtain rfl := hnil (by omega)
    obtain rfl : {} = tracker := pure_eq_ok.mp hrun
    rw [currentRate_of_nonpos (by omega)]
    exact iff_of_true rfl (.inl fun _ _ _ => rfl)

/-! ### 60 USD in one record, and 60 USD in three -/

theorem early_timestamp {t : Nat} (h : t ≤ 1000000) : i64Min ≤ (t : Int) ∧ (t : Int) ≤ i64Max := by
  simp only [i64Min, i64Max]
  omega

theorem early_slot : 0 ≤ uMax 64 := Nat.zero_le _

def clockAt (timestamp : Nat) (h : timestamp ≤ 1000000 := by decide) : Clock where
  unixTimestamp := timestamp
  slot := 0
  timestamp_range := early_timestamp h
  slot_range := early_slot

def staleHistory : SpendHistory := [(clockAt 600000, 60000000)]

def steadyHistory : SpendHistory :=
  [(clockAt 604800, 20000000), (clockAt 605400, 20000000), (clockAt 606000, 20000000)]

/-- A vault with a cap of 500 USD, read at 606000. -/
def alertState (tracker : SpendTracker) : AlertState where
  vault := { owner := .default, vaultId := 0, feeDestination := .default, createdAt := 0 }
  tracker := some tracker
  globalBudget := { spent24h := 60000000, cap := 500000000, remaining := 440000000 }
  allAgentBudgets := []
  resolvedAtTimestamp := 606000

/-- Texts of whole numbers, of whole dollars, and of the first of all addresses. -/
def wholeTexts : AlertTexts where
  number x := toString ⌊x.value⌋
  usd n := "$" ++ toString (n / 1000000) ++ ".00"
  address _ := "11111111111111111111111111111111"

theorem velocity_reflects_iff_steady : ∃ tracker, ({} : SpendTracker).recordSpends steadyHistory = .ok tracker ∧
    ReflectsRecent wholeTexts (alertState tracker) steadyHistory := by
  refine ⟨_, rfl, (velocity_reflects_iff rfl ?_ rfl ?_).mpr (.inr ?_)⟩
  · simp [SpendHistory.Nondecreasing, steadyHistory, clockAt]
  · simp [steadyHistory, clockAt, alertState]
  · intro k hlo hhi
    change 1010 - 2 ≤ k at hlo
    change k ≤ 1010 at hhi
    obtain rfl | rfl | rfl : k = 1008 ∨ k = 1009 ∨ k = 1010 := by omega
    · decide
    · decide
    · decide

/-- A record of 100 minutes ago is read as 360 USD an hour, and reported as a drain. -/
theorem stale_spend_raises_alerts : ∃ tracker, ({} : SpendTracker).recordSpends staleHistory = .ok tracker ∧
    staleHistory.Nondecreasing ∧ (∀ r ∈ staleHistory, r.1.unixTimestamp ≤ (alertState tracker).resolvedAtTimestamp) ∧
    staleHistory.lastThree 1010 = 0 ∧
    (getSpendingVelocity (some tracker) 606000 (alertState tracker).globalBudget).currentRate = 360000000 ∧
    AlertState.drainAlert "V" ∈ (alertState tracker).evaluateAlertConditions wholeTexts "V" ∧
    ¬ ReflectsRecent wholeTexts (alertState tracker) staleHistory := by
  refine ⟨_, rfl, ?_, ?_, by decide, ?_⟩
  · simp [SpendHistory.Nondecreasing, staleHistory]
  · simp [staleHistory, clockAt, alertState]
  · generalize htracker : SpendTracker.mk _ _ _ = tracker
    have hvalid : validBuckets tracker (Int.tdiv 606000 epochDuration) = [⟨1000, 60000000⟩] := by
      rw [← htracker]
      decide +kernel
    have hrate : (getSpendingVelocity (some tracker) 606000 (alertState tracker).globalBudget).currentRate =
        360000000 := by
      rw [currentRate_of_pos (by decide), sortedBuckets, hvalid, List.mergeSort_singleton]
      rfl
    refine ⟨hrate, ?_, fun h => ?_⟩
    · have hcap : (alertState tracker).globalBudget.cap = 500000000 := rfl
      exact drainAlert_mem hrate hcap (by decide) (by decide)
    · have hzero : (360000000 : Int) = 0 := hrate.symm.trans h.1
      omega

end Sdk

end Sigil
