import Sigil.Lemmas.Tracker

/-!
# How exact the rolling window is

A ring of 144 epochs serves a window that touches 145 of them. The read agrees with the exact value until
the first record of an epoch takes the slot of the epoch 144 before it.
-/

namespace Sigil

open Library

/-- Records of a tracker with their clocks, oldest first. -/
abbrev SpendHistory := List (Clock × Nat)

namespace SpendHistory

def epochLog (history : SpendHistory) : EpochLog := (history.map fun r => (epochOf r.1, r.2)).reverse

def Nondecreasing (history : SpendHistory) : Prop :=
  history.Pairwise fun r s => r.1.unixTimestamp ≤ s.1.unixTimestamp

/-- Something was recorded in the epoch of `now`. -/
def RecordedIn (history : SpendHistory) (now : Clock) : Prop := ∃ r ∈ history, epochOf r.1 = epochOf now

/-- Exact value of the window: every epoch counts by its overlap with the last 24 hours. -/
def referenceRolling (history : SpendHistory) (now : Clock) : Nat :=
  min (∑ e ∈ history.epochLog.epochs.toFinset, counted now.unixTimestamp e (history.epochLog.total e)) (uMax 64)

/-- What the last 144 epochs hold. -/
def recent (history : SpendHistory) (now : Clock) : Nat :=
  history.epochLog.windowTotal (epochOf now - 143) (epochOf now)

/-- What the epoch before the last 144 is still worth. -/
def straddling (history : SpendHistory) (now : Clock) : Nat :=
  counted now.unixTimestamp (epochOf now - 144) (history.epochLog.total (epochOf now - 144))

end SpendHistory

def SpendTracker.recordSpends (tracker : SpendTracker) (history : SpendHistory) : Result SpendTracker :=
  history.foldlM (fun t r => t.recordSpend r.1 r.2) tracker

namespace SpendHistory

variable {history : SpendHistory} {tracker tracker' : SpendTracker} {now : Clock}

theorem mem_epochs {e : Int} : e ∈ history.epochLog.epochs ↔ ∃ r ∈ history, epochOf r.1 = e := by
  simp [epochLog, EpochLog.epochs]

theorem recordSpends_represents {log : EpochLog} (h : tracker.Represents log)
    (hrun : tracker.recordSpends history = .ok tracker') (hclocks : history.Nondecreasing)
    (hlog : ∀ r ∈ history, ∀ k ∈ log.epochs, k ≤ epochOf r.1) :
    tracker'.Represents (history.epochLog ++ log) ∧ ∀ r ∈ history, 0 < r.1.unixTimestamp := by
  induction history generalizing tracker log with
  | nil =>
      obtain rfl : tracker = tracker' := pure_eq_ok.mp hrun
      exact ⟨h, by simp⟩
  | cons r history ih =>
      simp only [SpendTracker.recordSpends, List.foldlM_cons] at hrun
      obtain ⟨t, hr, hrun⟩ := bind_eq_ok.mp hrun
      have hpos := (SpendTracker.recordSpend_ok hr).1
      obtain ⟨hhead, htail⟩ := List.pairwise_cons.mp hclocks
      have hstep := SpendTracker.recordSpend_represents h (hlog r (by simp)) hr
      obtain ⟨hrep, hall⟩ := ih hstep hrun htail (by
        intro s hs k hk
        rcases List.mem_cons.mp hk with rfl | hk
        · exact epochOf_mono hpos.le (hhead s hs)
        · exact hlog s (by simp [hs]) k hk)
      refine ⟨?_, ?_⟩
      · simpa [epochLog] using hrep
      · intro s hs
        rcases List.mem_cons.mp hs with rfl | hs
        · exact hpos
        · exact hall s hs

theorem represents_history (hrun : ({} : SpendTracker).recordSpends history = .ok tracker)
    (hclocks : history.Nondecreasing) (hnow : ∀ r ∈ history, r.1.unixTimestamp ≤ now.unixTimestamp) :
    tracker.Represents history.epochLog ∧ (∀ k ∈ history.epochLog.epochs, k ≤ epochOf now) := by
  obtain ⟨hrep, hpos⟩ := recordSpends_represents SpendTracker.represents_empty hrun hclocks
    (by simp [EpochLog.epochs])
  rw [List.append_nil] at hrep
  refine ⟨hrep, fun k hk => ?_⟩
  obtain ⟨r, hr, rfl⟩ := mem_epochs.mp hk
  exact epochOf_mono (hpos r hr).le (hnow r hr)

theorem referenceRolling_eq (hpos : 0 < now.unixTimestamp)
    (hle : ∀ k ∈ history.epochLog.epochs, k ≤ epochOf now) :
    history.referenceRolling now = min (history.recent now + history.straddling now) (uMax 64) := by
  have he := epochOf_eq hpos.le
  unfold referenceRolling
  rw [EpochLog.sum_epochs (N := numEpochs) (e := epochOf now) (counted_zero _)
    (fun k x hk => counted_old x (by simpa [he] using hk)) hle, sum_counted_recent _ he]
  rfl

/-- With the slot of the straddling epoch still its own, that epoch counts. -/
theorem rolling_of_not_recorded (hrun : ({} : SpendTracker).recordSpends history = .ok tracker)
    (hclocks : history.Nondecreasing) (hnow : ∀ r ∈ history, r.1.unixTimestamp ≤ now.unixTimestamp)
    (hpos : 0 < now.unixTimestamp) (hrec : ¬ history.RecordedIn now) :
    tracker.getRolling24hUsd now = min (history.recent now + history.straddling now) (uMax 64) := by
  obtain ⟨hrep, hle⟩ := represents_history hrun hclocks hnow
  rw [hrep.rolling hpos hle, if_neg fun hmem => hrec (mem_epochs.mp hmem)]
  rfl

/-- A record in the current epoch has taken that slot. -/
theorem rolling_of_recorded (hrun : ({} : SpendTracker).recordSpends history = .ok tracker)
    (hclocks : history.Nondecreasing) (hnow : ∀ r ∈ history, r.1.unixTimestamp ≤ now.unixTimestamp)
    (hpos : 0 < now.unixTimestamp) (hrec : history.RecordedIn now) :
    tracker.getRolling24hUsd now = min (history.recent now) (uMax 64) := by
  obtain ⟨hrep, hle⟩ := represents_history hrun hclocks hnow
  rw [hrep.rolling hpos hle, if_pos (mem_epochs.mpr hrec)]
  rfl

/-- After a record at `now` only the last 144 epochs count. -/
theorem rolling_after_record (hrun : ({} : SpendTracker).recordSpends history = .ok tracker)
    (hclocks : history.Nondecreasing) (hnow : ∀ r ∈ history, r.1.unixTimestamp ≤ now.unixTimestamp)
    {x : Nat} (hr : tracker.recordSpend now x = .ok tracker') :
    tracker'.getRolling24hUsd now = min (history.recent now + x) (uMax 64) := by
  obtain ⟨hrep, hle⟩ := represents_history hrun hclocks hnow
  have hpos := (SpendTracker.recordSpend_ok hr).1
  have hrep' := SpendTracker.recordSpend_represents hrep hle hr
  rw [hrep'.rolling hpos (by
    intro k hk
    rcases List.mem_cons.mp hk with rfl | hk
    · exact le_rfl
    · exact hle k hk), if_pos (by simp [EpochLog.epochs]), EpochLog.windowTotal_cons,
    if_pos ⟨by dsimp only; omega, le_rfl⟩, add_comm x, add_zero]
  rfl

/-- The read is exact iff nothing is recorded in the current epoch, or the straddling epoch is worth
nothing, or the last 144 epochs saturate the result. A record raises the read by its amount iff it evicts
nothing and nothing saturates, and lowers it iff it evicts more than it adds. -/
theorem rolling_exact_iff (hrun : ({} : SpendTracker).recordSpends history = .ok tracker)
    (hclocks : history.Nondecreasing) (hnow : ∀ r ∈ history, r.1.unixTimestamp ≤ now.unixTimestamp) :
    (tracker.getRolling24hUsd now = history.referenceRolling now ↔
      ¬ history.RecordedIn now ∨ history.straddling now = 0 ∨ uMax 64 ≤ history.recent now) ∧
    ∀ x tracker', tracker.recordSpend now x = .ok tracker' →
      (tracker'.getRolling24hUsd now = tracker.getRolling24hUsd now + x ↔
        (history.RecordedIn now ∨ history.straddling now = 0) ∧ history.recent now + x ≤ uMax 64 ∨
          x = 0 ∧ uMax 64 ≤ history.recent now) ∧
      (tracker.getRolling24hUsd now ≤ tracker'.getRolling24hUsd now ↔
        history.RecordedIn now ∨ history.straddling now ≤ x ∨ uMax 64 ≤ history.recent now + x) := by
  obtain ⟨hrep, hle⟩ := represents_history hrun hclocks hnow
  by_cases hpos : 0 < now.unixTimestamp
  · have href := referenceRolling_eq hpos hle
    by_cases hrec : history.RecordedIn now
    · have hread := rolling_of_recorded hrun hclocks hnow hpos hrec
      refine ⟨?_, fun x tracker' hr => ?_⟩
      · simp only [hread, href, hrec, not_true_eq_false, false_or]
        omega
      · simp only [rolling_after_record hrun hclocks hnow hr, hread, hrec, true_or, true_and, iff_true]
        omega
    · have hread := rolling_of_not_recorded hrun hclocks hnow hpos hrec
      refine ⟨?_, fun x tracker' hr => ?_⟩
      · simp only [hread, href, hrec, not_false_eq_true, true_or]
      · simp only [rolling_after_record hrun hclocks hnow hr, hread, hrec, false_or]
        omega
  · -- only the empty history ends before time zero
    have hnil : history = [] := by
      refine List.eq_nil_iff_forall_not_mem.mpr fun r hr => ?_
      have := (recordSpends_represents SpendTracker.represents_empty hrun hclocks
        (by simp [EpochLog.epochs])).2 r hr
      have := hnow r hr
      omega
    subst hnil
    refine ⟨?_, fun x tracker' hr => absurd (SpendTracker.recordSpend_ok hr).1 hpos⟩
    simp [SpendTracker.getRolling24hUsd, not_lt.mp hpos, referenceRolling, epochLog, EpochLog.epochs, RecordedIn]

/-! ### 1000 USD at 600300, read and charged 86101 seconds later -/

def firstClock : Clock := { unixTimestamp := 600300, slot := 1500 }

def laterClock : Clock := { unixTimestamp := 686401, slot := 216753 }

theorem rolling_exact_before_record : ∃ tracker,
    ({} : SpendTracker).recordSpends [(firstClock, 1000000000)] = .ok tracker ∧
    tracker.getRolling24hUsd laterClock = referenceRolling [(firstClock, 1000000000)] laterClock := by
  refine ⟨_, rfl, (rolling_exact_iff rfl ?_ ?_).1.mpr (.inl ?_)⟩
  · simp [Nondecreasing]
  · simp [firstClock, laterClock]
  · simp only [RecordedIn, List.mem_singleton, exists_eq_left]
    decide

/-- A record of one unit makes the window forget what is left of the first one. -/
theorem rolling_not_exact : ∃ tracker tracker',
    ({} : SpendTracker).recordSpends [(firstClock, 1000000000)] = .ok tracker ∧
    tracker.recordSpend laterClock 1 = .ok tracker' ∧
    ({} : SpendTracker).recordSpends [(firstClock, 1000000000), (laterClock, 1)] = .ok tracker' ∧
    Nondecreasing [(firstClock, 1000000000), (laterClock, 1)] ∧
    tracker.getRolling24hUsd laterClock = 998333333 ∧
    tracker'.getRolling24hUsd laterClock = 1 ∧
    referenceRolling [(firstClock, 1000000000), (laterClock, 1)] laterClock = 998333334 := by
  refine ⟨_, _, rfl, rfl, rfl, ?_, ?_, ?_, ?_⟩
  · simp [Nondecreasing, firstClock, laterClock]
  · decide +kernel
  · decide +kernel
  · decide +kernel

end SpendHistory

end Sigil
