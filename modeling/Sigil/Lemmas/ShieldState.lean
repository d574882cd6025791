import Sigil.Sdk.X402

/-!
# Sums of recorded spends

What a record adds to the sum of a window, when pruning takes nothing from it, and what a payment that passes the
policies is known to fit into.
-/

namespace Sigil.Sdk

open Library

namespace ShieldState

/-- The window that begins at `since` is not touched when stale entries are dropped at `now`. -/
def Unpruned (s : ShieldState) (now since : Int) : Prop :=
  s.spendEntries.length ≤ pruneThreshold ∨ ∀ e ∈ s.spendEntries, since ≤ e.timestamp → now - dayMs ≤ e.timestamp

section
variable {s : ShieldState} {now since : Int}

theorem prune_spendEntries_subset : (s.prune now).spendEntries ⊆ s.spendEntries := by
  unfold prune
  dsimp only
  split
  · exact List.filter_subset_self _
  · exact List.Subset.refl _

theorem prune_spendEntries_length_le : (s.prune now).spendEntries.length ≤ s.spendEntries.length := by
  unfold prune
  dsimp only
  split
  · exact List.length_filter_le ..
  · exact le_refl _

theorem totalSince_prune (h : s.Unpruned now since) : (s.prune now).totalSince since = s.totalSince since := by
  unfold prune totalSince
  dsimp only
  split
  · next hlong =>
      have hrecent := h.resolve_left hlong.not_ge
      rw [List.filter_filter]
      congr 2
      refine List.filter_congr fun e he => ?_
      simpa using hrecent e he
  · rfl

theorem Unpruned.prune (h : s.Unpruned now since) : (s.prune now).Unpruned now since := by
  rcases h with hshort | hrecent
  · exact .inl (prune_spendEntries_length_le.trans hshort)
  · exact .inr fun e he => hrecent e (prune_spendEntries_subset he)

/-- A record counts in every window that reaches up to now. -/
theorem totalSince_append {mint : String} {amount : Int} :
    totalSince since { s with spendEntries := s.spendEntries ++ [⟨mint, amount, now⟩] } =
      s.totalSince since + if since ≤ now then amount else 0 := by
  by_cases hsince : since ≤ now <;> simp [totalSince, hsince]

theorem totalSince_recordX402Spend {asset : String} {amount : Int}
    (h : s.spendEntries.length < pruneThreshold ∨
      ∀ e ∈ s.spendEntries, since ≤ e.timestamp → now - dayMs ≤ e.timestamp) :
    (recordX402Spend s now asset amount).totalSince since = s.totalSince since + if since ≤ now then amount else 0 := by
  have hpushed : Unpruned { s with spendEntries := s.spendEntries ++ [⟨asset, amount, now⟩] } now since := by
    rcases h with hshort | hrecent
    · exact .inl (by simpa using Nat.succ_le_of_lt hshort)
    · refine .inr fun e he hsince => ?_
      rcases List.mem_append.mp he with he | he
      · exact hrecent e he hsince
      · rw [List.mem_singleton.mp he]
        dsimp only [dayMs]
        omega
  calc
    (recordX402Spend s now asset amount).totalSince since = (s.recordSpend now asset amount).totalSince since :=
      totalSince_prune hpushed.prune
    _ = totalSince since { s with spendEntries := s.spendEntries ++ [⟨asset, amount, now⟩] } :=
      totalSince_prune hpushed
    _ = _ := totalSince_append

theorem mem_recordX402Spend {asset : String} {amount : Int} {e : SpendEntry}
    (h : e ∈ (recordX402Spend s now asset amount).spendEntries) :
    e ∈ s.spendEntries ∨ e = ⟨asset, amount, now⟩ := by
  have hmem := prune_spendEntries_subset (prune_spendEntries_subset h)
  simpa using hmem

end

end ShieldState

theorem validatePaymentAmount_eq_ok {recentPayments : List Int} {amount : String} {config : X402Config} {parsed : Int}
    (h : validatePaymentAmount recentPayments amount config = .ok parsed) :
    bigInt amount = some parsed ∧ 0 < parsed := by
  obtain ⟨value, hvalue, h⟩ := bind_eq_ok.mp h
  obtain ⟨_, hpos, h⟩ := bind_eq_ok.mp h
  obtain ⟨_, _, h⟩ := bind_eq_ok.mp h
  obtain ⟨_, _, h⟩ := bind_eq_ok.mp h
  obtain rfl := pure_eq_ok.mp h
  exact ⟨okOr_eq_ok.mp hvalue, require_eq_ok.mp hpos⟩

/-- Without a violation the recorded spend of the window leaves room for the payment. -/
theorem evaluateX402Payment_fits {now amount limit : Int} {selected : PaymentRequirements} {state : ShieldState}
    {isPaused : Bool} {checked : List String} {config : X402Config} {signerAddress : String}
    (h : evaluateX402Payment now selected state isPaused checked config signerAddress = .ok [])
    (hlimit : config.maxCumulativeSpend = some limit) (hamount : bigInt selected.amount = some amount) :
    state.getTotalSpendInWindow now (config.cumulativeWindowMs.getD dayMs) + amount ≤ limit := by
  obtain ⟨_, _, h⟩ := bind_eq_ok.mp h
  obtain ⟨cumulative, hcumulative, h⟩ := bind_eq_ok.mp h
  obtain ⟨ceiling, _, h⟩ := bind_eq_ok.mp h
  have hempty : cumulative = [] := by
    have hall := pure_eq_ok.mp h
    simp only [List.append_eq_nil_iff] at hall
    exact hall.1.1
  unfold checkCumulativeSpend at hcumulative
  rw [hempty, hlimit] at hcumulative
  obtain ⟨value, hvalue, hcumulative⟩ := bind_eq_ok.mp hcumulative
  obtain rfl := Option.some.inj (hamount.symm.trans (okOr_eq_ok.mp hvalue))
  have hfits := pure_eq_ok.mp hcumulative
  split at hfits
  · cases hfits
  · next hle => exact Int.not_lt.mp hle

end Sigil.Sdk
