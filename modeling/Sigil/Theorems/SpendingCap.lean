import Sigil.Lemmas.Core
import Sigil.Lemmas.Tracker

/-!
# The daily cap over whole runs

The ring forgets the epoch before the last 144 once something is recorded, but never one of the last 144. So
under a constant cap no 144 consecutive epochs ever hold more than the cap.
-/

namespace Sigil

open Library

/-- Time never goes back. -/
def Nondecreasing (steps : List Step) : Prop :=
  steps.Pairwise fun s t => s.ctx.clock.unixTimestamp ≤ t.ctx.clock.unixTimestamp

/-- In every state of the run from the empty chain the policy of the vault, if there is one, has the daily
cap `cap`. -/
def CapIs (cap : Nat) (v : Pubkey) (steps : List Step) : Prop :=
  Along Step.exec (fun w => ∀ policy ∈ w.policies v, policy.dailySpendingCapUsd = cap) steps {}

/-- The tracker represents the log, and no 144 consecutive epochs of the log hold more than `cap`. -/
structure CapInv (cap : Nat) (v : Pubkey) (w : World) : Prop where
  represents : ∀ tracker, w.trackers v = some tracker → tracker.Represents (w.spendLog v)
  window : ∀ e, (w.spendLog v).windowTotal (e - 143) e ≤ cap

section
variable {w w' : World} {v : Pubkey} {cap : Nat} {st : Step} {steps : List Step}

theorem SpendTracker.Represents.congr {tracker tracker' : SpendTracker} {log : EpochLog}
    (h : tracker.Represents log) (hbuckets : tracker'.buckets = tracker.buckets)
    (hlast : tracker'.lastWriteEpoch = tracker.lastWriteEpoch) : tracker'.Represents log where
  chronological := h.chronological
  epoch_range := h.epoch_range
  bucket i := by rw [hbuckets]; exact h.bucket i
  bounded i := by rw [hbuckets]; exact h.bounded i
  last := hlast.trans h.last

/-- A charge within the cap keeps every window within the cap. The read before it counts the last 144 epochs
at least, unless it is saturated; then nothing but zero can be charged. -/
theorem windowTotal_charge {policy : PolicyConfig} {clock : Clock} {tracker tracker' : SpendTracker}
    {log : EpochLog} {x : Nat} (hrep : tracker.Represents log) (hle : ∀ k ∈ log.epochs, k ≤ epochOf clock)
    (hcharged : Charged policy clock x tracker tracker') (hcap : policy.dailySpendingCapUsd = cap)
    (hwindow : ∀ e, log.windowTotal (e - 143) e ≤ cap) (e : Int) :
    EpochLog.windowTotal ((epochOf clock, x) :: log) (e - 143) e ≤ cap := by
  obtain ⟨t, hrecord, -, -⟩ := hcharged.recorded
  have hpos := (SpendTracker.recordSpend_ok hrecord).1
  refine EpochLog.windowTotal_cons_le (hrep.chronological.cons hle) (by decide) hwindow ?_ e
  have hread := hrep.rolling hpos hle
  have h₁ := hcharged.cap
  have h₂ := hcharged.fits
  have h₃ := hwindow (epochOf clock)
  rw [hread] at h₁ h₂
  dsimp only
  omega

theorem CapInv.step (h : CapInv cap v w) (hchange : TrackerChange st v w w')
    (hle : ∀ k ∈ (w.spendLog v).epochs, k ≤ epochOf st.ctx.clock)
    (hcap : ∀ policy, w.policies v = some policy → policy.dailySpendingCapUsd = cap) : CapInv cap v w' := by
  cases hchange with
  | same htracker hlog => exact ⟨by rw [htracker, hlog]; exact h.represents, by rw [hlog]; exact h.window⟩
  | opened _ _ _ _ htracker hlog =>
      refine ⟨fun tracker ht => ?_, fun e => ?_⟩
      · obtain rfl := Option.some.inj (htracker.symm.trans ht)
        rw [hlog]
        exact SpendTracker.represents_empty
      · rw [hlog, EpochLog.windowTotal_nil]
        exact Nat.zero_le cap
  | closed htracker hlog =>
      refine ⟨fun tracker ht => ?_, by rw [hlog]; exact h.window⟩
      cases htracker.symm.trans ht
  | charged policy tracker tracker' x hpolicy hbefore hcharged hafter hlog =>
      have hrep := h.represents tracker hbefore
      refine ⟨fun t ht => ?_, fun e => ?_⟩
      · obtain rfl := Option.some.inj (hafter.symm.trans ht)
        obtain ⟨recorded, hrecord, hbuckets, hlast⟩ := hcharged.recorded
        rw [hlog]
        exact (SpendTracker.recordSpend_represents hrep hle hrecord).congr hbuckets hlast
      · rw [hlog]
        exact windowTotal_charge hrep hle hcharged (hcap policy hpolicy) h.window e

/-- Epochs of the log are epochs of steps of the run, at positive times. -/
def LoggedBy (before : List Step) (v : Pubkey) (w : World) : Prop :=
  ∀ k ∈ (w.spendLog v).epochs, ∃ s ∈ before, k = epochOf s.ctx.clock ∧ 0 < s.ctx.clock.unixTimestamp

theorem LoggedBy.step {before : List Step} (h : LoggedBy before v w)
    (hchange : TrackerChange st v w w') : LoggedBy (before ++ [st]) v w' := by
  have hmono : ∀ k ∈ (w.spendLog v).epochs,
      ∃ s ∈ before ++ [st], k = epochOf s.ctx.clock ∧ 0 < s.ctx.clock.unixTimestamp := by
    intro k hk
    obtain ⟨s, hs, hkey⟩ := h k hk
    exact ⟨s, List.mem_append_left _ hs, hkey⟩
  intro k hk
  cases hchange with
  | same _ hlog => exact hmono k (hlog ▸ hk)
  | opened _ _ _ _ _ hlog =>
      rw [hlog] at hk
      cases hk
  | closed _ hlog => exact hmono k (hlog ▸ hk)
  | charged policy tracker tracker' x _ _ hcharged _ hlog =>
      rw [hlog] at hk
      rcases List.mem_cons.mp hk with rfl | hk
      · obtain ⟨t, hrecord, -, -⟩ := hcharged.recorded
        exact ⟨st, by simp, rfl, (SpendTracker.recordSpend_ok hrecord).1⟩
      · exact hmono k hk

theorem LoggedBy.le {before after : List Step} (h : LoggedBy before v w)
    (hclocks : Nondecreasing (before ++ st :: after)) :
    ∀ k ∈ (w.spendLog v).epochs, k ≤ epochOf st.ctx.clock := by
  intro k hk
  obtain ⟨s, hs, rfl, hpos⟩ := h k hk
  exact epochOf_mono hpos.le ((List.pairwise_append.mp hclocks).2.2 s hs st (by simp))

theorem capInv_run (hrun : run Step.exec steps {} = .ok w) (hclocks : Nondecreasing steps)
    (hcap : CapIs cap v steps) : CapInv cap v w ∧ LoggedBy steps v w := by
  refine run_history (P := fun before w => CapInv cap v w ∧ LoggedBy before v w) ?_ ?_ hrun
  · refine ⟨⟨by simp, fun e => ?_⟩, by simp [LoggedBy, EpochLog.epochs]⟩
    rw [EpochLog.windowTotal_nil]
    exact Nat.zero_le cap
  · rintro before st after w₁ w₂ rfl hbefore ⟨hinv, hlogged⟩ hexec
    have hchange := Step.trackerChange hexec v
    exact ⟨hinv.step hchange (hlogged.le hclocks) (hcap.of_run hbefore), hlogged.step hchange⟩

/-- No 144 consecutive epochs hold more recorded spend than the cap. -/
theorem window_le_cap (hrun : run Step.exec steps {} = .ok w) (hclocks : Nondecreasing steps)
    (hcap : CapIs cap v steps) (e : Int) : (w.spendLog v).windowTotal (e - 143) e ≤ cap :=
  (capInv_run hrun hclocks hcap).1.window e

end

/-! ### A vault of owner 1 with agent 3 pays 1 USDC to key 5 -/

def payClock : Clock := { unixTimestamp := 600200, slot := 1250 }

def payVault : InitializeVault :=
  { owner := .key 1, feeDestination := .key 2, vaultId := 0, dailySpendingCapUsd := 5000000,
    maxTransactionSizeUsd := 5000000, protocolMode := 0, protocols := [], developerFeeRate := 0,
    maxSlippageBps := 100, timelockDuration := 1800, allowedDestinations := [.key 5], protocolCaps := [] }

def payAction : OwnerAction := { owner := .key 1, vault := payVault.vault }

/-- Key 4 mints 1000 USDC to the vault and 1 USDC to key 5. -/
def payLaunch : TopLevel :=
  { raw := { programId := .key 9, accounts := [], data := [] }
    call := .foreign
      [.initializeMint usdcMint { decimals := 6, mintAuthority := some (.key 4) },
       .createAssociated payVault.vault usdcMint, .createAssociated protocolTreasury usdcMint,
       .createAssociated (.key 5) usdcMint, .mintTo (.ata payVault.vault usdcMint) (.key 4) 1000000000,
       .mintTo (.ata (.key 5) usdcMint) (.key 4) 1000000] }

def payAgent : RegisterAgent :=
  { owner := .key 1, vault := payVault.vault, agent := .key 3, capability := 2, spendingLimitUsd := 0 }

def payTransfer : AgentTransfer :=
  { agent := .key 3, vault := payVault.vault, vaultTokenAccount := .ata payVault.vault usdcMint,
    destinationTokenAccount := .ata (.key 5) usdcMint,
    protocolTreasuryTokenAccount := some (.ata protocolTreasury usdcMint), amount := 1000000,
    expectedPolicyVersion := 0 }

theorem launchers_isKey : ∀ k ∈ [usdcMint, .key 4], k.isKey = true := by decide

def payRun : List Step :=
  [.alone payClock [usdcMint, .key 4] payLaunch launchers_isKey,
   .ofKey payClock 1 (Instruction.initializeVault payVault).toTopLevel,
   .ofKey payClock 1 (Instruction.registerAgent payAgent).toTopLevel,
   .ofKey payClock 3 (Instruction.agentTransfer payTransfer).toTopLevel]

theorem window_le_cap_transfer : ∃ w, run Step.exec payRun {} = .ok w ∧
    w.spendLog payVault.vault = [(1000, 1000000)] ∧
    (w.spendLog payVault.vault).windowTotal (1000 - 143) 1000 ≤ 5000000 := by
  obtain ⟨w, hrun, hlog⟩ : ∃ w, run Step.exec payRun {} = .ok w ∧
      w.spendLog payVault.vault = [(1000, 1000000)] := ⟨_, rfl, rfl⟩
  refine ⟨w, hrun, hlog, window_le_cap hrun ?_ ?_ 1000⟩
  · simp [Nondecreasing, payRun, Step.ofKey, Step.alone]
  · unfold CapIs
    decide +kernel

end Sigil
