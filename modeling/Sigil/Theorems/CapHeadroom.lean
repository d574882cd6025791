import Sigil.Theorems.Finalize
import Sigil.Theorems.Readings
import Sigil.Theorems.SealScan

/-!
# The headroom of sealing

Sealing compares the amount and its fees with what remains of the daily cap. The program charges what is left of the
amount without its fees, and only where a stablecoin is spent.
-/

namespace Sigil.Sdk

open Library

namespace SealParams

variable (env : SealEnv) (p : SealParams) (policy : PolicyConfig)

/-! ## The charge of the program -/

/-- Fees that are collected when a session is opened with a stablecoin. -/
def fees : Nat := (ceilFee p.amount 200 + ceilFee p.amount policy.developerFeeRate).toNat

/-- What is charged if the rest of the amount is spent. -/
def fullCharge : Nat := chargedAmount (p.amount.toNat - p.fees policy) (p.fees policy)

/-- The check of the daily cap refuses the charge. -/
def RejectedByCap (tracker : SpendTracker) (clock : Clock) : Prop :=
  checkRollingCap policy tracker clock (p.fullCharge policy) ≠ .ok ()

/-- A session that `validate_and_authorize` opens for the request. -/
def Opened (s : SessionAuthority) : Prop :=
  ∃ w ctx a tokenAccount plan snapshots, (a.amount.toNat : Int) = p.amount ∧ a.tokenMint = p.tokenMint ∧
    planSpend w a policy tokenAccount = .ok plan ∧ s = newSession ctx a policy plan snapshots

/-! ## What sealing checks -/

/-- All that comes before the headroom. -/
def beforeHeadroom : Except SealError (ResolvedVaultState × Pubkey) := do
  require (env.skipSeal = false) .hookAborted
  let state ← p.resolvedState env
  let agentEntry ← p.checkAgent state
  require (env.pluginsAllow state = true) .pluginRejected
  require (0 ≤ p.amount ∧ p.amount < 2 ^ 64) (.invalidAmount p.amount)
  p.defiInstructions.forM checkTokenOperation
  let targetProtocol ←
    okOr (p.targetProtocol.or (p.defiInstructions.head?.map KitInstruction.programAddress)) .protocolNotTargeted
  require (agentEntry.capability ≠ 0) .agentZeroCapability
  require (isProtocolAllowed targetProtocol state.policy = true) (.protocolNotAllowed targetProtocol)
  p.checkInstructionCount
  pure (state, targetProtocol)

/-- All that comes after it. -/
def afterHeadroom (state : ResolvedVaultState) (targetProtocol : Pubkey) : Except SealError SealResult := do
  p.checkOutput
  let replacements ← p.ataReplacements
  let validateIx ← p.validateInstruction state targetProtocol
  let lastValidBlockHeight ← okOr env.lastValidBlockHeight .networkUnavailable
  require (env.lookupTablesVerified = true) .networkUnavailable
  let transaction ← p.compose validateIx replacements
  let byteLength := env.measureTransactionSize transaction
  require (byteLength ≤ 1232) (.txTooLarge byteLength)
  pure { transaction, isSpending := p.spending, txSizeBytes := byteLength, lastValidBlockHeight }

/-- No check before the headroom refuses the request. -/
def ReachesHeadroom : Prop := ∃ checked, p.beforeHeadroom env = .ok checked

def totalWithFees : Int := p.amount + ceilFee p.amount 200 + ceilFee p.amount policy.developerFeeRate

/-- A refusal for the cap is one that the program gives too. -/
def CapRefusalSound (tracker : SpendTracker) (clock : Clock) : Prop :=
  ∀ cap attempted, p.seal env = .error (.capExceeded cap attempted) →
    p.isStablecoinInput = true ∧ p.RejectedByCap policy tracker clock

end SealParams

def SealError.isCapExceeded : SealError → Bool
  | .capExceeded _ _ => true
  | _ => false

section
variable {env : SealEnv} {p : SealParams} {state : ResolvedVaultState} {policy : PolicyConfig} {tracker : SpendTracker}
  {clock : Clock}

theorem SealParams.seal_eq : p.seal env = p.beforeHeadroom env >>= fun checked =>
    p.checkHeadroom checked.1 >>= fun _ => p.afterHeadroom env checked.1 checked.2 := by
  simp only [SealParams.seal, beforeHeadroom, afterHeadroom, bind_assoc, pure_bind]

theorem avoids_isCapExceeded_iff {α : Type} {x : Except SealError α} :
    Avoids SealError.isCapExceeded x ↔ ∀ cap attempted, x ≠ .error (.capExceeded cap attempted) := by
  constructor
  · intro h cap attempted hx
    cases h _ hx
  · intro h e hx
    cases e with
    | capExceeded cap attempted => cases h cap attempted hx
    | _ => rfl

theorem SealParams.avoids_beforeHeadroom : Avoids SealError.isCapExceeded (p.beforeHeadroom env) := by
  have hoperation (ix : KitInstruction) : Avoids SealError.isCapExceeded (checkTokenOperation ix) := by
    unfold checkTokenOperation
    split
    · simp [SealError.isCapExceeded]
    · simp
  have hstate : Avoids SealError.isCapExceeded (p.resolvedState env) := by
    unfold resolvedState
    split
    · split
      · simp [SealError.isCapExceeded]
      · simp
    · simp [SealError.isCapExceeded]
  simp [beforeHeadroom, checkAgent, checkInstructionCount, hstate, hoperation, SealError.isCapExceeded,
    List.forM_eq_forM]

theorem SealParams.avoids_afterHeadroom {target : Pubkey} :
    Avoids SealError.isCapExceeded (p.afterHeadroom env state target) := by
  have houtput : Avoids SealError.isCapExceeded p.checkOutput := by
    unfold checkOutput
    split
    · simp [SealError.isCapExceeded]
    · simp
  have hreplacements : Avoids SealError.isCapExceeded p.ataReplacements :=
    avoids_foldlM (fun _ _ => by simp [addReplacement, SealError.isCapExceeded]) _ _
  have hlimit (defiInstructions : List KitInstruction) :
      Avoids SealError.isCapExceeded (p.computeUnitLimit defiInstructions) := by
    unfold computeUnitLimit
    split
    · simp [SealError.isCapExceeded]
    · simp
  have hprice : Avoids SealError.isCapExceeded p.computeUnitPrice := by
    unfold computeUnitPrice
    split
    · simp [SealError.isCapExceeded]
    · simp
  simp [afterHeadroom, validateInstruction, compose, houtput, hreplacements, hlimit, hprice, SealError.isCapExceeded]

theorem SealParams.beforeHeadroom_eq_ok {checked : ResolvedVaultState × Pubkey}
    (h : p.beforeHeadroom env = .ok checked) : p.resolvedState env = .ok checked.1 ∧ 0 ≤ p.amount := by
  simp only [beforeHeadroom, bind_eq_ok, require_eq_ok, okOr_eq_ok, pure_eq_ok, exists_and_left, exists_const] at h
  obtain ⟨-, state, hstate, _, -, -, hamount, _, -, _, -, -, -, _, -, rfl⟩ := h
  exact ⟨hstate, hamount.1⟩

theorem SealParams.avoids_checkHeadroom : Avoids SealError.isCapExceeded (p.checkHeadroom state) ↔
    (0 < p.amount → p.totalWithFees state.policy ≤ state.globalBudget.remaining) := by
  simp [checkHeadroom, spending, totalWithFees, SealError.isCapExceeded]

/-- Sealing refuses for the cap what reaches the headroom and does not fit into it. -/
theorem SealParams.seal_avoids_iff (hstate : p.resolvedState env = .ok state) :
    Avoids SealError.isCapExceeded (p.seal env) ↔
      ¬ p.ReachesHeadroom env ∨ (0 < p.amount → p.totalWithFees state.policy ≤ state.globalBudget.remaining) := by
  rw [seal_eq, avoids_bind, and_iff_right avoids_beforeHeadroom]
  simp only [avoids_bind, avoids_afterHeadroom, implies_true, and_true, avoids_checkHeadroom]
  constructor
  · intro h
    by_cases hreaches : p.ReachesHeadroom env
    · obtain ⟨checked, hchecked⟩ := hreaches
      obtain rfl := Except.ok.inj ((beforeHeadroom_eq_ok hchecked).1.symm.trans hstate)
      exact .inr (h checked hchecked)
    · exact .inl hreaches
  · rintro (hnot | hfits) checked hchecked
    · exact absurd ⟨checked, hchecked⟩ hnot
    · obtain rfl := Except.ok.inj ((beforeHeadroom_eq_ok hchecked).1.symm.trans hstate)
      exact hfits

/-! ## What the program checks -/

theorem checkRollingCap_eq_ok {x : Nat} : checkRollingCap policy tracker clock x = .ok () ↔
    tracker.getRolling24hUsd clock + x ≤ uMax 64 ∧ tracker.getRolling24hUsd clock + x ≤ policy.dailySpendingCapUsd := by
  simp only [checkRollingCap, bind_eq_ok, okOr_eq_ok, checkedAdd_eq_some, require_eq_ok]
  constructor
  · rintro ⟨_, ⟨hfits, rfl⟩, hle⟩
    exact ⟨hfits, hle⟩
  · intro h
    exact ⟨_, ⟨h.1, rfl⟩, h.2⟩

theorem ceilFee_eq {amount rate fee : Nat} (h : ceilFee amount rate = .ok fee) :
    (fee : Int) = SealParams.ceilFee amount rate := by
  simp only [ceilFee, bind_eq_ok, okOr_eq_ok, checkedMul_eq_some, checkedAdd_eq_some, pure_eq_ok] at h
  obtain ⟨_, ⟨-, rfl⟩, _, ⟨-, rfl⟩, rfl⟩ := h
  have hden : feeRateDenominator = 1000000 := rfl
  rw [hden, SealParams.ceilFee]
  push_cast
  omega

variable (policy) in
theorem fullCharge_pos (hamount : 0 < p.amount) : 0 < p.fullCharge policy := by
  have hfee : 0 < SealParams.ceilFee p.amount 200 := by
    unfold SealParams.ceilFee
    omega
  have hdeveloper : 0 ≤ SealParams.ceilFee p.amount policy.developerFeeRate := by
    have hproduct : 0 ≤ p.amount * policy.developerFeeRate := Int.mul_nonneg hamount.le (Int.natCast_nonneg _)
    unfold SealParams.ceilFee
    omega
  have hfees : 0 < p.fees policy := by
    unfold SealParams.fees
    omega
  unfold SealParams.fullCharge chargedAmount
  split
  · assumption
  · exact hfees

theorem rejectedByCap_iff (hcap : policy.dailySpendingCapUsd ≤ uMax 64) (htracker : tracker.Stored)
    (hclock : clock.unixTimestamp ≤ i64Max) (hamount : 0 < p.amount) :
    p.RejectedByCap policy tracker clock ↔
      (resolveGlobalBudget policy tracker clock.unixTimestamp).remaining < p.fullCharge policy := by
  have hpos := fullCharge_pos policy hamount
  rw [SealParams.RejectedByCap, Ne, checkRollingCap_eq_ok]
  unfold resolveGlobalBudget
  rw [getRolling24hUsd_agree htracker hclock]
  dsimp only
  split <;> omega

section
variable {s : SessionAuthority} {ctx : Ctx} {a : FinalizeSession} {w w' : World}

/-- The program takes the same fees. -/
theorem SealParams.Opened.session (h : p.Opened policy s) (hamount : 0 < p.amount)
    (hstable : Sigil.isStablecoinMint p.tokenMint = true) :
    s.fees = p.fees policy ∧ s.authorizedAmount = p.amount.toNat ∧ s.authorizedToken = p.tokenMint ∧ s.delegated ∧
      s.outputMint ≠ .default := by
  obtain ⟨w, ctx, a, tokenAccount, plan, snapshots, hsame, htoken, hplan, rfl⟩ := h
  have hpos : 0 < a.amount.toNat := by omega
  rw [← htoken] at hstable
  have hmint := (planSpend_stablecoin hpos hstable hplan).1
  rw [planSpend, if_neg (by omega), if_pos hstable] at hplan
  simp only [bind_eq_ok, pure_eq_ok] at hplan
  obtain ⟨protocolFee, hprotocol, developerFee, hdeveloper, rfl⟩ := hplan
  have hprotocol := ceilFee_eq hprotocol
  have hdeveloper := ceilFee_eq hdeveloper
  rw [hsame] at hprotocol hdeveloper
  refine ⟨?_, ?_, htoken, decide_eq_true hpos, ?_⟩
  · have hrate : ((protocolFeeRate : Nat) : Int) = 200 := rfl
    rw [hrate] at hprotocol
    show protocolFee + developerFee = p.fees policy
    rw [SealParams.fees, ← hprotocol, ← hdeveloper]
    omega
  · show a.amount.toNat = p.amount.toNat
    omega
  · exact ne_of_eq_of_ne hmint (isStablecoinMint_ne_default hstable)

/-- A session whose amount has left the vault is not closed in time if the cap refuses its charge. -/
theorem finalizeSession_refused (hopened : p.Opened policy s) (hamount : 0 < p.amount)
    (hstable : Sigil.isStablecoinMint p.tokenMint = true) (hs : w.sessions a.session = some s)
    (hlive : s.isExpired ctx.clock.unixTimestamp = false) (hpolicy : w.policies a.vault = some policy)
    (htracker : w.trackers a.vault = some tracker)
    (hspent : s.stablecoinBalanceBefore - w.ledger.balance s.delegationTokenAccount = s.authorizedAmount)
    (hrejected : p.RejectedByCap policy tracker ctx.clock) : finalizeSession ctx a w ≠ .ok w' := by
  intro h
  obtain ⟨hfees, hauthorized, htoken, hdelegated, hmint⟩ := hopened.session hamount hstable
  obtain ⟨_, _, _, _, spend, _, _, -, ⟨hsession, -⟩, hp, hrevoke, hspend, hcharge, -, -⟩ := finalizeSession_ok h
  cases hs.symm.trans hsession
  cases hpolicy.symm.trans hp
  rw [hlive] at hspend
  have hmeasure := measureSpend_ok hmint hspend
  rw [htoken, if_pos hstable] at hmeasure
  have hcharged : chargedAmount spend (s.protocolFee + s.developerFee) = p.fullCharge policy := by
    rw [(measureDecrease_authorized hdelegated hrevoke hmeasure).2, hspent, hauthorized, ← SessionAuthority.fees,
      hfees, SealParams.fullCharge]
  have hpos := fullCharge_pos policy hamount
  rcases chargeSession_ok hcharge with ⟨hnothing, -⟩ | ⟨-, _, _, _, ht, hfits, -⟩
  · omega
  · cases htracker.symm.trans ht
    rw [hcharged] at hfits
    exact hrejected (checkRollingCap_eq_ok.mpr ⟨hfits.fits, hfits.cap⟩)

end

/-- Nothing is refused for the cap if the check is not reached, or the total is within what remains. -/
theorem totalWithFees_le_of_avoids (hstate : p.resolvedState env = .ok state)
    (hremaining : 0 ≤ state.globalBudget.remaining) (h : Avoids SealError.isCapExceeded (p.seal env)) :
    ¬ p.ReachesHeadroom env ∨ p.totalWithFees state.policy ≤ state.globalBudget.remaining := by
  rcases (SealParams.seal_avoids_iff hstate).mp h with hnot | hle
  · exact .inl hnot
  by_cases hamount : 0 < p.amount
  · exact .inr (hle hamount)
  by_cases hreaches : p.ReachesHeadroom env
  · -- without an amount there are no fees
    right
    obtain ⟨_, hchecked⟩ := hreaches
    have hzero : p.amount = 0 := by
      have := (SealParams.beforeHeadroom_eq_ok hchecked).2
      omega
    simpa [SealParams.totalWithFees, SealParams.ceilFee, hzero] using hremaining
  · exact .inl hreaches

/-- Refusals for the cap are those of the program if nothing is refused for it, or a stablecoin is spent and its charge
is above what remains. -/
theorem cap_refusal_sound_iff (hstate : p.resolvedState env = .ok state)
    (hbudget : state.globalBudget = resolveGlobalBudget state.policy tracker clock.unixTimestamp)
    (htracker : tracker.Stored) (hclock : clock.unixTimestamp ≤ i64Max)
    (hcap : state.policy.dailySpendingCapUsd ≤ uMax 64) :
    p.CapRefusalSound env state.policy tracker clock ↔
      ¬ p.ReachesHeadroom env ∨ p.totalWithFees state.policy ≤ state.globalBudget.remaining ∨
        (p.isStablecoinInput = true ∧ state.globalBudget.remaining < p.fullCharge state.policy) := by
  have hremaining : 0 ≤ state.globalBudget.remaining := by
    rw [hbudget, resolveGlobalBudget]
    dsimp only
    split <;> omega
  by_cases hfits : Avoids SealError.isCapExceeded (p.seal env)
  · constructor
    · intro _
      rcases totalWithFees_le_of_avoids hstate hremaining hfits with hnot | hle
      · exact .inl hnot
      · exact .inr (.inl hle)
    · intro _ cap attempted hseal
      exact absurd hseal (avoids_isCapExceeded_iff.mp hfits cap attempted)
  · have hrefused := hfits
    rw [avoids_isCapExceeded_iff] at hrefused
    push Not at hrefused
    obtain ⟨cap, attempted, hseal⟩ := hrefused
    rw [SealParams.seal_avoids_iff hstate] at hfits
    push Not at hfits
    obtain ⟨hreaches, hamount, hover⟩ := hfits
    have hrejected := rejectedByCap_iff hcap htracker hclock hamount
    rw [← hbudget] at hrejected
    rw [← hrejected]
    constructor
    · exact fun h => .inr (.inr (h cap attempted hseal))
    · rintro (hnot | hle | h) _ _ _
      · exact absurd hreaches hnot
      · exact absurd hover (Int.not_lt.mpr hle)
      · exact h

end

/-! ### A vault with 5 USDC left -/

def callAmount (program tokenMint : Pubkey) (amount : Int) : SealParams :=
  { callParams program with tokenMint, amount }

theorem emptyTracker_stored : SpendTracker.Stored {} where
  lastWriteEpoch := le_rfl
  epochId _ := le_rfl
  usdAmount _ := Nat.zero_le _
  windowStart _ := le_rfl

/-- Of 6 USDC more than 5 USDC would be charged. -/
theorem cap_refusal_sound_iff_six :
    (callAmount (.key 8) usdcMint 6000000).CapRefusalSound callEnv callState.policy {} payClock := by
  have hstate : (callAmount (.key 8) usdcMint 6000000).resolvedState callEnv = .ok callState := rfl
  apply (cap_refusal_sound_iff hstate rfl emptyTracker_stored (by decide) (by decide)).mpr
  exact .inr (.inr ⟨rfl, by decide⟩)

/-- An amount that is no stablecoin is compared with the cap. -/
theorem foreign_amount_refused : ¬ ∀ env p state tracker clock, SealParams.resolvedState env p = .ok state →
    state.globalBudget = resolveGlobalBudget state.policy tracker clock.unixTimestamp → tracker.Stored →
    clock.unixTimestamp ≤ i64Max → state.policy.dailySpendingCapUsd ≤ uMax 64 →
    p.CapRefusalSound env state.policy tracker clock := by
  intro h
  have hsound := h callEnv (callAmount jupiterProgram (.key 4) 10000000) callState {} payClock rfl rfl
    emptyTracker_stored (by decide) (by decide)
  have hseal : (callAmount jupiterProgram (.key 4) 10000000).seal callEnv =
      .error (.capExceeded 5000000 10002000) := rfl
  cases (hsound _ _ hseal).1

end Sigil.Sdk
