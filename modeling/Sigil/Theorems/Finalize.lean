import Sigil.Lemmas.Charge
import Sigil.Lemmas.Counters

/-!
# What a finalized session leaves
-/

namespace Sigil

open Library

section
variable {w w' : World} {clock : Clock} {ctx : Ctx} {v agent p : Pubkey} {vault vault' : AgentVault}
  {policy : PolicyConfig} {tracker tracker' : SpendTracker} {overlay overlay' : AgentSpendOverlay}
  {s : SessionAuthority} {spend : Nat}

/-! ## Sessions of reachable states -/

/-- A session that spends a stablecoin is delegated, and its stablecoin is what is measured. Nothing is measured for
a session that does not spend. -/
structure SessionAuthority.WellOpened (s : SessionAuthority) : Prop where
  stablecoin : s.isSpending → isStablecoinMint s.authorizedToken → s.delegated ∧ s.outputMint ≠ .default
  idle : s.isSpending = false → s.outputMint = .default

theorem newSession_wellOpened {a : ValidateAndAuthorize} {tokenAccount : TokenAccount} {plan : SpendPlan}
    {snapshots : Fin 4 → List UInt8} (h : planSpend w a policy tokenAccount = .ok plan) :
    (newSession ctx a policy plan snapshots).WellOpened := by
  constructor
  case stablecoin =>
    intro hspending hstable
    have hamount : 0 < a.amount.toNat := of_decide_eq_true hspending
    obtain ⟨hmint, -⟩ := planSpend_stablecoin hamount hstable h
    exact ⟨hspending, by rw [newSession, hmint]; exact isStablecoinMint_ne_default hstable⟩
  case idle =>
    intro hidle
    have hamount : ¬ 0 < a.amount.toNat := of_decide_eq_false hidle
    rw [planSpend, if_pos (by omega)] at h
    obtain rfl := pure_eq_ok.mp h
    rfl

theorem sessions_wellOpened {steps : List Step} (hrun : run Step.exec steps {} = .ok w) :
    ∀ x s, w.sessions x = some s → s.WellOpened := by
  refine run_invariant (P := fun w => ∀ x s, w.sessions x = some s → s.WellOpened) (by simp) ?_ hrun
  intro st _ w₁ w₂ ih hexec x s hs
  cases Step.sessionChange hexec with
  | kept hframe => exact ih x s (hframe.sessions ▸ hs)
  | opened a hcall h =>
      obtain ⟨_, _, _, _, plan, _, _, -, -, -, -, -, -, hplan, -, -, rfl⟩ := validateAndAuthorize_ok h
      rcases update_cases hs with ⟨rfl, heq⟩ | ⟨-, hs⟩
      · cases heq
        exact newSession_wellOpened hplan
      · exact ih x s hs
  | closed a hcall h =>
      obtain ⟨_, _, _, _, _, charged, _, -, -, -, -, -, hcharge, -, rfl⟩ := finalizeSession_ok h
      rcases update_cases hs with ⟨rfl, heq⟩ | ⟨-, hs⟩
      · cases heq
      · exact ih x s ((chargeSession_frame hcharge).1 ▸ hs)

/-! ## The charge -/

/-- What the charge of a session leaves, `spend` being measured. -/
structure SessionCharged (clock : Clock) (s : SessionAuthority) (spend : Nat) (vault : AgentVault)
    (policy : PolicyConfig) (tracker tracker' : SpendTracker) (overlay overlay' : AgentSpendOverlay) : Prop where
  size : spend ≤ policy.maxTransactionSizeUsd
  recorded : 0 < chargedAmount spend s.fees → tracker.Recorded clock (chargedAmount spend s.fees) tracker'
  unrecorded : chargedAmount spend s.fees = 0 → tracker' = tracker
  cap : 0 < chargedAmount spend s.fees →
    tracker.getRolling24hUsd clock + chargedAmount spend s.fees ≤ policy.dailySpendingCapUsd
  agent : 0 < spend → AgentCharged vault clock s.agent spend overlay overlay'
  protocol : 0 < spend → policy.hasProtocolCaps →
    ProtocolCharged policy clock s.authorizedProtocol spend tracker tracker'
  others : spend = 0 ∨ policy.hasProtocolCaps = false → tracker'.protocolCounters = tracker.protocolCounters
  fees : spend = 0 → overlay' = overlay

theorem recordProtocolSpend_charged {recorded : SpendTracker} {x : Nat}
    (hcap : checkProtocolCap policy tracker clock p x = .ok ())
    (hrecord : tracker.recordSpend clock x = .ok recorded)
    (hcount : recorded.recordProtocolSpend clock p x = .ok tracker') :
    ProtocolCharged policy clock p x tracker tracker' := by
  have hsame := recordSpend_protocolCounters hrecord
  constructor
  case spend => rw [SpendTracker.recordProtocolSpend_spend hcount, SpendTracker.getProtocolSpend_congr hsame]
  case cap => exact fun cap => checkProtocolCap_ok hcap
  case others =>
    obtain ⟨i, counter, rfl, hprotocol, -⟩ := SpendTracker.recordProtocolSpend_cases hcount
    refine ⟨i, ?_, fun j hj => ?_⟩
    · exact (congrArg _ (Function.update_self ..)).trans hprotocol
    · rw [SpendTracker.protocolCounters_setCounter_of_ne hj, hsame]

theorem chargeSpend_spec {charged : SpendTracker × AgentSpendOverlay}
    (h : chargeSpend policy vault tracker overlay clock agent p spend = .ok charged) :
    spend ≤ policy.maxTransactionSizeUsd ∧ AgentCharged vault clock agent spend overlay charged.2 ∧
      if policy.hasProtocolCaps then ProtocolCharged policy clock p spend tracker charged.1
      else charged.1.protocolCounters = tracker.protocolCounters := by
  simp only [chargeSpend, bind_eq_ok, require_eq_ok, exists_and_left, exists_const] at h
  obtain ⟨hsize, _, -, overlay', hagent, _, hcap, recorded, hrecord, h⟩ := h
  split at h
  · rename_i hcaps
    simp only [bind_eq_ok, pure_eq_ok] at h
    obtain ⟨tracker', hcount, rfl⟩ := h
    rw [if_pos hcaps]
    exact ⟨hsize, (chargeAgent_spec hagent).1, recordProtocolSpend_charged hcap hrecord hcount⟩
  · rename_i hcaps
    simp only [bind_eq_ok, pure_eq_ok] at h
    obtain ⟨_, rfl, rfl⟩ := h
    rw [if_neg hcaps]
    exact ⟨hsize, (chargeAgent_spec hagent).1, recordSpend_protocolCounters hrecord⟩

namespace SessionCharged

theorem of_spend {charged : SpendTracker × AgentSpendOverlay} (hpos : 0 < spend)
    (h : chargeSpend policy vault tracker overlay clock s.agent s.authorizedProtocol spend = .ok charged) :
    SessionCharged clock s spend vault policy tracker charged.1 overlay charged.2 := by
  obtain ⟨hsize, hagent, hprotocol⟩ := chargeSpend_spec h
  have hcharged := chargeSpend_ok h
  have hamount : chargedAmount spend s.fees = spend := if_pos hpos
  constructor
  case size => exact hsize
  case recorded =>
    intro _
    rw [hamount]
    exact hcharged.recorded_current
  case unrecorded => omega
  case cap =>
    intro _
    rw [hamount]
    exact hcharged.cap
  case agent => exact fun _ => hagent
  case protocol =>
    intro _ hcaps
    rwa [if_pos hcaps] at hprotocol
  case others =>
    rintro (hzero | hcaps)
    · omega
    · rwa [if_neg (by simp [hcaps])] at hprotocol
  case fees => omega

theorem of_fees (h : chargeFees policy tracker clock s.fees = .ok tracker') (hfees : 0 < s.fees) :
    SessionCharged clock s 0 vault policy tracker tracker' overlay overlay := by
  simp only [chargeFees, bind_eq_ok] at h
  obtain ⟨_, hcap, hrecord⟩ := h
  have hcharged := Charged.of_record hcap hrecord
  have hamount : chargedAmount 0 s.fees = s.fees := if_neg (Nat.lt_irrefl 0)
  constructor
  case size => exact Nat.zero_le _
  case recorded => exact fun _ => hamount ▸ hcharged.recorded_current
  case unrecorded => omega
  case cap => exact fun _ => hamount ▸ hcharged.cap
  case agent => omega
  case protocol => omega
  case others => exact fun _ => recordSpend_protocolCounters hrecord
  case fees => exact fun _ => rfl

theorem of_nothing (hfees : s.fees = 0) : SessionCharged clock s 0 vault policy tracker tracker overlay overlay := by
  have hamount : chargedAmount 0 s.fees = 0 := (if_neg (Nat.lt_irrefl 0)).trans hfees
  constructor
  case size => exact Nat.zero_le _
  case recorded => omega
  case unrecorded => exact fun _ => rfl
  case cap => omega
  case agent => omega
  case protocol => omega
  case others => exact fun _ => rfl
  case fees => exact fun _ => rfl

end SessionCharged

theorem chargeSession_charged (h : chargeSession w clock v vault policy s spend = .ok w') :
    ∃ tracker overlay tracker' overlay', w.trackers v = some tracker ∧ w.overlays v = some overlay ∧
      w'.trackers v = some tracker' ∧ w'.overlays v = some overlay' ∧ w'.policies = w.policies ∧
      SessionCharged clock s spend vault policy tracker tracker' overlay overlay' := by
  simp only [chargeSession, bind_eq_ok, okOr_eq_ok, checkedAdd_eq_some, World.loadTracker_eq_ok,
    World.loadOverlay_eq_ok] at h
  obtain ⟨tracker, htracker, overlay, hoverlay, _, ⟨-, rfl⟩, h⟩ := h
  refine ⟨tracker, overlay, ?_⟩
  split at h
  · rename_i hpos
    simp only [bind_eq_ok, pure_eq_ok] at h
    obtain ⟨charged, hcharge, rfl⟩ := h
    exact ⟨charged.1, charged.2, htracker, hoverlay, Function.update_self .., Function.update_self .., rfl,
      .of_spend hpos hcharge⟩
  · rename_i hzero
    obtain rfl : spend = 0 := by omega
    split at h
    · rename_i hfees
      simp only [bind_eq_ok, pure_eq_ok] at h
      obtain ⟨tracker', hcharge, rfl⟩ := h
      exact ⟨tracker', overlay, htracker, hoverlay, Function.update_self .., hoverlay, rfl, .of_fees hcharge hfees⟩
    · rename_i hfees
      obtain rfl := pure_eq_ok.mp h
      exact ⟨tracker, overlay, htracker, hoverlay, htracker, hoverlay, rfl, .of_nothing (Nat.eq_zero_of_not_pos hfees)⟩

/-! ## The whole instruction -/

/-- The vault after a session that was closed in time. -/
def AgentVault.finalized (vault : AgentVault) (s : SessionAuthority) (spend : Nat) : AgentVault :=
  { vault with
    totalTransactions := vault.totalTransactions + 1
    totalVolume := vault.totalVolume + spend
    totalFeesCollected := vault.totalFeesCollected + s.developerFee
    activeSessions := vault.activeSessions - 1 }

theorem finalizeStats_finalized (hspending : s.isSpending) (h : finalizeStats vault s false spend = .ok vault') :
    vault' = vault.finalized s spend := by
  simp only [finalizeStats, hspending, bind_eq_ok, okOr_eq_ok, checkedAdd_eq_some, pure_eq_ok] at h
  obtain ⟨_, ⟨-, rfl⟩, _, ⟨-, rfl⟩, _, ⟨-, rfl⟩, _, ⟨-, rfl⟩, rfl⟩ := h
  rfl

theorem measureDecrease_authorized {a : FinalizeSession} (hdelegated : s.delegated) {ledger : Ledger}
    (hrevoke : revokeDelegation w.ledger a s = .ok ledger) (h : measureDecrease w a s = .ok spend) :
    s.stablecoinBalanceBefore - w.ledger.balance s.delegationTokenAccount ≤ s.authorizedAmount ∧
      spend = s.stablecoinBalanceBefore - w.ledger.balance s.delegationTokenAccount - s.fees := by
  simp only [measureDecrease, bind_eq_ok, okOr_eq_ok, checkedAdd_eq_some, require_eq_ok, pure_eq_ok,
    World.loadToken_eq_ok] at h
  obtain ⟨address, haddress, account, haccount, _, hle, _, ⟨-, rfl⟩, rfl⟩ := h
  cases haddress.symm.trans (revokeDelegation_account hdelegated hrevoke)
  have hbalance : w.ledger.balance s.delegationTokenAccount = account.amount := by
    rw [Ledger.balance, haccount]
  rw [hbalance]
  exact ⟨hle hdelegated, rfl⟩

theorem finalize_postcondition {steps : List Step} {a : FinalizeSession} (hrun : run Step.exec steps {} = .ok w)
    (hs : w.sessions a.session = some s) (hspending : s.isSpending) (hstable : isStablecoinMint s.authorizedToken)
    (hlive : s.isExpired ctx.clock.unixTimestamp = false) (h : finalizeSession ctx a w = .ok w') :
    let decrease := s.stablecoinBalanceBefore - w.ledger.balance s.delegationTokenAccount
    decrease ≤ s.authorizedAmount ∧
      ∃ vault policy tracker overlay tracker' overlay', w.vaults s.vault = some vault ∧
        w.policies s.vault = some policy ∧ w.trackers s.vault = some tracker ∧ w.overlays s.vault = some overlay ∧
        w'.trackers s.vault = some tracker' ∧ w'.overlays s.vault = some overlay' ∧
        SessionCharged ctx.clock s (decrease - s.fees) vault policy tracker tracker' overlay overlay' ∧
        w'.vaults = Function.update w.vaults s.vault (some (vault.finalized s (decrease - s.fees))) ∧
        w'.policies = w.policies := by
  obtain ⟨vault, session, policy, ledger, spend, charged, vault', ⟨hv, -⟩, ⟨hsession, hvault, -⟩, hp, hrevoke,
    hspend, hcharge, hstats, rfl⟩ := finalizeSession_ok h
  cases hs.symm.trans hsession
  obtain ⟨hdelegated, hmint⟩ := (sessions_wellOpened hrun _ s hs).stablecoin hspending hstable
  rw [hlive] at hspend hstats
  have hmeasure := measureSpend_ok hmint hspend
  rw [if_pos hstable] at hmeasure
  obtain ⟨hle, rfl⟩ := measureDecrease_authorized hdelegated hrevoke hmeasure
  cases finalizeStats_finalized hspending hstats
  obtain ⟨tracker, overlay, tracker', overlay', htracker, hoverlay, htracker', hoverlay', hpolicies, hcharged⟩ :=
    chargeSession_charged hcharge
  obtain ⟨-, hvaults⟩ := chargeSession_frame hcharge
  rw [hvault]
  refine ⟨hle, vault, policy, tracker, overlay, tracker', overlay', hv, hp, htracker, hoverlay, htracker', hoverlay',
    hcharged, ?_, hpolicies⟩
  exact congrArg (fun vaults => Function.update vaults a.vault _) hvaults

end

/-! ### Agent 3 pays 0.5 USDC in a session of 1 USDC -/

def tradeSteps : List Step := (paySetup ++ [paySession [payTrade 500000]]).flatMap Transaction.steps

def openedSteps : List Step := tradeSteps.dropLast

def closingCtx : Ctx := { clock := payClock, signers := [.key 3] }

theorem finalize_postcondition_trade : ∃ w w' s, run Step.exec openedSteps {} = .ok w ∧
    w.sessions payFinalize.session = some s ∧ finalizeSession closingCtx payFinalize w = .ok w' ∧
    (∃ tracker', w'.trackers s.vault = some tracker' ∧
      (tracker'.buckets (bucketIndex 1000)).usdAmount = 500000) ∧
    ∃ vault vault', w.vaults s.vault = some vault ∧ w'.vaults s.vault = some vault' ∧
      vault'.totalVolume = vault.totalVolume + 500000 := by
  obtain ⟨w, hrun, s, hs, w', h, hspending, hstable, hlive, htracker, hspend⟩ :
      ∃ w, run Step.exec openedSteps {} = .ok w ∧ ∃ s, w.sessions payFinalize.session = some s ∧
        ∃ w', finalizeSession closingCtx payFinalize w = .ok w' ∧ s.isSpending ∧ isStablecoinMint s.authorizedToken ∧
        s.isExpired closingCtx.clock.unixTimestamp = false ∧
        (∀ tracker, w.trackers s.vault = some tracker → tracker.current closingCtx.clock = 0) ∧
        s.stablecoinBalanceBefore - w.ledger.balance s.delegationTokenAccount - s.fees = 500000 :=
    ⟨_, rfl, _, rfl, _, rfl, rfl, rfl, rfl, fun tracker htracker => by cases htracker; rfl, rfl⟩
  obtain ⟨-, vault, policy, tracker, overlay, tracker', overlay', hv, -, ht, -, ht', -, hcharged, hvaults, -⟩ :=
    finalize_postcondition hrun hs hspending hstable hlive h
  rw [hspend] at hcharged hvaults
  refine ⟨w, w', s, hrun, hs, h, ⟨tracker', ht', ?_⟩, vault, vault.finalized s 500000, hv, ?_, rfl⟩
  · have hamount : chargedAmount 500000 s.fees = 500000 := rfl
    have hbucket := congrArg EpochBucket.usdAmount (hcharged.recorded (by omega)).bucket
    dsimp only at hbucket
    rw [htracker tracker ht, hamount] at hbucket
    exact hbucket
  · rw [hvaults, Function.update_self]

end Sigil
