import Sigil.Theorems.SessionCharge

/-!
# Which protocol a session counts for

`finalize_session` counts the measured spend for the protocol that the agent has declared. The scan of
`validate_and_authorize` compares the declaration with the programs that it recognizes.
-/

namespace Sigil

open Library

/-! ## Counters -/

namespace SpendTracker

variable {tracker tracker' : SpendTracker} {clock : Clock} {q : Pubkey} {x : Nat} {i : Fin maxAllowedProtocols}
  {counter : ProtocolSpendCounter}

theorem findCounter_some {p : ProtocolSpendCounter → Bool} (h : tracker.findCounter p = some i) :
    p (tracker.protocolCounters i) := by
  unfold findCounter at h
  simpa using List.find?_some h

/-- Only what is asked of each counter matters. -/
theorem findCounter_congr {p : ProtocolSpendCounter → Bool}
    (h : ∀ j, p (tracker'.protocolCounters j) = p (tracker.protocolCounters j)) :
    tracker'.findCounter p = tracker.findCounter p := by
  unfold findCounter
  congr 1
  exact funext h

/-- The counter of a protocol stays where it is found, and an unknown protocol is found where it is put. -/
theorem findCounter_setCounter (hprotocol : counter.protocol = q)
    (hi : tracker.findCounter (fun c => c.protocol = q) = some i ∨
      tracker.findCounter (fun c => c.protocol = q) = none) :
    (tracker.setCounter i counter).findCounter (fun c => c.protocol = q) = some i := by
  have hself : (tracker.setCounter i counter).protocolCounters i = counter := Function.update_self ..
  have hother : ∀ j, j ≠ i → (tracker.setCounter i counter).protocolCounters j = tracker.protocolCounters j :=
    fun j hj => Function.update_of_ne hj ..
  rcases hi with hfound | hnone
  · rw [← hfound]
    refine findCounter_congr fun j => ?_
    rcases eq_or_ne j i with rfl | hj
    · have hold : (tracker.protocolCounters j).protocol = q := of_decide_eq_true (findCounter_some hfound)
      simp [hself, hprotocol, hold]
    · rw [hother j hj]
  · -- the only counter with the protocol is the new one
    cases hfind : (tracker.setCounter i counter).findCounter (fun c => c.protocol = q) with
    | none =>
        have := List.find?_eq_none.mp hfind i (List.mem_finRange i)
        simp [hself, hprotocol] at this
    | some j =>
        by_contra hne
        have hj : j ≠ i := fun h => hne (congrArg some h)
        have hfound : ((tracker.setCounter i counter).protocolCounters j).protocol = q :=
          of_decide_eq_true (findCounter_some hfind)
        have := List.find?_eq_none.mp hnone j (List.mem_finRange j)
        rw [hother j hj] at hfound
        simp [hfound] at this

theorem getProtocolSpend_setCounter (hpos : 0 < clock.unixTimestamp) (hprotocol : counter.protocol = q)
    (hwindow : epochOf clock - counter.windowStart < numEpochs)
    (hi : tracker.findCounter (fun c => c.protocol = q) = some i ∨
      tracker.findCounter (fun c => c.protocol = q) = none) :
    (tracker.setCounter i counter).getProtocolSpend clock q = counter.windowSpend := by
  have hself : (tracker.setCounter i counter).protocolCounters i = counter := Function.update_self ..
  rw [getProtocolSpend, if_neg (by omega), findCounter_setCounter hprotocol hi]
  dsimp only
  rw [hself, if_pos hwindow]

/-- A record raises what is read for its protocol by the amount. -/
theorem recordProtocolSpend_spend (h : tracker.recordProtocolSpend clock q x = .ok tracker') :
    tracker'.getProtocolSpend clock q = tracker.getProtocolSpend clock q + x := by
  unfold recordProtocolSpend at h
  simp only [bind_eq_ok, require_eq_ok, exists_and_left, exists_const] at h
  obtain ⟨hpos, h⟩ := h
  have hwindow : epochOf clock - epochOf clock < numEpochs := by simp [numEpochs]
  cases hfind : tracker.findCounter (fun c => c.protocol = q) with
  | some i =>
      have hprotocol : (tracker.protocolCounters i).protocol = q := of_decide_eq_true (findCounter_some hfind)
      rw [hfind] at h
      dsimp only at h
      have hbefore : tracker.getProtocolSpend clock q =
          if epochOf clock - (tracker.protocolCounters i).windowStart < numEpochs then
            (tracker.protocolCounters i).windowSpend else 0 := by
        rw [getProtocolSpend, if_neg (by omega), hfind]
      split at h
      · rename_i hexpired
        obtain rfl := pure_eq_ok.mp h
        rw [getProtocolSpend_setCounter hpos (by exact hprotocol) (by exact hwindow) (.inl hfind), hbefore,
          if_neg (by omega), Nat.zero_add]
      · rename_i hrunning
        simp only [bind_eq_ok, okOr_eq_ok, checkedAdd_eq_some, pure_eq_ok] at h
        obtain ⟨_, ⟨-, rfl⟩, rfl⟩ := h
        rw [getProtocolSpend_setCounter hpos (by exact hprotocol) (by dsimp only; omega) (.inl hfind),
          hbefore, if_pos (by omega)]
  | none =>
      rw [hfind] at h
      simp only [bind_eq_ok, pure_eq_ok] at h
      obtain ⟨i, -, rfl⟩ := h
      have hbefore : tracker.getProtocolSpend clock q = 0 := by
        rw [getProtocolSpend, if_neg (by omega), hfind]
      rw [getProtocolSpend_setCounter hpos rfl (by exact hwindow) (.inr hfind), hbefore, Nat.zero_add]

theorem getProtocolSpend_congr (h : tracker'.protocolCounters = tracker.protocolCounters) :
    tracker'.getProtocolSpend clock q = tracker.getProtocolSpend clock q := by
  unfold getProtocolSpend findCounter
  rw [h]

end SpendTracker

/-! ## What `finalize_session` counts -/

section
variable {w w' : World} {clock : Clock} {v : Pubkey} {vault : AgentVault} {policy : PolicyConfig}
  {session : SessionAuthority} {spend : Nat}

theorem checkProtocolCap_ok {tracker : SpendTracker} {protocol : Pubkey} {cap : Nat}
    (h : checkProtocolCap policy tracker clock protocol spend = .ok ())
    (hcap : policy.getProtocolCap protocol = some cap) (hpos : 0 < cap) :
    tracker.getProtocolSpend clock protocol + spend ≤ cap := by
  cases cap with
  | zero => exact absurd hpos (lt_irrefl _)
  | succ n =>
      simp only [checkProtocolCap, hcap, bind_eq_ok, okOr_eq_ok, checkedAdd_eq_some, require_eq_ok] at h
      obtain ⟨_, ⟨-, rfl⟩, hle⟩ := h
      exact hle

theorem recordSpend_protocolCounters {tracker tracker' : SpendTracker}
    (h : tracker.recordSpend clock spend = .ok tracker') : tracker'.protocolCounters = tracker.protocolCounters := by
  obtain ⟨-, _, -, -, rfl⟩ := SpendTracker.recordSpend_ok h
  rfl

theorem chargeSession_protocol (h : chargeSession w clock v vault policy session spend = .ok w')
    (hcaps : policy.hasProtocolCaps) :
    ∃ before after, w.trackers v = some before ∧ w'.trackers v = some after ∧
      (0 < spend →
        after.getProtocolSpend clock session.authorizedProtocol =
          before.getProtocolSpend clock session.authorizedProtocol + spend ∧
        ∀ cap, policy.getProtocolCap session.authorizedProtocol = some cap → 0 < cap →
          before.getProtocolSpend clock session.authorizedProtocol + spend ≤ cap) ∧
      (spend = 0 → after.protocolCounters = before.protocolCounters) := by
  simp only [chargeSession, bind_eq_ok, World.loadTracker_eq_ok] at h
  obtain ⟨before, hbefore, _, -, _, -, h⟩ := h
  refine ⟨before, ?_⟩
  split at h
  · rename_i hpos
    simp only [bind_eq_ok, pure_eq_ok] at h
    obtain ⟨charged, hcharge, rfl⟩ := h
    simp only [chargeSpend, hcaps, if_true, bind_eq_ok, pure_eq_ok] at hcharge
    obtain ⟨_, -, _, -, _, -, _, hcap, recorded, hrecord, after, hcount, rfl⟩ := hcharge
    have hsame : recorded.getProtocolSpend clock session.authorizedProtocol =
        before.getProtocolSpend clock session.authorizedProtocol :=
      SpendTracker.getProtocolSpend_congr (recordSpend_protocolCounters hrecord)
    refine ⟨after, hbefore, Function.update_self .., fun _ => ⟨?_, fun cap => checkProtocolCap_ok hcap⟩, by omega⟩
    rw [SpendTracker.recordProtocolSpend_spend hcount, hsame]
  · rename_i hzero
    split at h
    · simp only [bind_eq_ok, pure_eq_ok] at h
      obtain ⟨after, hcharge, rfl⟩ := h
      simp only [chargeFees, bind_eq_ok] at hcharge
      obtain ⟨_, -, hrecord⟩ := hcharge
      exact ⟨after, hbefore, Function.update_self .., by omega, fun _ => recordSpend_protocolCounters hrecord⟩
    · obtain rfl := pure_eq_ok.mp h
      exact ⟨before, hbefore, hbefore, by omega, fun _ => rfl⟩

end

namespace SessionTrace

variable {tx : Transaction} {w : World} {p : Pubkey}

/-- Every instruction between the two is infrastructure or one of the program, and the program is called. -/
structure Uses (t : SessionTrace tx w) (p : Pubkey) : Prop where
  only : ∀ ix ∈ t.between, isInfrastructure ix.raw.programId ∨ ix.raw.programId = p
  called : ∃ ix ∈ t.between, ix.raw.programId = p

/-- The policy when `finalize_session` starts. -/
def lastPolicy (t : SessionTrace tx w) : Option PolicyConfig := t.used.policies t.validate.vault

/-- `x` is recorded, counted for the program and within its cap. -/
structure Attributed (t : SessionTrace tx w) (policy : PolicyConfig) (p : Pubkey) (x : Nat) : Prop where
  recorded : t.Records x
  counted : ∃ before after, t.used.trackers t.validate.vault = some before ∧
    t.closed.trackers t.validate.vault = some after ∧
    after.getProtocolSpend tx.clock p = before.getProtocolSpend tx.clock p + x ∧
    ∀ cap, policy.getProtocolCap p = some cap → 0 < cap → before.getProtocolSpend tx.clock p + x ≤ cap

/-- `x` is recorded, and no protocol is counted. -/
structure Unattributed (t : SessionTrace tx w) (x : Nat) : Prop where
  recorded : t.Records x
  counted : ∃ before after, t.used.trackers t.validate.vault = some before ∧
    t.closed.trackers t.validate.vault = some after ∧ after.protocolCounters = before.protocolCounters

variable (t : SessionTrace tx w)

/-- A recognized program has to be declared. -/
theorem declared_of_recognized (hamount : 0 < t.validate.amount.toNat) (huses : t.Uses p)
    (hrecognized : isRecognizedDefi p) : t.validate.targetProtocol = p := by
  obtain ⟨_, policy, _, constraints, _, _, _, -, -, -, -, -, -, -, hscans, -⟩ := validateAndAuthorize_ok t.validate_ok
  simp only [checkScans, hamount, if_true, bind_eq_ok] at hscans
  obtain ⟨_, -, _, hscan, -⟩ := hscans
  rw [show t.openingStep.ctx.instructions.drop (t.openingStep.ctx.index + 1) = _ from
    (Transaction.step_sysvar t.split).2, List.map_append] at hscan
  obtain ⟨ix, hix, rfl⟩ := huses.called
  refine (scanSpending_protocol hscan ?_ ix.raw (List.mem_map_of_mem hix) hrecognized).symm
  intro raw hraw
  obtain ⟨y, hy, rfl⟩ := List.mem_map.mp hraw
  exact t.between_raw y hy

/-- A program other than this one cannot change the policy. -/
theorem lastPolicy_eq (huses : t.Uses p) (hother : p ≠ crateId) : t.lastPolicy = w.policies t.validate.vault := by
  obtain ⟨_, _, _, _, _, _, _, -, -, -, -, -, -, -, -, -, hopened⟩ := validateAndAuthorize_ok t.validate_ok
  have hused : t.used.policies = t.opened.policies := by
    refine run_invariant (P := fun w₁ => w₁.policies = t.opened.policies) rfl ?_ t.run_between
    intro st hst w₁ w₂ hw₁ hexec
    obtain ⟨l₁, ix, l₂, heq, rfl⟩ := Transaction.mem_stepsFrom hst
    rcases Step.exec_cases hexec with ⟨i, -, hprogram, -⟩ | ⟨_, -, -, _, -, rfl, -⟩
    · have hprogram : ix.raw.programId = crateId := hprogram
      rcases huses.only ix (by simp [heq]) with hinfra | hp
      · rw [hprogram, crateId_not_infrastructure] at hinfra
        cases hinfra
      · exact absurd (hp.symm.trans hprogram) hother
    · exact hw₁
  rw [lastPolicy, hused, hopened, t.start_eq]
  rfl

theorem attributed (hw : Quiescent w) (hamount : 0 < t.validate.amount.toNat)
    (hstable : isStablecoinMint t.validate.tokenMint) {policy : PolicyConfig} (hpolicy : t.lastPolicy = some policy)
    (hcaps : policy.hasProtocolCaps) :
    (t.fees < t.decrease → t.Attributed policy t.validate.targetProtocol (t.decrease - t.fees)) ∧
    (t.decrease ≤ t.fees → t.Unattributed t.fees) := by
  obtain ⟨_, _, plan, _, -, -, -, -, hused⟩ := t.exists_session hw
  obtain ⟨hpos, hrecords⟩ := t.stablecoin_charge hw hamount hstable
  obtain ⟨_, session, policy', l, spend, charged, _, -, ⟨hs, hvault, -⟩, hp, hrevoke, hspend, hcharge, -, hclosed⟩ :=
    finalizeSession_ok t.finalize_ok
  have hx := (finalizeSession_close hused t.finalize_ok).1
  rw [hx, hused.session] at hs
  cases hs
  have hvault : t.validate.vault = t.finalize.vault := hvault
  rw [show t.closingStep.ctx.clock.unixTimestamp = t.openingStep.ctx.clock.unixTimestamp from rfl,
    newSession_isExpired] at hspend
  obtain ⟨rfl, -⟩ := t.stablecoin_spend hw hamount hstable hused hrevoke hspend
  rw [lastPolicy, hvault] at hpolicy
  cases hp.symm.trans hpolicy
  obtain ⟨before, after, hbefore, hafter, hcounted, hkept⟩ := chargeSession_protocol hcharge hcaps
  have hafter : t.closed.trackers t.validate.vault = some after := by
    rw [hclosed, hvault]
    exact hafter
  rw [← hvault] at hbefore
  refine ⟨fun hlt => ⟨?_, before, after, hbefore, hafter, hcounted (by omega)⟩,
    fun hle => ⟨?_, before, after, hbefore, hafter, hkept (by omega)⟩⟩
  · rwa [chargedAmount, if_pos (by omega)] at hrecords
  · rwa [chargedAmount, if_neg (by omega)] at hrecords

end SessionTrace

/-- While the policy has caps, the spend beyond the fees counts for the declared protocol, which is the program that
was called where that is a recognized one. Fees alone count for no protocol. -/
theorem spend_attributed {txs : List Transaction} {tx : Transaction} (t : SessionTrace tx (chain txs {})) {p : Pubkey}
    (huses : t.Uses p) (hamount : 0 < t.validate.amount.toNat) (hstable : isStablecoinMint t.validate.tokenMint) :
    (isRecognizedDefi p → t.validate.targetProtocol = p) ∧
    (p ≠ crateId → t.lastPolicy = (chain txs {}).policies t.validate.vault) ∧
    ∀ policy, t.lastPolicy = some policy → policy.hasProtocolCaps → t.validate.targetProtocol = p →
      (t.fees < t.decrease → t.Attributed policy p (t.decrease - t.fees)) ∧
      (t.decrease ≤ t.fees → t.Unattributed t.fees) := by
  refine ⟨t.declared_of_recognized hamount huses, t.lastPolicy_eq huses, ?_⟩
  rintro policy hpolicy hcaps rfl
  exact t.attributed (chain_quiescent genesis_quiescent txs) hamount hstable hpolicy hcaps

/-! ### Programs 9 and 10 are allowed, program 9 up to 0.1 USDC a day -/

def capVault : InitializeVault :=
  { payVault with protocolMode := 1, protocols := [.key 9, .key 10], protocolCaps := [100000, 5000000] }

def capSetup : List Transaction :=
  [{ clock := payClock, signers := [usdcMint, .key 4], instructions := [payLaunch],
     signers_isKey := launchers_isKey },
   .ofKey payClock 1
    [(Instruction.initializeVault capVault).toTopLevel, (Instruction.registerAgent payAgent).toTopLevel]]

/-- Program 9 takes an amount. -/
def capTrade (amount : Nat) : TopLevel :=
  { raw := { programId := .key 9, accounts := [], data := [] }
    call := .foreign [.transfer (.ata payVault.vault usdcMint) (.ata (.key 5) usdcMint) (.key 3) amount] }

def capSession (declared : Pubkey) (amount : Nat) : Transaction :=
  .ofKey payClock 3 ((Instruction.validateAndAuthorize { payValidate with targetProtocol := declared }).toTopLevel ::
    ([capTrade amount] ++ [(Instruction.finalizeSession payFinalize).toTopLevel]))

abbrev CapTrace (declared : Pubkey) (amount : Nat) : Type :=
  SessionTrace (capSession declared amount) (chain capSetup {})

/-- The session is accepted, and records `recorded` under the policy of the vault, with nothing counted for program 9
before it and `counted` after it. -/
structure CapAccepted {declared : Pubkey} {amount : Nat} (t : CapTrace declared amount) (recorded counted : Nat) :
    Prop where
  validate : t.validate = { payValidate with targetProtocol := declared }
  between : t.between = [capTrade amount]
  lastPolicy : t.lastPolicy = some capVault.policy
  records : t.Records recorded
  before : (t.used.trackers payVault.vault).map (fun s => s.getProtocolSpend payClock (.key 9)) = some 0
  after : (t.closed.trackers payVault.vault).map (fun s => s.getProtocolSpend payClock (.key 9)) = some counted

section
variable {declared : Pubkey} {amount recorded counted : Nat} {t : CapTrace declared amount}

theorem CapAccepted.uses (h : CapAccepted t recorded counted) : t.Uses (.key 9) := by
  refine ⟨fun ix hix => ?_, capTrade amount, ?_, rfl⟩
  · rw [h.between] at hix
    rw [List.mem_singleton.mp hix]
    exact .inr rfl
  · rw [h.between]
    exact List.mem_singleton_self _

/-- What is recorded is not counted for program 9. -/
theorem CapAccepted.not_attributed (h : CapAccepted t (recorded + 1) 0) {policy : PolicyConfig} {x : Nat} :
    ¬ t.Attributed policy (.key 9) x := by
  rintro ⟨hrecords, before, after, hbefore, hafter, hcounted, -⟩
  cases hrecords.unique h.records
  have hvault : t.validate.vault = payVault.vault := by rw [h.validate]; rfl
  have h₀ := h.before
  have h₁ := h.after
  rw [← hvault, hbefore] at h₀
  rw [← hvault, hafter] at h₁
  have h₀ : before.getProtocolSpend payClock (.key 9) = 0 := Option.some.inj h₀
  have h₁ : after.getProtocolSpend payClock (.key 9) = 0 := Option.some.inj h₁
  have hcounted : after.getProtocolSpend payClock (.key 9) =
      before.getProtocolSpend payClock (.key 9) + (recorded + 1) := hcounted
  omega

end

/-- Declared as program 10, program 9 spends 0.5 USDC past its cap. Declared as what it is, it spends nothing, and the
fees count for no protocol. -/
theorem spend_misattributed :
    (∃ t : CapTrace (.key 10) 500000, t.Uses (.key 9) ∧ t.lastPolicy = some capVault.policy ∧
      capVault.policy.getProtocolCap (.key 9) = some 100000 ∧ t.Records 500000 ∧
      ∀ policy x, ¬ t.Attributed policy (.key 9) x) ∧
    (∃ t : CapTrace (.key 9) 0, t.Uses (.key 9) ∧ t.lastPolicy = some capVault.policy ∧ t.Records 200 ∧
      ∀ policy x, ¬ t.Attributed policy (.key 9) x) := by
  constructor
  · obtain ⟨t, h⟩ : ∃ t : CapTrace (.key 10) 500000, CapAccepted t 500000 0 :=
      ⟨.whole rfl (by decide) rfl rfl rfl, rfl, rfl, rfl, by unfold SessionTrace.Records; rfl, rfl, rfl⟩
    exact ⟨t, h.uses, h.lastPolicy, rfl, h.records, fun _ _ => h.not_attributed⟩
  · obtain ⟨t, h⟩ : ∃ t : CapTrace (.key 9) 0, CapAccepted t 200 0 :=
      ⟨.whole rfl (by decide) rfl rfl rfl, rfl, rfl, rfl, by unfold SessionTrace.Records; rfl, rfl, rfl⟩
    exact ⟨t, h.uses, h.lastPolicy, h.records, fun _ _ => h.not_attributed⟩

/-- Declared as what it is, program 9 spends up to its cap. -/
theorem spend_attributed_trade :
    ∃ t : CapTrace (.key 9) 100000, t.Uses (.key 9) ∧ t.Attributed capVault.policy (.key 9) 100000 := by
  obtain ⟨t, h, hfees, hdecrease⟩ : ∃ t : CapTrace (.key 9) 100000, CapAccepted t 100000 100000 ∧ t.fees = 200 ∧
      t.decrease = 100200 :=
    ⟨.whole rfl (by decide) rfl rfl rfl, ⟨rfl, rfl, rfl, by unfold SessionTrace.Records; rfl, rfl, rfl⟩, rfl, rfl⟩
  obtain ⟨-, -, hall⟩ := spend_attributed t h.uses (by rw [h.validate]; decide) (by rw [h.validate]; decide)
  obtain ⟨hspend, -⟩ := hall capVault.policy h.lastPolicy rfl (by rw [h.validate])
  have hattributed := hspend (by omega)
  rw [hfees, hdecrease] at hattributed
  exact ⟨t, h.uses, hattributed⟩

end Sigil
