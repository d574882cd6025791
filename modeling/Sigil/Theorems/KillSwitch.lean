import Sigil.Lemmas.EscrowInv
import Sigil.Lemmas.Signing
import Sigil.Lemmas.Staff
import Sigil.Theorems.Session

/-!
# The kill switch

A vault that is frozen, or that no agent may spend for, keeps its tokens and its records until its owner signs. The
only session it can still open delegates nothing and measures nothing.
-/

namespace Sigil

open Library

/-- The vault is frozen, or none of its agents is an operator that may act. -/
def Roster.Halted (r : Roster) : Prop :=
  r.status = .frozen ∨ ∀ e ∈ r.agents, e.paused ∨ e.capability < capabilityOperator

/-- A session that delegates nothing and has nothing to charge. -/
structure SessionAuthority.Idle (s : SessionAuthority) : Prop where
  delegated : s.delegated = false
  outputMint : s.outputMint = .default
  fees : s.protocolFee + s.developerFee = 0

/-- The vault is halted, its owner does not sign, and its sessions are idle. -/
structure Stopped (v : Pubkey) (r : Roster) (signers : List Pubkey) (w : World) : Prop where
  isVault : v.isVault
  halted : r.Halted
  unsigned : r.owner ∉ signers
  roster : (w.staff v).roster = some r
  sessions : ∀ x s, w.sessions x = some s → s.vault = v → s.Idle

/-- Whatever a vault holds without a delegate stays, and so do its tracker, its agents and their overlay. -/
structure Spared (v : Pubkey) (w w' : World) : Prop where
  holds : ∀ x n, 0 < n → w.ledger.Holds v x n → w'.ledger.Holds v x n
  tracker : w'.trackers v = w.trackers v
  staff : w'.staff v = w.staff v

theorem Roster.Halted.no_operator {vault : AgentVault} {agent : Pubkey} (h : vault.roster.Halted)
    (hactive : vault.isActive) (hunpaused : vault.isAgentPaused agent = false) :
    vault.hasCapability agent true = false := by
  rcases h with hfrozen | hagents
  · have hstatus : vault.status = .frozen := hfrozen
    simp [AgentVault.isActive, hstatus] at hactive
  · cases hget : vault.getAgent agent with
    | none => simp [AgentVault.hasCapability, hget]
    | some e =>
        have hmem : e ∈ vault.agents := List.mem_of_find?_eq_some hget
        simp only [AgentVault.isAgentPaused, hget] at hunpaused
        rcases hagents e hmem with hpaused | hbelow
        · rw [hunpaused] at hpaused
          cases hpaused
        · simpa [AgentVault.hasCapability, hget] using hbelow

namespace Stopped

section
variable {v : Pubkey} {r : Roster} {w w' : World} {ctx : Ctx} {i : Instruction} {st : Step} {vault : AgentVault}

theorem vault_roster (h : Stopped v r ctx.signers w) (hv : w.vaults v = some vault) : vault.roster = r :=
  Option.some.inj ((World.staff_roster hv).symm.trans h.roster)

theorem not_owned {owner : Pubkey} (h : Stopped v r ctx.signers w) : ¬ Owned w ctx owner v vault := by
  intro howned
  obtain rfl := h.vault_roster howned.found
  have hsigned : vault.owner ∈ ctx.signers := howned.owner ▸ howned.signer
  exact h.unsigned hsigned

theorem no_operator {agent : Pubkey} (h : Stopped v r ctx.signers w) (hv : w.vaults v = some vault)
    (hactive : vault.isActive) (hunpaused : vault.isAgentPaused agent = false) :
    ¬ vault.hasCapability agent true := by
  have hhalted : vault.roster.Halted := (h.vault_roster hv).symm ▸ h.halted
  simp [hhalted.no_operator hactive hunpaused]

/-! ## Who cannot spend -/

theorem agentTransfer_ne {a : AgentTransfer} (h : Stopped v r ctx.signers w) (hi : agentTransfer ctx a w = .ok w') :
    v ≠ a.vault := by
  rintro rfl
  obtain ⟨t⟩ := agentTransfer_trace hi
  have hchecked := checkTransfer_ok t.checked
  exact h.no_operator t.vault_found hchecked.active hchecked.unpaused hchecked.capability

theorem createEscrow_ne {a : CreateEscrow} (h : Stopped v r ctx.signers w) (hi : createEscrow ctx a w = .ok w') :
    v ≠ a.sourceVault := by
  rintro rfl
  obtain ⟨t⟩ := createEscrow_trace hi
  have hchecked := t.checked
  simp only [checkEscrow, bind_eq_ok, require_eq_ok, exists_and_left, exists_const] at hchecked
  exact h.no_operator t.vault_found t.active hchecked.1 hchecked.2.1

/-- A session of the vault can be requested for nothing only. -/
theorem validateAndAuthorize_amount {a : ValidateAndAuthorize} (h : Stopped v r ctx.signers w)
    (hi : validateAndAuthorize ctx a w = .ok w') (hv : a.vault = v) : a.amount.toNat = 0 := by
  subst hv
  obtain ⟨vault, _, _, hfound, -, hrequested⟩ := validateAndAuthorize_requested hi
  by_contra hamount
  have hcapability := hrequested.capability
  rw [decide_eq_true (Nat.pos_of_ne_zero hamount)] at hcapability
  exact h.no_operator hfound hrequested.active hrequested.unpaused hcapability

theorem newSession_idle {a : ValidateAndAuthorize} {policy : PolicyConfig} {tokenAccount : TokenAccount}
    {plan : SpendPlan} {snapshots : Fin 4 → List UInt8} (hamount : a.amount.toNat = 0)
    (hplan : planSpend w a policy tokenAccount = .ok plan) : (newSession ctx a policy plan snapshots).Idle := by
  rw [planSpend, if_pos hamount] at hplan
  obtain rfl := pure_eq_ok.mp hplan
  exact ⟨by simp [newSession, hamount], rfl, rfl⟩

/-- The session that is closed is idle, so nothing is measured. -/
theorem finalizeSession_idle {a : FinalizeSession} {session : SessionAuthority}
    (h : Stopped v r ctx.signers w) (hv : a.vault = v) (hs : loadSession w a = .ok session) :
    session.Idle ∧ ∀ isExpired, measureSpend w a session isExpired = .ok 0 := by
  obtain ⟨hfound, hvault, -⟩ := loadSession_eq_ok.mp hs
  have hidle := h.sessions _ _ hfound (hvault.trans hv)
  exact ⟨hidle, fun isExpired => if_pos (.inr hidle.outputMint)⟩

/-! ## What stays -/

/-- When the program signs for the vault, no token moves. -/
theorem ledger_eq (h : Stopped v r ctx.signers w) (hi : i.exec ctx w = .ok w') (hsigns : i.signsFor = some v) :
    w'.ledger = w.ledger := by
  cases i with
  | withdrawFunds a =>
      cases hsigns
      obtain ⟨_, _, _, howned, -⟩ := withdrawFunds_ok hi
      exact absurd howned h.not_owned
  | freezeVault a =>
      cases hsigns
      obtain ⟨_, _, howned, -⟩ := freezeVault_ok hi
      exact absurd howned h.not_owned
  | validateAndAuthorize a =>
      have hamount := h.validateAndAuthorize_amount hi (Option.some.inj hsigns)
      obtain ⟨_, _, _, _, _, _, _, -, -, -, -, -, -, -, -, hledger, rfl⟩ := validateAndAuthorize_ok hi
      rw [collectFeesAndDelegate, if_neg (by omega)] at hledger
      exact (pure_eq_ok.mp hledger).symm
  | finalizeSession a =>
      obtain ⟨_, session, _, _, _, _, _, -, hs, -, hrevoke, -, -, -, rfl⟩ := finalizeSession_ok hi
      have hidle := (h.finalizeSession_idle (Option.some.inj hsigns) (loadSession_eq_ok.mpr hs)).1
      rw [revokeDelegation, hidle.delegated, if_neg Bool.false_ne_true] at hrevoke
      exact (pure_eq_ok.mp hrevoke).symm
  | agentTransfer a => exact absurd (Option.some.inj hsigns).symm (h.agentTransfer_ne hi)
  | createEscrow a => exact absurd (Option.some.inj hsigns).symm (h.createEscrow_ne hi)
  | settleEscrow a =>
      obtain ⟨_, _, _, -, ⟨-, -, hx⟩, -⟩ := settleEscrow_ok hi
      have hvault := h.isVault
      rw [← Option.some.inj hsigns, hx] at hvault
      cases hvault
  | refundEscrow a =>
      obtain ⟨_, _, _, -, ⟨-, -, hx⟩, -⟩ := refundEscrow_ok hi
      have hvault := h.isVault
      rw [← Option.some.inj hsigns, hx] at hvault
      cases hvault
  | _ => cases hsigns

theorem holds (h : Stopped v r st.ctx.signers w) (hexec : st.exec w = .ok w') {x : Pubkey} {n : Nat} (hn : 0 < n)
    (hl : w.ledger.Holds v x n) : w'.ledger.Holds v x n := by
  by_cases hsigns : st.signsFor = some v
  · rcases Step.exec_cases hexec with ⟨i, hcall, -, -, hi⟩ | ⟨_, hcall, -⟩
    · simp only [Step.signsFor, hcall] at hsigns
      rw [h.ledger_eq hi hsigns]
      exact hl
    · simp [Step.signsFor, hcall] at hsigns
  · exact (Step.signed hexec).holds h.isVault hsigns hn hl

theorem charge_eq_none (h : Stopped v r ctx.signers w) (hi : i.exec ctx w = .ok w') : i.charge ctx w v = none := by
  cases i with
  | agentTransfer a => exact if_neg (h.agentTransfer_ne hi).symm
  | createEscrow a => exact if_neg (h.createEscrow_ne hi).symm
  | finalizeSession a =>
      rcases eq_or_ne a.vault v with hv | hne
      · obtain ⟨_, session, _, _, _, _, _, -, hs, -⟩ := finalizeSession_ok hi
        have hload := loadSession_eq_ok.mpr hs
        have hspend : a.spend ctx w = .ok (session.agent, 0) :=
          FinalizeSession.spend_eq hs ((h.finalizeSession_idle hv hload).2 _)
        simp [Instruction.charge, hspend, Except.toOption]
      · exact if_neg hne
  | _ => rfl

theorem staff_eq (h : Stopped v r st.ctx.signers w) (hexec : st.exec w = .ok w') : w'.staff v = w.staff v := by
  have hcharge : st.charge w v = none := by
    rcases Step.exec_cases hexec with ⟨i, hcall, -, -, hi⟩ | ⟨_, hcall, -⟩
    · simp only [Step.charge, hcall]
      exact h.charge_eq_none hi
    · simp only [Step.charge, hcall]
  have hchange := Step.staffChange hexec v
  rw [hcharge] at hchange
  exact hchange.unsigned h.roster h.unsigned

theorem tracker_eq (h : Stopped v r st.ctx.signers w) (hexec : st.exec w = .ok w') : w'.trackers v = w.trackers v := by
  rcases Step.core_cases hexec with ⟨hframe, -⟩ | ⟨i, -, hcore, hi⟩
  · rw [hframe.trackers]
  · cases i with
    | initializeVault a =>
        obtain ⟨⟨hnone, -⟩, -, rfl⟩ := initializeVault_ok hi
        have hne : v ≠ a.vault := by
          rintro rfl
          have hroster := h.roster
          simp [World.staff, hnone] at hroster
        exact Function.update_of_ne hne ..
    | closeVault a =>
        obtain ⟨_, _, hclosable, rfl⟩ := closeVault_ok hi
        have hne : v ≠ a.vault := by
          rintro rfl
          exact h.not_owned hclosable.owned
        exact Function.update_of_ne hne ..
    | validateAndAuthorize a =>
        obtain ⟨_, _, _, _, _, _, _, -, -, -, -, -, -, -, -, -, rfl⟩ := validateAndAuthorize_ok hi
        rfl
    | finalizeSession a =>
        obtain ⟨_, session, _, _, spend, _, _, -, hs, -, -, hspend, hcharge, -, rfl⟩ := finalizeSession_ok hi
        rcases chargeSession_ok hcharge with ⟨-, rfl⟩ | ⟨hpos, _, _, _, -, -, rfl⟩
        · rfl
        · have hne : v ≠ a.vault := by
            intro hv
            obtain ⟨hidle, hmeasured⟩ := h.finalizeSession_idle hv.symm (loadSession_eq_ok.mpr hs)
            cases hspend.symm.trans (hmeasured _)
            simp [chargedAmount, hidle.fees] at hpos
          exact Function.update_of_ne hne ..
    | agentTransfer a =>
        have hne := h.agentTransfer_ne hi
        obtain ⟨t⟩ := agentTransfer_trace hi
        rw [t.result]
        exact Function.update_of_ne hne ..
    | createEscrow a =>
        have hne := h.createEscrow_ne hi
        obtain ⟨t⟩ := createEscrow_trace hi
        rw [t.result]
        exact Function.update_of_ne hne ..
    | settleEscrow a =>
        obtain ⟨_, _, _, -, -, -, -, -, -, -, rfl⟩ := settleEscrow_ok hi
        rfl
    | refundEscrow a =>
        obtain ⟨_, _, _, -, -, -, -, -, rfl⟩ := refundEscrow_ok hi
        rfl
    | closeSettledEscrow a =>
        obtain ⟨_, _, -, -, rfl⟩ := closeSettledEscrow_ok hi
        rfl
    | _ => cases hcore

theorem sessions_idle (h : Stopped v r st.ctx.signers w) (hexec : st.exec w = .ok w') :
    ∀ x s, w'.sessions x = some s → s.vault = v → s.Idle := by
  cases Step.sessionChange hexec with
  | kept hframe =>
      rw [hframe.sessions]
      exact h.sessions
  | opened a _ hi =>
      intro x s hx hv
      obtain ⟨_, _, _, _, _, _, _, -, -, -, -, -, -, hplan, -, -, rfl⟩ := validateAndAuthorize_ok hi
      rcases update_cases hx with ⟨-, heq⟩ | ⟨-, hx⟩
      · obtain rfl := Option.some.inj heq
        exact newSession_idle (h.validateAndAuthorize_amount hi hv) hplan
      · exact h.sessions x s hx hv
  | closed a _ hi =>
      intro x s hx hv
      obtain ⟨_, _, _, _, _, _, _, -, -, -, -, -, hcharge, -, rfl⟩ := finalizeSession_ok hi
      refine h.sessions x s ?_ hv
      rw [← (chargeSession_frame hcharge).1]
      exact update_none_subset x s hx

theorem step (h : Stopped v r st.ctx.signers w) (hexec : st.exec w = .ok w') :
    Stopped v r st.ctx.signers w' ∧ Spared v w w' :=
  ⟨{ h with roster := (h.staff_eq hexec).symm ▸ h.roster, sessions := h.sessions_idle hexec },
   ⟨fun _ _ hn hl => h.holds hexec hn hl, h.tracker_eq hexec, h.staff_eq hexec⟩⟩

end

end Stopped

section
variable {v : Pubkey} {r : Roster} {w w' : World} {tx : Transaction}

theorem Spared.trans {w'' : World} (h : Spared v w w') (h' : Spared v w' w'') : Spared v w w'' :=
  ⟨fun x n hn hl => h'.holds x n hn (h.holds x n hn hl), h'.tracker.trans h.tracker, h'.staff.trans h.staff⟩

theorem Stopped.run (h : Stopped v r tx.signers w) (hrun : tx.run w = .ok w') : Spared v w w' := by
  have hboth : Stopped v r tx.signers w' ∧ Spared v w w' := by
    refine run_invariant (P := fun w₁ => Stopped v r tx.signers w₁ ∧ Spared v w w₁)
      ⟨h, fun _ _ _ hl => hl, rfl, rfl⟩ ?_ hrun
    rintro st hst w₁ w₂ ⟨hstopped, hspared⟩ hexec
    obtain ⟨l₁, ix, _, -, rfl⟩ := Transaction.mem_stepsFrom hst
    have hsigned : Stopped v r (tx.step ix (0 + l₁.length)).ctx.signers w₁ := hstopped
    obtain ⟨hstopped', hspared'⟩ := hsigned.step hexec
    exact ⟨hstopped', hspared.trans hspared'⟩
  exact hboth.2

theorem chain_address (txs : List Transaction) {vault : AgentVault} (hv : (chain txs {}).vaults v = some vault) :
    v = vault.address := by
  exact chain_invariant (P := fun w => ∀ v vault, w.vaults v = some vault → v = vault.address)
    (fun _ _ _ hw hrun => run_vaults_address hw hrun) (by simp) txs v vault hv

/-- Between transactions no session is open and nothing of a vault is delegated. So without the owner's signature a
halted vault loses no token and no record changes. -/
theorem halted_vault_spared (txs : List Transaction) {vault : AgentVault}
    (hv : (chain txs {}).vaults v = some vault) (hhalted : vault.roster.Halted) (hunsigned : vault.owner ∉ tx.signers) :
    (∀ x account, (chain txs {}).ledger.accounts x = some account → account.owner = v →
      account.amount ≤ (tx.commit (chain txs {})).ledger.balance x) ∧
    (tx.commit (chain txs {})).trackers v = (chain txs {}).trackers v ∧
    (tx.commit (chain txs {})).overlays v = (chain txs {}).overlays v := by
  have hquiescent := chain_quiescent genesis_quiescent txs
  have hvault := isVault_of_address (chain_address txs hv)
  generalize chain txs {} = w at hv hquiescent
  have hspared : Spared v w (tx.commit w) := by
    unfold Transaction.commit
    split
    · rename_i w' hrun
      refine Stopped.run (r := vault.roster) ⟨hvault, hhalted, hunsigned, World.staff_roster hv, ?_⟩ hrun
      intro x s hx
      cases (hquiescent.sessions x).symm.trans hx
    · exact ⟨fun _ _ _ hl => hl, rfl, rfl⟩
  refine ⟨?_, hspared.tracker, congrArg Staff.overlay hspared.staff⟩
  intro x account hx howner
  rcases Nat.eq_zero_or_pos account.amount with hzero | hpos
  · omega
  · have hdelegate : account.delegate = none := by
      by_contra hsome
      exact hquiescent.delegations x account hx (howner ▸ hvault) hsome
    obtain ⟨account', hx', -, -, hle⟩ := hspared.holds x _ hpos ⟨account, hx, howner, hdelegate, le_rfl⟩
    simp only [Ledger.balance, hx']
    exact hle

end

/-! ### Agent 3 is an observer and opens a session for nothing -/

def observedSetup : List Transaction :=
  [{ clock := payClock, signers := [usdcMint, .key 4], instructions := [payLaunch],
     signers_isKey := launchers_isKey },
   .ofKey payClock 1 [(Instruction.initializeVault payVault).toTopLevel,
     (Instruction.registerAgent { payAgent with capability := 1 }).toTopLevel]]

def observedSession : Transaction :=
  .ofKey payClock 3 [(Instruction.validateAndAuthorize { payValidate with amount := 0 }).toTopLevel,
    (Instruction.finalizeSession payFinalize).toTopLevel]

theorem halted_vault_spared_observed :
    ((chain observedSetup {}).ledger.balance (.ata payVault.vault usdcMint) = 1000000000 ∧
      (observedSession.run (chain observedSetup {})).isOk) ∧
    ∃ vault, (chain observedSetup {}).vaults payVault.vault = some vault ∧ vault.roster.Halted ∧
      (∀ x account, (chain observedSetup {}).ledger.accounts x = some account → account.owner = payVault.vault →
        account.amount ≤ (observedSession.commit (chain observedSetup {})).ledger.balance x) ∧
      (observedSession.commit (chain observedSetup {})).trackers payVault.vault =
        (chain observedSetup {}).trackers payVault.vault ∧
      (observedSession.commit (chain observedSetup {})).overlays payVault.vault =
        (chain observedSetup {}).overlays payVault.vault := by
  have hhalted : ({ payVault.newVault payClock with
      agents := [{ pubkey := .key 3, capability := 1, spendingLimitUsd := 0 }] } : AgentVault).roster.Halted := by
    refine .inr fun e he => .inr ?_
    rw [List.mem_singleton.mp he]
    decide
  have hfound : (chain observedSetup {}).vaults payVault.vault = some { payVault.newVault payClock with
      agents := [{ pubkey := .key 3, capability := 1, spendingLimitUsd := 0 }] } := by decide +kernel
  refine ⟨by decide +kernel, _, hfound, hhalted, ?_⟩
  exact halted_vault_spared observedSetup hfound hhalted (by decide)

end Sigil
