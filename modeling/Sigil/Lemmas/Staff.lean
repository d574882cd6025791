import Sigil.Lemmas.Core

/-!
# What a step does to the agents of a vault

The staff of a vault is its list of agents with the overlay of their spends. Every way in which a step can change
it has one case here, with what the step has found; the discipline of the slots, the limits of the agents and the
kill switch follow from the cases alone.
-/

namespace Sigil

open Library

/-- The part of a vault that says who may act for it. -/
structure Roster where
  owner : Pubkey
  status : VaultStatus
  agents : List AgentEntry

def AgentVault.roster (vault : AgentVault) : Roster :=
  { owner := vault.owner, status := vault.status, agents := vault.agents }

structure Staff where
  roster : Option Roster
  overlay : Option AgentSpendOverlay

def World.staff (w : World) (v : Pubkey) : Staff :=
  { roster := (w.vaults v).map AgentVault.roster, overlay := w.overlays v }

/-! ## Charges -/

/-- Value of a transfer, as the handler computes it. -/
def AgentTransfer.usdAmount (a : AgentTransfer) (w : World) : Result Nat := do
  let source ← w.loadToken a.vaultTokenAccount
  let mint ← w.loadMint source.mint
  stablecoinToUsd a.amount.toNat mint.decimals

def CreateEscrow.usdAmount (a : CreateEscrow) (w : World) : Result Nat := do
  let mint ← w.loadMint a.tokenMint
  stablecoinToUsd a.amount.toNat mint.decimals

/-- Agent and measured spend of the session that is closed. -/
def FinalizeSession.spend (ctx : Ctx) (a : FinalizeSession) (w : World) : Result (Pubkey × Nat) := do
  let session ← loadSession w a
  let spend ← measureSpend w a session (session.isExpired ctx.clock.unixTimestamp)
  pure (session.agent, spend)

/-- The agent of a vault that an instruction charges, with the amount. A session without measured spend charges no
agent. -/
def Instruction.charge (ctx : Ctx) (w : World) (v : Pubkey) : Instruction → Option (Pubkey × Nat)
  | .agentTransfer a => if a.vault = v then (a.usdAmount w).toOption.map fun x => (a.agent, x) else none
  | .createEscrow a => if a.sourceVault = v then (a.usdAmount w).toOption.map fun x => (a.agent, x) else none
  | .finalizeSession a =>
      if a.vault = v then (a.spend ctx w).toOption.filter fun c => 0 < c.2 else none
  | _ => none

def Step.charge (st : Step) (w : World) (v : Pubkey) : Option (Pubkey × Nat) :=
  match st.instruction.call with
  | .sigil i => i.charge st.ctx w v
  | .foreign _ => none

/-! ## The cases -/

inductive StaffChange (ctx : Ctx) : Option (Pubkey × Nat) → Staff → Staff → Prop where
  | same {s : Staff} : StaffChange ctx none s s
  | opened {s : Staff} (owner : Pubkey) (hdead : s.roster = none) :
      StaffChange ctx none s
        { roster := some { owner := owner, status := .active, agents := [] }, overlay := some {} }
  | closed {s : Staff} {vault : AgentVault} (hroster : s.roster = some vault.roster)
      (hsigned : vault.owner ∈ ctx.signers) :
      StaffChange ctx none s { roster := none, overlay := none }
  | registered {s : Staff} {vault : AgentVault} {overlay overlay' : AgentSpendOverlay} (e : AgentEntry)
      (hroster : s.roster = some vault.roster) (hsigned : vault.owner ∈ ctx.signers)
      (hoverlay : s.overlay = some overlay) (hnew : vault.isAgent e.pubkey = false)
      (hlength : vault.agents.length < maxAgentsPerVault) (hkey : e.pubkey ≠ .default)
      (hclaim : claimForNewAgent overlay e.pubkey e.spendingLimitUsd = .ok overlay') :
      StaffChange ctx none s
        { roster := some { vault.roster with agents := vault.agents ++ [e] }, overlay := some overlay' }
  | revoked {s : Staff} {vault : AgentVault} {overlay : AgentSpendOverlay} (agent : Pubkey)
      (hroster : s.roster = some vault.roster) (hsigned : vault.owner ∈ ctx.signers)
      (hoverlay : s.overlay = some overlay) :
      StaffChange ctx none s
        { roster := some (vault.without agent).roster, overlay := some (overlay.without agent) }
  | paused {s : Staff} {vault : AgentVault} (agent : Pubkey) (b : Bool) (hroster : s.roster = some vault.roster)
      (hsigned : vault.owner ∈ ctx.signers) :
      StaffChange ctx none s { s with
        roster := some { vault.roster with agents := updateAgent vault.agents agent fun e => { e with paused := b } } }
  | frozen {s : Staff} {vault : AgentVault} (hroster : s.roster = some vault.roster)
      (hsigned : vault.owner ∈ ctx.signers) :
      StaffChange ctx none s { s with roster := some { vault.roster with status := .frozen } }
  | reactivated {s : Staff} {vault : AgentVault} {agents : List AgentEntry} (newAgent : Option Pubkey)
      (capability : Option UInt8) (hroster : s.roster = some vault.roster) (hsigned : vault.owner ∈ ctx.signers)
      (hagents : reactivatedAgents vault newAgent capability = .ok agents) :
      StaffChange ctx none s { s with roster := some { vault.roster with status := .active, agents := agents } }
  | permitted {s : Staff} {vault : AgentVault} {overlay overlay' : AgentSpendOverlay} {entry : AgentEntry}
      (pending : PendingAgentPermissionsUpdate) (hroster : s.roster = some vault.roster)
      (hsigned : vault.owner ∈ ctx.signers) (hoverlay : s.overlay = some overlay)
      (hentry : vault.getAgent pending.agent = some entry)
      (hadjust : adjustSlot overlay pending.agent entry.spendingLimitUsd pending.spendingLimitUsd = .ok overlay') :
      StaffChange ctx none s
        { roster := some { vault.roster with agents := updateAgent vault.agents pending.agent pending.permit }
          overlay := some overlay' }
  | charged {s : Staff} {vault : AgentVault} {overlay overlay' : AgentSpendOverlay} (agent : Pubkey) (amount : Nat)
      (lifetime : Bool) (hroster : s.roster = some vault.roster) (hoverlay : s.overlay = some overlay)
      (hcharge : chargeAgent vault overlay ctx.clock agent amount lifetime = .ok overlay') :
      StaffChange ctx (some (agent, amount)) s { s with overlay := some overlay' }

/-- The owner signs for every change of a vault that is there, other than a charge. -/
theorem StaffChange.unsigned {ctx : Ctx} {s s' : Staff} {r : Roster} (h : StaffChange ctx none s s')
    (hr : s.roster = some r) (hunsigned : r.owner ∉ ctx.signers) : s' = s := by
  have hnot : ∀ vault : AgentVault, s.roster = some vault.roster → vault.owner ∉ ctx.signers := by
    intro vault hroster
    obtain rfl := Option.some.inj (hr.symm.trans hroster)
    exact hunsigned
  cases h with
  | same => rfl
  | opened _ hdead => cases hdead.symm.trans hr
  | closed hroster hsigned => exact absurd hsigned (hnot _ hroster)
  | registered _ hroster hsigned => exact absurd hsigned (hnot _ hroster)
  | revoked _ hroster hsigned => exact absurd hsigned (hnot _ hroster)
  | paused _ _ hroster hsigned => exact absurd hsigned (hnot _ hroster)
  | frozen hroster hsigned => exact absurd hsigned (hnot _ hroster)
  | reactivated _ _ hroster hsigned => exact absurd hsigned (hnot _ hroster)
  | permitted _ hroster hsigned => exact absurd hsigned (hnot _ hroster)

section
variable {w w' : World} {ctx : Ctx} {v y : Pubkey} {st : Step} {i : Instruction}

/-! ## Writing one account -/

namespace World

@[simp] theorem staff_setTracker (tracker : SpendTracker) (clock : Clock) (x : Nat) :
    (w.setTracker y tracker clock x).staff v = w.staff v := rfl

@[simp] theorem staff_setLedger (l : Ledger) : (w.setLedger l).staff v = w.staff v := rfl

@[simp] theorem staff_setSession (o : Option SessionAuthority) : (w.setSession y o).staff v = w.staff v := rfl

@[simp] theorem staff_setEscrow (o : Option EscrowDeposit) : (w.setEscrow y o).staff v = w.staff v := rfl

@[simp] theorem staff_setPolicy (policy : PolicyConfig) : (w.setPolicy y policy).staff v = w.staff v := rfl

@[simp] theorem staff_setPendingAgentPerms (o : Option PendingAgentPermissionsUpdate) :
    (w.setPendingAgentPerms y o).staff v = w.staff v := rfl

theorem staff_roster {vault : AgentVault} (hv : w.vaults v = some vault) :
    (w.staff v).roster = some vault.roster := by simp [staff, hv]

theorem staff_setVault (vault : AgentVault) :
    (w.setVault v vault).staff v = { w.staff v with roster := some vault.roster } := by
  simp [staff, setVault]

theorem staff_setVault_of_ne (hne : v ≠ y) (vault : AgentVault) : (w.setVault y vault).staff v = w.staff v := by
  simp [staff, setVault, Function.update_of_ne hne]

/-- A vault that keeps its roster. -/
theorem staff_setVault_of_roster {vault vault' : AgentVault} (hv : w.vaults y = some vault)
    (hroster : vault'.roster = vault.roster) : (w.setVault y vault').staff v = w.staff v := by
  rcases eq_or_ne v y with rfl | hne
  · rw [staff_setVault, hroster, ← staff_roster hv]
  · exact staff_setVault_of_ne hne vault'

theorem staff_setOverlay (overlay : AgentSpendOverlay) :
    (w.setOverlay v overlay).staff v = { w.staff v with overlay := some overlay } := by
  simp [staff, setOverlay]

theorem staff_setOverlay_of_ne (hne : v ≠ y) (overlay : AgentSpendOverlay) :
    (w.setOverlay y overlay).staff v = w.staff v := by
  simp [staff, setOverlay, Function.update_of_ne hne]

end World

theorem addPayment_roster {vault vault' : AgentVault} {amount fee : Nat}
    (h : addPayment vault amount fee = .ok vault') : vault'.roster = vault.roster := by
  simp only [addPayment, bind_eq_ok, pure_eq_ok] at h
  obtain ⟨_, -, _, -, _, -, rfl⟩ := h
  rfl

theorem finalizeStats_roster {vault vault' : AgentVault} {session : SessionAuthority} {isExpired : Bool}
    {spend : Nat} (h : finalizeStats vault session isExpired spend = .ok vault') : vault'.roster = vault.roster := by
  simp only [finalizeStats, bind_eq_ok, pure_eq_ok] at h
  obtain ⟨_, -, _, -, _, -, _, -, rfl⟩ := h
  rfl

/-! ## Each instruction -/

/-- What an instruction does to the staff of a vault. -/
def StaffStep (ctx : Ctx) (v : Pubkey) (i : Instruction) (w w' : World) : Prop :=
  StaffChange ctx (i.charge ctx w v) (w.staff v) (w'.staff v)

namespace StaffStep

theorem of_same (hcharge : i.charge ctx w v = none) (heq : w'.staff v = w.staff v) : StaffStep ctx v i w w' := by
  rw [StaffStep, hcharge, heq]
  exact .same

theorem of_change {s' : Staff} (hcharge : i.charge ctx w v = none) (h : StaffChange ctx none (w.staff v) s')
    (heq : w'.staff v = s') : StaffStep ctx v i w w' := by
  rw [StaffStep, hcharge, heq]
  exact h

/-- A charge on one vault, seen from every vault. -/
theorem of_charge {vault vault' : AgentVault} {overlay overlay' : AgentSpendOverlay} {agent : Pubkey} {x : Nat}
    {lifetime : Bool} (hcharge : i.charge ctx w v = if y = v then some (agent, x) else none)
    (hv : w.vaults y = some vault) (ho : w.overlays y = some overlay)
    (hagent : chargeAgent vault overlay ctx.clock agent x lifetime = .ok overlay')
    (hroster : vault'.roster = vault.roster)
    (heq : w'.staff v = ((w.setOverlay y overlay').setVault y vault').staff v) : StaffStep ctx v i w w' := by
  rw [World.staff_setVault_of_roster (w := w.setOverlay y overlay') hv hroster] at heq
  rcases eq_or_ne v y with rfl | hne
  · rw [World.staff_setOverlay] at heq
    rw [StaffStep, hcharge, if_pos rfl, heq]
    exact .charged agent x lifetime (World.staff_roster hv) ho hagent
  · rw [World.staff_setOverlay_of_ne hne] at heq
    exact .of_same (hcharge.trans (if_neg hne.symm)) heq

end StaffStep

theorem initializeVault_staff {a : InitializeVault} (h : initializeVault ctx a w = .ok w') :
    StaffStep ctx v (.initializeVault a) w w' := by
  obtain ⟨⟨hnone, -⟩, -, rfl⟩ := initializeVault_ok h
  rcases eq_or_ne v a.vault with rfl | hne
  · refine .of_change rfl (.opened a.owner (by simp [World.staff, hnone])) ?_
    simp [World.staff, AgentVault.roster, InitializeVault.newVault]
  · exact .of_same rfl (by simp [World.staff, Function.update_of_ne hne])

theorem closeVault_staff {a : CloseVault} (h : closeVault ctx a w = .ok w') :
    StaffStep ctx v (.closeVault a) w w' := by
  obtain ⟨vault, policy, hclosable, rfl⟩ := closeVault_ok h
  have howned := hclosable.owned
  rcases eq_or_ne v a.vault with rfl | hne
  · refine .of_change rfl (.closed (World.staff_roster howned.found) (howned.owner ▸ howned.signer)) ?_
    simp [World.staff, World.withoutVault]
  · exact .of_same rfl (by simp [World.staff, World.withoutVault, Function.update_of_ne hne])

theorem registerAgent_staff {a : RegisterAgent} (h : registerAgent ctx a w = .ok w') :
    StaffStep ctx v (.registerAgent a) w w' := by
  obtain ⟨vault, overlay, overlay', howned, ho, hnew, hlength, hkey, hclaim, rfl⟩ := registerAgent_ok h
  rcases eq_or_ne v a.vault with rfl | hne
  · refine .of_change rfl (.registered a.entry (World.staff_roster howned.found) (howned.owner ▸ howned.signer) ho
      hnew hlength hkey hclaim) ?_
    rw [World.staff_setOverlay, World.staff_setVault]
    rfl
  · exact .of_same rfl (by rw [World.staff_setOverlay_of_ne hne, World.staff_setVault_of_ne hne])

theorem revokeAgent_staff {a : AgentAction} (h : revokeAgent ctx a w = .ok w') :
    StaffStep ctx v (.revokeAgent a) w w' := by
  obtain ⟨vault, overlay, howned, ho, -, rfl⟩ := revokeAgent_ok h
  rcases eq_or_ne v a.vault with rfl | hne
  · refine .of_change rfl (.revoked a.agent (World.staff_roster howned.found) (howned.owner ▸ howned.signer) ho) ?_
    rw [World.staff_setOverlay, World.staff_setVault]
  · exact .of_same rfl (by rw [World.staff_setOverlay_of_ne hne, World.staff_setVault_of_ne hne])

/-- A vault of the owner that is written with another roster. -/
theorem StaffStep.of_setVault {vault vault' : AgentVault} {owner : Pubkey} (hcharge : i.charge ctx w v = none)
    (howned : Owned w ctx owner y vault)
    (h : ∀ s : Staff, s.roster = some vault.roster → vault.owner ∈ ctx.signers →
      StaffChange ctx none s { s with roster := some vault'.roster })
    (heq : w'.staff v = (w.setVault y vault').staff v) : StaffStep ctx v i w w' := by
  rcases eq_or_ne v y with rfl | hne
  · refine .of_change hcharge (h _ (World.staff_roster howned.found) (howned.owner ▸ howned.signer)) ?_
    rw [heq, World.staff_setVault]
  · exact .of_same hcharge (by rw [heq, World.staff_setVault_of_ne hne])

theorem setPaused_staff {a : AgentAction} {paused : Bool} {e : SigilError} (hcharge : i.charge ctx w v = none)
    (h : setPaused ctx a paused e w = .ok w') : StaffStep ctx v i w w' := by
  obtain ⟨vault, howned, rfl⟩ := setPaused_ok h
  exact .of_setVault hcharge howned (fun _ hroster hsigned => .paused a.agent paused hroster hsigned) rfl

theorem freezeVault_staff {a : FreezeVault} (h : freezeVault ctx a w = .ok w') :
    StaffStep ctx v (.freezeVault a) w w' := by
  obtain ⟨vault, _, howned, -, rfl⟩ := freezeVault_ok h
  exact .of_setVault rfl howned (fun _ hroster hsigned => .frozen hroster hsigned) rfl

theorem reactivateVault_staff {a : ReactivateVault} (h : reactivateVault ctx a w = .ok w') :
    StaffStep ctx v (.reactivateVault a) w w' := by
  obtain ⟨vault, agents, howned, hagents, rfl⟩ := reactivateVault_ok h
  exact .of_setVault rfl howned (fun _ hroster hsigned => .reactivated _ _ hroster hsigned hagents) rfl

theorem applyAgentPermissionsUpdate_staff {a : OwnerAction} {address : Pubkey}
    (h : applyAgentPermissionsUpdate ctx a address w = .ok w') :
    StaffStep ctx v (.applyAgentPermissionsUpdate a address) w w' := by
  obtain ⟨vault, policy, pending, overlay, entry, overlay', howned, -, -, ho, -, hentry, hadjust, rfl⟩ :=
    applyAgentPermissionsUpdate_ok h
  rcases eq_or_ne v a.vault with rfl | hne
  · refine .of_change rfl (.permitted pending (World.staff_roster howned.found) (howned.owner ▸ howned.signer) ho
      hentry hadjust) ?_
    rw [World.staff_setPendingAgentPerms, World.staff_setPolicy, World.staff_setOverlay, World.staff_setVault]
    rfl
  · refine .of_same rfl ?_
    rw [World.staff_setPendingAgentPerms, World.staff_setPolicy, World.staff_setOverlay_of_ne hne,
      World.staff_setVault_of_ne hne]

theorem TransferTrace.usdAmount_eq {a : AgentTransfer} (t : TransferTrace ctx a w w') :
    a.usdAmount w = .ok t.usdAmount := by
  simp only [AgentTransfer.usdAmount, bind_eq_ok, World.loadToken_eq_ok, World.loadMint_eq_ok]
  exact ⟨t.source, t.source_found, t.mint, t.mint_found, t.usd⟩

theorem EscrowTrace.usdAmount_eq {a : CreateEscrow} (t : EscrowTrace ctx a w w') :
    a.usdAmount w = .ok t.usdAmount := by
  simp only [CreateEscrow.usdAmount, bind_eq_ok, World.loadMint_eq_ok]
  exact ⟨t.mint, t.mint_found, t.usd⟩

theorem FinalizeSession.spend_eq {a : FinalizeSession} {session : SessionAuthority} {x : Nat}
    (hs : w.sessions a.session = some session ∧ session.vault = a.vault ∧
      a.session = .session a.vault session.agent session.authorizedToken)
    (hspend : measureSpend w a session (session.isExpired ctx.clock.unixTimestamp) = .ok x) :
    a.spend ctx w = .ok (session.agent, x) := by
  simp only [FinalizeSession.spend, bind_eq_ok, loadSession_eq_ok, pure_eq_ok]
  exact ⟨session, hs, x, hspend, rfl⟩

theorem agentTransfer_staff {a : AgentTransfer} (h : agentTransfer ctx a w = .ok w') :
    StaffStep ctx v (.agentTransfer a) w w' := by
  obtain ⟨t⟩ := agentTransfer_trace h
  have husd := t.usdAmount_eq
  refine .of_charge (x := t.usdAmount) ?_ t.vault_found t.overlay_found t.agentCharged (addPayment_roster t.counted) ?_
  · simp [Instruction.charge, husd, Except.toOption]
  · exact (congrArg (World.staff · v) t.result).trans rfl

theorem createEscrow_staff {a : CreateEscrow} (h : createEscrow ctx a w = .ok w') :
    StaffStep ctx v (.createEscrow a) w w' := by
  obtain ⟨t⟩ := createEscrow_trace h
  have husd := t.usdAmount_eq
  have hroster : t.vault'.roster = t.vault.roster := addPayment_roster t.counted
  have hcounted : AgentVault.roster { t.vault' with activeEscrowCount := t.vault.activeEscrowCount + 1 } =
      t.vault.roster := hroster
  refine .of_charge (x := t.usdAmount) ?_ t.vault_found t.overlay_found t.agentCharged hcounted ?_
  · simp [Instruction.charge, husd, Except.toOption]
  · exact (congrArg (World.staff · v) t.result).trans rfl

theorem chargeSpend_agent {policy : PolicyConfig} {vault : AgentVault} {tracker : SpendTracker}
    {overlay : AgentSpendOverlay} {clock : Clock} {agent protocol : Pubkey} {x : Nat}
    {charged : SpendTracker × AgentSpendOverlay}
    (h : chargeSpend policy vault tracker overlay clock agent protocol x = .ok charged) :
    chargeAgent vault overlay clock agent x true = .ok charged.2 := by
  simp only [chargeSpend, bind_eq_ok] at h
  obtain ⟨_, -, _, -, overlay', hcharge, _, -, _, -, h⟩ := h
  have hcharged : charged.2 = overlay' := by
    split at h
    · simp only [bind_eq_ok, pure_eq_ok] at h
      obtain ⟨_, -, rfl⟩ := h
      rfl
    · simp only [bind_eq_ok, pure_eq_ok] at h
      obtain ⟨_, -, rfl⟩ := h
      rfl
  rw [hcharged]
  exact hcharge

/-- The agent is charged with the measured spend, if there is one. -/
theorem chargeSession_agent {clock : Clock} {vault : AgentVault} {policy : PolicyConfig} {session : SessionAuthority}
    {spend : Nat} (h : chargeSession w clock v vault policy session spend = .ok w') :
    (spend = 0 ∧ w'.overlays = w.overlays ∧ w'.vaults = w.vaults) ∨
    (0 < spend ∧ ∃ overlay overlay', w.overlays v = some overlay ∧
      chargeAgent vault overlay clock session.agent spend true = .ok overlay' ∧
      w'.overlays = (w.setOverlay v overlay').overlays ∧ w'.vaults = w.vaults) := by
  simp only [chargeSession, bind_eq_ok, okOr_eq_ok, checkedAdd_eq_some, World.loadOverlay_eq_ok] at h
  obtain ⟨_, -, overlay, ho, _, -, h⟩ := h
  split at h
  · rename_i hspend
    simp only [bind_eq_ok, pure_eq_ok] at h
    obtain ⟨charged, hcharge, rfl⟩ := h
    exact .inr ⟨hspend, overlay, charged.2, ho, chargeSpend_agent hcharge, rfl, rfl⟩
  · rename_i hspend
    refine .inl ⟨by omega, ?_⟩
    split at h
    · simp only [bind_eq_ok, pure_eq_ok] at h
      obtain ⟨_, -, rfl⟩ := h
      exact ⟨rfl, rfl⟩
    · obtain rfl := pure_eq_ok.mp h
      exact ⟨rfl, rfl⟩

theorem World.staff_congr (hvaults : w'.vaults = w.vaults) (hoverlays : w'.overlays = w.overlays) :
    w'.staff v = w.staff v := by
  simp [staff, hvaults, hoverlays]

theorem finalizeSession_staff {a : FinalizeSession} (h : finalizeSession ctx a w = .ok w') :
    StaffStep ctx v (.finalizeSession a) w w' := by
  obtain ⟨vault, session, policy, ledger, spend, charged, vault', hv, hs, -, -, hspend, hcharge, hstats, rfl⟩ :=
    finalizeSession_ok h
  have hroster := finalizeStats_roster hstats
  have hmeasured := FinalizeSession.spend_eq hs hspend
  rcases chargeSession_agent hcharge with ⟨rfl, ho, hvaults⟩ | ⟨hpos, overlay, overlay', ho, hagent, ho', hvaults⟩
  · refine .of_same (by simp [Instruction.charge, hmeasured, Except.toOption]) ?_
    refine (World.staff_setVault_of_roster (w := charged.setSession a.session none) ?_ hroster).trans
      (World.staff_congr hvaults ho)
    exact (congrFun hvaults _).trans hv.1
  · refine .of_charge (x := spend) ?_ hv.1 ho hagent hroster ?_
    · simp [Instruction.charge, hmeasured, Except.toOption, Option.filter, hpos]
    · simp [World.staff, World.setVault, World.setOverlay, World.setSession, World.setLedger, hvaults, ho']

theorem Instruction.staffStep (h : i.exec ctx w = .ok w') (v : Pubkey) : StaffStep ctx v i w w' := by
  cases i with
  | initializeVault a => exact initializeVault_staff h
  | closeVault a => exact closeVault_staff h
  | depositFunds a =>
      obtain ⟨_, _, _, _, howned, -, -, rfl⟩ := depositFunds_ok h
      exact .of_same rfl (World.staff_setVault_of_roster howned.found rfl)
  | withdrawFunds a =>
      obtain ⟨_, _, _, howned, -, rfl⟩ := withdrawFunds_ok h
      exact .of_same rfl (World.staff_setVault_of_roster howned.found rfl)
  | registerAgent a => exact registerAgent_staff h
  | revokeAgent a => exact revokeAgent_staff h
  | pauseAgent a => exact setPaused_staff rfl h
  | unpauseAgent a => exact setPaused_staff rfl h
  | freezeVault a => exact freezeVault_staff h
  | reactivateVault a => exact reactivateVault_staff h
  | validateAndAuthorize a =>
      obtain ⟨_, _, _, _, _, _, _, ⟨hv, -⟩, -, -, -, -, -, -, -, -, rfl⟩ := validateAndAuthorize_ok h
      exact .of_same rfl (World.staff_setVault_of_roster (w := w.setSession _ _) hv rfl)
  | finalizeSession a => exact finalizeSession_staff h
  | agentTransfer a => exact agentTransfer_staff h
  | createEscrow a => exact createEscrow_staff h
  | settleEscrow a =>
      obtain ⟨_, _, _, ⟨hv, -⟩, -, -, -, -, -, -, rfl⟩ := settleEscrow_ok h
      exact .of_same rfl (World.staff_setVault_of_roster (w := w.setEscrow _ _) hv rfl)
  | refundEscrow a =>
      obtain ⟨_, _, _, ⟨hv, -⟩, -, -, -, -, rfl⟩ := refundEscrow_ok h
      exact .of_same rfl (World.staff_setVault_of_roster (w := w.setEscrow _ _) hv rfl)
  | closeSettledEscrow a =>
      obtain ⟨_, _, -, -, rfl⟩ := closeSettledEscrow_ok h
      exact .of_same rfl rfl
  | queuePolicyUpdate a u =>
      obtain ⟨_, _, _, -, -, -, -, -, -, rfl⟩ := queuePolicyUpdate_ok h
      exact .of_same rfl rfl
  | applyPendingPolicy a =>
      obtain ⟨_, _, _, -, -, -, -, rfl⟩ := applyPendingPolicy_ok h
      exact .of_same rfl rfl
  | cancelPendingPolicy a =>
      obtain ⟨_, _, _, -, -, -, rfl⟩ := cancelPendingPolicy_ok h
      exact .of_same rfl rfl
  | queueConstraintsUpdate a entries strictMode =>
      obtain ⟨_, _, _, -, -, -, -, -, rfl⟩ := queueConstraintsUpdate_ok h
      exact .of_same rfl rfl
  | applyConstraintsUpdate a =>
      obtain ⟨_, _, _, _, -, -, -, -, -, rfl⟩ := applyConstraintsUpdate_ok h
      exact .of_same rfl rfl
  | cancelConstraintsUpdate a => exact .of_same rfl (by rw [cancelConstraintsUpdate_ok h]; rfl)
  | queueCloseConstraints a =>
      obtain ⟨_, _, -, -, -, -, rfl⟩ := queueCloseConstraints_ok h
      exact .of_same rfl rfl
  | applyCloseConstraints a closesPending =>
      obtain ⟨_, _, _, -, -, -, -, rfl | rfl⟩ := applyCloseConstraints_ok h
      · exact .of_same rfl rfl
      · exact .of_same rfl rfl
  | cancelCloseConstraints a => exact .of_same rfl (by rw [cancelCloseConstraints_ok h]; rfl)
  | queueAgentPermissionsUpdate a capability limit =>
      obtain ⟨_, _, -, -, -, -, rfl⟩ := queueAgentPermissionsUpdate_ok h
      exact .of_same rfl rfl
  | applyAgentPermissionsUpdate a address => exact applyAgentPermissionsUpdate_staff h
  | cancelAgentPermissionsUpdate a address => exact .of_same rfl (by rw [cancelAgentPermissionsUpdate_ok h]; rfl)
  | allocateConstraintsPda a =>
      obtain ⟨_, _, -, -, -, rfl⟩ := allocateConstraintsPda_ok h
      exact .of_same rfl rfl
  | allocatePendingConstraintsPda a => exact .of_same rfl (by rw [(allocatePendingConstraintsPda_ok h).2]; rfl)
  | extendPda a pda target =>
      rcases extendPda_ok h with ⟨_, _, -, -, -, rfl⟩ | ⟨_, _, -, -, -, rfl⟩
      · exact .of_same rfl rfl
      · exact .of_same rfl rfl
  | createInstructionConstraints a entries strictMode =>
      obtain ⟨_, _, _, -, -, -, -, -, -, rfl⟩ := createInstructionConstraints_ok h
      exact .of_same rfl rfl
  | cleanupOrphanConstraintsPda a =>
      obtain ⟨_, _, _, -, -, -, -, rfl⟩ := cleanupOrphanConstraintsPda_ok h
      exact .of_same rfl rfl
  | createPostAssertions a entries =>
      obtain ⟨_, _, -, -, -, rfl⟩ := createPostAssertions_ok h
      exact .of_same rfl rfl
  | closePostAssertions a =>
      obtain ⟨_, _, -, -, rfl⟩ := closePostAssertions_ok h
      exact .of_same rfl rfl

theorem Step.staffChange (h : st.exec w = .ok w') (v : Pubkey) :
    StaffChange st.ctx (st.charge w v) (w.staff v) (w'.staff v) := by
  rcases Step.exec_cases h with ⟨i, hcall, -, -, hi⟩ | ⟨_, hcall, -, _, -, rfl, -⟩
  · rw [Step.charge, hcall]
    exact i.staffStep hi v
  · rw [Step.charge, hcall]
    exact .same

/-- A property of the staff that every change keeps holds after every run. -/
theorem staff_invariant {P : Staff → Prop} (h₀ : P { roster := none, overlay := none })
    (hchange : ∀ ctx c s s', P s → StaffChange ctx c s s' → P s') {steps : List Step}
    (h : run Step.exec steps {} = .ok w) (v : Pubkey) : P (w.staff v) := by
  refine run_invariant (P := fun w => ∀ v, P (w.staff v)) (fun _ => h₀) (fun st _ w₁ w₂ hw₁ hexec v => ?_) h v
  exact hchange st.ctx _ _ _ (hw₁ v) (Step.staffChange hexec v)

end

end Sigil
