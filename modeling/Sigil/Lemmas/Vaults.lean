import Sigil.Lemmas.Staff
import Sigil.Program.Serialize

/-!
# What a step writes into a vault

Every way in which an instruction can change the account of a vault has one case here, with the values it writes.
The counters of the vault, their ranges and the accounts that an instruction leaves alone follow from the cases.
-/

namespace Sigil

open Library

/-- The part of a deposit or a withdrawal that is counted in USD. -/
def MoveFunds.usd (a : MoveFunds) : Nat := if isStablecoinMint a.mint then a.amount.toNat else 0

/-- The vault that an instruction writes. -/
def Instruction.written : Instruction → Option Pubkey
  | .initializeVault a => some a.vault
  | .closeVault a => some a.vault
  | .depositFunds a => some a.vault
  | .withdrawFunds a => some a.vault
  | .registerAgent a => some a.vault
  | .revokeAgent a => some a.vault
  | .pauseAgent a => some a.vault
  | .unpauseAgent a => some a.vault
  | .freezeVault a => some a.vault
  | .reactivateVault a => some a.vault
  | .applyAgentPermissionsUpdate a _ => some a.vault
  | .validateAndAuthorize a => some a.vault
  | .finalizeSession a => some a.vault
  | .agentTransfer a => some a.vault
  | .createEscrow a => some a.sourceVault
  | .settleEscrow a => some a.sourceVault
  | .refundEscrow a => some a.sourceVault
  | _ => none

theorem Instruction.written_mem {i : Instruction} {v : Pubkey} (h : i.written = some v) : v ∈ i.vaults := by
  cases i with
  | createEscrow a | settleEscrow a => exact List.mem_cons.mpr (.inl (Option.some.inj h).symm)
  | initializeVault a | closeVault a | depositFunds a | withdrawFunds a | registerAgent a | revokeAgent a
  | pauseAgent a | unpauseAgent a | freezeVault a | reactivateVault a | applyAgentPermissionsUpdate a _
  | validateAndAuthorize a | finalizeSession a | agentTransfer a | refundEscrow a =>
      exact List.mem_singleton.mpr (Option.some.inj h).symm
  | _ => cases h

inductive VaultChange (ctx : Ctx) (w : World) (v : Pubkey) : Instruction → Option AgentVault → Option AgentVault → Prop
  | same {i : Instruction} {o : Option AgentVault} (hi : i.written ≠ some v) : VaultChange ctx w v i o o
  | opened (a : InitializeVault) (hv : a.vault = v) :
      VaultChange ctx w v (.initializeVault a) none (some (a.newVault ctx.clock))
  | closed {vault : AgentVault} (a : CloseVault) (hv : a.vault = v) (hsessions : vault.activeSessions = 0) :
      VaultChange ctx w v (.closeVault a) (some vault) none
  | deposited {vault : AgentVault} (a : MoveFunds) (hv : a.vault = v)
      (hfits : vault.totalDepositedUsd + a.usd ≤ uMax 64) : VaultChange ctx w v (.depositFunds a) (some vault)
        (some { vault with totalDepositedUsd := vault.totalDepositedUsd + a.usd })
  | withdrawn {vault : AgentVault} (a : MoveFunds) (hv : a.vault = v)
      (hfits : vault.totalWithdrawnUsd + a.usd ≤ uMax 64) : VaultChange ctx w v (.withdrawFunds a) (some vault)
        (some { vault with totalWithdrawnUsd := vault.totalWithdrawnUsd + a.usd })
  | registered {vault : AgentVault} (a : RegisterAgent) (hv : a.vault = v) :
      VaultChange ctx w v (.registerAgent a) (some vault)
        (some { vault with agents := vault.agents ++ [a.entry] })
  | revoked {vault : AgentVault} (a : AgentAction) (hv : a.vault = v) :
      VaultChange ctx w v (.revokeAgent a) (some vault) (some (vault.without a.agent))
  | paused {i : Instruction} {vault : AgentVault} (a : AgentAction) (b : Bool) (hv : a.vault = v)
      (hi : i = .pauseAgent a ∨ i = .unpauseAgent a) : VaultChange ctx w v i (some vault)
        (some { vault with agents := updateAgent vault.agents a.agent fun e => { e with paused := b } })
  | frozen {vault : AgentVault} (a : FreezeVault) (hv : a.vault = v) :
      VaultChange ctx w v (.freezeVault a) (some vault) (some { vault with status := .frozen })
  | reactivated {vault : AgentVault} {agents : List AgentEntry} (a : ReactivateVault) (hv : a.vault = v)
      (hagents : reactivatedAgents vault a.newAgent a.newAgentCapability = .ok agents) :
      VaultChange ctx w v (.reactivateVault a) (some vault)
        (some { vault with agents := agents, status := .active })
  | permitted {vault : AgentVault} {pending : PendingAgentPermissionsUpdate} (a : OwnerAction) (address : Pubkey)
      (hv : a.vault = v) (hpending : w.pendingAgentPerms address = some pending) :
      VaultChange ctx w v (.applyAgentPermissionsUpdate a address) (some vault)
        (some { vault with agents := updateAgent vault.agents pending.agent pending.permit })
  | authorized {vault : AgentVault} (a : ValidateAndAuthorize) (hv : a.vault = v)
      (hfits : vault.activeSessions + 1 ≤ uMax 8) : VaultChange ctx w v (.validateAndAuthorize a) (some vault)
        (some { vault with activeSessions := vault.activeSessions + 1 })
  | finalized {vault vault' : AgentVault} {session : SessionAuthority} {spend : Nat} (a : FinalizeSession)
      (hv : a.vault = v) (hsession : w.sessions a.session = some session)
      (hspend : measureSpend w a session (session.isExpired ctx.clock.unixTimestamp) = .ok spend)
      (hstats : finalizeStats vault session (session.isExpired ctx.clock.unixTimestamp) spend = .ok vault') :
      VaultChange ctx w v (.finalizeSession a) (some vault) (some vault')
  | paid {vault vault' : AgentVault} {policy : PolicyConfig} {developerFee : Nat} (a : AgentTransfer)
      (hv : a.vault = v) (hpolicy : w.policies v = some policy)
      (hfee : ceilFee a.amount.toNat policy.developerFeeRate = .ok developerFee)
      (hpaid : addPayment vault a.amount.toNat developerFee = .ok vault') :
      VaultChange ctx w v (.agentTransfer a) (some vault) (some vault')
  | escrowed {vault vault' : AgentVault} {policy : PolicyConfig} {developerFee : Nat} (a : CreateEscrow)
      (hv : a.sourceVault = v) (hpolicy : w.policies v = some policy)
      (hfee : ceilFee a.amount.toNat policy.developerFeeRate = .ok developerFee)
      (hpaid : addPayment vault a.amount.toNat developerFee = .ok vault')
      (hfits : vault.activeEscrowCount + 1 ≤ uMax 8) : VaultChange ctx w v (.createEscrow a) (some vault)
        (some { vault' with activeEscrowCount := vault.activeEscrowCount + 1 })
  | settled {vault : AgentVault} (a : SettleEscrow) (hv : a.sourceVault = v) :
      VaultChange ctx w v (.settleEscrow a) (some vault)
        (some { vault with activeEscrowCount := vault.activeEscrowCount - 1 })
  | refunded {vault : AgentVault} (a : RefundEscrow) (hv : a.sourceVault = v) :
      VaultChange ctx w v (.refundEscrow a) (some vault)
        (some { vault with activeEscrowCount := vault.activeEscrowCount - 1 })

section
variable {ctx : Ctx} {w w' : World} {v y : Pubkey} {i : Instruction} {st : Step}

def VaultStep (ctx : Ctx) (v : Pubkey) (i : Instruction) (w w' : World) : Prop :=
  VaultChange ctx w v i (w.vaults v) (w'.vaults v)

namespace VaultStep

theorem of_same (hi : i.written = none) (h : w'.vaults = w.vaults) : VaultStep ctx v i w w' := by
  rw [VaultStep, h]
  exact .same (by simp [hi])

/-- An instruction that writes one vault. -/
theorem of_update {o o' : Option AgentVault} (hi : i.written = some y) (ho : w.vaults y = o)
    (h : w'.vaults = Function.update w.vaults y o') (hchange : y = v → VaultChange ctx w v i o o') :
    VaultStep ctx v i w w' := by
  rw [VaultStep, h]
  rcases eq_or_ne v y with rfl | hne
  · rw [Function.update_self, ho]
    exact hchange rfl
  · rw [Function.update_of_ne hne]
    exact .same (by simp [hi, hne.symm])

end VaultStep

theorem depositFunds_vault {a : MoveFunds} (h : depositFunds ctx a w = .ok w') :
    VaultStep ctx v (.depositFunds a) w w' := by
  simp only [depositFunds, bind_eq_ok, require_eq_ok, exists_and_left, exists_const, pure_eq_ok, okOr_eq_ok,
    checkedAdd_eq_some, World.loadOwnedVault_eq_ok] at h
  obtain ⟨vault, howned, _, -, _, -, -, _, -, -, _, -, _, ⟨hfits, rfl⟩, rfl⟩ := h
  exact .of_update rfl howned.found rfl fun hv => .deposited a hv hfits

theorem withdrawFunds_vault {a : MoveFunds} (h : withdrawFunds ctx a w = .ok w') :
    VaultStep ctx v (.withdrawFunds a) w w' := by
  simp only [withdrawFunds, bind_eq_ok, require_eq_ok, exists_and_left, exists_const, pure_eq_ok, okOr_eq_ok,
    checkedAdd_eq_some, World.loadOwnedVault_eq_ok] at h
  obtain ⟨vault, howned, _, -, _, -, -, _, -, -, -, -, _, -, _, ⟨hfits, rfl⟩, rfl⟩ := h
  exact .of_update rfl howned.found rfl fun hv => .withdrawn a hv hfits

theorem validateAndAuthorize_vault {a : ValidateAndAuthorize} (h : validateAndAuthorize ctx a w = .ok w') :
    VaultStep ctx v (.validateAndAuthorize a) w w' := by
  simp only [validateAndAuthorize, Ctx.requireSigner, bind_eq_ok, okOr_eq_ok, checkedAdd_eq_some, require_eq_ok,
    exists_and_left, exists_const, pure_eq_ok, World.loadVault_eq_ok] at h
  obtain ⟨-, vault, hv, -, _, -, _, -, _, -, -, _, -, -, -, _, -, _, -, _, -, _, -, _, -, _, -, _, -, _, -, _, -, _,
    ⟨hfits, rfl⟩, rfl⟩ := h
  exact .of_update rfl hv.1 rfl fun hv => .authorized a hv hfits

theorem finalizeSession_vault {a : FinalizeSession} (h : finalizeSession ctx a w = .ok w') :
    VaultStep ctx v (.finalizeSession a) w w' := by
  obtain ⟨vault, session, policy, _, spend, charged, vault', ⟨hv, -⟩, ⟨hs, -⟩, -, -, hspend, hcharge, hstats, rfl⟩ :=
    finalizeSession_ok h
  have hcharged : charged.vaults = w.vaults := by
    rcases chargeSession_ok hcharge with ⟨-, rfl⟩ | ⟨-, _, _, _, -, -, rfl⟩ <;> rfl
  refine .of_update rfl hv ?_ fun hv => .finalized a hv hs hspend hstats
  rw [← hcharged]
  rfl

theorem agentTransfer_vault {a : AgentTransfer} (h : agentTransfer ctx a w = .ok w') :
    VaultStep ctx v (.agentTransfer a) w w' := by
  simp only [agentTransfer, bind_eq_ok, pure_eq_ok, World.loadVault_eq_ok, World.loadPolicy_eq_ok] at h
  obtain ⟨_, -, vault, hv, _, -, policy, hp, _, -, _, -, _, -, _, -, _, -, _, -, _, -, _, -, _, -, _, -, _, -, _, -, _,
    -, _, -, _, -, developerFee, hfee, _, -, _, -, _, -, _, -, vault', hpaid, rfl⟩ := h
  refine .of_update rfl hv.1 rfl fun hv => ?_
  subst hv
  exact .paid a rfl hp hfee hpaid

theorem createEscrow_vault {a : CreateEscrow} (h : createEscrow ctx a w = .ok w') :
    VaultStep ctx v (.createEscrow a) w w' := by
  simp only [createEscrow, Ctx.requireSigner, bind_eq_ok, okOr_eq_ok, checkedAdd_eq_some, require_eq_ok,
    exists_and_left, exists_const, pure_eq_ok, World.loadVault_eq_ok, World.loadPolicy_eq_ok,
    Option.isNone_iff_eq_none] at h
  obtain ⟨-, vault, hv, -, -, policy, hp, _, -, _, -, _, -, -, -, -, _, -, _, -, -, -, _, -, _, -, _, -, _, -, _, -, -,
    _, -, _, -, _, -, _, -, developerFee, hfee, _, -, _, -, _, ⟨hfits, rfl⟩, vault', hpaid, rfl⟩ := h
  refine .of_update rfl hv.1 rfl fun hv => ?_
  subst hv
  exact .escrowed a rfl hp hfee hpaid hfits

theorem Instruction.vaultStep (h : i.exec ctx w = .ok w') (v : Pubkey) : VaultStep ctx v i w w' := by
  cases i with
  | initializeVault a =>
      obtain ⟨⟨hnone, -⟩, -, rfl⟩ := initializeVault_ok h
      exact .of_update rfl hnone rfl fun hv => .opened a hv
  | closeVault a =>
      obtain ⟨vault, _, hclosable, rfl⟩ := closeVault_ok h
      exact .of_update rfl hclosable.owned.found rfl fun hv => .closed a hv hclosable.sessions
  | depositFunds a => exact depositFunds_vault h
  | withdrawFunds a => exact withdrawFunds_vault h
  | registerAgent a =>
      obtain ⟨vault, _, _, howned, -, -, -, -, -, rfl⟩ := registerAgent_ok h
      exact .of_update rfl howned.found rfl fun hv => .registered a hv
  | revokeAgent a =>
      obtain ⟨vault, _, howned, -, -, rfl⟩ := revokeAgent_ok h
      exact .of_update rfl howned.found rfl fun hv => .revoked a hv
  | pauseAgent a =>
      obtain ⟨vault, howned, rfl⟩ := setPaused_ok h
      exact .of_update rfl howned.found rfl fun hv => .paused a true hv (.inl rfl)
  | unpauseAgent a =>
      obtain ⟨vault, howned, rfl⟩ := setPaused_ok h
      exact .of_update rfl howned.found rfl fun hv => .paused a false hv (.inr rfl)
  | freezeVault a =>
      obtain ⟨vault, _, howned, -, rfl⟩ := freezeVault_ok h
      exact .of_update rfl howned.found rfl fun hv => .frozen a hv
  | reactivateVault a =>
      obtain ⟨vault, _, howned, hagents, rfl⟩ := reactivateVault_ok h
      exact .of_update rfl howned.found rfl fun hv => .reactivated a hv hagents
  | applyAgentPermissionsUpdate a address =>
      obtain ⟨vault, _, pending, _, _, _, howned, -, hpending, -, -, -, -, rfl⟩ := applyAgentPermissionsUpdate_ok h
      exact .of_update rfl howned.found rfl fun hv => .permitted a address hv hpending
  | validateAndAuthorize a => exact validateAndAuthorize_vault h
  | finalizeSession a => exact finalizeSession_vault h
  | agentTransfer a => exact agentTransfer_vault h
  | createEscrow a => exact createEscrow_vault h
  | settleEscrow a =>
      obtain ⟨vault, _, _, hv, -, -, -, -, -, -, rfl⟩ := settleEscrow_ok h
      exact .of_update rfl hv.1 rfl fun hv => .settled a hv
  | refundEscrow a =>
      obtain ⟨vault, _, _, hv, -, -, -, -, rfl⟩ := refundEscrow_ok h
      exact .of_update rfl hv.1 rfl fun hv => .refunded a hv
  | closeSettledEscrow a =>
      obtain ⟨_, _, -, -, rfl⟩ := closeSettledEscrow_ok h
      exact .of_same rfl rfl
  | queuePolicyUpdate a u =>
      obtain ⟨_, _, _, -, -, -, -, -, -, rfl⟩ := queuePolicyUpdate_ok h
      exact .of_same rfl rfl
  | applyPendingPolicy a =>
      obtain ⟨_, _, _, -, -, -, -, rfl⟩ := applyPendingPolicy_ok h
      exact .of_same rfl rfl
  | cancelPendingPolicy a =>
      obtain ⟨_, _, _, -, -, -, rfl⟩ := cancelPendingPolicy_ok h
      exact .of_same rfl rfl
  | queueConstraintsUpdate a entries strictMode =>
      obtain ⟨_, _, _, -, -, -, -, -, rfl⟩ := queueConstraintsUpdate_ok h
      exact .of_same rfl rfl
  | applyConstraintsUpdate a =>
      obtain ⟨_, _, _, _, -, -, -, -, -, rfl⟩ := applyConstraintsUpdate_ok h
      exact .of_same rfl rfl
  | cancelConstraintsUpdate a =>
      obtain rfl := cancelConstraintsUpdate_ok h
      exact .of_same rfl rfl
  | queueCloseConstraints a =>
      obtain ⟨_, _, -, -, -, -, rfl⟩ := queueCloseConstraints_ok h
      exact .of_same rfl rfl
  | applyCloseConstraints a closesPending =>
      obtain ⟨_, _, _, -, -, -, -, rfl | rfl⟩ := applyCloseConstraints_ok h
      · exact .of_same rfl rfl
      · exact .of_same rfl rfl
  | cancelCloseConstraints a =>
      obtain rfl := cancelCloseConstraints_ok h
      exact .of_same rfl rfl
  | queueAgentPermissionsUpdate a capability limit =>
      obtain ⟨_, _, -, -, -, -, rfl⟩ := queueAgentPermissionsUpdate_ok h
      exact .of_same rfl rfl
  | cancelAgentPermissionsUpdate a address =>
      obtain rfl := cancelAgentPermissionsUpdate_ok h
      exact .of_same rfl rfl
  | allocateConstraintsPda a =>
      obtain ⟨_, _, -, -, -, rfl⟩ := allocateConstraintsPda_ok h
      exact .of_same rfl rfl
  | allocatePendingConstraintsPda a =>
      obtain ⟨-, rfl⟩ := allocatePendingConstraintsPda_ok h
      exact .of_same rfl rfl
  | extendPda a pda target =>
      rcases extendPda_ok h with ⟨_, _, -, -, -, rfl⟩ | ⟨_, _, -, -, -, rfl⟩
      · exact .of_same rfl rfl
      · exact .of_same rfl rfl
  | createInstructionConstraints a entries strictMode =>
      obtain ⟨_, _, _, -, -, -, -, -, -, rfl⟩ := createInstructionConstraints_ok h
      exact .of_same rfl rfl
  | cleanupOrphanConstraintsPda a =>
      obtain ⟨_, _, _, -, -, -, -, rfl⟩ := cleanupOrphanConstraintsPda_ok h
      exact .of_same rfl rfl
  | createPostAssertions a entries =>
      obtain ⟨_, _, -, -, -, rfl⟩ := createPostAssertions_ok h
      exact .of_same rfl rfl
  | closePostAssertions a =>
      obtain ⟨_, _, -, -, rfl⟩ := closePostAssertions_ok h
      exact .of_same rfl rfl

theorem VaultChange.eq_of_ne {o o' : Option AgentVault} (h : VaultChange ctx w v i o o') (hv : i.written ≠ some v) :
    o' = o := by
  cases h with
  | same => rfl
  | opened a ha | closed a ha | deposited a ha | withdrawn a ha | registered a ha | revoked a ha | frozen a ha
  | reactivated a ha | permitted a _ ha | authorized a ha | finalized a ha | paid a ha | escrowed a ha | settled a ha
  | refunded a ha => exact absurd (congrArg some ha) hv
  | paused a b ha hi => rcases hi with rfl | rfl <;> exact absurd (congrArg some ha) hv

theorem Step.vaultStep (h : st.exec w = .ok w') (v : Pubkey) :
    w'.vaults v = w.vaults v ∨
      ∃ i, st.instruction.call = .sigil i ∧ VaultChange st.ctx w v i (w.vaults v) (w'.vaults v) := by
  rcases Step.exec_cases h with ⟨i, hcall, -, -, hi⟩ | ⟨_, -, -, _, -, rfl, -⟩
  · exact .inr ⟨i, hcall, i.vaultStep hi v⟩
  · exact .inl rfl

end

end Sigil
