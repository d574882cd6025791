import Sigil.Lemmas.Staff

/-!
# Who changes the status of a vault or of an escrow
-/

namespace Sigil

open Library

/-- Status of a vault, if it exists. -/
def World.vaultStatus (w : World) (v : Pubkey) : Option VaultStatus := (w.vaults v).map AgentVault.status

/-- Instructions that set the status of a vault. -/
def Instruction.setsStatus : Instruction → Bool
  | .initializeVault _ | .closeVault _ | .freezeVault _ | .reactivateVault _ | .revokeAgent _ => true
  | _ => false

/-- Instructions that create an escrow or move it on. -/
def Instruction.movesEscrow : Instruction → Bool
  | .createEscrow _ | .settleEscrow _ | .refundEscrow _ => true
  | _ => false

variable {w w' : World} {ctx : Ctx} {i : Instruction} {v y : Pubkey} {vault vault' : AgentVault}

theorem World.vaultStatus_setVault (hv : w.vaults y = some vault) (hstatus : vault'.status = vault.status) :
    (w.setVault y vault').vaultStatus v = w.vaultStatus v := by
  rcases eq_or_ne v y with rfl | hne
  · simp [vaultStatus, setVault, hv, hstatus]
  · simp [vaultStatus, setVault, Function.update_of_ne hne]

theorem Instruction.vaultStatus_kept (hsets : i.setsStatus = false) (h : i.exec ctx w = .ok w') (v : Pubkey) :
    w'.vaultStatus v = w.vaultStatus v := by
  cases i with
  | initializeVault | closeVault | freezeVault | reactivateVault | revokeAgent => cases hsets
  | depositFunds a =>
      obtain ⟨_, _, _, _, howned, -, -, rfl⟩ := depositFunds_ok h
      exact World.vaultStatus_setVault howned.found rfl
  | withdrawFunds a =>
      obtain ⟨_, _, _, howned, -, rfl⟩ := withdrawFunds_ok h
      exact World.vaultStatus_setVault howned.found rfl
  | registerAgent a =>
      obtain ⟨_, _, _, howned, -, -, -, -, -, rfl⟩ := registerAgent_ok h
      exact World.vaultStatus_setVault howned.found rfl
  | pauseAgent a =>
      obtain ⟨_, howned, rfl⟩ := setPaused_ok h
      exact World.vaultStatus_setVault howned.found rfl
  | unpauseAgent a =>
      obtain ⟨_, howned, rfl⟩ := setPaused_ok h
      exact World.vaultStatus_setVault howned.found rfl
  | validateAndAuthorize a =>
      obtain ⟨_, _, _, _, _, _, _, ⟨hv, -⟩, -, -, -, -, -, -, -, -, rfl⟩ := validateAndAuthorize_ok h
      exact World.vaultStatus_setVault (w := w.setSession _ _) hv rfl
  | finalizeSession a =>
      obtain ⟨_, _, _, _, _, charged, _, ⟨hv, -⟩, -, -, -, -, hcharge, hstats, rfl⟩ := finalizeSession_ok h
      have hvaults : charged.vaults = w.vaults := by
        rcases chargeSession_agent hcharge with ⟨-, -, hvaults⟩ | ⟨-, _, _, -, -, -, hvaults⟩
        · exact hvaults
        · exact hvaults
      have hstatus := congrArg Roster.status (finalizeStats_roster hstats)
      have hkept := World.vaultStatus_setVault (v := v) (w := charged.setSession a.session none)
        ((congrFun hvaults _).trans hv) hstatus
      exact hkept.trans (by simp [World.vaultStatus, World.setSession, hvaults])
  | agentTransfer a =>
      obtain ⟨t⟩ := agentTransfer_trace h
      rw [t.result]
      exact World.vaultStatus_setVault (w := (w.setTracker _ _ _ _).setOverlay _ _) t.vault_found
        (congrArg Roster.status (addPayment_roster t.counted))
  | createEscrow a =>
      obtain ⟨t⟩ := createEscrow_trace h
      rw [t.result]
      exact World.vaultStatus_setVault (w := (w.setTracker _ _ _ _).setOverlay _ _) t.vault_found
        (congrArg Roster.status (addPayment_roster t.counted))
  | settleEscrow a =>
      obtain ⟨_, _, _, ⟨hv, -⟩, -, -, -, -, -, -, rfl⟩ := settleEscrow_ok h
      exact World.vaultStatus_setVault (w := w.setEscrow _ _) hv rfl
  | refundEscrow a =>
      obtain ⟨_, _, _, ⟨hv, -⟩, -, -, -, -, rfl⟩ := refundEscrow_ok h
      exact World.vaultStatus_setVault (w := w.setEscrow _ _) hv rfl
  | closeSettledEscrow a =>
      obtain ⟨_, _, -, -, rfl⟩ := closeSettledEscrow_ok h
      rfl
  | queuePolicyUpdate a u =>
      obtain ⟨_, _, _, -, -, -, -, -, -, rfl⟩ := queuePolicyUpdate_ok h
      rfl
  | applyPendingPolicy a =>
      obtain ⟨_, _, _, -, -, -, -, rfl⟩ := applyPendingPolicy_ok h
      rfl
  | cancelPendingPolicy a =>
      obtain ⟨_, _, _, -, -, -, rfl⟩ := cancelPendingPolicy_ok h
      rfl
  | queueConstraintsUpdate a entries strictMode =>
      obtain ⟨_, _, _, -, -, -, -, -, rfl⟩ := queueConstraintsUpdate_ok h
      rfl
  | applyConstraintsUpdate a =>
      obtain ⟨_, _, _, _, -, -, -, -, -, rfl⟩ := applyConstraintsUpdate_ok h
      rfl
  | cancelConstraintsUpdate a => rw [cancelConstraintsUpdate_ok h]; rfl
  | queueCloseConstraints a =>
      obtain ⟨_, _, -, -, -, -, rfl⟩ := queueCloseConstraints_ok h
      rfl
  | applyCloseConstraints a closesPending =>
      obtain ⟨_, _, _, -, -, -, -, rfl | rfl⟩ := applyCloseConstraints_ok h
      · rfl
      · rfl
  | cancelCloseConstraints a => rw [cancelCloseConstraints_ok h]; rfl
  | queueAgentPermissionsUpdate a capability limit =>
      obtain ⟨_, _, -, -, -, -, rfl⟩ := queueAgentPermissionsUpdate_ok h
      rfl
  | applyAgentPermissionsUpdate a address =>
      obtain ⟨_, _, _, _, _, _, howned, -, -, -, -, -, -, rfl⟩ := applyAgentPermissionsUpdate_ok h
      exact World.vaultStatus_setVault howned.found rfl
  | cancelAgentPermissionsUpdate a address => rw [cancelAgentPermissionsUpdate_ok h]; rfl
  | allocateConstraintsPda a =>
      obtain ⟨_, _, -, -, -, rfl⟩ := allocateConstraintsPda_ok h
      rfl
  | allocatePendingConstraintsPda a => rw [(allocatePendingConstraintsPda_ok h).2]; rfl
  | extendPda a pda target =>
      rcases extendPda_ok h with ⟨_, _, -, -, -, rfl⟩ | ⟨_, _, -, -, -, rfl⟩
      · rfl
      · rfl
  | createInstructionConstraints a entries strictMode =>
      obtain ⟨_, _, _, -, -, -, -, -, -, rfl⟩ := createInstructionConstraints_ok h
      rfl
  | cleanupOrphanConstraintsPda a =>
      obtain ⟨_, _, _, -, -, -, -, rfl⟩ := cleanupOrphanConstraintsPda_ok h
      rfl
  | createPostAssertions a entries =>
      obtain ⟨_, _, -, -, -, rfl⟩ := createPostAssertions_ok h
      rfl
  | closePostAssertions a =>
      obtain ⟨_, _, -, -, rfl⟩ := closePostAssertions_ok h
      rfl

theorem Step.setsStatus {st : Step} (h : st.exec w = .ok w') (hv : w'.vaultStatus v ≠ w.vaultStatus v) :
    ∃ i, st.instruction.call = .sigil i ∧ i.setsStatus := by
  rcases Step.exec_cases h with ⟨i, hcall, -, -, hi⟩ | ⟨_, -, -, _, -, rfl, -⟩
  · cases hsets : i.setsStatus with
    | true => exact ⟨i, hcall, hsets⟩
    | false => exact absurd (i.vaultStatus_kept hsets hi v) hv
  · exact absurd rfl hv

/-- Closing a settled escrow is no move: its account is gone. -/
theorem Step.movesEscrow {st : Step} {e : Pubkey} {d : EscrowDeposit} (h : st.exec w = .ok w')
    (he : w'.escrows e = some d) (hmoved : (w.escrows e).map EscrowDeposit.status ≠ some d.status) :
    ∃ i, st.instruction.call = .sigil i ∧ i.movesEscrow := by
  have hchanged : w'.escrows ≠ w.escrows := by
    intro heq
    rw [heq] at he
    exact hmoved (by rw [he]; rfl)
  rcases Step.core_cases h with ⟨hframe, -⟩ | ⟨i, hcall, hcore, hi⟩
  · exact absurd hframe.escrows hchanged
  · cases i with
    | createEscrow a => exact ⟨_, hcall, rfl⟩
    | settleEscrow a => exact ⟨_, hcall, rfl⟩
    | refundEscrow a => exact ⟨_, hcall, rfl⟩
    | initializeVault a =>
        obtain ⟨-, -, rfl⟩ := initializeVault_ok hi
        exact absurd rfl hchanged
    | closeVault a =>
        obtain ⟨_, _, -, rfl⟩ := closeVault_ok hi
        exact absurd rfl hchanged
    | validateAndAuthorize a =>
        obtain ⟨_, _, _, _, _, _, _, -, -, -, -, -, -, -, -, -, rfl⟩ := validateAndAuthorize_ok hi
        exact absurd rfl hchanged
    | finalizeSession a =>
        obtain ⟨_, _, _, _, _, _, _, -, -, -, -, -, hcharge, -, rfl⟩ := finalizeSession_ok hi
        rcases chargeSession_ok hcharge with ⟨-, rfl⟩ | ⟨-, _, _, _, -, -, rfl⟩
        · exact absurd rfl hchanged
        · exact absurd rfl hchanged
    | agentTransfer a =>
        obtain ⟨t⟩ := agentTransfer_trace hi
        rw [t.result] at hchanged
        exact absurd rfl hchanged
    | closeSettledEscrow a =>
        obtain ⟨_, _, -, -, rfl⟩ := closeSettledEscrow_ok hi
        rcases update_cases he with ⟨-, hnone⟩ | ⟨-, hkept⟩
        · cases hnone
        · exact absurd (by rw [hkept]; rfl) hmoved
    | _ => cases hcore

end Sigil
