import Sigil.Lemmas.Config

/-!
# The account of a queued constraints update

It is allocated, extended, populated by the queueing and closed by whoever gets rid of the update. Closing the vault
is not among these.
-/

namespace Sigil

open Library

/-- What an instruction does to the account of a vault. -/
inductive PendingChange (v : Pubkey) (w : World) :
    Instruction → Option (Allocated PendingConstraintsUpdate) → Prop where
  | allocated {policy : PolicyConfig} (a : OwnerAction) (hv : a.vault = v) (hpolicy : w.policies v = some policy)
      (hnone : w.pendingConstraints v = none) :
      PendingChange v w (.allocatePendingConstraintsPda a) (some { size := maxCpiAccountSize, vault := v })
  | extended {account : Allocated PendingConstraintsUpdate} (a : OwnerAction) (pda : Pubkey) (target : UInt32)
      (haccount : w.pendingConstraints v = some account) (hcontent : account.content = none)
      (hlt : account.size < target.toNat) (hle : target.toNat ≤ pendingConstraintsUpdateSize) :
      PendingChange v w (.extendPda a pda target) (some { account with size := target.toNat })
  | queued {account : Allocated PendingConstraintsUpdate} (a : OwnerAction) (entries : List ConstraintEntry)
      (strictMode : Bool) (pending : PendingConstraintsUpdate) (hv : a.vault = v)
      (haccount : w.pendingConstraints v = some account) (hsize : account.size = pendingConstraintsUpdateSize) :
      PendingChange v w (.queueConstraintsUpdate a entries strictMode) (some (account.write pending))
  | applied (a : OwnerAction) (hv : a.vault = v) : PendingChange v w (.applyConstraintsUpdate a) none
  | cancelled (a : OwnerAction) (hv : a.vault = v) : PendingChange v w (.cancelConstraintsUpdate a) none
  | cleared (a : OwnerAction) (hv : a.vault = v) : PendingChange v w (.applyCloseConstraints a true) none

section
variable {w w' : World} {ctx : Ctx} {v y : Pubkey} {st : Step} {i : Instruction} {steps : List Step}

def PendingStep (v : Pubkey) (i : Instruction) (w w' : World) : Prop :=
  w'.pendingConstraints v = w.pendingConstraints v ∨ PendingChange v w i (w'.pendingConstraints v)

/-- An instruction that writes the account of its own vault only. -/
theorem PendingStep.of_update {o : Option (Allocated PendingConstraintsUpdate)}
    (h : w'.pendingConstraints = Function.update w.pendingConstraints y o)
    (hchange : v = y → PendingChange v w i o) : PendingStep v i w w' := by
  rcases eq_or_ne v y with rfl | hne
  · right
    rw [h, Function.update_self]
    exact hchange rfl
  · exact .inl (by rw [h, Function.update_of_ne hne])

theorem applyCloseConstraints_pending {a : OwnerAction} {closesPending : Bool}
    (h : applyCloseConstraints ctx a closesPending w = .ok w') :
    w'.pendingConstraints =
      if closesPending then Function.update w.pendingConstraints a.vault none else w.pendingConstraints := by
  simp only [applyCloseConstraints, bind_eq_ok, pure_eq_ok] at h
  obtain ⟨_, -, _, -, _, -, _, -, _, -, _, -, rfl⟩ := h
  cases closesPending <;> rfl

/-- Most handlers write no pending constraints at all. -/
theorem Instruction.pendingStep (h : i.exec ctx w = .ok w') (v : Pubkey) : PendingStep v i w w' := by
  cases i with
  | queueConstraintsUpdate a entries strictMode =>
      obtain ⟨_, account, pending, -, ⟨haccount, hsize⟩, -, -, -, rfl⟩ := queueConstraintsUpdate_ok h
      refine .of_update rfl fun heq => ?_
      subst heq
      exact .queued a entries strictMode pending rfl haccount hsize
  | applyConstraintsUpdate a =>
      obtain ⟨_, _, _, _, -, -, -, -, -, rfl⟩ := applyConstraintsUpdate_ok h
      exact .of_update rfl fun heq => .applied a heq.symm
  | cancelConstraintsUpdate a =>
      obtain rfl := cancelConstraintsUpdate_ok h
      exact .of_update rfl fun heq => .cancelled a heq.symm
  | applyCloseConstraints a closesPending =>
      have hw' := applyCloseConstraints_pending h
      cases closesPending with
      | true => exact .of_update hw' fun heq => .cleared a heq.symm
      | false => exact .inl (congrFun hw' v)
  | allocatePendingConstraintsPda a =>
      obtain ⟨⟨policy, hp, hnone⟩, rfl⟩ := allocatePendingConstraintsPda_ok h
      refine .of_update rfl fun heq => ?_
      subst heq
      exact .allocated a rfl hp hnone
  | extendPda a pda target =>
      rcases extendPda_ok h with ⟨_, _, -, -, -, rfl⟩ | ⟨y, account, haccount, hcontent, ⟨hlt, hle⟩, rfl⟩
      · exact .inl rfl
      · refine .of_update rfl fun heq => ?_
        subst heq
        exact .extended a pda target haccount hcontent hlt hle
  | initializeVault a =>
      obtain ⟨-, -, rfl⟩ := initializeVault_ok h
      exact .inl rfl
  | closeVault a =>
      obtain ⟨_, _, -, rfl⟩ := closeVault_ok h
      exact .inl rfl
  | depositFunds a =>
      obtain ⟨_, _, _, _, -, -, -, rfl⟩ := depositFunds_ok h
      exact .inl rfl
  | withdrawFunds a =>
      obtain ⟨_, _, _, -, -, rfl⟩ := withdrawFunds_ok h
      exact .inl rfl
  | registerAgent a =>
      obtain ⟨_, _, _, -, -, -, -, -, -, rfl⟩ := registerAgent_ok h
      exact .inl rfl
  | revokeAgent a =>
      obtain ⟨_, _, -, -, -, rfl⟩ := revokeAgent_ok h
      exact .inl rfl
  | pauseAgent a =>
      obtain ⟨_, -, rfl⟩ := setPaused_ok h
      exact .inl rfl
  | unpauseAgent a =>
      obtain ⟨_, -, rfl⟩ := setPaused_ok h
      exact .inl rfl
  | freezeVault a =>
      obtain ⟨_, _, -, -, rfl⟩ := freezeVault_ok h
      exact .inl rfl
  | reactivateVault a =>
      obtain ⟨_, _, -, -, rfl⟩ := reactivateVault_ok h
      exact .inl rfl
  | validateAndAuthorize a =>
      obtain ⟨_, _, _, _, _, _, _, -, -, -, -, -, -, -, -, -, rfl⟩ := validateAndAuthorize_ok h
      exact .inl rfl
  | finalizeSession a =>
      obtain ⟨_, _, _, _, _, charged, _, -, -, -, -, -, hcharge, -, rfl⟩ := finalizeSession_ok h
      rcases chargeSession_ok hcharge with ⟨-, rfl⟩ | ⟨-, _, _, _, -, -, rfl⟩ <;> exact .inl rfl
  | agentTransfer a =>
      obtain ⟨_, _, _, _, _, _, _, _, -, -, -, -, -, -, rfl⟩ := agentTransfer_ok h
      exact .inl rfl
  | createEscrow a =>
      obtain ⟨_, _, _, _, _, _, _, _, _, _, _, _, -, -, -, -, -, -, -, -, rfl⟩ := createEscrow_ok h
      exact .inl rfl
  | settleEscrow a =>
      obtain ⟨_, _, _, -, -, -, -, -, -, -, rfl⟩ := settleEscrow_ok h
      exact .inl rfl
  | refundEscrow a =>
      obtain ⟨_, _, _, -, -, -, -, -, rfl⟩ := refundEscrow_ok h
      exact .inl rfl
  | closeSettledEscrow a =>
      obtain ⟨_, _, -, -, rfl⟩ := closeSettledEscrow_ok h
      exact .inl rfl
  | queuePolicyUpdate a u =>
      obtain ⟨_, _, _, -, -, -, -, -, -, rfl⟩ := queuePolicyUpdate_ok h
      exact .inl rfl
  | applyPendingPolicy a =>
      obtain ⟨_, _, _, -, -, -, -, rfl⟩ := applyPendingPolicy_ok h
      exact .inl rfl
  | cancelPendingPolicy a =>
      obtain ⟨_, _, _, -, -, -, rfl⟩ := cancelPendingPolicy_ok h
      exact .inl rfl
  | queueCloseConstraints a =>
      obtain ⟨_, _, -, -, -, -, rfl⟩ := queueCloseConstraints_ok h
      exact .inl rfl
  | cancelCloseConstraints a => exact .inl (by rw [cancelCloseConstraints_ok h]; rfl)
  | queueAgentPermissionsUpdate a capability limit =>
      obtain ⟨_, _, -, -, -, -, rfl⟩ := queueAgentPermissionsUpdate_ok h
      exact .inl rfl
  | applyAgentPermissionsUpdate a address =>
      obtain ⟨_, _, _, _, _, _, -, -, -, -, -, -, -, rfl⟩ := applyAgentPermissionsUpdate_ok h
      exact .inl rfl
  | cancelAgentPermissionsUpdate a address => exact .inl (by rw [cancelAgentPermissionsUpdate_ok h]; rfl)
  | allocateConstraintsPda a =>
      obtain ⟨_, _, -, -, -, rfl⟩ := allocateConstraintsPda_ok h
      exact .inl rfl
  | createInstructionConstraints a entries strictMode =>
      obtain ⟨_, _, _, -, -, -, -, -, -, rfl⟩ := createInstructionConstraints_ok h
      exact .inl rfl
  | cleanupOrphanConstraintsPda a =>
      obtain ⟨_, _, _, -, -, -, -, rfl⟩ := cleanupOrphanConstraintsPda_ok h
      exact .inl rfl
  | createPostAssertions a entries =>
      obtain ⟨_, _, -, -, -, rfl⟩ := createPostAssertions_ok h
      exact .inl rfl
  | closePostAssertions a =>
      obtain ⟨_, _, -, -, rfl⟩ := closePostAssertions_ok h
      exact .inl rfl

theorem Step.pendingChange (h : st.exec w = .ok w') (v : Pubkey) :
    w'.pendingConstraints v = w.pendingConstraints v ∨
      ∃ i, st.instruction.call = .sigil i ∧ i.exec st.ctx w = .ok w' ∧
        PendingChange v w i (w'.pendingConstraints v) := by
  rcases Step.exec_cases h with ⟨i, hcall, -, -, hi⟩ | ⟨_, -, -, _, -, rfl, -⟩
  · exact (i.pendingStep hi v).imp_right fun hchange => ⟨i, hcall, hi, hchange⟩
  · exact .inl rfl

/-! ## What the account looks like -/

/-- The account belongs to its vault and is between its first and its full length; it is populated at full length. -/
structure PendingAccountInv (v : Pubkey) (account : Allocated PendingConstraintsUpdate) : Prop where
  vault : account.vault = v
  size_ge : maxCpiAccountSize ≤ account.size
  size_le : account.size ≤ pendingConstraintsUpdateSize

theorem PendingChange.inv {o : Option (Allocated PendingConstraintsUpdate)}
    {account : Allocated PendingConstraintsUpdate}
    (h : ∀ account, w.pendingConstraints v = some account → PendingAccountInv v account)
    (hchange : PendingChange v w i o) (ho : o = some account) : PendingAccountInv v account := by
  cases hchange with
  | allocated a hv hpolicy hnone =>
      cases ho
      exact ⟨rfl, le_rfl, (by decide : maxCpiAccountSize ≤ pendingConstraintsUpdateSize)⟩
  | @extended before a pda target haccount hcontent hlt hle =>
      cases ho
      obtain ⟨hvault, hge, -⟩ := h before haccount
      exact ⟨hvault, hge.trans hlt.le, hle⟩
  | @queued before a entries strictMode pending hv haccount hsize =>
      cases ho
      obtain ⟨hvault, hge, hle⟩ := h before haccount
      exact ⟨hvault, hge, hle⟩
  | applied a hv => cases ho
  | cancelled a hv => cases ho
  | cleared a hv => cases ho

theorem pendingAccountInv_run (h : run Step.exec steps {} = .ok w) {account : Allocated PendingConstraintsUpdate}
    (haccount : w.pendingConstraints v = some account) : PendingAccountInv v account := by
  refine run_invariant (P := fun w => ∀ account, w.pendingConstraints v = some account → PendingAccountInv v account)
    (by simp) (fun st _ w₁ w₂ hw₁ hexec account hx => ?_) h account haccount
  rcases Step.pendingChange hexec v with heq | ⟨i, -, -, hchange⟩
  · exact hw₁ account (heq ▸ hx)
  · exact hchange.inv hw₁ hx

end

end Sigil
