import Sigil.Lemmas.Frame

/-!
# Administrative instructions

For each of them: what it has found, the state it leaves, and that this keeps the frame.
-/

namespace Sigil

open Library

variable {w w' : World} {ctx : Ctx}

theorem signsOutside_of_signer (hkeys : ∀ k ∈ ctx.signers, k.isKey = true) {k : Pubkey}
    (h : k ∈ ctx.signers) : k.signsOutside := by simp [Pubkey.signsOutside, hkeys k h]

/-- A vault lies at a vault's address. -/
theorem isVault_of_address {v : Pubkey} {vault : AgentVault} (h : v = vault.address) : v.isVault := by
  rw [h]; rfl

/-! ## Funds -/

theorem depositFunds_ok {a : MoveFunds} (h : depositFunds ctx a w = .ok w') :
    ∃ vault deposited l l', Owned w ctx a.owner a.vault vault ∧
      ensureAssociated w.ledger a.vault a.mint = .ok l ∧
      l.transfer (.ata a.owner a.mint) (.ata a.vault a.mint) a.owner a.amount.toNat = .ok l' ∧
      w' = (w.setVault a.vault { vault with totalDepositedUsd := deposited }).setLedger l' := by
  simp only [depositFunds, bind_eq_ok, require_eq_ok, exists_and_left, exists_const, pure_eq_ok,
    World.loadOwnedVault_eq_ok] at h
  obtain ⟨vault, howned, _, -, _, -, -, l, hensure, -, l', htransfer, deposited, -, rfl⟩ := h
  exact ⟨vault, deposited, l, l', howned, hensure, htransfer, rfl⟩

theorem depositFunds_frame {a : MoveFunds} (hkeys : ∀ k ∈ ctx.signers, k.isKey = true)
    (h : depositFunds ctx a w = .ok w') : Frame w w' := by
  obtain ⟨vault, _, l, l', howned, hensure, htransfer, rfl⟩ := depositFunds_ok h
  refine .setLedger (.setVault (.refl w) howned.found (by rfl)) ?_ ?_
  · exact Ledger.Moves.trans (.ensureAssociated hensure)
      (.transfer (.inl (signsOutside_of_signer hkeys howned.signer)) htransfer)
  · exact Ledger.SameShape.trans (.ensureAssociated (.inl (isVault_of_address howned.address)) hensure)
      (.transfer htransfer)

theorem withdrawFunds_ok {a : MoveFunds} (h : withdrawFunds ctx a w = .ok w') :
    ∃ vault withdrawn l, Owned w ctx a.owner a.vault vault ∧
      w.ledger.transfer (.ata a.vault a.mint) (.ata a.owner a.mint) a.vault a.amount.toNat = .ok l ∧
      w' = (w.setVault a.vault { vault with totalWithdrawnUsd := withdrawn }).setLedger l := by
  simp only [withdrawFunds, bind_eq_ok, require_eq_ok, exists_and_left, exists_const, pure_eq_ok,
    World.loadOwnedVault_eq_ok] at h
  obtain ⟨vault, howned, _, -, _, -, -, _, -, -, -, -, l, htransfer, withdrawn, -, rfl⟩ := h
  exact ⟨vault, withdrawn, l, howned, htransfer, rfl⟩

theorem withdrawFunds_frame {a : MoveFunds} (h : withdrawFunds ctx a w = .ok w') : Frame w w' := by
  obtain ⟨vault, _, l, howned, htransfer, rfl⟩ := withdrawFunds_ok h
  exact .setLedger (.setVault (.refl w) howned.found (by rfl))
    (.transfer (.inr (isVault_of_address howned.address)) htransfer) (.transfer htransfer)

/-! ## Agents -/

/-- The entry that `register_agent` adds. -/
def RegisterAgent.entry (a : RegisterAgent) : AgentEntry :=
  { pubkey := a.agent, capability := a.capability.toNat, spendingLimitUsd := a.spendingLimitUsd.toNat }

theorem registerAgent_ok {a : RegisterAgent} (h : registerAgent ctx a w = .ok w') :
    ∃ vault overlay overlay', Owned w ctx a.owner a.vault vault ∧ w.overlays a.vault = some overlay ∧
      vault.isAgent a.agent = false ∧ vault.agents.length < maxAgentsPerVault ∧ a.agent ≠ .default ∧
      claimForNewAgent overlay a.agent a.spendingLimitUsd.toNat = .ok overlay' ∧
      w' = (w.setVault a.vault { vault with agents := vault.agents ++ [a.entry] }).setOverlay a.vault overlay' := by
  simp only [registerAgent, bind_eq_ok, require_eq_ok, exists_and_left, exists_const, pure_eq_ok,
    World.loadOwnedVault_eq_ok, World.loadOverlay_eq_ok] at h
  obtain ⟨vault, howned, overlay, ho, -, -, hnew, hlength, hdefault, -, overlay', hclaim, rfl⟩ := h
  exact ⟨vault, overlay, overlay', howned, ho, hnew, hlength, hdefault, hclaim, rfl⟩

theorem registerAgent_frame {a : RegisterAgent} (h : registerAgent ctx a w = .ok w') : Frame w w' := by
  obtain ⟨vault, _, _, howned, -, -, -, -, -, rfl⟩ := registerAgent_ok h
  exact .setOverlay (.setVault (.refl w) howned.found (by rfl)) _

/-- Agents of a vault without one of them. -/
def AgentVault.without (vault : AgentVault) (agent : Pubkey) : AgentVault :=
  { vault with
    agents := vault.agents.filter fun e => e.pubkey ≠ agent
    status := if (vault.agents.filter fun e => e.pubkey ≠ agent) = [] then .frozen else vault.status }

/-- Slots of the agents without one of them. -/
def AgentSpendOverlay.without (overlay : AgentSpendOverlay) (agent : Pubkey) : AgentSpendOverlay :=
  match overlay.findAgentSlot agent with
  | some slot => overlay.releaseSlot slot
  | none => overlay

theorem revokeAgent_ok {a : AgentAction} (h : revokeAgent ctx a w = .ok w') :
    ∃ vault overlay, Owned w ctx a.owner a.vault vault ∧ w.overlays a.vault = some overlay ∧
      vault.isAgent a.agent ∧
      w' = (w.setVault a.vault (vault.without a.agent)).setOverlay a.vault (overlay.without a.agent) := by
  simp only [revokeAgent, bind_eq_ok, require_eq_ok, exists_and_left, exists_const, pure_eq_ok,
    World.loadOwnedVault_eq_ok, World.loadOverlay_eq_ok] at h
  obtain ⟨vault, howned, overlay, ho, -, hagent, rfl⟩ := h
  exact ⟨vault, overlay, howned, ho, hagent, rfl⟩

theorem revokeAgent_frame {a : AgentAction} (h : revokeAgent ctx a w = .ok w') : Frame w w' := by
  obtain ⟨vault, _, howned, -, -, rfl⟩ := revokeAgent_ok h
  exact .setOverlay (.setVault (.refl w) howned.found (by rfl)) _

theorem setPaused_ok {a : AgentAction} {paused : Bool} {e : SigilError}
    (h : setPaused ctx a paused e w = .ok w') :
    ∃ vault, Owned w ctx a.owner a.vault vault ∧ w' = w.setVault a.vault
      { vault with agents := updateAgent vault.agents a.agent fun e => { e with paused := paused } } := by
  simp only [setPaused, bind_eq_ok, require_eq_ok, exists_and_left, exists_const, pure_eq_ok,
    World.loadOwnedVault_eq_ok] at h
  obtain ⟨vault, howned, -, _, -, -, rfl⟩ := h
  exact ⟨vault, howned, rfl⟩

theorem setPaused_frame {a : AgentAction} {paused : Bool} {e : SigilError}
    (h : setPaused ctx a paused e w = .ok w') : Frame w w' := by
  obtain ⟨vault, howned, rfl⟩ := setPaused_ok h
  exact .setVault (.refl w) howned.found (by rfl)

theorem revokePairs_moves {v : Pubkey} {pairs : List (Pubkey × Pubkey)} {l l' : Ledger} (own : Pubkey → Prop)
    (hv : own v) (h : revokePairs w v pairs l = .ok l') : l.Moves own l' ∧ l.SameShape l' := by
  induction pairs generalizing l with
  | nil =>
      obtain rfl := pure_eq_ok.mp h
      exact ⟨.refl l, .refl l⟩
  | cons pair pairs ih =>
      simp only [revokePairs] at h
      split at h
      · obtain ⟨l₁, hrevoke, h⟩ := bind_eq_ok.mp h
        exact ⟨(Ledger.Moves.revoke hv hrevoke).trans (ih h).1, (Ledger.SameShape.revoke hrevoke).trans (ih h).2⟩
      · exact ih h

theorem freezeVault_ok {a : FreezeVault} (h : freezeVault ctx a w = .ok w') :
    ∃ vault l, Owned w ctx a.owner a.vault vault ∧ revokePairs w a.vault a.pairs w.ledger = .ok l ∧
      w' = (w.setVault a.vault { vault with status := .frozen }).setLedger l := by
  simp only [freezeVault, bind_eq_ok, require_eq_ok, exists_and_left, exists_const, pure_eq_ok,
    World.loadOwnedVault_eq_ok] at h
  obtain ⟨vault, howned, -, l, hrevoke, rfl⟩ := h
  exact ⟨vault, l, howned, hrevoke, rfl⟩

theorem freezeVault_frame {a : FreezeVault} (h : freezeVault ctx a w = .ok w') : Frame w w' := by
  obtain ⟨vault, l, howned, hrevoke, rfl⟩ := freezeVault_ok h
  obtain ⟨hmoves, hshape⟩ := revokePairs_moves (·.isVault) (isVault_of_address howned.address) hrevoke
  exact .setLedger (.setVault (.refl w) howned.found (by rfl)) hmoves hshape

theorem reactivateVault_ok {a : ReactivateVault} (h : reactivateVault ctx a w = .ok w') :
    ∃ vault agents, Owned w ctx a.owner a.vault vault ∧
      reactivatedAgents vault a.newAgent a.newAgentCapability = .ok agents ∧
      w' = w.setVault a.vault { vault with agents := agents, status := .active } := by
  simp only [reactivateVault, bind_eq_ok, require_eq_ok, exists_and_left, exists_const, pure_eq_ok,
    World.loadOwnedVault_eq_ok] at h
  obtain ⟨vault, howned, -, agents, hagents, -, rfl⟩ := h
  exact ⟨vault, agents, howned, hagents, rfl⟩

theorem reactivateVault_frame {a : ReactivateVault} (h : reactivateVault ctx a w = .ok w') : Frame w w' := by
  obtain ⟨vault, _, howned, -, rfl⟩ := reactivateVault_ok h
  exact .setVault (.refl w) howned.found (by rfl)

/-! ## Queued updates that are cancelled, and those whose application keeps the timelock -/

/-- The policy one version later. -/
def PolicyConfig.bumped (policy : PolicyConfig) : PolicyConfig :=
  { policy with policyVersion := policy.policyVersion + 1 }

theorem cancelPendingPolicy_ok {a : OwnerAction} (h : cancelPendingPolicy ctx a w = .ok w') :
    ∃ vault policy pending, Owned w ctx a.owner a.vault vault ∧ w.policies a.vault = some policy ∧
      w.pendingPolicies a.vault = some pending ∧
      w' = (w.setPendingPolicy a.vault none).setPolicy a.vault { policy with hasPendingPolicy := false } := by
  simp only [cancelPendingPolicy, bind_eq_ok, okOr_eq_ok, pure_eq_ok, World.loadPolicy_eq_ok,
    World.loadOwnedVault_eq_ok] at h
  obtain ⟨vault, howned, policy, hp, pending, hpending, rfl⟩ := h
  exact ⟨vault, policy, pending, howned, hp, hpending, rfl⟩

theorem cancelPendingPolicy_frame {a : OwnerAction} (h : cancelPendingPolicy ctx a w = .ok w') :
    Frame w w' := by
  obtain ⟨_, policy, _, -, hp, -, rfl⟩ := cancelPendingPolicy_ok h
  exact .setPolicy (.clearPendingPolicy (.refl w)) hp (by rfl)

/-- The constraints that a pending update carries. -/
def PendingConstraintsUpdate.constraints (p : PendingConstraintsUpdate) : InstructionConstraints :=
  { entries := p.entries, strictMode := p.strictMode }

theorem applyConstraintsUpdate_ok {a : OwnerAction} (h : applyConstraintsUpdate ctx a w = .ok w') :
    ∃ vault policy c pending, Owned w ctx a.owner a.vault vault ∧ w.policies a.vault = some policy ∧
      w.constraintSet a.vault = some c ∧ w.queuedConstraints a.vault = some pending ∧
      checkApplyTime ctx.clock pending.executesAt pending.queuedAtSlot = .ok () ∧
      w' = ((w.setConstraints a.vault
        ((w.constraints a.vault).map (·.write pending.constraints))).setPendingConstraints a.vault none).setPolicy
          a.vault policy.bumped := by
  simp only [applyConstraintsUpdate, bind_eq_ok, bumpVersion_eq_ok, pure_eq_ok, World.loadPolicy_eq_ok,
    World.loadOwnedVault_eq_ok] at h
  obtain ⟨vault, howned, policy, hp, c, hc, pending, hpending, _, htime, _, ⟨-, rfl⟩, rfl⟩ := h
  exact ⟨vault, policy, c, pending, howned, hp, loadPopulated_ok hc, loadPendingConstraints_ok hpending, htime, rfl⟩

theorem applyConstraintsUpdate_frame {a : OwnerAction} (h : applyConstraintsUpdate ctx a w = .ok w') :
    Frame w w' := by
  obtain ⟨_, policy, _, _, -, hp, -, -, -, rfl⟩ := applyConstraintsUpdate_ok h
  exact .setPolicy (.setPendingConstraints (.setConstraints (.refl w) _) rfl) hp (by rfl)

theorem cancelConstraintsUpdate_ok {a : OwnerAction} (h : cancelConstraintsUpdate ctx a w = .ok w') :
    w' = w.setPendingConstraints a.vault none := by
  simp only [cancelConstraintsUpdate, bind_eq_ok, pure_eq_ok] at h
  obtain ⟨_, -, _, -, rfl⟩ := h
  rfl

theorem cancelConstraintsUpdate_frame {a : OwnerAction} (h : cancelConstraintsUpdate ctx a w = .ok w') :
    Frame w w' := by
  obtain rfl := cancelConstraintsUpdate_ok h
  exact .setPendingConstraints (.refl w) rfl

/-- The state without the constraints of a vault. -/
def World.withoutConstraints (w : World) (v : Pubkey) (policy : PolicyConfig) : World :=
  ((w.setConstraints v none).setPendingCloseConstraints v none).setPolicy v
    { policy with hasConstraints := false }.bumped

/-- The caller may have passed the pending update of the constraints. -/
theorem applyCloseConstraints_ok {a : OwnerAction} {closesPending : Bool}
    (h : applyCloseConstraints ctx a closesPending w = .ok w') :
    ∃ vault policy pending, Owned w ctx a.owner a.vault vault ∧ w.policies a.vault = some policy ∧
      w.pendingCloseConstraints a.vault = some pending ∧
      checkApplyTime ctx.clock pending.executesAt pending.queuedAtSlot = .ok () ∧
      (w' = w.withoutConstraints a.vault policy ∨
        w' = (w.withoutConstraints a.vault policy).setPendingConstraints a.vault none) := by
  simp only [applyCloseConstraints, bind_eq_ok, okOr_eq_ok, bumpVersion_eq_ok, pure_eq_ok, World.loadPolicy_eq_ok,
    World.loadOwnedVault_eq_ok] at h
  obtain ⟨vault, howned, policy, hp, _, -, pending, hpending, _, htime, _, ⟨-, rfl⟩, rfl⟩ := h
  refine ⟨vault, policy, pending, howned, hp, hpending, htime, ?_⟩
  cases closesPending with
  | true => exact .inr rfl
  | false => exact .inl rfl

theorem applyCloseConstraints_frame {a : OwnerAction} {closesPending : Bool}
    (h : applyCloseConstraints ctx a closesPending w = .ok w') : Frame w w' := by
  obtain ⟨_, policy, _, -, hp, -, -, hw'⟩ := applyCloseConstraints_ok h
  have hclosed : Frame w (w.withoutConstraints a.vault policy) :=
    .setPolicy (.clearPendingCloseConstraints (.setConstraints (.refl w) _)) hp (by rfl)
  rcases hw' with rfl | rfl
  · exact hclosed
  · exact hclosed.setPendingConstraints rfl

theorem cancelCloseConstraints_ok {a : OwnerAction} (h : cancelCloseConstraints ctx a w = .ok w') :
    w' = w.setPendingCloseConstraints a.vault none := by
  simp only [cancelCloseConstraints, bind_eq_ok, pure_eq_ok] at h
  obtain ⟨_, -, _, -, rfl⟩ := h
  rfl

theorem cancelCloseConstraints_frame {a : OwnerAction} (h : cancelCloseConstraints ctx a w = .ok w') :
    Frame w w' := by
  obtain rfl := cancelCloseConstraints_ok h
  exact .clearPendingCloseConstraints (.refl w)

/-- The pending permissions, and the address they lie at. -/
theorem loadPendingAgentPerms_eq_ok {v address : Pubkey} {pending : PendingAgentPermissionsUpdate} :
    loadPendingAgentPerms w v address = .ok pending ↔ w.pendingAgentPerms address = some pending ∧
      pending.vault = v ∧ address = .pendingAgentPerms v pending.agent := by
  simp only [loadPendingAgentPerms, bind_eq_ok, okOr_eq_ok, require_eq_ok, exists_and_left, exists_const, pure_eq_ok]
  constructor
  · rintro ⟨_, hp, hv, hx, rfl⟩; exact ⟨hp, hv, hx⟩
  · rintro ⟨hp, hv, hx⟩; exact ⟨pending, hp, hv, hx, rfl⟩

/-- The entry of an agent with the queued permissions. -/
def PendingAgentPermissionsUpdate.permit (p : PendingAgentPermissionsUpdate) (e : AgentEntry) : AgentEntry :=
  { e with capability := p.newCapability, spendingLimitUsd := p.spendingLimitUsd }

theorem applyAgentPermissionsUpdate_ok {a : OwnerAction} {address : Pubkey}
    (h : applyAgentPermissionsUpdate ctx a address w = .ok w') :
    ∃ vault policy pending overlay entry overlay', Owned w ctx a.owner a.vault vault ∧
      w.policies a.vault = some policy ∧ w.pendingAgentPerms address = some pending ∧
      w.overlays a.vault = some overlay ∧
      checkApplyTime ctx.clock pending.executesAt pending.queuedAtSlot = .ok () ∧
      vault.getAgent pending.agent = some entry ∧
      adjustSlot overlay pending.agent entry.spendingLimitUsd pending.spendingLimitUsd = .ok overlay' ∧
      w' = (((w.setVault a.vault
        { vault with agents := updateAgent vault.agents pending.agent pending.permit }).setOverlay a.vault
          overlay').setPolicy a.vault policy.bumped).setPendingAgentPerms address none := by
  simp only [applyAgentPermissionsUpdate, bind_eq_ok, okOr_eq_ok, bumpVersion_eq_ok, pure_eq_ok,
    World.loadPolicy_eq_ok, World.loadOverlay_eq_ok, World.loadOwnedVault_eq_ok, loadPendingAgentPerms_eq_ok] at h
  obtain ⟨vault, howned, policy, hp, pending, ⟨hpending, -⟩, overlay, ho, _, htime, entry, hentry, overlay', hadjust,
    _, ⟨-, rfl⟩, rfl⟩ := h
  exact ⟨vault, policy, pending, overlay, entry, overlay', howned, hp, hpending, ho, htime, hentry, hadjust, rfl⟩

theorem applyAgentPermissionsUpdate_frame {a : OwnerAction} {address : Pubkey}
    (h : applyAgentPermissionsUpdate ctx a address w = .ok w') : Frame w w' := by
  obtain ⟨vault, policy, _, _, _, _, howned, hp, -, -, -, -, -, rfl⟩ := applyAgentPermissionsUpdate_ok h
  exact .clearPendingAgentPerms (.setPolicy (.setOverlay (.setVault (.refl w) howned.found (by rfl)) _) hp (by rfl))

theorem cancelAgentPermissionsUpdate_ok {a : OwnerAction} {address : Pubkey}
    (h : cancelAgentPermissionsUpdate ctx a address w = .ok w') : w' = w.setPendingAgentPerms address none := by
  simp only [cancelAgentPermissionsUpdate, bind_eq_ok, pure_eq_ok] at h
  obtain ⟨_, -, _, -, rfl⟩ := h
  rfl

theorem cancelAgentPermissionsUpdate_frame {a : OwnerAction} {address : Pubkey}
    (h : cancelAgentPermissionsUpdate ctx a address w = .ok w') : Frame w w' := by
  obtain rfl := cancelAgentPermissionsUpdate_ok h
  exact .clearPendingAgentPerms (.refl w)

/-! ## Setting up constraints and assertions -/

theorem allocateConstraintsPda_ok {a : OwnerAction} (h : allocateConstraintsPda ctx a w = .ok w') :
    ∃ vault policy, Owned w ctx a.owner a.vault vault ∧ w.policies a.vault = some policy ∧
      w.constraints a.vault = none ∧
      w' = w.setConstraints a.vault (some { size := maxCpiAccountSize, vault := a.vault }) := by
  simp only [allocateConstraintsPda, bind_eq_ok, require_eq_ok, exists_and_left, exists_const, pure_eq_ok,
    World.loadPolicy_eq_ok, World.loadOwnedVault_eq_ok, Option.isNone_iff_eq_none] at h
  obtain ⟨vault, howned, policy, hp, -, ⟨hnone, -⟩, rfl⟩ := h
  exact ⟨vault, policy, howned, hp, hnone, rfl⟩

theorem allocateConstraintsPda_frame {a : OwnerAction} (h : allocateConstraintsPda ctx a w = .ok w') :
    Frame w w' := by
  obtain ⟨_, _, -, -, -, rfl⟩ := allocateConstraintsPda_ok h
  exact .setConstraints (.refl w) _

theorem allocatePendingConstraintsPda_ok {a : OwnerAction} (h : allocatePendingConstraintsPda ctx a w = .ok w') :
    (∃ policy, w.policies a.vault = some policy ∧ w.pendingConstraints a.vault = none) ∧
      w' = w.setPendingConstraints a.vault (some { size := maxCpiAccountSize, vault := a.vault }) := by
  simp only [allocatePendingConstraintsPda, bind_eq_ok, require_eq_ok, exists_and_left, exists_const, pure_eq_ok,
    World.loadPolicy_eq_ok, Option.isNone_iff_eq_none] at h
  obtain ⟨_, -, policy, hp, -, _, -, -, ⟨hnone, -⟩, rfl⟩ := h
  exact ⟨⟨policy, hp, hnone⟩, rfl⟩

theorem allocatePendingConstraintsPda_frame {a : OwnerAction}
    (h : allocatePendingConstraintsPda ctx a w = .ok w') : Frame w w' := by
  obtain ⟨-, rfl⟩ := allocatePendingConstraintsPda_ok h
  exact .setPendingConstraints (.refl w) rfl

theorem checkTargetSize_eq_ok {target current : Nat} : checkTargetSize target current = .ok () ↔
    target ≤ pendingConstraintsUpdateSize ∧ target > current ∧ target - current ≤ maxCpiAccountSize := by
  simp only [checkTargetSize, bind_eq_ok, require_eq_ok, exists_and_left, exists_const]

theorem extendAllocated_ok {α : Type} {account : Option (Allocated α)} {v : Pubkey} {target : Nat}
    {extended : Allocated α} (h : extendAllocated account v target = .ok extended) :
    ∃ acc, account = some acc ∧ acc.content = none ∧ acc.vault = v ∧
      (acc.size < target ∧ target ≤ pendingConstraintsUpdateSize) ∧ extended = { acc with size := target } := by
  simp only [extendAllocated, bind_eq_ok, okOr_eq_ok, require_eq_ok, exists_and_left, exists_const, pure_eq_ok] at h
  obtain ⟨acc, hacc, -, _, hunpopulated, _, htarget, rfl⟩ := h
  obtain ⟨hcontent, hv⟩ := checkUnpopulated_eq_ok.mp hunpopulated
  obtain ⟨hle, hlt, -⟩ := checkTargetSize_eq_ok.mp htarget
  exact ⟨acc, hacc, hcontent, hv, ⟨hlt, hle⟩, rfl⟩

theorem extendPda_ok {a : OwnerAction} {pda : Pubkey} {targetSize : UInt32}
    (h : extendPda ctx a pda targetSize w = .ok w') :
    (∃ v acc, w.constraints v = some acc ∧ acc.content = none ∧ acc.vault = a.vault ∧
      w' = w.setConstraints v (some { acc with size := targetSize.toNat })) ∨
    (∃ v acc, w.pendingConstraints v = some acc ∧ acc.content = none ∧
      (acc.size < targetSize.toNat ∧ targetSize.toNat ≤ pendingConstraintsUpdateSize) ∧
      w' = w.setPendingConstraints v (some { acc with size := targetSize.toNat })) := by
  simp only [extendPda, bind_eq_ok] at h
  obtain ⟨_, -, h⟩ := h
  split at h
  · simp only [bind_eq_ok, pure_eq_ok] at h
    obtain ⟨_, hextend, rfl⟩ := h
    obtain ⟨acc, hacc, hcontent, hv, -, rfl⟩ := extendAllocated_ok hextend
    exact .inl ⟨_, acc, hacc, hcontent, hv, rfl⟩
  · simp only [bind_eq_ok, pure_eq_ok] at h
    obtain ⟨_, hextend, rfl⟩ := h
    obtain ⟨acc, hacc, hcontent, -, hsize, rfl⟩ := extendAllocated_ok hextend
    exact .inr ⟨_, acc, hacc, hcontent, hsize, rfl⟩
  · cases h

theorem extendPda_frame {a : OwnerAction} {pda : Pubkey} {targetSize : UInt32}
    (h : extendPda ctx a pda targetSize w = .ok w') : Frame w w' := by
  rcases extendPda_ok h with ⟨_, _, -, -, -, rfl⟩ | ⟨_, acc, -, hcontent, -, rfl⟩
  · exact .setConstraints (.refl w) _
  · exact .setPendingConstraints (.refl w) hcontent

theorem createInstructionConstraints_ok {a : OwnerAction} {entries : List ConstraintEntry} {strictMode : Bool}
    (h : createInstructionConstraints ctx a entries strictMode w = .ok w') :
    ∃ vault policy account, Owned w ctx a.owner a.vault vault ∧ w.policies a.vault = some policy ∧
      w.constraints a.vault = some account ∧ account.size = instructionConstraintsSize ∧
      account.content = none ∧ account.vault = a.vault ∧
      w' = (w.setConstraints a.vault (some (account.write { entries := entries, strictMode := strictMode }))).setPolicy
        a.vault { policy with hasConstraints := true } := by
  simp only [createInstructionConstraints, bind_eq_ok, okOr_eq_ok, require_eq_ok, exists_and_left, exists_const,
    pure_eq_ok, World.loadPolicy_eq_ok, World.loadOwnedVault_eq_ok] at h
  obtain ⟨vault, howned, policy, hp, _, -, account, haccount, hsize, _, hunpopulated, rfl⟩ := h
  obtain ⟨hcontent, hv⟩ := checkUnpopulated_eq_ok.mp hunpopulated
  exact ⟨vault, policy, account, howned, hp, haccount, hsize, hcontent, hv, rfl⟩

theorem createInstructionConstraints_frame {a : OwnerAction} {entries : List ConstraintEntry} {strictMode : Bool}
    (h : createInstructionConstraints ctx a entries strictMode w = .ok w') : Frame w w' := by
  obtain ⟨_, policy, _, -, hp, -, -, -, -, rfl⟩ := createInstructionConstraints_ok h
  exact .setPolicy (.setConstraints (.refl w) _) hp (by rfl)

theorem cleanupOrphanConstraintsPda_ok {a : OwnerAction} (h : cleanupOrphanConstraintsPda ctx a w = .ok w') :
    ∃ vault policy account, Owned w ctx a.owner a.vault vault ∧ w.policies a.vault = some policy ∧
      w.constraints a.vault = some account ∧ account.content = none ∧ w' = w.setConstraints a.vault none := by
  simp only [cleanupOrphanConstraintsPda, bind_eq_ok, okOr_eq_ok, require_eq_ok, exists_and_left, exists_const,
    pure_eq_ok, World.loadPolicy_eq_ok, World.loadOwnedVault_eq_ok, Option.isNone_iff_eq_none] at h
  obtain ⟨vault, howned, policy, hp, -, account, haccount, hcontent, rfl⟩ := h
  exact ⟨vault, policy, account, howned, hp, haccount, hcontent, rfl⟩

theorem cleanupOrphanConstraintsPda_frame {a : OwnerAction}
    (h : cleanupOrphanConstraintsPda ctx a w = .ok w') : Frame w w' := by
  obtain ⟨_, _, _, -, -, -, -, rfl⟩ := cleanupOrphanConstraintsPda_ok h
  exact .setConstraints (.refl w) _

theorem createPostAssertions_ok {a : OwnerAction} {entries : List PostAssertionEntry}
    (h : createPostAssertions ctx a entries w = .ok w') :
    ∃ vault policy, Owned w ctx a.owner a.vault vault ∧ w.policies a.vault = some policy ∧
      w.postAssertions a.vault = none ∧
      w' = (w.setPostAssertions a.vault (some { entries := entries })).setPolicy a.vault
        { policy with hasPostAssertions := 1 } := by
  simp only [createPostAssertions, bind_eq_ok, require_eq_ok, exists_and_left, exists_const, pure_eq_ok,
    World.loadPolicy_eq_ok, World.loadOwnedVault_eq_ok, Option.isNone_iff_eq_none] at h
  obtain ⟨vault, howned, policy, hp, hnone, _, -, rfl⟩ := h
  exact ⟨vault, policy, howned, hp, hnone, rfl⟩

theorem createPostAssertions_frame {a : OwnerAction} {entries : List PostAssertionEntry}
    (h : createPostAssertions ctx a entries w = .ok w') : Frame w w' := by
  obtain ⟨_, policy, -, hp, -, rfl⟩ := createPostAssertions_ok h
  exact .setPolicy (.setPostAssertions (.refl w) _) hp (by rfl)

theorem closePostAssertions_ok {a : OwnerAction} (h : closePostAssertions ctx a w = .ok w') :
    ∃ vault policy, Owned w ctx a.owner a.vault vault ∧ w.policies a.vault = some policy ∧
      w' = (w.setPostAssertions a.vault none).setPolicy a.vault { policy with hasPostAssertions := 0 } := by
  simp only [closePostAssertions, bind_eq_ok, pure_eq_ok, World.loadPolicy_eq_ok, World.loadOwnedVault_eq_ok] at h
  obtain ⟨vault, howned, policy, hp, _, -, rfl⟩ := h
  exact ⟨vault, policy, howned, hp, rfl⟩

theorem closePostAssertions_frame {a : OwnerAction} (h : closePostAssertions ctx a w = .ok w') :
    Frame w w' := by
  obtain ⟨_, policy, -, hp, rfl⟩ := closePostAssertions_ok h
  exact .setPolicy (.setPostAssertions (.refl w) _) hp (by rfl)

/-! ## All of them -/

/-- Instructions that keep the frame. -/
def Instruction.isAdministrative : Instruction → Bool
  | .initializeVault _ | .closeVault _ | .validateAndAuthorize _ | .finalizeSession _ | .agentTransfer _
  | .createEscrow _ | .settleEscrow _ | .refundEscrow _ | .closeSettledEscrow _ | .queuePolicyUpdate _ _
  | .applyPendingPolicy _ | .queueConstraintsUpdate _ _ _ | .queueCloseConstraints _
  | .queueAgentPermissionsUpdate _ _ _ => false
  | _ => true

theorem Instruction.frame {i : Instruction} (hadmin : i.isAdministrative)
    (hkeys : ∀ k ∈ ctx.signers, k.isKey = true) (h : i.exec ctx w = .ok w') : Frame w w' := by
  cases i with
  | depositFunds a => exact depositFunds_frame hkeys h
  | withdrawFunds a => exact withdrawFunds_frame h
  | registerAgent a => exact registerAgent_frame h
  | revokeAgent a => exact revokeAgent_frame h
  | pauseAgent a => exact setPaused_frame h
  | unpauseAgent a => exact setPaused_frame h
  | freezeVault a => exact freezeVault_frame h
  | reactivateVault a => exact reactivateVault_frame h
  | cancelPendingPolicy a => exact cancelPendingPolicy_frame h
  | applyConstraintsUpdate a => exact applyConstraintsUpdate_frame h
  | cancelConstraintsUpdate a => exact cancelConstraintsUpdate_frame h
  | applyCloseConstraints a closesPending => exact applyCloseConstraints_frame h
  | cancelCloseConstraints a => exact cancelCloseConstraints_frame h
  | applyAgentPermissionsUpdate a address => exact applyAgentPermissionsUpdate_frame h
  | cancelAgentPermissionsUpdate a address => exact cancelAgentPermissionsUpdate_frame h
  | allocateConstraintsPda a => exact allocateConstraintsPda_frame h
  | allocatePendingConstraintsPda a => exact allocatePendingConstraintsPda_frame h
  | extendPda a pda targetSize => exact extendPda_frame h
  | createInstructionConstraints a entries strictMode => exact createInstructionConstraints_frame h
  | cleanupOrphanConstraintsPda a => exact cleanupOrphanConstraintsPda_frame h
  | createPostAssertions a entries => exact createPostAssertions_frame h
  | closePostAssertions a => exact closePostAssertions_frame h
  | _ => simp [isAdministrative] at hadmin

/-- What a top-level instruction is, once accepted: one of this program, or one that moves tokens without
this program's signature. -/
theorem Step.exec_cases {st : Step} (h : st.exec w = .ok w') :
    (∃ i, st.instruction.call = .sigil i ∧ st.instruction.raw.programId = crateId ∧
      st.instruction.raw.data.take 8 = i.discriminator ∧ i.exec st.ctx w = .ok w') ∨
    (∃ ops, st.instruction.call = .foreign ops ∧ foreignAllowed st.instruction.raw st.ctx.signers ops ∧
      ∃ l, run (fun op l => TokenInstruction.exec l op) ops w.ledger = .ok l ∧ w' = w.setLedger l ∧
        ∀ own, w.ledger.Moves own l) := by
  unfold exec TopLevel.exec at h
  split at h
  · rename_i i hcall
    simp only [bind_eq_ok, require_eq_ok, exists_and_left, exists_const] at h
    exact .inl ⟨i, hcall, h.1.1, h.1.2, h.2⟩
  · rename_i ops hcall
    simp only [bind_eq_ok, require_eq_ok, exists_and_left, exists_const, pure_eq_ok] at h
    obtain ⟨hallowed, l, hrun, rfl⟩ := h
    refine .inr ⟨ops, hcall, hallowed, l, hrun, rfl, fun own => .foreign st.signers_isKey ?_ hrun⟩
    simp only [foreignAllowed, Bool.and_eq_true, List.all_eq_true] at hallowed
    exact hallowed.1.2

end Sigil
