import Sigil.Lemmas.Core

/-!
# What a step does to the configuration of a vault

The configuration is what the agents of a vault are held to. Every instruction that touches it has one case
here, with what it has found; the invariants of the policy, the constraints and the version follow from the
cases alone.
-/

namespace Sigil

open Library

structure Config where
  /-- The vault exists. -/
  live : Bool
  policy : Option PolicyConfig
  pending : Option PendingPolicyUpdate
  constraints : Option (Allocated InstructionConstraints)
  assertions : Option PostExecutionAssertions

def World.config (w : World) (v : Pubkey) : Config :=
  { live := (w.vaults v).isSome
    policy := w.policies v
    pending := w.pendingPolicies v
    constraints := w.constraints v
    assertions := w.postAssertions v }

inductive ConfigChange (ctx : Ctx) (v : Pubkey) : Instruction → Config → Config → Prop where
  | opened {c : Config} (a : InitializeVault) (hv : a.vault = v) (hdead : c.live = false) (hcheck : a.check = .ok ()) :
      ConfigChange ctx v (.initializeVault a) c { c with live := true, policy := some a.policy }
  | closed {c : Config} {policy : PolicyConfig} (a : CloseVault) (hv : a.vault = v) (hpolicy : c.policy = some policy)
      (hconstraints : policy.hasConstraints = false) :
      ConfigChange ctx v (.closeVault a) c
        { c with live := false, policy := none, pending := if policy.hasPendingPolicy then none else c.pending }
  | queued {c : Config} {policy : PolicyConfig} (a : OwnerAction) (u : PolicyUpdate) (executes : Int)
      (hv : a.vault = v) (hlive : c.live) (hpolicy : c.policy = some policy) (hfields : u.checkFields = .ok ())
      (hcaps : u.checkProtocolCaps policy = .ok ()) :
      ConfigChange ctx v (.queuePolicyUpdate a u) c
        { c with
          pending := some (u.pending ctx.clock executes)
          policy := some { policy with hasPendingPolicy := true } }
  | applied {c : Config} {policy : PolicyConfig} {pending : PendingPolicyUpdate} (a : OwnerAction) (hv : a.vault = v)
      (hpolicy : c.policy = some policy) (hpending : c.pending = some pending) :
      ConfigChange ctx v (.applyPendingPolicy a) c
        { c with pending := none, policy := some (pending.applyTo policy).bumped }
  | cancelled {c : Config} {policy : PolicyConfig} (a : OwnerAction) (hv : a.vault = v)
      (hpolicy : c.policy = some policy) :
      ConfigChange ctx v (.cancelPendingPolicy a) c
        { c with pending := none, policy := some { policy with hasPendingPolicy := false } }
  | allocated {c : Config} (a : OwnerAction) (hv : a.vault = v) (hconstraints : c.constraints = none) :
      ConfigChange ctx v (.allocateConstraintsPda a) c
        { c with constraints := some { size := maxCpiAccountSize, vault := v } }
  | extended {c : Config} {account : Allocated InstructionConstraints} (a : OwnerAction) (pda : Pubkey)
      (target : UInt32) (hconstraints : c.constraints = some account) (hcontent : account.content = none) :
      ConfigChange ctx v (.extendPda a pda target) c
        { c with constraints := some { account with size := target.toNat } }
  | populated {c : Config} {policy : PolicyConfig} {account : Allocated InstructionConstraints} (a : OwnerAction)
      (entries : List ConstraintEntry) (strictMode : Bool) (hv : a.vault = v) (hlive : c.live)
      (hpolicy : c.policy = some policy) (hconstraints : c.constraints = some account)
      (hsize : account.size = instructionConstraintsSize) (hvault : account.vault = v) :
      ConfigChange ctx v (.createInstructionConstraints a entries strictMode) c
        { c with
          constraints := some (account.write { entries := entries, strictMode := strictMode })
          policy := some { policy with hasConstraints := true } }
  | cleaned {c : Config} {account : Allocated InstructionConstraints} (a : OwnerAction) (hv : a.vault = v)
      (hconstraints : c.constraints = some account) (hcontent : account.content = none) :
      ConfigChange ctx v (.cleanupOrphanConstraintsPda a) c { c with constraints := none }
  | rewritten {c : Config} {policy : PolicyConfig} {account : Allocated InstructionConstraints} (a : OwnerAction)
      (set : InstructionConstraints) (hv : a.vault = v) (hpolicy : c.policy = some policy)
      (hconstraints : c.constraints = some account) (hcontent : account.content ≠ none) :
      ConfigChange ctx v (.applyConstraintsUpdate a) c
        { c with constraints := some (account.write set), policy := some policy.bumped }
  | cleared {c : Config} {policy : PolicyConfig} (a : OwnerAction) (closesPending : Bool) (hv : a.vault = v)
      (hpolicy : c.policy = some policy) :
      ConfigChange ctx v (.applyCloseConstraints a closesPending) c
        { c with constraints := none, policy := some { policy with hasConstraints := false }.bumped }
  | permitted {c : Config} {policy : PolicyConfig} (a : OwnerAction) (address : Pubkey) (hv : a.vault = v)
      (hpolicy : c.policy = some policy) :
      ConfigChange ctx v (.applyAgentPermissionsUpdate a address) c { c with policy := some policy.bumped }
  | asserted {c : Config} {policy : PolicyConfig} (a : OwnerAction) (entries : List PostAssertionEntry)
      (hv : a.vault = v) (hpolicy : c.policy = some policy) :
      ConfigChange ctx v (.createPostAssertions a entries) c
        { c with assertions := some { entries := entries }, policy := some { policy with hasPostAssertions := 1 } }
  | unasserted {c : Config} {policy : PolicyConfig} (a : OwnerAction) (hv : a.vault = v)
      (hpolicy : c.policy = some policy) :
      ConfigChange ctx v (.closePostAssertions a) c
        { c with assertions := none, policy := some { policy with hasPostAssertions := 0 } }

section
variable {w w' : World} {ctx : Ctx} {v y : Pubkey} {st : Step} {i : Instruction}

/-! ## Writing one account -/

namespace World

@[simp] theorem config_setPendingConstraints (o : Option (Allocated PendingConstraintsUpdate)) :
    (w.setPendingConstraints y o).config v = w.config v := rfl

@[simp] theorem config_setPendingCloseConstraints (o : Option PendingCloseConstraints) :
    (w.setPendingCloseConstraints y o).config v = w.config v := rfl

@[simp] theorem config_setPendingAgentPerms (o : Option PendingAgentPermissionsUpdate) :
    (w.setPendingAgentPerms y o).config v = w.config v := rfl

@[simp] theorem config_setOverlay (overlay : AgentSpendOverlay) : (w.setOverlay y overlay).config v = w.config v := rfl

/-- A vault that is there stays there when it is written. -/
theorem config_setVault {vault vault' : AgentVault} (hv : w.vaults y = some vault) :
    (w.setVault y vault').config v = w.config v := by
  rcases eq_or_ne v y with rfl | hne
  · simp [config, setVault, hv]
  · simp [config, setVault, Function.update_of_ne hne]

theorem config_setPolicy (policy : PolicyConfig) :
    (w.setPolicy v policy).config v = { w.config v with policy := some policy } := by
  simp [config, setPolicy]

theorem config_setPolicy_of_ne (hne : v ≠ y) (policy : PolicyConfig) :
    (w.setPolicy y policy).config v = w.config v := by
  simp [config, setPolicy, Function.update_of_ne hne]

theorem config_setPendingPolicy (pending : Option PendingPolicyUpdate) :
    (w.setPendingPolicy v pending).config v = { w.config v with pending := pending } := by
  simp [config, setPendingPolicy]

theorem config_setPendingPolicy_of_ne (hne : v ≠ y) (pending : Option PendingPolicyUpdate) :
    (w.setPendingPolicy y pending).config v = w.config v := by
  simp [config, setPendingPolicy, Function.update_of_ne hne]

theorem config_setConstraints (c : Option (Allocated InstructionConstraints)) :
    (w.setConstraints v c).config v = { w.config v with constraints := c } := by
  simp [config, setConstraints]

theorem config_setConstraints_of_ne (hne : v ≠ y) (c : Option (Allocated InstructionConstraints)) :
    (w.setConstraints y c).config v = w.config v := by
  simp [config, setConstraints, Function.update_of_ne hne]

theorem config_setPostAssertions (c : Option PostExecutionAssertions) :
    (w.setPostAssertions v c).config v = { w.config v with assertions := c } := by
  simp [config, setPostAssertions]

theorem config_setPostAssertions_of_ne (hne : v ≠ y) (c : Option PostExecutionAssertions) :
    (w.setPostAssertions y c).config v = w.config v := by
  simp [config, setPostAssertions, Function.update_of_ne hne]

end World

/-! ## Each instruction -/

/-- A step keeps the configuration of a vault or changes it in one of the ways. -/
def ConfigStep (ctx : Ctx) (v : Pubkey) (i : Instruction) (w w' : World) : Prop :=
  w'.config v = w.config v ∨ ConfigChange ctx v i (w.config v) (w'.config v)

theorem ConfigStep.change {c' : Config} (h : ConfigChange ctx v i (w.config v) c') (heq : w'.config v = c') :
    ConfigStep ctx v i w w' := .inr (heq ▸ h)

theorem initializeVault_config {a : InitializeVault} (h : initializeVault ctx a w = .ok w') :
    ConfigStep ctx v (.initializeVault a) w w' := by
  obtain ⟨⟨hnone, -⟩, hcheck, rfl⟩ := initializeVault_ok h
  rcases eq_or_ne v a.vault with rfl | hne
  · exact .change (.opened a rfl (by simp [World.config, hnone]) hcheck) (by simp [World.config])
  · exact .inl (by simp [World.config, Function.update_of_ne hne])

theorem closeVault_config {a : CloseVault} (h : closeVault ctx a w = .ok w') :
    ConfigStep ctx v (.closeVault a) w w' := by
  obtain ⟨vault, policy, hclosable, rfl⟩ := closeVault_ok h
  rcases eq_or_ne v a.vault with rfl | hne
  · refine .change (.closed a rfl hclosable.found hclosable.constraints) ?_
    simp only [World.config, World.withoutVault, Function.update_self]
    split <;> simp
  · left
    simp only [World.config, World.withoutVault, Function.update_of_ne hne]
    split <;> simp [Function.update_of_ne hne]

theorem finalizeSession_config {a : FinalizeSession} (h : finalizeSession ctx a w = .ok w') :
    w'.config v = w.config v := by
  obtain ⟨vault, _, _, _, _, charged, vault', ⟨hv, -⟩, -, -, -, -, hcharge, -, rfl⟩ := finalizeSession_ok h
  rcases chargeSession_ok hcharge with ⟨-, rfl⟩ | ⟨-, _, _, _, -, -, rfl⟩
  · exact World.config_setVault (w := charged.setSession a.session none) hv
  · exact World.config_setVault (w := w.setSession a.session none) hv

theorem queuePolicyUpdate_config {a : OwnerAction} {u : PolicyUpdate} (h : queuePolicyUpdate ctx a u w = .ok w') :
    ConfigStep ctx v (.queuePolicyUpdate a u) w w' := by
  obtain ⟨vault, policy, executes, howned, hp, -, hfields, hcaps, -, rfl⟩ := queuePolicyUpdate_ok h
  rcases eq_or_ne v a.vault with rfl | hne
  · refine .change (.queued a u executes rfl (by simp [World.config, howned.found]) hp hfields hcaps) ?_
    rw [World.config_setPolicy, World.config_setPendingPolicy]
  · exact .inl (by rw [World.config_setPolicy_of_ne hne, World.config_setPendingPolicy_of_ne hne])

theorem applyPendingPolicy_config {a : OwnerAction} (h : applyPendingPolicy ctx a w = .ok w') :
    ConfigStep ctx v (.applyPendingPolicy a) w w' := by
  obtain ⟨_, policy, pending, -, hp, hpending, -, rfl⟩ := applyPendingPolicy_ok h
  rcases eq_or_ne v a.vault with rfl | hne
  · refine .change (.applied a rfl hp hpending) ?_
    rw [World.config_setPolicy, World.config_setPendingPolicy]
  · exact .inl (by rw [World.config_setPolicy_of_ne hne, World.config_setPendingPolicy_of_ne hne])

theorem cancelPendingPolicy_config {a : OwnerAction} (h : cancelPendingPolicy ctx a w = .ok w') :
    ConfigStep ctx v (.cancelPendingPolicy a) w w' := by
  obtain ⟨_, policy, _, -, hp, -, rfl⟩ := cancelPendingPolicy_ok h
  rcases eq_or_ne v a.vault with rfl | hne
  · refine .change (.cancelled a rfl hp) ?_
    rw [World.config_setPolicy, World.config_setPendingPolicy]
  · exact .inl (by rw [World.config_setPolicy_of_ne hne, World.config_setPendingPolicy_of_ne hne])

theorem allocateConstraintsPda_config {a : OwnerAction} (h : allocateConstraintsPda ctx a w = .ok w') :
    ConfigStep ctx v (.allocateConstraintsPda a) w w' := by
  obtain ⟨_, _, -, -, hnone, rfl⟩ := allocateConstraintsPda_ok h
  rcases eq_or_ne v a.vault with rfl | hne
  · exact .change (.allocated a rfl hnone) (World.config_setConstraints _)
  · exact .inl (World.config_setConstraints_of_ne hne _)

theorem extendPda_config {a : OwnerAction} {pda : Pubkey} {target : UInt32}
    (h : extendPda ctx a pda target w = .ok w') : ConfigStep ctx v (.extendPda a pda target) w w' := by
  rcases extendPda_ok h with ⟨y, account, hy, hcontent, -, rfl⟩ | ⟨_, _, -, -, -, rfl⟩
  · rcases eq_or_ne v y with rfl | hne
    · exact .change (.extended a pda target hy hcontent) (World.config_setConstraints _)
    · exact .inl (World.config_setConstraints_of_ne hne _)
  · exact .inl rfl

theorem createInstructionConstraints_config {a : OwnerAction} {entries : List ConstraintEntry} {strictMode : Bool}
    (h : createInstructionConstraints ctx a entries strictMode w = .ok w') :
    ConfigStep ctx v (.createInstructionConstraints a entries strictMode) w w' := by
  obtain ⟨_, policy, account, howned, hp, hc, hsize, -, hvault, rfl⟩ := createInstructionConstraints_ok h
  rcases eq_or_ne v a.vault with rfl | hne
  · refine .change (.populated a entries strictMode rfl (by simp [World.config, howned.found]) hp hc hsize hvault) ?_
    rw [World.config_setPolicy, World.config_setConstraints]
  · exact .inl (by rw [World.config_setPolicy_of_ne hne, World.config_setConstraints_of_ne hne])

theorem cleanupOrphanConstraintsPda_config {a : OwnerAction} (h : cleanupOrphanConstraintsPda ctx a w = .ok w') :
    ConfigStep ctx v (.cleanupOrphanConstraintsPda a) w w' := by
  obtain ⟨_, _, _, -, -, hc, hcontent, rfl⟩ := cleanupOrphanConstraintsPda_ok h
  rcases eq_or_ne v a.vault with rfl | hne
  · exact .change (.cleaned a rfl hc hcontent) (World.config_setConstraints _)
  · exact .inl (World.config_setConstraints_of_ne hne _)

theorem applyConstraintsUpdate_config {a : OwnerAction} (h : applyConstraintsUpdate ctx a w = .ok w') :
    ConfigStep ctx v (.applyConstraintsUpdate a) w w' := by
  obtain ⟨_, policy, _, pending, -, hp, hset, -, -, rfl⟩ := applyConstraintsUpdate_ok h
  obtain ⟨account, hc, hcontent⟩ := Option.bind_eq_some_iff.mp hset
  rcases eq_or_ne v a.vault with rfl | hne
  · refine .change (.rewritten a pending.constraints rfl hp hc (by simp [hcontent])) ?_
    rw [World.config_setPolicy, World.config_setPendingConstraints, World.config_setConstraints, hc, Option.map_some]
  · left
    rw [World.config_setPolicy_of_ne hne, World.config_setPendingConstraints, World.config_setConstraints_of_ne hne]

theorem applyCloseConstraints_config {a : OwnerAction} {closesPending : Bool}
    (h : applyCloseConstraints ctx a closesPending w = .ok w') :
    ConfigStep ctx v (.applyCloseConstraints a closesPending) w w' := by
  obtain ⟨_, policy, _, -, hp, -, -, hw'⟩ := applyCloseConstraints_ok h
  have hconfig : w'.config v = (w.withoutConstraints a.vault policy).config v := by
    rcases hw' with rfl | rfl <;> rfl
  rcases eq_or_ne v a.vault with rfl | hne
  · refine .change (.cleared a closesPending rfl hp) (hconfig.trans ?_)
    rw [World.withoutConstraints, World.config_setPolicy, World.config_setPendingCloseConstraints,
      World.config_setConstraints]
  · left
    rw [hconfig, World.withoutConstraints, World.config_setPolicy_of_ne hne, World.config_setPendingCloseConstraints,
      World.config_setConstraints_of_ne hne]

theorem applyAgentPermissionsUpdate_config {a : OwnerAction} {address : Pubkey}
    (h : applyAgentPermissionsUpdate ctx a address w = .ok w') :
    ConfigStep ctx v (.applyAgentPermissionsUpdate a address) w w' := by
  obtain ⟨vault, policy, pending, _, _, overlay', howned, hp, -, -, -, -, -, rfl⟩ := applyAgentPermissionsUpdate_ok h
  rcases eq_or_ne v a.vault with rfl | hne
  · refine .change (.permitted a address rfl hp) ?_
    rw [World.config_setPendingAgentPerms, World.config_setPolicy, World.config_setOverlay,
      World.config_setVault howned.found]
  · left
    rw [World.config_setPendingAgentPerms, World.config_setPolicy_of_ne hne, World.config_setOverlay,
      World.config_setVault howned.found]

theorem createPostAssertions_config {a : OwnerAction} {entries : List PostAssertionEntry}
    (h : createPostAssertions ctx a entries w = .ok w') : ConfigStep ctx v (.createPostAssertions a entries) w w' := by
  obtain ⟨_, policy, -, hp, -, rfl⟩ := createPostAssertions_ok h
  rcases eq_or_ne v a.vault with rfl | hne
  · refine .change (.asserted a entries rfl hp) ?_
    rw [World.config_setPolicy, World.config_setPostAssertions]
  · exact .inl (by rw [World.config_setPolicy_of_ne hne, World.config_setPostAssertions_of_ne hne])

theorem closePostAssertions_config {a : OwnerAction} (h : closePostAssertions ctx a w = .ok w') :
    ConfigStep ctx v (.closePostAssertions a) w w' := by
  obtain ⟨_, policy, -, hp, rfl⟩ := closePostAssertions_ok h
  rcases eq_or_ne v a.vault with rfl | hne
  · refine .change (.unasserted a rfl hp) ?_
    rw [World.config_setPolicy, World.config_setPostAssertions]
  · exact .inl (by rw [World.config_setPolicy_of_ne hne, World.config_setPostAssertions_of_ne hne])

theorem Instruction.configStep (h : i.exec ctx w = .ok w') (v : Pubkey) : ConfigStep ctx v i w w' := by
  cases i with
  | initializeVault a => exact initializeVault_config h
  | closeVault a => exact closeVault_config h
  | depositFunds a =>
      obtain ⟨_, _, _, _, howned, -, -, rfl⟩ := depositFunds_ok h
      exact .inl (World.config_setVault howned.found)
  | withdrawFunds a =>
      obtain ⟨_, _, _, howned, -, rfl⟩ := withdrawFunds_ok h
      exact .inl (World.config_setVault howned.found)
  | registerAgent a =>
      obtain ⟨_, _, _, howned, -, -, -, -, -, rfl⟩ := registerAgent_ok h
      exact .inl (World.config_setVault howned.found)
  | revokeAgent a =>
      obtain ⟨_, _, howned, -, -, rfl⟩ := revokeAgent_ok h
      exact .inl (World.config_setVault howned.found)
  | pauseAgent a =>
      obtain ⟨_, howned, rfl⟩ := setPaused_ok h
      exact .inl (World.config_setVault howned.found)
  | unpauseAgent a =>
      obtain ⟨_, howned, rfl⟩ := setPaused_ok h
      exact .inl (World.config_setVault howned.found)
  | freezeVault a =>
      obtain ⟨_, _, howned, -, rfl⟩ := freezeVault_ok h
      exact .inl (World.config_setVault howned.found)
  | reactivateVault a =>
      obtain ⟨_, _, howned, -, rfl⟩ := reactivateVault_ok h
      exact .inl (World.config_setVault howned.found)
  | validateAndAuthorize a =>
      obtain ⟨_, _, _, _, _, _, _, ⟨hv, -⟩, -, -, -, -, -, -, -, -, rfl⟩ := validateAndAuthorize_ok h
      exact .inl (World.config_setVault (w := w.setSession _ _) hv)
  | finalizeSession a => exact .inl (finalizeSession_config h)
  | agentTransfer a =>
      obtain ⟨_, _, _, _, _, _, _, _, ⟨hv, -⟩, -, -, -, -, -, rfl⟩ := agentTransfer_ok h
      exact .inl (World.config_setVault (w := (w.setTracker _ _ _ _).setOverlay _ _) hv)
  | createEscrow a =>
      obtain ⟨_, _, _, _, _, _, _, _, _, _, _, _, ⟨hv, -⟩, -, -, -, -, -, -, -, rfl⟩ := createEscrow_ok h
      exact .inl (World.config_setVault (w := (w.setTracker _ _ _ _).setOverlay _ _) hv)
  | settleEscrow a =>
      obtain ⟨_, _, _, ⟨hv, -⟩, -, -, -, -, -, -, rfl⟩ := settleEscrow_ok h
      exact .inl (World.config_setVault (w := w.setEscrow _ _) hv)
  | refundEscrow a =>
      obtain ⟨_, _, _, ⟨hv, -⟩, -, -, -, -, rfl⟩ := refundEscrow_ok h
      exact .inl (World.config_setVault (w := w.setEscrow _ _) hv)
  | closeSettledEscrow a =>
      obtain ⟨_, _, -, -, rfl⟩ := closeSettledEscrow_ok h
      exact .inl rfl
  | queuePolicyUpdate a u => exact queuePolicyUpdate_config h
  | applyPendingPolicy a => exact applyPendingPolicy_config h
  | cancelPendingPolicy a => exact cancelPendingPolicy_config h
  | queueConstraintsUpdate a entries strictMode =>
      obtain ⟨_, _, _, -, -, -, -, -, rfl⟩ := queueConstraintsUpdate_ok h
      exact .inl rfl
  | applyConstraintsUpdate a => exact applyConstraintsUpdate_config h
  | cancelConstraintsUpdate a => exact .inl (by rw [cancelConstraintsUpdate_ok h]; rfl)
  | queueCloseConstraints a =>
      obtain ⟨_, _, -, -, -, -, rfl⟩ := queueCloseConstraints_ok h
      exact .inl rfl
  | applyCloseConstraints a closesPending => exact applyCloseConstraints_config h
  | cancelCloseConstraints a => exact .inl (by rw [cancelCloseConstraints_ok h]; rfl)
  | queueAgentPermissionsUpdate a capability limit =>
      obtain ⟨_, _, -, -, -, -, rfl⟩ := queueAgentPermissionsUpdate_ok h
      exact .inl rfl
  | applyAgentPermissionsUpdate a address => exact applyAgentPermissionsUpdate_config h
  | cancelAgentPermissionsUpdate a address => exact .inl (by rw [cancelAgentPermissionsUpdate_ok h]; rfl)
  | allocateConstraintsPda a => exact allocateConstraintsPda_config h
  | allocatePendingConstraintsPda a => exact .inl (by rw [(allocatePendingConstraintsPda_ok h).2]; rfl)
  | extendPda a pda target => exact extendPda_config h
  | createInstructionConstraints a entries strictMode => exact createInstructionConstraints_config h
  | cleanupOrphanConstraintsPda a => exact cleanupOrphanConstraintsPda_config h
  | createPostAssertions a entries => exact createPostAssertions_config h
  | closePostAssertions a => exact closePostAssertions_config h

theorem Step.configChange (h : st.exec w = .ok w') (v : Pubkey) :
    w'.config v = w.config v ∨
      ∃ i, st.instruction.call = .sigil i ∧ i.exec st.ctx w = .ok w' ∧
        ConfigChange st.ctx v i (w.config v) (w'.config v) := by
  rcases Step.exec_cases h with ⟨i, hcall, -, -, hi⟩ | ⟨_, -, -, _, -, rfl, -⟩
  · exact (i.configStep hi v).imp_right fun hchange => ⟨i, hcall, hi, hchange⟩
  · exact .inl rfl

/-- A property of the configurations that every change keeps holds after every run. -/
theorem config_invariant {P : Pubkey → Config → Prop} (h₀ : ∀ v, P v (({} : World).config v))
    (hchange : ∀ ctx v i c c', P v c → ConfigChange ctx v i c c' → P v c') {steps : List Step}
    (h : run Step.exec steps {} = .ok w) (v : Pubkey) : P v (w.config v) := by
  refine run_invariant (P := fun w => ∀ v, P v (w.config v)) h₀ (fun st _ w₁ w₂ hw₁ hexec v => ?_) h v
  rcases Step.configChange hexec v with heq | ⟨i, -, -, hstep⟩
  · rw [heq]
    exact hw₁ v
  · exact hchange st.ctx v i _ _ (hw₁ v) hstep

end

end Sigil
