import Sigil.Lemmas.Pending
import Sigil.Lemmas.Staff
import Sigil.Theorems.SpendingCap

/-!
# The owner's log

Everything that a vault is held to, from its agents to what is queued for it, is what the owner has decided. The
decisions are read off the instructions alone, so whatever agents and strangers do in between changes nothing of it.
-/

namespace Sigil

open Library

/-! ## What the owner decides -/

structure Governance where
  roster : Option Roster := none
  policy : Option PolicyConfig := none
  pendingPolicy : Option PendingPolicyUpdate := none
  constraints : Option (Allocated InstructionConstraints) := none
  pendingConstraints : Option (Allocated PendingConstraintsUpdate) := none
  pendingCloseConstraints : Option PendingCloseConstraints := none
  /-- Queued permissions of each agent. -/
  pendingAgentPerms : Pubkey → Option PendingAgentPermissionsUpdate := fun _ => none
  assertions : Option PostExecutionAssertions := none

def World.governance (w : World) (v : Pubkey) : Governance :=
  { roster := (w.vaults v).map AgentVault.roster
    policy := w.policies v
    pendingPolicy := w.pendingPolicies v
    constraints := w.constraints v
    pendingConstraints := w.pendingConstraints v
    pendingCloseConstraints := w.pendingCloseConstraints v
    pendingAgentPerms := fun agent => w.pendingAgentPerms (.pendingAgentPerms v agent)
    assertions := w.postAssertions v }

namespace Governance

variable (g : Governance)

def amend (f : Roster → Roster) : Governance := { g with roster := g.roster.map f }

def revise (f : PolicyConfig → PolicyConfig) : Governance := { g with policy := g.policy.map f }

/-- Time from which an update queued now can be applied. -/
def due (clock : Clock) : Int := clock.unixTimestamp + asI64 (g.policy.elim 0 PolicyConfig.timelockDuration)

def hasAgent (agent : Pubkey) : Bool := g.roster.any fun r => r.agents.any fun e => e.pubkey = agent

def closed (a : CloseVault) : Governance :=
  { g with
    roster := none
    policy := none
    pendingPolicy := if g.policy.any PolicyConfig.hasPendingPolicy then none else g.pendingPolicy
    pendingAgentPerms := fun agent =>
      if a.closesPendingAgentPerms.any fun x => g.hasAgent x && agent = x then none else g.pendingAgentPerms agent
    pendingCloseConstraints := if a.closesPendingCloseConstraints then none else g.pendingCloseConstraints }

def permitted (agent : Pubkey) : Governance :=
  match g.pendingAgentPerms agent with
  | none => g
  | some pending =>
      { (g.amend fun r => { r with agents := updateAgent r.agents pending.agent pending.permit }).revise
          PolicyConfig.bumped with
        pendingAgentPerms := Function.update g.pendingAgentPerms agent none }

end Governance

/-- Agents without one of them; nobody is left to act for a vault without agents. -/
def Roster.without (r : Roster) (agent : Pubkey) : Roster :=
  { r with
    agents := r.agents.filter fun e => e.pubkey ≠ agent
    status := if (r.agents.filter fun e => e.pubkey ≠ agent) = [] then .frozen else r.status }

def ReactivateVault.newEntries (a : ReactivateVault) : List AgentEntry :=
  match a.newAgent, a.newAgentCapability with
  | some agent, some c => [{ pubkey := agent, capability := c.toNat, spendingLimitUsd := 0 }]
  | _, _ => []

def permissionsUpdate (a : AgentAction) (newCapability : UInt8) (limit : UInt64) (clock : Clock) (due : Int) :
    PendingAgentPermissionsUpdate :=
  { vault := a.vault, agent := a.agent, newCapability := newCapability.toNat, spendingLimitUsd := limit.toNat,
    queuedAt := clock.unixTimestamp, executesAt := due, queuedAtSlot := clock.slot }

def constraintsUpdate (entries : List ConstraintEntry) (strictMode : Bool) (clock : Clock) (due : Int) :
    PendingConstraintsUpdate :=
  { entries := entries, strictMode := strictMode, queuedAt := clock.unixTimestamp, executesAt := due,
    queuedAtSlot := clock.slot }

namespace Instruction

/-- The vault that an instruction decides on. -/
def governed : Instruction → Option Pubkey
  | .initializeVault a => some a.vault
  | .closeVault a => some a.vault
  | .registerAgent a => some a.vault
  | .revokeAgent a | .pauseAgent a | .unpauseAgent a => some a.vault
  | .freezeVault a => some a.vault
  | .reactivateVault a => some a.vault
  | .queuePolicyUpdate a _ | .applyPendingPolicy a | .cancelPendingPolicy a => some a.vault
  | .queueConstraintsUpdate a _ _ | .applyConstraintsUpdate a | .cancelConstraintsUpdate a => some a.vault
  | .queueCloseConstraints a | .applyCloseConstraints a _ | .cancelCloseConstraints a => some a.vault
  | .queueAgentPermissionsUpdate a _ _ => some a.vault
  | .applyAgentPermissionsUpdate a _ | .cancelAgentPermissionsUpdate a _ => some a.vault
  | .allocateConstraintsPda a | .allocatePendingConstraintsPda a | .extendPda a _ _ => some a.vault
  | .createInstructionConstraints a _ _ | .cleanupOrphanConstraintsPda a => some a.vault
  | .createPostAssertions a _ | .closePostAssertions a => some a.vault
  | .depositFunds _ | .withdrawFunds _ | .validateAndAuthorize _ | .finalizeSession _ | .agentTransfer _ => none
  | .createEscrow _ | .settleEscrow _ | .refundEscrow _ | .closeSettledEscrow _ => none

/-- What the decision makes of the vault, whatever else there is on the chain. -/
@[simp] def govern (clock : Clock) (g : Governance) : Instruction → Governance
  | .initializeVault a =>
      { g with roster := some { owner := a.owner, status := .active, agents := [] }, policy := some a.policy }
  | .closeVault a => g.closed a
  | .registerAgent a => g.amend fun r => { r with agents := r.agents ++ [a.entry] }
  | .revokeAgent a => g.amend fun r => r.without a.agent
  | .pauseAgent a => g.amend fun r =>
      { r with agents := updateAgent r.agents a.agent fun e => { e with paused := true } }
  | .unpauseAgent a => g.amend fun r =>
      { r with agents := updateAgent r.agents a.agent fun e => { e with paused := false } }
  | .freezeVault _ => g.amend fun r => { r with status := .frozen }
  | .reactivateVault a => g.amend fun r => { r with status := .active, agents := r.agents ++ a.newEntries }
  | .queuePolicyUpdate _ u =>
      { g.revise fun p => { p with hasPendingPolicy := true } with
        pendingPolicy := some (u.pending clock (g.due clock)) }
  | .applyPendingPolicy _ =>
      { g.revise fun p => (g.pendingPolicy.elim p fun pending => pending.applyTo p).bumped with pendingPolicy := none }
  | .cancelPendingPolicy _ => { g.revise fun p => { p with hasPendingPolicy := false } with pendingPolicy := none }
  | .queueConstraintsUpdate _ entries strictMode =>
      let pending := constraintsUpdate entries strictMode clock (g.due clock)
      { g with pendingConstraints := g.pendingConstraints.map fun account => account.write pending }
  | .applyConstraintsUpdate _ =>
      { g.revise PolicyConfig.bumped with
        constraints := g.constraints.map fun account =>
          (g.pendingConstraints.bind Allocated.content).elim account fun pending => account.write pending.constraints
        pendingConstraints := none }
  | .cancelConstraintsUpdate _ => { g with pendingConstraints := none }
  | .queueCloseConstraints _ =>
      let pending : PendingCloseConstraints :=
        { queuedAt := clock.unixTimestamp, executesAt := g.due clock, queuedAtSlot := clock.slot }
      { g with pendingCloseConstraints := some pending }
  | .applyCloseConstraints _ closesPending =>
      { g.revise (fun p => PolicyConfig.bumped { p with hasConstraints := false }) with
        constraints := none
        pendingCloseConstraints := none
        pendingConstraints := if closesPending then none else g.pendingConstraints }
  | .cancelCloseConstraints _ => { g with pendingCloseConstraints := none }
  | .queueAgentPermissionsUpdate a newCapability limit =>
      let pending := permissionsUpdate a newCapability limit clock (g.due clock)
      { g with pendingAgentPerms := Function.update g.pendingAgentPerms a.agent (some pending) }
  | .applyAgentPermissionsUpdate _ (.pendingAgentPerms _ agent) => g.permitted agent
  | .cancelAgentPermissionsUpdate _ (.pendingAgentPerms _ agent) =>
      { g with pendingAgentPerms := Function.update g.pendingAgentPerms agent none }
  | .allocateConstraintsPda a => { g with constraints := some { size := maxCpiAccountSize, vault := a.vault } }
  | .allocatePendingConstraintsPda a =>
      { g with pendingConstraints := some { size := maxCpiAccountSize, vault := a.vault } }
  | .extendPda _ (.constraints _) target =>
      { g with constraints := g.constraints.map fun account => { account with size := target.toNat } }
  | .extendPda _ (.pendingConstraints _) target =>
      { g with pendingConstraints := g.pendingConstraints.map fun account => { account with size := target.toNat } }
  | .createInstructionConstraints _ entries strictMode =>
      { g.revise fun p => { p with hasConstraints := true } with
        constraints := g.constraints.map fun account => account.write { entries := entries, strictMode := strictMode } }
  | .cleanupOrphanConstraintsPda _ => { g with constraints := none }
  | .createPostAssertions _ entries =>
      { g.revise fun p => { p with hasPostAssertions := 1 } with assertions := some { entries := entries } }
  | .closePostAssertions _ => { g.revise fun p => { p with hasPostAssertions := 0 } with assertions := none }
  | _ => g

end Instruction

/-- A decision with the time it was made at. -/
def Step.decision (v : Pubkey) (st : Step) : Option (Clock × Instruction) :=
  match st.instruction.call with
  | .sigil i => if i.governed = some v then some (st.ctx.clock, i) else none
  | .foreign _ => none

/-- The decisions on a vault, oldest first. -/
def ownerLog (v : Pubkey) (steps : List Step) : List (Clock × Instruction) := steps.filterMap (Step.decision v)

/-- A vault as its owner has decided. -/
def Governance.decided (log : List (Clock × Instruction)) : Governance :=
  log.foldl (fun g decision => decision.2.govern decision.1 g) {}

section
variable {w w' : World} {ctx : Ctx} {v y : Pubkey} {i : Instruction} {vault : AgentVault} {policy : PolicyConfig}

/-! ## Each instruction -/

/-- What an instruction does to the decisions on a vault. -/
def Governs (ctx : Ctx) (v : Pubkey) (i : Instruction) (w w' : World) : Prop :=
  w'.governance v = if i.governed = some v then i.govern ctx.clock (w.governance v) else w.governance v

theorem Governs.of_vault (hvault : i.governed = some y)
    (hself : w'.governance y = i.govern ctx.clock (w.governance y))
    (hother : ∀ v, v ≠ y → w'.governance v = w.governance v) (v : Pubkey) : Governs ctx v i w w' := by
  rw [Governs, hvault]
  rcases eq_or_ne v y with rfl | hne
  · rw [if_pos rfl, hself]
  · rw [if_neg fun heq => hne (Option.some.inj heq).symm, hother v hne]

theorem Governs.of_same (hvault : i.governed = none) (h : w'.governance v = w.governance v) : Governs ctx v i w w' := by
  rw [Governs, hvault, if_neg (by simp), h]

namespace World

theorem governance_roster (hv : w.vaults v = some vault) : (w.governance v).roster = some vault.roster := by
  simp [governance, hv]

theorem governance_setVault :
    (w.setVault v vault).governance v = { w.governance v with roster := some vault.roster } := by
  simp [governance, setVault]

theorem governance_setVault_of_ne (hne : v ≠ y) : (w.setVault y vault).governance v = w.governance v := by
  simp [governance, setVault, Function.update_of_ne hne]

/-- A vault that keeps its roster. -/
theorem governance_setVault_of_roster {vault' : AgentVault} (hv : w.vaults y = some vault)
    (hroster : vault'.roster = vault.roster) : (w.setVault y vault').governance v = w.governance v := by
  rcases eq_or_ne v y with rfl | hne
  · rw [governance_setVault, hroster, ← governance_roster hv]
  · exact governance_setVault_of_ne hne

theorem governance_setPolicy : (w.setPolicy v policy).governance v = { w.governance v with policy := some policy } := by
  simp [governance, setPolicy]

theorem governance_setPolicy_of_ne (hne : v ≠ y) : (w.setPolicy y policy).governance v = w.governance v := by
  simp [governance, setPolicy, Function.update_of_ne hne]

end World

theorem Governance.amend_eq {g : Governance} {r : Roster} (hr : g.roster = some r) (f : Roster → Roster) :
    g.amend f = { g with roster := some (f r) } := by simp [amend, hr]

theorem Governance.revise_eq {g : Governance} (hp : g.policy = some policy) (f : PolicyConfig → PolicyConfig) :
    g.revise f = { g with policy := some (f policy) } := by simp [revise, hp]

theorem Governance.due_eq {g : Governance} (hp : g.policy = some policy) (clock : Clock) :
    g.due clock = clock.unixTimestamp + asI64 policy.timelockDuration := by simp [due, hp]

theorem initializeVault_governs {a : InitializeVault} (h : initializeVault ctx a w = .ok w') (v : Pubkey) :
    Governs ctx v (.initializeVault a) w w' := by
  obtain ⟨-, -, rfl⟩ := initializeVault_ok h
  refine .of_vault rfl ?_ (fun v hne => ?_) v
  · simp [World.governance, AgentVault.roster, InitializeVault.newVault]
  · simp [World.governance, Function.update_of_ne hne]

theorem closeVault_governs {a : CloseVault} (h : closeVault ctx a w = .ok w') (v : Pubkey) :
    Governs ctx v (.closeVault a) w w' := by
  obtain ⟨vault, policy, hclosable, rfl⟩ := closeVault_ok h
  refine .of_vault rfl ?_ (fun v hne => ?_) v
  · have hagent : ∀ agent, (w.governance a.vault).hasAgent agent = vault.isAgent agent := by
      intro agent
      rw [Governance.hasAgent, World.governance_roster hclosable.owned.found]
      rfl
    have hpolicy : (w.governance a.vault).policy = some policy := hclosable.found
    simp only [Instruction.govern, Governance.closed, hagent, hpolicy, Option.any_some]
    simp only [World.governance, World.withoutVault, CloseVault.clearsAgentPerms, Pubkey.pendingAgentPerms.injEq,
      true_and, Function.update_self, Option.map_none, Governance.mk.injEq, and_self, and_true]
    constructor
    · split
      · rw [Function.update_self]
      · rfl
    · split
      · rw [Function.update_self]
      · rfl
  · have hperms : ∀ agent, a.clearsAgentPerms vault (.pendingAgentPerms v agent) = false := by
      intro agent
      simp [CloseVault.clearsAgentPerms, hne]
    simp only [World.governance, World.withoutVault, hperms, Function.update_of_ne hne, Governance.mk.injEq, true_and,
      and_true, Bool.false_eq_true, if_false]
    constructor
    · split
      · rw [Function.update_of_ne hne]
      · rfl
    · split
      · rw [Function.update_of_ne hne]
      · rfl

/-- An instruction that writes the roster of one vault only. -/
theorem Governs.of_setVault (v : Pubkey) {vault' : AgentVault} {f : Roster → Roster} (hvault : i.governed = some y)
    (hv : w.vaults y = some vault) (hgovern : ∀ g, i.govern ctx.clock g = g.amend f)
    (heq : ∀ v, w'.governance v = (w.setVault y vault').governance v) (hroster : vault'.roster = f vault.roster) :
    Governs ctx v i w w' := by
  refine .of_vault hvault ?_ (fun v hne => ?_) v
  · rw [heq, World.governance_setVault, hgovern, Governance.amend_eq (World.governance_roster hv), hroster]
  · rw [heq, World.governance_setVault_of_ne hne]

theorem registerAgent_governs {a : RegisterAgent} (h : registerAgent ctx a w = .ok w') (v : Pubkey) :
    Governs ctx v (.registerAgent a) w w' := by
  obtain ⟨vault, _, _, howned, -, -, -, -, -, rfl⟩ := registerAgent_ok h
  exact .of_setVault v rfl howned.found (fun _ => rfl) (fun _ => rfl) rfl

theorem revokeAgent_governs {a : AgentAction} (h : revokeAgent ctx a w = .ok w') (v : Pubkey) :
    Governs ctx v (.revokeAgent a) w w' := by
  obtain ⟨vault, _, howned, -, -, rfl⟩ := revokeAgent_ok h
  exact .of_setVault v rfl howned.found (fun _ => rfl) (fun _ => rfl) rfl

theorem setPaused_governs {a : AgentAction} {paused : Bool} {e : SigilError} (hvault : i.governed = some a.vault)
    (hgovern : ∀ g, i.govern ctx.clock g = g.amend fun r =>
      { r with agents := updateAgent r.agents a.agent fun e => { e with paused := paused } })
    (h : setPaused ctx a paused e w = .ok w') (v : Pubkey) : Governs ctx v i w w' := by
  obtain ⟨vault, howned, rfl⟩ := setPaused_ok h
  exact .of_setVault v hvault howned.found hgovern (fun _ => rfl) rfl

theorem freezeVault_governs {a : FreezeVault} (h : freezeVault ctx a w = .ok w') (v : Pubkey) :
    Governs ctx v (.freezeVault a) w w' := by
  obtain ⟨vault, _, howned, -, rfl⟩ := freezeVault_ok h
  exact .of_setVault v rfl howned.found (fun _ => rfl) (fun _ => rfl) rfl

theorem reactivatedAgents_eq {agents : List AgentEntry} {a : ReactivateVault}
    (h : reactivatedAgents vault a.newAgent a.newAgentCapability = .ok agents) :
    agents = vault.agents ++ a.newEntries := by
  unfold ReactivateVault.newEntries
  unfold reactivatedAgents at h
  split at h
  · rename_i hagent hcapability
    rw [hagent, hcapability, List.append_nil]
    exact (pure_eq_ok.mp h).symm
  · rename_i agent c hagent hcapability
    simp only [bind_eq_ok, require_eq_ok, exists_and_left, exists_const, pure_eq_ok] at h
    obtain ⟨-, -, -, -, -, rfl⟩ := h
    rw [hagent, hcapability]
  · cases h

theorem reactivateVault_governs {a : ReactivateVault} (h : reactivateVault ctx a w = .ok w') (v : Pubkey) :
    Governs ctx v (.reactivateVault a) w w' := by
  obtain ⟨vault, agents, howned, hagents, rfl⟩ := reactivateVault_ok h
  obtain rfl := reactivatedAgents_eq hagents
  exact .of_setVault v rfl howned.found (fun _ => rfl) (fun _ => rfl) rfl

/-! ### The policy -/

theorem queuePolicyUpdate_governs {a : OwnerAction} {u : PolicyUpdate} (h : queuePolicyUpdate ctx a u w = .ok w')
    (v : Pubkey) : Governs ctx v (.queuePolicyUpdate a u) w w' := by
  obtain ⟨_, policy, executes, -, hp, -, -, -, hexecutes, rfl⟩ := queuePolicyUpdate_ok h
  refine .of_vault rfl ?_ (fun v hne => ?_) v
  · have hpolicy : (w.governance a.vault).policy = some policy := hp
    rw [executesAt_ok hexecutes, Instruction.govern, Governance.revise_eq hpolicy, Governance.due_eq hpolicy,
      World.governance_setPolicy]
    simp [World.governance, World.setPendingPolicy]
  · rw [World.governance_setPolicy_of_ne hne]
    simp [World.governance, World.setPendingPolicy, Function.update_of_ne hne]

theorem applyPendingPolicy_governs {a : OwnerAction} (h : applyPendingPolicy ctx a w = .ok w') (v : Pubkey) :
    Governs ctx v (.applyPendingPolicy a) w w' := by
  obtain ⟨_, policy, pending, -, hp, hpending, -, rfl⟩ := applyPendingPolicy_ok h
  refine .of_vault rfl ?_ (fun v hne => ?_) v
  · have hpolicy : (w.governance a.vault).policy = some policy := hp
    have hqueued : (w.governance a.vault).pendingPolicy = some pending := hpending
    rw [Instruction.govern, Governance.revise_eq hpolicy, hqueued, World.governance_setPolicy]
    simp [World.governance, World.setPendingPolicy]
  · rw [World.governance_setPolicy_of_ne hne]
    simp [World.governance, World.setPendingPolicy, Function.update_of_ne hne]

theorem cancelPendingPolicy_governs {a : OwnerAction} (h : cancelPendingPolicy ctx a w = .ok w') (v : Pubkey) :
    Governs ctx v (.cancelPendingPolicy a) w w' := by
  obtain ⟨_, policy, _, -, hp, -, rfl⟩ := cancelPendingPolicy_ok h
  refine .of_vault rfl ?_ (fun v hne => ?_) v
  · have hpolicy : (w.governance a.vault).policy = some policy := hp
    rw [Instruction.govern, Governance.revise_eq hpolicy, World.governance_setPolicy]
    simp [World.governance, World.setPendingPolicy]
  · rw [World.governance_setPolicy_of_ne hne]
    simp [World.governance, World.setPendingPolicy, Function.update_of_ne hne]

/-! ### The constraints -/

theorem queueConstraintsUpdate_governs {a : OwnerAction} {entries : List ConstraintEntry} {strictMode : Bool}
    (h : queueConstraintsUpdate ctx a entries strictMode w = .ok w') (v : Pubkey) :
    Governs ctx v (.queueConstraintsUpdate a entries strictMode) w w' := by
  simp only [queueConstraintsUpdate, bind_eq_ok, okOr_eq_ok, require_eq_ok, exists_and_left, exists_const, pure_eq_ok,
    World.loadPolicy_eq_ok] at h
  obtain ⟨_, -, policy, hp, _, -, -, _, -, account, haccount, -, executes, hexecutes, _, -, rfl⟩ := h
  refine .of_vault rfl ?_ (fun v hne => ?_) v
  · have hpolicy : (w.governance a.vault).policy = some policy := hp
    have hpending : (w.governance a.vault).pendingConstraints = some account := haccount
    rw [executesAt_ok hexecutes, Instruction.govern, Governance.due_eq hpolicy, hpending]
    simp [World.governance, World.setPendingConstraints, constraintsUpdate]
  · simp [World.governance, World.setPendingConstraints, Function.update_of_ne hne]

theorem applyConstraintsUpdate_governs {a : OwnerAction} (h : applyConstraintsUpdate ctx a w = .ok w') (v : Pubkey) :
    Governs ctx v (.applyConstraintsUpdate a) w w' := by
  obtain ⟨_, policy, _, pending, -, hp, -, hpending, -, rfl⟩ := applyConstraintsUpdate_ok h
  refine .of_vault rfl ?_ (fun v hne => ?_) v
  · have hpolicy : (w.governance a.vault).policy = some policy := hp
    have hqueued : (w.governance a.vault).pendingConstraints.bind Allocated.content = some pending := hpending
    rw [Instruction.govern, Governance.revise_eq hpolicy, hqueued, World.governance_setPolicy]
    simp [World.governance, World.setPendingConstraints, World.setConstraints]
  · rw [World.governance_setPolicy_of_ne hne]
    simp [World.governance, World.setPendingConstraints, World.setConstraints, Function.update_of_ne hne]

theorem cancelConstraintsUpdate_governs {a : OwnerAction} (h : cancelConstraintsUpdate ctx a w = .ok w') (v : Pubkey) :
    Governs ctx v (.cancelConstraintsUpdate a) w w' := by
  obtain rfl := cancelConstraintsUpdate_ok h
  refine .of_vault rfl ?_ (fun v hne => ?_) v
  · simp [World.governance, World.setPendingConstraints]
  · simp [World.governance, World.setPendingConstraints, Function.update_of_ne hne]

theorem queueCloseConstraints_governs {a : OwnerAction} (h : queueCloseConstraints ctx a w = .ok w') (v : Pubkey) :
    Governs ctx v (.queueCloseConstraints a) w w' := by
  simp only [queueCloseConstraints, bind_eq_ok, pure_eq_ok, World.loadPolicy_eq_ok] at h
  obtain ⟨_, -, policy, hp, _, -, _, -, _, -, _, -, executes, hexecutes, rfl⟩ := h
  refine .of_vault rfl ?_ (fun v hne => ?_) v
  · have hpolicy : (w.governance a.vault).policy = some policy := hp
    rw [executesAt_ok hexecutes, Instruction.govern, Governance.due_eq hpolicy]
    simp [World.governance, World.setPendingCloseConstraints]
  · simp [World.governance, World.setPendingCloseConstraints, Function.update_of_ne hne]

theorem applyCloseConstraints_governs {a : OwnerAction} {closesPending : Bool}
    (h : applyCloseConstraints ctx a closesPending w = .ok w') (v : Pubkey) :
    Governs ctx v (.applyCloseConstraints a closesPending) w w' := by
  have hpending := applyCloseConstraints_pending h
  obtain ⟨_, policy, _, -, hp, -, -, hw'⟩ := applyCloseConstraints_ok h
  have hclosed : ∀ v, w'.governance v = { (w.withoutConstraints a.vault policy).governance v with
      pendingConstraints := w'.pendingConstraints v } := by
    rcases hw' with rfl | rfl
    · intro v
      rfl
    · intro v
      rfl
  refine .of_vault rfl ?_ (fun v hne => ?_) v
  · have hpolicy : (w.governance a.vault).policy = some policy := hp
    rw [hclosed, hpending, Instruction.govern, Governance.revise_eq hpolicy, World.withoutConstraints,
      World.governance_setPolicy]
    cases closesPending with
    | true => simp [World.governance, World.setPendingCloseConstraints, World.setConstraints]
    | false => simp [World.governance, World.setPendingCloseConstraints, World.setConstraints]
  · rw [hclosed, hpending, World.withoutConstraints, World.governance_setPolicy_of_ne hne]
    cases closesPending with
    | true =>
        simp [World.governance, World.setPendingCloseConstraints, World.setConstraints, Function.update_of_ne hne]
    | false =>
        simp [World.governance, World.setPendingCloseConstraints, World.setConstraints, Function.update_of_ne hne]

theorem cancelCloseConstraints_governs {a : OwnerAction} (h : cancelCloseConstraints ctx a w = .ok w') (v : Pubkey) :
    Governs ctx v (.cancelCloseConstraints a) w w' := by
  obtain rfl := cancelCloseConstraints_ok h
  refine .of_vault rfl ?_ (fun v hne => ?_) v
  · simp [World.governance, World.setPendingCloseConstraints]
  · simp [World.governance, World.setPendingCloseConstraints, Function.update_of_ne hne]

theorem allocateConstraintsPda_governs {a : OwnerAction} (h : allocateConstraintsPda ctx a w = .ok w') (v : Pubkey) :
    Governs ctx v (.allocateConstraintsPda a) w w' := by
  obtain ⟨_, _, -, -, -, rfl⟩ := allocateConstraintsPda_ok h
  refine .of_vault rfl ?_ (fun v hne => ?_) v
  · simp [World.governance, World.setConstraints]
  · simp [World.governance, World.setConstraints, Function.update_of_ne hne]

theorem allocatePendingConstraintsPda_governs {a : OwnerAction}
    (h : allocatePendingConstraintsPda ctx a w = .ok w') (v : Pubkey) :
    Governs ctx v (.allocatePendingConstraintsPda a) w w' := by
  obtain ⟨-, rfl⟩ := allocatePendingConstraintsPda_ok h
  refine .of_vault rfl ?_ (fun v hne => ?_) v
  · simp [World.governance, World.setPendingConstraints]
  · simp [World.governance, World.setPendingConstraints, Function.update_of_ne hne]

theorem createInstructionConstraints_governs {a : OwnerAction} {entries : List ConstraintEntry} {strictMode : Bool}
    (h : createInstructionConstraints ctx a entries strictMode w = .ok w') (v : Pubkey) :
    Governs ctx v (.createInstructionConstraints a entries strictMode) w w' := by
  obtain ⟨_, policy, account, -, hp, hc, -, -, -, rfl⟩ := createInstructionConstraints_ok h
  refine .of_vault rfl ?_ (fun v hne => ?_) v
  · have hpolicy : (w.governance a.vault).policy = some policy := hp
    have hconstraints : (w.governance a.vault).constraints = some account := hc
    rw [Instruction.govern, Governance.revise_eq hpolicy, hconstraints, World.governance_setPolicy]
    simp [World.governance, World.setConstraints]
  · rw [World.governance_setPolicy_of_ne hne]
    simp [World.governance, World.setConstraints, Function.update_of_ne hne]

theorem cleanupOrphanConstraintsPda_governs {a : OwnerAction} (h : cleanupOrphanConstraintsPda ctx a w = .ok w')
    (v : Pubkey) : Governs ctx v (.cleanupOrphanConstraintsPda a) w w' := by
  obtain ⟨_, _, _, -, -, -, -, rfl⟩ := cleanupOrphanConstraintsPda_ok h
  refine .of_vault rfl ?_ (fun v hne => ?_) v
  · simp [World.governance, World.setConstraints]
  · simp [World.governance, World.setConstraints, Function.update_of_ne hne]

/-- Every allocated account lies under the vault it was allocated for. -/
structure World.AllocatedInPlace (w : World) : Prop where
  constraints : ∀ v account, w.constraints v = some account → account.vault = v
  pendingConstraints : ∀ v account, w.pendingConstraints v = some account → account.vault = v

theorem extendPda_governs {a : OwnerAction} {pda : Pubkey} {target : UInt32} (hplace : w.AllocatedInPlace)
    (h : extendPda ctx a pda target w = .ok w') (v : Pubkey) : Governs ctx v (.extendPda a pda target) w w' := by
  simp only [extendPda, bind_eq_ok] at h
  obtain ⟨_, -, h⟩ := h
  split at h
  · rename_i y
    simp only [bind_eq_ok, pure_eq_ok] at h
    obtain ⟨_, hextend, rfl⟩ := h
    obtain ⟨account, haccount, -, hvault, -, rfl⟩ := extendAllocated_ok hextend
    obtain rfl := (hplace.constraints y account haccount).symm.trans hvault
    refine .of_vault rfl ?_ (fun v hne => ?_) v
    · simp [World.governance, World.setConstraints, haccount]
    · simp [World.governance, World.setConstraints, Function.update_of_ne hne]
  · rename_i y
    simp only [bind_eq_ok, pure_eq_ok] at h
    obtain ⟨_, hextend, rfl⟩ := h
    obtain ⟨account, haccount, -, hvault, -, rfl⟩ := extendAllocated_ok hextend
    obtain rfl := (hplace.pendingConstraints y account haccount).symm.trans hvault
    refine .of_vault rfl ?_ (fun v hne => ?_) v
    · simp [World.governance, World.setPendingConstraints, haccount]
    · simp [World.governance, World.setPendingConstraints, Function.update_of_ne hne]
  · cases h

/-! ### Permissions and assertions -/

theorem World.governance_setPendingAgentPerms (agent : Pubkey) (o : Option PendingAgentPermissionsUpdate) :
    (w.setPendingAgentPerms (.pendingAgentPerms v agent) o).governance v =
      { w.governance v with pendingAgentPerms := Function.update (w.governance v).pendingAgentPerms agent o } := by
  simp only [governance, setPendingAgentPerms, Governance.mk.injEq, true_and, and_true]
  funext x
  simp [Function.update_apply]

theorem World.governance_setPendingAgentPerms_of_ne (hne : v ≠ y) (agent : Pubkey)
    (o : Option PendingAgentPermissionsUpdate) :
    (w.setPendingAgentPerms (.pendingAgentPerms y agent) o).governance v = w.governance v := by
  simp [governance, setPendingAgentPerms, hne]

theorem queueAgentPermissionsUpdate_governs {a : AgentAction} {capability : UInt8} {limit : UInt64}
    (h : queueAgentPermissionsUpdate ctx a capability limit w = .ok w') (v : Pubkey) :
    Governs ctx v (.queueAgentPermissionsUpdate a capability limit) w w' := by
  simp only [queueAgentPermissionsUpdate, bind_eq_ok, pure_eq_ok, World.loadPolicy_eq_ok] at h
  obtain ⟨_, -, policy, hp, _, -, _, -, _, -, _, -, _, -, executes, hexecutes, rfl⟩ := h
  refine .of_vault rfl ?_ (fun v hne => World.governance_setPendingAgentPerms_of_ne hne _ _) v
  have hpolicy : (w.governance a.vault).policy = some policy := hp
  rw [executesAt_ok hexecutes, World.governance_setPendingAgentPerms, Instruction.govern, Governance.due_eq hpolicy]
  rfl

theorem applyAgentPermissionsUpdate_governs {a : OwnerAction} {address : Pubkey}
    (h : applyAgentPermissionsUpdate ctx a address w = .ok w') (v : Pubkey) :
    Governs ctx v (.applyAgentPermissionsUpdate a address) w w' := by
  simp only [applyAgentPermissionsUpdate, bind_eq_ok, okOr_eq_ok, bumpVersion_eq_ok, pure_eq_ok,
    World.loadPolicy_eq_ok, World.loadOverlay_eq_ok, World.loadOwnedVault_eq_ok, loadPendingAgentPerms_eq_ok] at h
  obtain ⟨vault, howned, policy, hp, pending, ⟨hpending, -, rfl⟩, overlay, -, _, -, entry, -, overlay', -, _, ⟨-, rfl⟩,
    rfl⟩ := h
  refine .of_vault rfl ?_ (fun v hne => ?_) v
  · have hpolicy : (w.governance a.vault).policy = some policy := hp
    have hroster := World.governance_roster howned.found
    have hqueued : (w.governance a.vault).pendingAgentPerms pending.agent = some pending := hpending
    rw [Instruction.govern, Governance.permitted, hqueued, World.governance_setPendingAgentPerms,
      World.governance_setPolicy]
    simp only [Governance.amend, Governance.revise, hroster, hpolicy, Option.map_some]
    rw [World.governance, World.governance, Governance.mk.injEq]
    refine ⟨?_, rfl, rfl, rfl, rfl, rfl, rfl, rfl⟩
    simp only [World.setOverlay, World.setVault, Function.update_self, Option.map_some]
    rfl
  · rw [World.governance_setPendingAgentPerms_of_ne hne, World.governance_setPolicy_of_ne hne]
    exact World.governance_setVault_of_ne hne

theorem cancelAgentPermissionsUpdate_governs {a : OwnerAction} {address : Pubkey}
    (h : cancelAgentPermissionsUpdate ctx a address w = .ok w') (v : Pubkey) :
    Governs ctx v (.cancelAgentPermissionsUpdate a address) w w' := by
  simp only [cancelAgentPermissionsUpdate, bind_eq_ok, pure_eq_ok, loadPendingAgentPerms_eq_ok] at h
  obtain ⟨_, -, pending, ⟨-, -, rfl⟩, rfl⟩ := h
  refine .of_vault rfl ?_ (fun v hne => World.governance_setPendingAgentPerms_of_ne hne _ _) v
  rw [World.governance_setPendingAgentPerms, Instruction.govern]

theorem createPostAssertions_governs {a : OwnerAction} {entries : List PostAssertionEntry}
    (h : createPostAssertions ctx a entries w = .ok w') (v : Pubkey) :
    Governs ctx v (.createPostAssertions a entries) w w' := by
  obtain ⟨_, policy, -, hp, -, rfl⟩ := createPostAssertions_ok h
  refine .of_vault rfl ?_ (fun v hne => ?_) v
  · have hpolicy : (w.governance a.vault).policy = some policy := hp
    rw [Instruction.govern, Governance.revise_eq hpolicy, World.governance_setPolicy]
    simp [World.governance, World.setPostAssertions]
  · rw [World.governance_setPolicy_of_ne hne]
    simp [World.governance, World.setPostAssertions, Function.update_of_ne hne]

theorem closePostAssertions_governs {a : OwnerAction} (h : closePostAssertions ctx a w = .ok w') (v : Pubkey) :
    Governs ctx v (.closePostAssertions a) w w' := by
  obtain ⟨_, policy, -, hp, rfl⟩ := closePostAssertions_ok h
  refine .of_vault rfl ?_ (fun v hne => ?_) v
  · have hpolicy : (w.governance a.vault).policy = some policy := hp
    rw [Instruction.govern, Governance.revise_eq hpolicy, World.governance_setPolicy]
    simp [World.governance, World.setPostAssertions]
  · rw [World.governance_setPolicy_of_ne hne]
    simp [World.governance, World.setPostAssertions, Function.update_of_ne hne]

/-! ## All of them -/

/-- Payments, sessions and escrows decide nothing. -/
theorem Instruction.governStep (hplace : w.AllocatedInPlace) (h : i.exec ctx w = .ok w') (v : Pubkey) :
    Governs ctx v i w w' := by
  cases i with
  | initializeVault a => exact initializeVault_governs h v
  | closeVault a => exact closeVault_governs h v
  | depositFunds a =>
      obtain ⟨_, _, _, _, howned, -, -, rfl⟩ := depositFunds_ok h
      exact .of_same rfl (World.governance_setVault_of_roster howned.found rfl)
  | withdrawFunds a =>
      obtain ⟨_, _, _, howned, -, rfl⟩ := withdrawFunds_ok h
      exact .of_same rfl (World.governance_setVault_of_roster howned.found rfl)
  | registerAgent a => exact registerAgent_governs h v
  | revokeAgent a => exact revokeAgent_governs h v
  | pauseAgent a => exact setPaused_governs rfl (fun _ => rfl) h v
  | unpauseAgent a => exact setPaused_governs rfl (fun _ => rfl) h v
  | freezeVault a => exact freezeVault_governs h v
  | reactivateVault a => exact reactivateVault_governs h v
  | validateAndAuthorize a =>
      obtain ⟨_, _, _, _, _, _, _, ⟨hv, -⟩, -, -, -, -, -, -, -, -, rfl⟩ := validateAndAuthorize_ok h
      exact .of_same rfl (World.governance_setVault_of_roster (w := w.setSession _ _) hv rfl)
  | finalizeSession a =>
      obtain ⟨vault, _, _, _, _, charged, _, ⟨hv, -⟩, -, -, -, -, hcharge, hstats, rfl⟩ := finalizeSession_ok h
      have hroster := finalizeStats_roster hstats
      rcases chargeSession_ok hcharge with ⟨-, rfl⟩ | ⟨-, _, _, _, -, -, rfl⟩
      · exact .of_same rfl (World.governance_setVault_of_roster (w := charged.setSession a.session none) hv hroster)
      · exact .of_same rfl (World.governance_setVault_of_roster (w := w.setSession a.session none) hv hroster)
  | agentTransfer a =>
      obtain ⟨t⟩ := agentTransfer_trace h
      refine .of_same rfl ((congrArg (World.governance · v) t.result).trans ?_)
      exact World.governance_setVault_of_roster (w := (w.setTracker _ _ _ _).setOverlay _ _) t.vault_found
        (addPayment_roster t.counted)
  | createEscrow a =>
      obtain ⟨t⟩ := createEscrow_trace h
      have hroster : t.vault'.roster = t.vault.roster := addPayment_roster t.counted
      refine .of_same rfl ((congrArg (World.governance · v) t.result).trans ?_)
      exact World.governance_setVault_of_roster (w := (w.setTracker _ _ _ _).setOverlay _ _) t.vault_found hroster
  | settleEscrow a =>
      obtain ⟨_, _, _, ⟨hv, -⟩, -, -, -, -, -, -, rfl⟩ := settleEscrow_ok h
      exact .of_same rfl (World.governance_setVault_of_roster (w := w.setEscrow _ _) hv rfl)
  | refundEscrow a =>
      obtain ⟨_, _, _, ⟨hv, -⟩, -, -, -, -, rfl⟩ := refundEscrow_ok h
      exact .of_same rfl (World.governance_setVault_of_roster (w := w.setEscrow _ _) hv rfl)
  | closeSettledEscrow a =>
      obtain ⟨_, _, -, -, rfl⟩ := closeSettledEscrow_ok h
      exact .of_same rfl rfl
  | queuePolicyUpdate a u => exact queuePolicyUpdate_governs h v
  | applyPendingPolicy a => exact applyPendingPolicy_governs h v
  | cancelPendingPolicy a => exact cancelPendingPolicy_governs h v
  | queueConstraintsUpdate a entries strictMode => exact queueConstraintsUpdate_governs h v
  | applyConstraintsUpdate a => exact applyConstraintsUpdate_governs h v
  | cancelConstraintsUpdate a => exact cancelConstraintsUpdate_governs h v
  | queueCloseConstraints a => exact queueCloseConstraints_governs h v
  | applyCloseConstraints a closesPending => exact applyCloseConstraints_governs h v
  | cancelCloseConstraints a => exact cancelCloseConstraints_governs h v
  | queueAgentPermissionsUpdate a capability limit => exact queueAgentPermissionsUpdate_governs h v
  | applyAgentPermissionsUpdate a address => exact applyAgentPermissionsUpdate_governs h v
  | cancelAgentPermissionsUpdate a address => exact cancelAgentPermissionsUpdate_governs h v
  | allocateConstraintsPda a => exact allocateConstraintsPda_governs h v
  | allocatePendingConstraintsPda a => exact allocatePendingConstraintsPda_governs h v
  | extendPda a pda target => exact extendPda_governs hplace h v
  | createInstructionConstraints a entries strictMode => exact createInstructionConstraints_governs h v
  | cleanupOrphanConstraintsPda a => exact cleanupOrphanConstraintsPda_governs h v
  | createPostAssertions a entries => exact createPostAssertions_governs h v
  | closePostAssertions a => exact closePostAssertions_governs h v

/-- Whoever decides on a vault signs as its owner. -/
theorem governed_signed (h : i.exec ctx w = .ok w') (hv : i.governed = some v) :
    ∃ owner id, v = .vault owner id ∧ owner ∈ ctx.signers := by
  have howned : ∀ {o : Pubkey} {vault : AgentVault}, Owned w ctx o v vault →
      ∃ owner id, v = .vault owner id ∧ owner ∈ ctx.signers := by
    intro o vault howned
    exact ⟨vault.owner, vault.vaultId, howned.address, howned.owner ▸ howned.signer⟩
  cases i with
  | initializeVault a =>
      cases hv
      simp only [Instruction.exec, initializeVault, Ctx.requireSigner, bind_eq_ok, require_eq_ok, exists_and_left,
        exists_const] at h
      exact ⟨a.owner, a.vaultId.toNat, rfl, h.1⟩
  | depositFunds | withdrawFunds | validateAndAuthorize | finalizeSession | agentTransfer | createEscrow | settleEscrow
  | refundEscrow | closeSettledEscrow => cases hv
  | _ =>
      cases hv
      simp only [Instruction.exec, closeVault, registerAgent, revokeAgent, pauseAgent, unpauseAgent, setPaused,
        freezeVault, reactivateVault, queuePolicyUpdate, applyPendingPolicy, cancelPendingPolicy,
        queueConstraintsUpdate, applyConstraintsUpdate, cancelConstraintsUpdate, queueCloseConstraints,
        applyCloseConstraints, cancelCloseConstraints, queueAgentPermissionsUpdate, applyAgentPermissionsUpdate,
        cancelAgentPermissionsUpdate, allocateConstraintsPda, allocatePendingConstraintsPda, extendPda,
        createInstructionConstraints, cleanupOrphanConstraintsPda, createPostAssertions, closePostAssertions,
        bind_eq_ok, World.loadOwnedVault_eq_ok] at h
      obtain ⟨_, h, -⟩ := h
      exact howned h

theorem Step.governance_eq {st : Step} (hplace : w.AllocatedInPlace) (h : st.exec w = .ok w') (v : Pubkey) :
    w'.governance v = (st.decision v).elim (w.governance v) fun decision =>
      decision.2.govern decision.1 (w.governance v) := by
  rcases Step.exec_cases h with ⟨i, hcall, -, -, hi⟩ | ⟨_, hcall, -, _, -, rfl, -⟩
  · have hgoverns : w'.governance v = if i.governed = some v then i.govern st.ctx.clock (w.governance v)
        else w.governance v := i.governStep hplace hi v
    simp only [Step.decision, hcall]
    split at hgoverns
    · rename_i hv
      rw [if_pos hv, hgoverns, Option.elim_some]
    · rename_i hv
      rw [if_neg hv, hgoverns, Option.elim_none]
  · simp only [Step.decision, hcall, Option.elim_none]
    rfl

theorem Step.decision_signed {st : Step} (h : st.exec w = .ok w') (hv : (st.decision v).isSome) :
    ∃ owner id, v = .vault owner id ∧ owner ∈ st.ctx.signers := by
  rcases Step.exec_cases h with ⟨i, hcall, -, -, hi⟩ | ⟨_, hcall, -⟩
  · simp only [Step.decision, hcall] at hv
    split at hv
    · rename_i hgoverned
      exact governed_signed hi hgoverned
    · cases hv
  · simp [Step.decision, hcall] at hv

/-! ## Runs -/

theorem allocatedInPlace_run {steps : List Step} (h : run Step.exec steps {} = .ok w) : w.AllocatedInPlace where
  constraints v := by
    refine config_invariant (P := fun v c => ∀ account, c.constraints = some account → account.vault = v)
      (by simp [World.config]) (fun ctx v i c c' hc hchange account haccount => ?_) h v
    cases hchange with
    | opened | closed | queued | applied | cancelled | permitted | asserted | unasserted => exact hc account haccount
    | allocated => cases haccount; rfl
    | extended _ _ _ hbefore =>
        have hplace := hc _ hbefore
        exact Option.some.inj haccount ▸ hplace
    | populated _ _ _ _ _ _ hbefore =>
        have hplace := hc _ hbefore
        exact Option.some.inj haccount ▸ hplace
    | rewritten _ _ _ _ hbefore =>
        have hplace := hc _ hbefore
        exact Option.some.inj haccount ▸ hplace
    | cleaned | cleared => cases haccount
  pendingConstraints v account haccount := (pendingAccountInv_run h haccount).vault

theorem governance_run {steps : List Step} (h : run Step.exec steps {} = .ok w) (v : Pubkey) :
    w.governance v = .decided (ownerLog v steps) := by
  refine view_run (f := fun w => World.governance w v) ?_ h
  intro before st after w₁ w₂ _ hrun hexec
  exact st.governance_eq (allocatedInPlace_run hrun) hexec v

/-- Two runs with the same decisions leave the same vault, whatever else has happened in them. -/
theorem governance_independent {steps₁ steps₂ : List Step} {w₁ w₂ : World} (h₁ : run Step.exec steps₁ {} = .ok w₁)
    (h₂ : run Step.exec steps₂ {} = .ok w₂) (hlog : ownerLog v steps₁ = ownerLog v steps₂) :
    w₁.governance v = w₂.governance v :=
  calc w₁.governance v = .decided (ownerLog v steps₁) := governance_run h₁ v
    _ = .decided (ownerLog v steps₂) := by rw [hlog]
    _ = w₂.governance v := (governance_run h₂ v).symm

/-- After every run a vault is what its owner has decided, and the owner has signed every decision. -/
theorem governance_decided {steps : List Step} (h : run Step.exec steps {} = .ok w) (v : Pubkey) :
    w.governance v = .decided (ownerLog v steps) ∧
      ∀ st ∈ steps, (st.decision v).isSome → ∃ owner id, v = .vault owner id ∧ owner ∈ st.ctx.signers := by
  refine ⟨governance_run h v, fun st hst hdecision => ?_⟩
  obtain ⟨before, after, rfl⟩ := List.append_of_mem hst
  obtain ⟨w₁, -, hrun⟩ := run_append_eq_ok.mp h
  obtain ⟨w₂, hexec, -⟩ := run_cons_eq_ok.mp hrun
  exact st.decision_signed hexec hdecision

/-- The vault of owner 1 after agent 3 has paid is the one with the agent registered. -/
theorem governance_decided_pay : ∃ w, run Step.exec payRun {} = .ok w ∧
    w.governance payVault.vault = .decided
      [(payClock, .initializeVault payVault), (payClock, .registerAgent payAgent)] := by
  obtain ⟨w, hrun⟩ : ∃ w, run Step.exec payRun {} = .ok w := ⟨_, rfl⟩
  exact ⟨w, hrun, (governance_decided hrun payVault.vault).1⟩

end

end Sigil
