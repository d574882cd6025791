import Sigil.Lemmas.Timelock
import Sigil.Theorems.Bookkeeping
import Sigil.Theorems.Policy

/-!
# What the accounts of a vault store

Fields that are machine integers in the accounts are naturals here. After every run each of them is in the range of
its type, and every address that is stored was an argument of some instruction.
-/

namespace Sigil

open Library

/-- The addresses that an instruction can put into the accounts of a vault. -/
def Instruction.addresses : Instruction → List Pubkey
  | .initializeVault a => a.vault :: a.owner :: a.feeDestination :: (a.protocols ++ a.allowedDestinations)
  | .registerAgent a => [a.agent]
  | .reactivateVault a => a.newAgent.toList
  | .queuePolicyUpdate _ u => u.protocols.getD [] ++ u.allowedDestinations.getD []
  | _ => []

def Step.addresses (st : Step) : List Pubkey :=
  match st.instruction.call with
  | .sigil i => i.addresses
  | .foreign _ => []

/-- A time of a clock, in seconds. -/
def TimeFits (t : Int) : Prop := i64Min ≤ t ∧ t ≤ i64Max

section
variable (K : Pubkey → Prop)

structure AgentEntry.Stored (e : AgentEntry) : Prop where
  pubkey : K e.pubkey
  capability : e.capability ≤ uMax 8
  spendingLimit : e.spendingLimitUsd ≤ uMax 64

structure AgentVault.Stored (vault : AgentVault) : Prop where
  owner : K vault.owner
  vaultId : vault.vaultId ≤ uMax 64
  agents : ∀ e ∈ vault.agents, e.Stored K
  feeDestination : K vault.feeDestination
  createdAt : TimeFits vault.createdAt
  activeEscrowCount : vault.activeEscrowCount ≤ uMax 8
  activeSessions : vault.activeSessions ≤ uMax 8

structure PolicyConfig.Stored (policy : PolicyConfig) : Prop where
  dailySpendingCap : policy.dailySpendingCapUsd ≤ uMax 64
  maxTransactionSize : policy.maxTransactionSizeUsd ≤ uMax 64
  protocolMode : policy.protocolMode ≤ uMax 8
  protocols : ∀ k ∈ policy.protocols, K k
  developerFeeRate : policy.developerFeeRate ≤ uMax 16
  maxSlippage : policy.maxSlippageBps ≤ uMax 16
  timelockDuration : policy.timelockDuration ≤ uMax 64
  allowedDestinations : ∀ k ∈ policy.allowedDestinations, K k
  protocolCaps : ∀ cap ∈ policy.protocolCaps, cap ≤ uMax 64
  sessionExpiry : policy.sessionExpirySeconds ≤ uMax 64
  policyVersion : policy.policyVersion ≤ uMax 64
  hasPostAssertions : policy.hasPostAssertions ≤ uMax 8
  destinationMode : policy.destinationMode ≤ uMax 8

structure PendingPolicyUpdate.Stored (p : PendingPolicyUpdate) : Prop where
  queuedAt : TimeFits p.queuedAt
  executesAt : TimeFits p.executesAt
  queuedAtSlot : p.queuedAtSlot ≤ uMax 64
  dailySpendingCap : ∀ x, p.dailySpendingCapUsd = some x → x ≤ uMax 64
  maxTransactionAmount : ∀ x, p.maxTransactionAmountUsd = some x → x ≤ uMax 64
  protocolMode : ∀ x, p.protocolMode = some x → x ≤ uMax 8
  protocols : ∀ l, p.protocols = some l → ∀ k ∈ l, K k
  developerFeeRate : ∀ x, p.developerFeeRate = some x → x ≤ uMax 16
  maxSlippage : ∀ x, p.maxSlippageBps = some x → x ≤ uMax 16
  timelockDuration : ∀ x, p.timelockDuration = some x → x ≤ uMax 64
  allowedDestinations : ∀ l, p.allowedDestinations = some l → ∀ k ∈ l, K k
  sessionExpiry : ∀ x, p.sessionExpirySeconds = some x → x ≤ uMax 64
  protocolCaps : ∀ l, p.protocolCaps = some l → ∀ cap ∈ l, cap ≤ uMax 64
  destinationMode : ∀ x, p.destinationMode = some x → x ≤ uMax 8

structure PendingAgentPermissionsUpdate.Stored (p : PendingAgentPermissionsUpdate) : Prop where
  capability : p.newCapability ≤ uMax 8
  spendingLimit : p.spendingLimitUsd ≤ uMax 64

structure Config.Stored (c : Config) : Prop where
  policy : ∀ policy, c.policy = some policy → policy.Stored K
  pending : ∀ pending, c.pending = some pending → pending.Stored K

structure World.Stored (w : World) : Prop where
  vaults : ∀ v vault, w.vaults v = some vault → K v ∧ vault.Stored K
  configs : ∀ v, (w.config v).Stored K
  agentPerms : ∀ x p, w.pendingAgentPerms x = some p → p.Stored

end

section
variable {K : Pubkey → Prop} {ctx : Ctx} {w w' : World} {v : Pubkey} {i : Instruction} {st : Step} {steps : List Step}
  {vault vault' : AgentVault} {policy policy' : PolicyConfig} {c c' : Config}

theorem toNat_le_uMax8 (x : UInt8) : x.toNat ≤ uMax 8 := Nat.le_pred_of_lt x.toNat_lt

theorem toNat_le_uMax16 (x : UInt16) : x.toNat ≤ uMax 16 := Nat.le_pred_of_lt x.toNat_lt

theorem toNat_le_uMax64 (x : UInt64) : x.toNat ≤ uMax 64 := Nat.le_pred_of_lt x.toNat_lt

/-! ## Vaults -/

theorem updateAgent_forall {P : AgentEntry → Prop} {agents : List AgentEntry} {agent : Pubkey}
    {f : AgentEntry → AgentEntry} (h : ∀ e ∈ agents, P e) (hf : ∀ e, P e → P (f e)) :
    ∀ e ∈ updateAgent agents agent f, P e := by
  induction agents with
  | nil => simp [updateAgent]
  | cons e agents ih =>
      obtain ⟨he, hagents⟩ := List.forall_mem_cons.mp h
      unfold updateAgent
      split
      · exact List.forall_mem_cons.mpr ⟨hf e he, hagents⟩
      · exact List.forall_mem_cons.mpr ⟨he, ih hagents⟩

theorem reactivatedAgents_forall {P : AgentEntry → Prop} {newAgent : Option Pubkey} {capability : Option UInt8}
    {agents : List AgentEntry} (h : reactivatedAgents vault newAgent capability = .ok agents)
    (hold : ∀ e ∈ vault.agents, P e)
    (hnew : ∀ agent (c : UInt8), newAgent = some agent →
      P { pubkey := agent, capability := c.toNat, spendingLimitUsd := 0 }) : ∀ e ∈ agents, P e := by
  unfold reactivatedAgents at h
  split at h
  · cases h
    exact hold
  · simp only [bind_eq_ok, require_eq_ok, exists_and_left, exists_const, pure_eq_ok] at h
    obtain ⟨-, -, -, -, -, rfl⟩ := h
    exact List.forall_mem_append.mpr ⟨hold, List.forall_mem_singleton.mpr (hnew _ _ rfl)⟩
  · cases h

theorem addPayment_stored {amount fee : Nat} (h : addPayment vault amount fee = .ok vault') (hvault : vault.Stored K) :
    vault'.Stored K := by
  simp only [addPayment, bind_eq_ok, pure_eq_ok] at h
  obtain ⟨_, -, _, -, _, -, rfl⟩ := h
  exact { hvault with }

theorem finalizeStats_stored {session : SessionAuthority} {isExpired : Bool} {spend : Nat}
    (h : finalizeStats vault session isExpired spend = .ok vault') (hvault : vault.Stored K) : vault'.Stored K := by
  simp only [finalizeStats, bind_eq_ok, pure_eq_ok] at h
  obtain ⟨_, -, _, -, _, -, _, -, rfl⟩ := h
  exact { hvault with activeSessions := (Nat.sub_le ..).trans hvault.activeSessions }

theorem VaultChange.stored {o o' : Option AgentVault} (h : VaultChange ctx w v i o o') (hK : ∀ k ∈ i.addresses, K k)
    (hperms : ∀ x p, w.pendingAgentPerms x = some p → p.Stored) (ho : ∀ vault, o = some vault → K v ∧ vault.Stored K) :
    ∀ vault, o' = some vault → K v ∧ vault.Stored K := by
  intro vault' hvault'
  cases h with
  | same => exact ho _ hvault'
  | opened a hv =>
      cases hvault'
      refine ⟨hv ▸ hK _ (by simp [Instruction.addresses]), ?_⟩
      exact
        { owner := hK a.owner (by simp [Instruction.addresses])
          vaultId := toNat_le_uMax64 a.vaultId
          agents := by simp [InitializeVault.newVault]
          feeDestination := hK a.feeDestination (by simp [Instruction.addresses])
          createdAt := ctx.clock.timestamp_range
          activeEscrowCount := Nat.zero_le _
          activeSessions := Nat.zero_le _ }
  | closed => cases hvault'
  | deposited a hv hfits =>
      cases hvault'
      exact ⟨(ho _ rfl).1, { (ho _ rfl).2 with }⟩
  | withdrawn a hv hfits =>
      cases hvault'
      exact ⟨(ho _ rfl).1, { (ho _ rfl).2 with }⟩
  | registered a hv =>
      cases hvault'
      obtain ⟨hknown, hvault⟩ := ho _ rfl
      have hentry : a.entry.Stored K :=
        { pubkey := hK _ (by simp [Instruction.addresses, RegisterAgent.entry])
          capability := toNat_le_uMax8 a.capability
          spendingLimit := toNat_le_uMax64 a.spendingLimitUsd }
      have hagents := List.forall_mem_append.mpr ⟨hvault.agents, List.forall_mem_singleton.mpr hentry⟩
      exact ⟨hknown, { hvault with agents := hagents }⟩
  | revoked a hv =>
      cases hvault'
      obtain ⟨hknown, hvault⟩ := ho _ rfl
      exact ⟨hknown, { hvault with agents := fun e he => hvault.agents e (List.mem_filter.mp he).1 }⟩
  | paused a b hv hi =>
      cases hvault'
      obtain ⟨hknown, hvault⟩ := ho _ rfl
      exact ⟨hknown, { hvault with agents := updateAgent_forall hvault.agents fun e he => { he with } }⟩
  | frozen a hv =>
      cases hvault'
      exact ⟨(ho _ rfl).1, { (ho _ rfl).2 with }⟩
  | reactivated a hv hagents =>
      cases hvault'
      obtain ⟨hknown, hvault⟩ := ho _ rfl
      refine ⟨hknown, { hvault with agents := reactivatedAgents_forall hagents hvault.agents fun agent c hnew => ?_ }⟩
      exact
        { pubkey := hK _ (by simp [Instruction.addresses, hnew])
          capability := toNat_le_uMax8 c
          spendingLimit := Nat.zero_le _ }
  | permitted a address hv hpending =>
      cases hvault'
      obtain ⟨hknown, hvault⟩ := ho _ rfl
      have hpermitted := hperms _ _ hpending
      refine ⟨hknown, { hvault with agents := updateAgent_forall hvault.agents fun e he => ?_ }⟩
      exact { pubkey := he.pubkey, capability := hpermitted.capability, spendingLimit := hpermitted.spendingLimit }
  | authorized a hv hfits =>
      cases hvault'
      exact ⟨(ho _ rfl).1, { (ho _ rfl).2 with activeSessions := hfits }⟩
  | finalized a hv hsession hspend hstats =>
      cases hvault'
      exact ⟨(ho _ rfl).1, finalizeStats_stored hstats (ho _ rfl).2⟩
  | paid a hv hpolicy hfee hpaid =>
      cases hvault'
      exact ⟨(ho _ rfl).1, addPayment_stored hpaid (ho _ rfl).2⟩
  | escrowed a hv hpolicy hfee hpaid hfits =>
      cases hvault'
      exact ⟨(ho _ rfl).1, { addPayment_stored hpaid (ho _ rfl).2 with activeEscrowCount := hfits }⟩
  | settled a hv =>
      cases hvault'
      obtain ⟨hknown, hvault⟩ := ho _ rfl
      exact ⟨hknown, { hvault with activeEscrowCount := (Nat.sub_le ..).trans hvault.activeEscrowCount }⟩
  | refunded a hv =>
      cases hvault'
      obtain ⟨hknown, hvault⟩ := ho _ rfl
      exact ⟨hknown, { hvault with activeEscrowCount := (Nat.sub_le ..).trans hvault.activeEscrowCount }⟩

/-! ## Permissions that are queued -/

theorem Instruction.agentPerms_stored (hkeys : ∀ k ∈ ctx.signers, k.isKey = true) (h : i.exec ctx w = .ok w')
    (hw : ∀ x p, w.pendingAgentPerms x = some p → p.Stored) : ∀ x p, w'.pendingAgentPerms x = some p → p.Stored := by
  cases hchanges : i.changesTimelock with
  | false => exact fun x p hp => hw x p ((i.timelockFrame hchanges hkeys h).pendingAgentPerms x p hp)
  | true =>
      cases i with
      | initializeVault a =>
          obtain ⟨-, -, rfl⟩ := initializeVault_ok h
          exact hw
      | applyPendingPolicy a =>
          obtain ⟨_, _, _, -, -, -, -, rfl⟩ := applyPendingPolicy_ok h
          exact hw
      | queuePolicyUpdate a u =>
          obtain ⟨_, _, _, -, -, -, -, -, -, rfl⟩ := queuePolicyUpdate_ok h
          exact hw
      | queueConstraintsUpdate a entries strictMode =>
          obtain ⟨_, _, _, -, -, -, -, -, rfl⟩ := queueConstraintsUpdate_ok h
          exact hw
      | queueCloseConstraints a =>
          obtain ⟨_, _, -, -, -, -, rfl⟩ := queueCloseConstraints_ok h
          exact hw
      | queueAgentPermissionsUpdate a capability limit =>
          change Sigil.queueAgentPermissionsUpdate ctx a capability limit w = .ok w' at h
          simp only [Sigil.queueAgentPermissionsUpdate, bind_eq_ok, pure_eq_ok] at h
          obtain ⟨_, -, _, -, _, -, _, -, _, -, _, -, _, -, _, -, rfl⟩ := h
          intro x p hp
          simp only [World.setPendingAgentPerms, Function.update_apply] at hp
          split at hp
          · cases hp
            exact ⟨toNat_le_uMax8 capability, toNat_le_uMax64 limit⟩
          · exact hw x p hp
      | _ => cases hchanges

/-! ## Policies -/

theorem InitializeVault.policy_stored {a : InitializeVault}
    (hK : ∀ k ∈ (Instruction.initializeVault a).addresses, K k) : a.policy.Stored K where
  dailySpendingCap := toNat_le_uMax64 _
  maxTransactionSize := toNat_le_uMax64 _
  protocolMode := toNat_le_uMax8 _
  protocols k hk := hK k (by simp [Instruction.addresses, show k ∈ a.protocols from hk])
  developerFeeRate := toNat_le_uMax16 _
  maxSlippage := toNat_le_uMax16 _
  timelockDuration := toNat_le_uMax64 _
  allowedDestinations k hk := hK k (by simp [Instruction.addresses, show k ∈ a.allowedDestinations from hk])
  protocolCaps cap hcap := by
    obtain ⟨x, -, rfl⟩ := List.mem_map.mp hcap
    exact toNat_le_uMax64 x
  sessionExpiry := Nat.zero_le _
  policyVersion := Nat.zero_le _
  hasPostAssertions := Nat.zero_le _
  destinationMode := Nat.zero_le _

theorem forall_map_some {α β : Type} {o : Option α} {f : α → β} {P : β → Prop} (h : ∀ x, P (f x)) :
    ∀ y, o.map f = some y → P y := by
  intro y hy
  obtain ⟨x, -, rfl⟩ := Option.map_eq_some_iff.mp hy
  exact h x

theorem PolicyUpdate.pending_stored {a : OwnerAction} {u : PolicyUpdate} {clock : Clock} {executes : Int}
    (hK : ∀ k ∈ (Instruction.queuePolicyUpdate a u).addresses, K k) (hexecutes : TimeFits executes) :
    (u.pending clock executes).Stored K where
  queuedAt := clock.timestamp_range
  executesAt := hexecutes
  queuedAtSlot := clock.slot_range
  dailySpendingCap := forall_map_some toNat_le_uMax64
  maxTransactionAmount := forall_map_some toNat_le_uMax64
  protocolMode := forall_map_some toNat_le_uMax8
  protocols l hl k hk := hK k (by simp [Instruction.addresses, show u.protocols = some l from hl, hk])
  developerFeeRate := forall_map_some toNat_le_uMax16
  maxSlippage := forall_map_some toNat_le_uMax16
  timelockDuration := forall_map_some toNat_le_uMax64
  allowedDestinations l hl k hk :=
    hK k (by simp [Instruction.addresses, show u.allowedDestinations = some l from hl, hk])
  sessionExpiry := forall_map_some toNat_le_uMax64
  protocolCaps := forall_map_some fun l cap hcap => by
    obtain ⟨x, -, rfl⟩ := List.mem_map.mp hcap
    exact toNat_le_uMax64 x
  destinationMode := forall_map_some toNat_le_uMax8

theorem PendingPolicyUpdate.Stored.applyTo {p : PendingPolicyUpdate} (h : p.Stored K) (hpolicy : policy.Stored K) :
    (p.applyTo policy).Stored K where
  dailySpendingCap := getD_of_forall (P := (· ≤ uMax 64)) h.dailySpendingCap hpolicy.dailySpendingCap
  maxTransactionSize := getD_of_forall (P := (· ≤ uMax 64)) h.maxTransactionAmount hpolicy.maxTransactionSize
  protocolMode := getD_of_forall (P := (· ≤ uMax 8)) h.protocolMode hpolicy.protocolMode
  protocols := getD_of_forall (P := fun l => ∀ k ∈ l, K k) h.protocols hpolicy.protocols
  developerFeeRate := getD_of_forall (P := (· ≤ uMax 16)) h.developerFeeRate hpolicy.developerFeeRate
  maxSlippage := getD_of_forall (P := (· ≤ uMax 16)) h.maxSlippage hpolicy.maxSlippage
  timelockDuration := getD_of_forall (P := (· ≤ uMax 64)) h.timelockDuration hpolicy.timelockDuration
  allowedDestinations := getD_of_forall (P := fun l => ∀ k ∈ l, K k) h.allowedDestinations hpolicy.allowedDestinations
  protocolCaps := getD_of_forall (P := fun l => ∀ cap ∈ l, cap ≤ uMax 64) h.protocolCaps hpolicy.protocolCaps
  sessionExpiry := getD_of_forall (P := (· ≤ uMax 64)) h.sessionExpiry hpolicy.sessionExpiry
  policyVersion := hpolicy.policyVersion
  hasPostAssertions := hpolicy.hasPostAssertions
  destinationMode := getD_of_forall (P := (· ≤ uMax 8)) h.destinationMode hpolicy.destinationMode

theorem Config.Stored.change (h : c.Stored K) (hK : ∀ k ∈ i.addresses, K k) (hchange : ConfigChange ctx v i c c')
    (hversion : ∀ policy, c'.policy = some policy → policy.policyVersion ≤ uMax 64)
    (hexecutes : ∀ pending, c'.pending = some pending → TimeFits pending.executesAt) : c'.Stored K := by
  cases hchange with
  | opened a hv hdead hcheck => exact ⟨by rintro _ ⟨⟩; exact InitializeVault.policy_stored hK, h.pending⟩
  | closed a hv hpolicy hconstraints =>
      refine ⟨by rintro _ ⟨⟩, fun pending hpending => ?_⟩
      dsimp only at hpending
      split at hpending
      · cases hpending
      · exact h.pending pending hpending
  | queued a u executes hv hlive hpolicy hfields hcaps =>
      refine ⟨by rintro _ ⟨⟩; exact { h.policy _ hpolicy with }, ?_⟩
      rintro _ ⟨⟩
      exact PolicyUpdate.pending_stored hK (hexecutes _ rfl)
  | applied a hv hpolicy hpending =>
      refine ⟨?_, by rintro _ ⟨⟩⟩
      rintro _ ⟨⟩
      have hpolicy' := (h.pending _ hpending).applyTo (h.policy _ hpolicy)
      exact { hpolicy' with policyVersion := hversion _ rfl }
  | cancelled a hv hpolicy => exact ⟨by rintro _ ⟨⟩; exact { h.policy _ hpolicy with }, by rintro _ ⟨⟩⟩
  | allocated => exact ⟨h.policy, h.pending⟩
  | extended => exact ⟨h.policy, h.pending⟩
  | cleaned => exact ⟨h.policy, h.pending⟩
  | populated a entries strictMode hv hlive hpolicy =>
      exact ⟨by rintro _ ⟨⟩; exact { h.policy _ hpolicy with }, h.pending⟩
  | rewritten a set hv hpolicy =>
      exact ⟨by rintro _ ⟨⟩; exact { h.policy _ hpolicy with policyVersion := hversion _ rfl }, h.pending⟩
  | cleared a closesPending hv hpolicy =>
      exact ⟨by rintro _ ⟨⟩; exact { h.policy _ hpolicy with policyVersion := hversion _ rfl }, h.pending⟩
  | permitted a address hv hpolicy =>
      exact ⟨by rintro _ ⟨⟩; exact { h.policy _ hpolicy with policyVersion := hversion _ rfl }, h.pending⟩
  | asserted a entries hv hpolicy =>
      exact ⟨by rintro _ ⟨⟩; exact { h.policy _ hpolicy with hasPostAssertions := (by decide : 1 ≤ uMax 8) }, h.pending⟩
  | unasserted a hv hpolicy =>
      exact ⟨by rintro _ ⟨⟩; exact { h.policy _ hpolicy with hasPostAssertions := Nat.zero_le _ }, h.pending⟩

/-! ## Versions and times -/

/-- The handlers that raise the version check that it can be raised. -/
theorem applyPendingPolicy_version {a : OwnerAction} (h : applyPendingPolicy ctx a w = .ok w')
    (hp : w'.policies a.vault = some policy) : policy.policyVersion ≤ uMax 64 := by
  simp only [applyPendingPolicy, bind_eq_ok, bumpVersion_eq_ok, pure_eq_ok] at h
  obtain ⟨_, -, _, -, _, -, _, -, _, -, _, -, _, ⟨hfits, rfl⟩, rfl⟩ := h
  obtain rfl : _ = policy := by simpa [World.setPolicy] using hp
  exact hfits

theorem applyConstraintsUpdate_version {a : OwnerAction} (h : applyConstraintsUpdate ctx a w = .ok w')
    (hp : w'.policies a.vault = some policy) : policy.policyVersion ≤ uMax 64 := by
  simp only [applyConstraintsUpdate, bind_eq_ok, bumpVersion_eq_ok, pure_eq_ok] at h
  obtain ⟨_, -, _, -, _, -, _, -, _, -, _, ⟨hfits, rfl⟩, rfl⟩ := h
  obtain rfl : _ = policy := by simpa [World.setPolicy] using hp
  exact hfits

theorem applyCloseConstraints_version {a : OwnerAction} {closesPending : Bool}
    (h : applyCloseConstraints ctx a closesPending w = .ok w') (hp : w'.policies a.vault = some policy) :
    policy.policyVersion ≤ uMax 64 := by
  simp only [applyCloseConstraints, bind_eq_ok, bumpVersion_eq_ok, pure_eq_ok] at h
  obtain ⟨_, -, _, -, _, -, _, -, _, -, _, ⟨hfits, rfl⟩, rfl⟩ := h
  obtain rfl : _ = policy := by cases closesPending <;> simpa [World.setPolicy, World.setPendingConstraints] using hp
  exact hfits

theorem applyAgentPermissionsUpdate_version {a : OwnerAction} {address : Pubkey}
    (h : applyAgentPermissionsUpdate ctx a address w = .ok w') (hp : w'.policies a.vault = some policy) :
    policy.policyVersion ≤ uMax 64 := by
  simp only [applyAgentPermissionsUpdate, bind_eq_ok, bumpVersion_eq_ok, pure_eq_ok] at h
  obtain ⟨_, -, _, -, _, -, _, -, _, -, _, -, _, -, _, ⟨hfits, rfl⟩, rfl⟩ := h
  obtain rfl : _ = policy := by simpa [World.setPolicy, World.setPendingAgentPerms] using hp
  exact hfits

/-- An instruction that changes the configuration of a vault writes a version and times that fit. -/
theorem Instruction.config_fits (h : i.exec ctx w = .ok w') (hw : (w.config v).Stored K)
    (hchange : ConfigChange ctx v i (w.config v) (w'.config v)) :
    (∀ policy, (w'.config v).policy = some policy → policy.policyVersion ≤ uMax 64) ∧
      ∀ pending, (w'.config v).pending = some pending → TimeFits pending.executesAt := by
  have hversion : ∀ policy policy' : PolicyConfig, (w.config v).policy = some policy →
      policy'.policyVersion = policy.policyVersion → policy'.policyVersion ≤ uMax 64 :=
    fun policy _ hp heq => heq ▸ (hw.policy policy hp).policyVersion
  have htime : ∀ pending, (w.config v).pending = some pending → TimeFits pending.executesAt :=
    fun pending hp => (hw.pending pending hp).executesAt
  have hnew : ∀ policy, (w'.config v).policy = some policy → w'.policies v = some policy := fun _ hp => hp
  have hpending' : ∀ pending, (w'.config v).pending = some pending → w'.pendingPolicies v = some pending :=
    fun _ hp => hp
  generalize w.config v = c at hchange htime hversion
  generalize w'.config v = c' at hchange hnew hpending'
  cases hchange with
  | opened a hv hdead hcheck => exact ⟨by rintro _ ⟨⟩; exact Nat.zero_le _, htime⟩
  | @closed _ policy a hv hpolicy hconstraints =>
      refine ⟨by rintro _ ⟨⟩, fun pending hp => ?_⟩
      dsimp only at hp
      split at hp
      · cases hp
      · exact htime pending hp
  | queued a u executes hv hlive hpolicy hfields hcaps =>
      refine ⟨by rintro _ ⟨⟩; exact hversion _ _ hpolicy rfl, ?_⟩
      rintro _ ⟨⟩
      subst hv
      obtain ⟨_, _, executes', -, -, -, -, -, hexecutes, rfl⟩ := queuePolicyUpdate_ok h
      have hfound := hpending' _ rfl
      simp only [World.setPendingPolicy, World.setPolicy, Function.update_self, Option.some.injEq] at hfound
      rw [← hfound]
      exact executesAt_range hexecutes
  | applied a hv hpolicy hpending =>
      refine ⟨fun policy hp => ?_, by rintro _ ⟨⟩⟩
      subst hv
      exact applyPendingPolicy_version h (hnew policy hp)
  | cancelled a hv hpolicy => exact ⟨by rintro _ ⟨⟩; exact hversion _ _ hpolicy rfl, by rintro _ ⟨⟩⟩
  | allocated => exact ⟨fun policy hp => hversion policy policy hp rfl, htime⟩
  | extended => exact ⟨fun policy hp => hversion policy policy hp rfl, htime⟩
  | cleaned => exact ⟨fun policy hp => hversion policy policy hp rfl, htime⟩
  | populated a entries strictMode hv hlive hpolicy => exact ⟨by rintro _ ⟨⟩; exact hversion _ _ hpolicy rfl, htime⟩
  | rewritten a set hv hpolicy =>
      subst hv
      exact ⟨fun policy hp => applyConstraintsUpdate_version h (hnew policy hp), htime⟩
  | cleared a closesPending hv hpolicy =>
      subst hv
      exact ⟨fun policy hp => applyCloseConstraints_version h (hnew policy hp), htime⟩
  | permitted a address hv hpolicy =>
      subst hv
      exact ⟨fun policy hp => applyAgentPermissionsUpdate_version h (hnew policy hp), htime⟩
  | asserted a entries hv hpolicy => exact ⟨by rintro _ ⟨⟩; exact hversion _ _ hpolicy rfl, htime⟩
  | unasserted a hv hpolicy => exact ⟨by rintro _ ⟨⟩; exact hversion _ _ hpolicy rfl, htime⟩

/-! ## Runs -/

theorem Step.stored (h : st.exec w = .ok w') (hK : ∀ k ∈ st.addresses, K k) (hw : w.Stored K) : w'.Stored K where
  vaults v := by
    rcases Step.vaultStep h v with heq | ⟨i, hcall, hchange⟩
    · rw [heq]
      exact hw.vaults v
    · rw [Step.addresses, hcall] at hK
      exact hchange.stored hK hw.agentPerms (hw.vaults v)
  configs v := by
    rcases Step.configChange h v with heq | ⟨i, hcall, hi, hchange⟩
    · rw [heq]
      exact hw.configs v
    · rw [Step.addresses, hcall] at hK
      obtain ⟨hversion, hexecutes⟩ := i.config_fits hi (hw.configs v) hchange
      exact (hw.configs v).change hK hchange hversion hexecutes
  agentPerms := by
    rcases Step.exec_cases h with ⟨i, -, -, -, hi⟩ | ⟨_, -, -, _, -, rfl, -⟩
    · exact i.agentPerms_stored st.signers_isKey hi hw.agentPerms
    · exact hw.agentPerms

theorem stored_run (h : run Step.exec steps {} = .ok w) (hK : ∀ st ∈ steps, ∀ k ∈ st.addresses, K k) : w.Stored K := by
  refine run_invariant ⟨by rintro _ _ ⟨⟩, fun v => ⟨by rintro _ ⟨⟩, by rintro _ ⟨⟩⟩, by rintro _ _ ⟨⟩⟩ ?_ h
  intro st hst w₁ w₂ hw₁ hexec
  exact Step.stored hexec (hK st hst) hw₁

/-- In every reachable state the fields of a vault, its policy and its pending update are in range of their types, and
their addresses were given in the arguments of the run. -/
theorem stored_fields (h : run Step.exec steps {} = .ok w) :
    w.Stored (· ∈ steps.flatMap Step.addresses) ∧ ∀ v vault, w.vaults v = some vault → vault.books.Fits := by
  refine ⟨stored_run h fun st hst _ hk => List.mem_flatMap.mpr ⟨st, hst, hk⟩, fun v vault hv => ?_⟩
  obtain ⟨hbooks, hfits⟩ := books_run h vault hv
  exact hbooks ▸ hfits

theorem stored_fields_pay : ∃ w vault, run Step.exec payRun {} = .ok w ∧ w.vaults payVault.vault = some vault ∧
    vault.agents ≠ [] ∧
      ∀ e ∈ vault.agents, e.pubkey ∈ payRun.flatMap Step.addresses ∧ e.spendingLimitUsd ≤ uMax 64 := by
  obtain ⟨w, vault, hrun, hv, hagents⟩ : ∃ w vault, run Step.exec payRun {} = .ok w ∧
      w.vaults payVault.vault = some vault ∧ vault.agents ≠ [] := ⟨_, _, rfl, rfl, by simp⟩
  obtain ⟨-, hvault⟩ := (stored_fields hrun).1.vaults _ vault hv
  exact ⟨w, vault, hrun, hv, hagents, fun e he => ⟨(hvault.agents e he).pubkey, (hvault.agents e he).spendingLimit⟩⟩

end

end Sigil
