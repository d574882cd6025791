import Sigil.Lemmas.EscrowInv
import Sigil.Lemmas.SlotErrors
import Sigil.Program.Serialize
import Sigil.Theorems.Policy

/-!
# Room for an update

A policy has room for ten protocols, ten destinations and ten caps, in whatever mixture. The pending update lies in
an account of its own with a little more room. Lists of protocols and destinations are checked when they are queued,
and the caps are as many as the protocols; but only of a policy that has its caps enabled.
-/

namespace Sigil

open Library

/-- Bytes of the elements that the three lists of a policy hold. -/
def PolicyConfig.listBytes (policy : PolicyConfig) : Nat :=
  32 * policy.protocols.length + 32 * policy.allowedDestinations.length + 8 * policy.protocolCaps.length

/-- The same after an update: of the lists that it gives, and those of the policy in the place of the others. -/
def PolicyUpdate.listBytes (u : PolicyUpdate) (policy : PolicyConfig) : Nat :=
  32 * (u.protocols.getD policy.protocols).length +
    32 * (u.allowedDestinations.getD policy.allowedDestinations).length +
    8 * ((u.protocolCaps.map fun l => l.map UInt64.toNat).getD policy.protocolCaps).length

abbrev listSpace : Nat := 32 * maxAllowedProtocols + 32 * maxAllowedDestinations + 8 * maxAllowedProtocols

section
variable {ctx : Ctx} {v owner : Pubkey} {i : Instruction} {c c' : Config} {policy : PolicyConfig}
  {pending : PendingPolicyUpdate} {w w' : World} {st : Step} {steps : List Step}

theorem PolicyConfig.encodedSize_le_iff : policy.encodedSize ≤ policyConfigSize ↔ policy.listBytes ≤ listSpace := by
  dsimp only [encodedSize, listBytes, Borsh.vec, policyConfigSize, listSpace, discriminatorSize, pubkeySize, Borsh.u8,
    Borsh.u16, Borsh.u64, Borsh.bool, maxAllowedProtocols, maxAllowedDestinations]
  omega

theorem AgentVault.encodedSize_le {vault : AgentVault} (h : vault.agents.length ≤ maxAgentsPerVault) :
    vault.encodedSize ≤ agentVaultSize := by
  have hagents : Borsh.vec agentEntrySize vault.agents ≤ 4 + agentEntrySize * maxAgentsPerVault := Borsh.vec_le h
  dsimp only [encodedSize, agentVaultSize, discriminatorSize, pubkeySize, Borsh.enum, Borsh.u8, Borsh.u64, Borsh.i64,
    agentEntrySize, Borsh.bool, maxAgentsPerVault] at hagents ⊢
  omega

/-- Enabled caps are as many as the protocols. -/
theorem PolicyConfig.WellFormed.listBytes_le (h : policy.WellFormed) (hcaps : policy.hasProtocolCaps) :
    policy.listBytes ≤ listSpace := by
  have hprotocols := h.protocols
  have hdestinations := h.destinations
  have hlength := h.caps hcaps
  dsimp only [listBytes, listSpace, maxAllowedProtocols, maxAllowedDestinations] at hprotocols hdestinations ⊢
  omega

/-- A queued update leaves room for its lists in a policy that has its caps disabled afterwards. A policy of the last
version is not updated anymore. -/
def Step.FitsPolicy (st : Step) (w : World) : Prop :=
  ∀ a u policy, st.instruction.call = .sigil (.queuePolicyUpdate a u) → w.policies a.vault = some policy →
    u.hasProtocolCaps.getD policy.hasProtocolCaps = false → policy.policyVersion < uMax 64 →
    u.listBytes policy ≤ listSpace

/-- The owner calls `apply_pending_policy` within the window of the update. -/
structure Step.AppliesPolicy (st : Step) (owner v : Pubkey) (pending : PendingPolicyUpdate) : Prop where
  call : st.instruction.call = .sigil (.applyPendingPolicy { owner := owner, vault := v })
  raw : st.instruction.raw.programId = crateId ∧
    st.instruction.raw.data.take 8 = (Instruction.applyPendingPolicy { owner := owner, vault := v }).discriminator
  signer : owner ∈ st.ctx.signers
  time : checkApplyTime st.ctx.clock pending.executesAt pending.queuedAtSlot = .ok ()

/-- Every account is within its space, and every pending update can be applied. -/
structure World.Serializable (w : World) : Prop where
  fits : ∀ v, w.fits v
  applies : ∀ v vault policy pending, w.vaults v = some vault → w.policies v = some policy →
    w.pendingPolicies v = some pending → policy.policyVersion < uMax 64 →
    ∀ st : Step, st.AppliesPolicy vault.owner v pending → ∃ w', st.execSerialized w = .ok w'

/-! ## Serialized steps -/

theorem Step.execSerialized_eq_ok :
    st.execSerialized w = .ok w' ↔ st.exec w = .ok w' ∧ ∀ v ∈ st.vaults, w'.fits v := by
  simp only [execSerialized, bind_eq_ok, require_eq_ok, exists_and_left, exists_const, pure_eq_ok, List.all_eq_true]
  constructor
  · rintro ⟨_, hexec, hfits, rfl⟩
    exact ⟨hexec, hfits⟩
  · rintro ⟨hexec, hfits⟩
    exact ⟨w', hexec, hfits, rfl⟩

theorem run_execSerialized (h : run Step.execSerialized steps w = .ok w') : run Step.exec steps w = .ok w' :=
  run_mono (fun _ _ _ hst => (Step.execSerialized_eq_ok.mp hst).1) h

theorem World.fits_iff : w.fits v ↔ (∀ vault, w.vaults v = some vault → vault.encodedSize ≤ agentVaultSize) ∧
    (∀ policy, w.policies v = some policy → policy.encodedSize ≤ policyConfigSize) ∧
    ∀ pending, w.pendingPolicies v = some pending → pending.encodedSize ≤ pendingPolicyUpdateSize := by
  simp only [fits, Bool.and_eq_true, Option.all_eq_true, decide_eq_true_eq, and_assoc]

/-- A vault that is not named keeps its policy and its pending update. -/
theorem Step.policy_frame (h : st.exec w = .ok w') (hv : v ∉ st.vaults) :
    w'.policies v = w.policies v ∧ w'.pendingPolicies v = w.pendingPolicies v := by
  suffices hconfig : (w'.config v).policy = (w.config v).policy ∧ (w'.config v).pending = (w.config v).pending from
    hconfig
  rcases Step.configChange h v with heq | ⟨i, hcall, -, hchange⟩
  · rw [heq]
    exact ⟨rfl, rfl⟩
  · rw [Step.vaults, hcall] at hv
    generalize w.config v = c at hchange
    generalize w'.config v = c' at hchange
    cases hchange with
    | allocated => exact ⟨rfl, rfl⟩
    | extended => exact ⟨rfl, rfl⟩
    | cleaned => exact ⟨rfl, rfl⟩
    | opened a ha => exact absurd (List.mem_singleton.mpr ha.symm) hv
    | closed a ha => exact absurd (List.mem_singleton.mpr ha.symm) hv
    | queued a u executes ha => exact absurd (List.mem_singleton.mpr ha.symm) hv
    | applied a ha => exact absurd (List.mem_singleton.mpr ha.symm) hv
    | cancelled a ha => exact absurd (List.mem_singleton.mpr ha.symm) hv
    | populated a entries strictMode ha => exact absurd (List.mem_singleton.mpr ha.symm) hv
    | rewritten a set ha => exact absurd (List.mem_singleton.mpr ha.symm) hv
    | cleared a closesPending ha => exact absurd (List.mem_singleton.mpr ha.symm) hv
    | permitted a address ha => exact absurd (List.mem_singleton.mpr ha.symm) hv
    | asserted a entries ha => exact absurd (List.mem_singleton.mpr ha.symm) hv
    | unasserted a ha => exact absurd (List.mem_singleton.mpr ha.symm) hv

/-- The agents of a vault are at most ten. -/
theorem agents_fit (h : run Step.exec steps {} = .ok w) {vault : AgentVault} (hv : w.vaults v = some vault) :
    vault.encodedSize ≤ agentVaultSize := by
  have hinv := slotInv_run h
  obtain ⟨overlay, ho⟩ := exists_overlay hinv hv
  exact AgentVault.encodedSize_le (slotsOf_found hinv hv ho).few

theorem fits_run (h : run Step.execSerialized steps {} = .ok w) (v : Pubkey) : w.fits v := by
  have hpolicies : (∀ policy, w.policies v = some policy → policy.encodedSize ≤ policyConfigSize) ∧
      ∀ pending, w.pendingPolicies v = some pending → pending.encodedSize ≤ pendingPolicyUpdateSize := by
    refine run_invariant (P := fun w =>
      (∀ policy, w.policies v = some policy → policy.encodedSize ≤ policyConfigSize) ∧
        ∀ pending, w.pendingPolicies v = some pending → pending.encodedSize ≤ pendingPolicyUpdateSize)
      (by constructor <;> rintro _ ⟨⟩) (fun st _ w₁ w₂ hw₁ hst => ?_) h
    obtain ⟨hexec, hfits⟩ := Step.execSerialized_eq_ok.mp hst
    by_cases hv : v ∈ st.vaults
    · exact (World.fits_iff.mp (hfits v hv)).2
    · obtain ⟨hpolicy, hpending⟩ := Step.policy_frame hexec hv
      rwa [hpolicy, hpending]
  exact World.fits_iff.mpr ⟨fun vault hv => agents_fit (run_execSerialized h) hv, hpolicies⟩

/-! ## Pending updates -/

/-- What an update makes of a policy fits, while the policy can still be updated. -/
def Config.RoomInv (c : Config) : Prop :=
  ∀ policy pending, c.policy = some policy → c.pending = some pending → policy.policyVersion < uMax 64 →
    (pending.applyTo policy).listBytes ≤ listSpace

namespace Config.RoomInv

/-- An update of the policy by other means leaves its lists and does not lower its version. -/
theorem of_lists {p p' : PolicyConfig} (h : c.RoomInv) (hp : c.policy = some p) (hpolicy : c'.policy = some p')
    (hpending : c'.pending = c.pending) (hversion : p.policyVersion ≤ p'.policyVersion)
    (hlists : ∀ q : PendingPolicyUpdate, (q.applyTo p').listBytes = (q.applyTo p).listBytes) : c'.RoomInv := by
  intro x q hx hq hlast
  cases hpolicy.symm.trans hx
  rw [hlists]
  exact h p q hp (hpending ▸ hq) (hversion.trans_lt hlast)

theorem change (h : c.RoomInv) (hinv : c.PolicyInv) (hchange : ConfigChange ctx v i c c')
    (hroom : ∀ a u policy, i = .queuePolicyUpdate a u → a.vault = v → c.policy = some policy →
      u.hasProtocolCaps.getD policy.hasProtocolCaps = false → policy.policyVersion < uMax 64 →
      u.listBytes policy ≤ listSpace) : c'.RoomInv := by
  cases hchange with
  | opened a hv hdead hcheck =>
      have hnone : c.policy = none := by simpa [hinv.live] using hdead
      intro _ q _ hq
      cases (hinv.dead hnone).symm.trans hq
  | closed a hv hpolicy hconstraints => rintro _ _ ⟨⟩
  | @queued _ policy a u executes hv hlive hpolicy hfields hcaps =>
      rintro _ _ ⟨rfl⟩ ⟨rfl⟩ hlast
      cases henabled : u.hasProtocolCaps.getD policy.hasProtocolCaps with
      | false => exact hroom a u policy rfl hv hpolicy henabled hlast
      | true =>
          have hwell : ((u.pending ctx.clock executes).applyTo policy).WellFormed :=
            PolicyUpdate.applyTo_wellFormed (hinv.wellFormed policy hpolicy) hfields hcaps
          exact hwell.listBytes_le henabled
  | applied a hv hpolicy hpending => rintro _ _ - ⟨⟩
  | cancelled a hv hpolicy => rintro _ _ - ⟨⟩
  | allocated => exact h
  | extended => exact h
  | cleaned => exact h
  | populated a entries strictMode hv hlive hpolicy => exact h.of_lists hpolicy rfl rfl le_rfl fun _ => rfl
  | rewritten a set hv hpolicy => exact h.of_lists hpolicy rfl rfl (Nat.le_succ _) fun _ => rfl
  | cleared a closesPending hv hpolicy => exact h.of_lists hpolicy rfl rfl (Nat.le_succ _) fun _ => rfl
  | permitted a address hv hpolicy => exact h.of_lists hpolicy rfl rfl (Nat.le_succ _) fun _ => rfl
  | asserted a entries hv hpolicy => exact h.of_lists hpolicy rfl rfl le_rfl fun _ => rfl
  | unasserted a hv hpolicy => exact h.of_lists hpolicy rfl rfl le_rfl fun _ => rfl

end Config.RoomInv

theorem roomInv_run (hfits : Always Step.execSerialized (fun st w _ => st.FitsPolicy w) steps {})
    (h : run Step.execSerialized steps {} = .ok w) (v : Pubkey) : (w.config v).RoomInv := by
  refine run_history (P := fun _ w => (w.config v).RoomInv) (by rintro _ _ ⟨⟩) ?_ h
  intro before st after w₁ w₂ hsplit hbefore hw₁ hst
  have hroom := always_iff.mp hfits before st after w₁ w₂ hsplit hbefore hst
  rcases Step.configChange (Step.execSerialized_eq_ok.mp hst).1 v with heq | ⟨i, hcall, -, hchange⟩
  · rw [heq]
    exact hw₁
  · refine hw₁.change (policyInv_run (run_execSerialized hbefore) v) hchange ?_
    rintro a u policy rfl rfl hp
    exact hroom a u policy hcall hp

/-- The handler accepts every pending update within its window. -/
theorem applyPendingPolicy_succeeds {vault : AgentVault} (hrun : run Step.exec steps {} = .ok w)
    (hv : w.vaults v = some vault) (hp : w.policies v = some policy) (hpending : w.pendingPolicies v = some pending)
    (hlast : policy.policyVersion < uMax 64) (hst : st.AppliesPolicy vault.owner v pending) :
    st.exec w = .ok ((w.setPendingPolicy v none).setPolicy v (pending.applyTo policy).bumped) := by
  have haddress : v = vault.address := run_vaults_address (by rintro _ _ ⟨⟩) hrun v vault hv
  have hwell := (policyInv_run hrun v).update policy pending hp hpending
  have htimelock : ∀ x, pending.timelockDuration = some x → x ≥ minTimelockDuration := by
    intro x hx
    simpa [PendingPolicyUpdate.applyTo, hx] using hwell.timelock
  have hmode : ∀ x, pending.destinationMode = some x → x ≤ destinationModeOpenWithCap := by
    intro x hx
    simpa [PendingPolicyUpdate.applyTo, hx] using hwell.destinationMode
  rw [Step.exec, TopLevel.exec, hst.call]
  simp only [Instruction.exec, applyPendingPolicy, bind_eq_ok, require_eq_ok, okOr_eq_ok, pure_eq_ok,
    World.loadOwnedVault_eq_ok, World.loadPolicy_eq_ok, bumpVersion_eq_ok]
  exact ⟨(), hst.raw, vault, ⟨hst.signer, hv, haddress, rfl⟩, policy, hp, pending, hpending, (), hst.time, (),
    checkField_eq_ok.mpr htimelock, (), checkField_eq_ok.mpr hmode, _, ⟨hlast, rfl⟩, rfl⟩

theorem serializable_run (hfits : Always Step.execSerialized (fun st w _ => st.FitsPolicy w) steps {})
    (h : run Step.execSerialized steps {} = .ok w) : w.Serializable where
  fits := fits_run h
  applies v vault policy pending hv hp hpending hlast st hst := by
    have hrun := run_execSerialized h
    have hexec := applyPendingPolicy_succeeds hrun hv hp hpending hlast hst
    refine ⟨_, Step.execSerialized_eq_ok.mpr ⟨hexec, fun x hx => ?_⟩⟩
    obtain rfl : x = v := by simpa [Step.vaults, hst.call, Instruction.vaults] using hx
    have hroom := roomInv_run hfits h x policy pending hp hpending hlast
    refine World.fits_iff.mpr ⟨fun y hy => agents_fit hrun hy, fun y hy => ?_, fun y hy => ?_⟩
    · simp only [World.setPolicy, Function.update_self, Option.some.injEq] at hy
      rw [← hy]
      exact PolicyConfig.encodedSize_le_iff.mpr hroom
    · simp [World.setPendingPolicy, World.setPolicy] at hy

/-- The policy that an applied update leaves is within its space. -/
theorem Step.AppliesPolicy.fits (hst : st.AppliesPolicy owner v pending) (hp : w.policies v = some policy)
    (hpending : w.pendingPolicies v = some pending) (h : st.execSerialized w = .ok w') :
    (pending.applyTo policy).listBytes ≤ listSpace := by
  obtain ⟨hexec, hfits⟩ := Step.execSerialized_eq_ok.mp h
  have hnamed : v ∈ st.vaults := by simp [Step.vaults, hst.call, Instruction.vaults]
  rcases Step.exec_cases hexec with ⟨i, hcall, -, -, hi⟩ | ⟨_, hforeign, -⟩
  · cases hst.call.symm.trans hcall
    obtain ⟨_, policy', pending', -, hp', hpending', -, rfl⟩ := applyPendingPolicy_ok hi
    cases hp.symm.trans hp'
    cases hpending.symm.trans hpending'
    have hsize := (World.fits_iff.mp (hfits v hnamed)).2.1 _ (Function.update_self ..)
    exact PolicyConfig.encodedSize_le_iff.mp hsize
  · cases hst.call.symm.trans hforeign

/-- The first moment of the window of an update that is queued. -/
theorem exists_appliesPolicy {clock : Clock} {executes : Int} (u : PolicyUpdate) (howner : owner.isKey = true)
    (hexecutes : executesAt clock policy = .ok executes) :
    ∃ st : Step, st.AppliesPolicy owner v (u.pending clock executes) := by
  let ready : Clock :=
    { unixTimestamp := executes
      slot := clock.slot
      timestamp_range := executesAt_range hexecutes
      slot_range := clock.slot_range }
  refine ⟨.alone ready [owner] (Instruction.applyPendingPolicy { owner := owner, vault := v }).toTopLevel
    (by simpa using howner), rfl, ⟨rfl, rfl⟩, List.mem_singleton.mpr rfl, ?_⟩
  simp [checkApplyTime, isReady, isFresh, Step.alone, ready, PolicyUpdate.pending, bind_eq_ok]

theorem queued_fits {w₁ : World} (hst : st.execSerialized w = .ok w₁) (h : w₁.Serializable) : st.FitsPolicy w := by
  intro a u policy hcall hp _ hlast
  obtain ⟨hexec, -⟩ := Step.execSerialized_eq_ok.mp hst
  rcases Step.exec_cases hexec with ⟨i, hi, -, -, hqueue⟩ | ⟨_, hforeign, -⟩
  · cases hcall.symm.trans hi
    obtain ⟨vault, policy', executes, howned, hp', -, -, -, hexecutes, rfl⟩ := queuePolicyUpdate_ok hqueue
    cases hp.symm.trans hp'
    obtain ⟨apply, happlies⟩ :=
      exists_appliesPolicy (v := a.vault) u (st.signers_isKey a.owner howned.signer) hexecutes
    obtain ⟨w₂, happly⟩ := h.applies a.vault vault _ _ howned.found (Function.update_self ..) (Function.update_self ..)
      hlast apply (howned.owner.symm ▸ happlies)
    have hbytes := happlies.fits (Function.update_self ..) (Function.update_self ..) happly
    exact hbytes
  · cases hcall.symm.trans hforeign

/-- A run only passes states where all accounts are within their space and all pending updates can be applied, if
and only if each of its updates leaves room. -/
theorem updates_apply_iff (steps : List Step) : Along Step.execSerialized World.Serializable steps {} ↔
    Always Step.execSerialized (fun st w _ => st.FitsPolicy w) steps {} := by
  rw [along_iff, always_iff]
  constructor
  · rintro h before st after w w₁ rfl hrun hst
    exact queued_fits hst (h (before ++ [st]) after w₁ (by simp) (run_concat_eq_ok.mpr ⟨w, hrun, hst⟩))
  · rintro h before after w rfl hrun
    refine serializable_run (always_iff.mpr ?_) hrun
    rintro before' st after' w₁ w₂ rfl
    exact h before' st (after' ++ after) w₁ w₂ (by simp)

end

/-! ### Ninety-one caps for a policy without caps -/

def roomRun : List Step :=
  [.ofKey payClock 1 (Instruction.initializeVault payVault).toTopLevel,
   .ofKey payClock 1 (Instruction.queuePolicyUpdate payAction
    { protocolCaps := some (List.replicate 91 0) }).toTopLevel]

def roomApply : Step :=
  .ofKey { unixTimestamp := 602001, slot := 1251 } 1 (Instruction.applyPendingPolicy payAction).toTopLevel

/-- The pending update takes 809 of 848 bytes, and the policy would take 863 of 823. -/
theorem update_outgrows_policy : ∃ w vault policy pending, run Step.execSerialized roomRun {} = .ok w ∧
    w.vaults payVault.vault = some vault ∧ w.policies payVault.vault = some policy ∧
    w.pendingPolicies payVault.vault = some pending ∧ policy.policyVersion = 0 ∧
    roomApply.AppliesPolicy vault.owner payVault.vault pending ∧
    roomApply.execSerialized w = .error AnchorError.accountDidNotSerialize :=
  ⟨_, _, _, _, rfl, rfl, rfl, rfl, rfl, ⟨rfl, ⟨rfl, rfl⟩, List.mem_singleton.mpr rfl, rfl⟩, rfl⟩

end Sigil
