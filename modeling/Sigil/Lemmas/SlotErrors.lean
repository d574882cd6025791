import Sigil.Lemmas.Errors
import Sigil.Lemmas.Slots

/-!
# The errors of the slots

Two errors are about slots. Only three functions can end with one of them; every other function whose errors are not
plain is shown to avoid them here, in the order of the modules that define it.
-/

namespace Sigil

open Library

/-- The errors about slots. -/
def isSlotError (e : ProgramError) : Bool := e = .sigil .overlaySlotExhausted ∨ e = .sigil .agentSlotNotFound

abbrev SlotSafe {α : Type} (x : Result α) : Prop := Avoids isSlotError x

instance : Sparing isSlotError where
  anchor _ := by simp [isSlotError]
  token _ := by simp [isSlotError]
  sigil := by decide

section
variable {w : World} {ctx : Ctx} {v : Pubkey} {clock : Clock} {l : Ledger} {policy : PolicyConfig}

/-! ## Amounts and counters -/

@[simp] theorem stablecoinToUsd_slotSafe {amount decimals : Nat} :
    SlotSafe (stablecoinToUsd amount decimals) := by
  simp [stablecoinToUsd, isSlotError]

@[simp] theorem recordSpend_slotSafe {tracker : SpendTracker} {x : Nat} :
    SlotSafe (tracker.recordSpend clock x) := by
  simp [SpendTracker.recordSpend, isSlotError]

@[simp] theorem recordProtocolSpend_slotSafe {tracker : SpendTracker} {protocol : Pubkey} {x : Nat} :
    SlotSafe (tracker.recordProtocolSpend clock protocol x) := by
  simp only [SpendTracker.recordProtocolSpend, avoids_bind]
  refine ⟨by simp [isSlotError], fun _ _ => ?_⟩
  split <;> simp [isSlotError]

@[simp] theorem recordAgentContribution_slotSafe {overlay : AgentSpendOverlay} {i : Fin maxOverlayEntries} {x : Nat} :
    SlotSafe (overlay.recordAgentContribution clock i x) := by
  simp [AgentSpendOverlay.recordAgentContribution, isSlotError]

/-! ## Loading accounts -/

@[simp] theorem loadOwnedVault_slotSafe {owner : Pubkey} : SlotSafe (w.loadOwnedVault ctx owner v) := by
  simp [World.loadOwnedVault, isSlotError]

/-! ## Constraints and assertions -/

@[simp] theorem validateDataConstraint_slotSafe {dc : DataConstraint} :
    SlotSafe (InstructionConstraints.validateDataConstraint dc) := by
  simp [InstructionConstraints.validateDataConstraint, isSlotError]

@[simp] theorem validateAnchor_slotSafe {entry : ConstraintEntry} {first : DataConstraint} :
    SlotSafe (InstructionConstraints.validateAnchor entry first) := by
  simp [InstructionConstraints.validateAnchor, isSlotError]

@[simp] theorem validateConstraintEntry_slotSafe {entry : ConstraintEntry} :
    SlotSafe (InstructionConstraints.validateEntry entry) := by
  simp [InstructionConstraints.validateEntry, isSlotError]

@[simp] theorem validateConstraintEntries_slotSafe {entries : List ConstraintEntry} :
    SlotSafe (InstructionConstraints.validateEntries entries) := by
  simp [InstructionConstraints.validateEntries, isSlotError]

@[simp] theorem validateCrossField_slotSafe {entry : PostAssertionEntry} :
    SlotSafe (PostExecutionAssertions.validateCrossField entry) := by
  simp [PostExecutionAssertions.validateCrossField, isSlotError]

@[simp] theorem validateAssertionEntry_slotSafe {entry : PostAssertionEntry} :
    SlotSafe (PostExecutionAssertions.validateEntry entry) := by
  simp [PostExecutionAssertions.validateEntry, isSlotError]

@[simp] theorem validateAssertionEntries_slotSafe {entries : List PostAssertionEntry} :
    SlotSafe (PostExecutionAssertions.validateEntries entries) := by
  simp [PostExecutionAssertions.validateEntries, isSlotError]

/-! ## The scan -/

theorem blockedTokenOpcode_slotSafe {ix : RawInstruction} {e : SigilError} (h : blockedTokenOpcode ix = some e) :
    isSlotError e = false := by
  unfold blockedTokenOpcode at h
  split at h
  · cases h
  · split_ifs at h <;> cases h <;> rfl

@[simp] theorem scanInstructionShared_slotSafe {ix : RawInstruction} {constraints : Option InstructionConstraints} :
    SlotSafe (scanInstructionShared ix policy constraints) := by
  unfold scanInstructionShared
  split
  · exact avoids_pure
  · split
    · rename_i e hblocked
      exact avoids_error.mpr (blockedTokenOpcode_slotSafe hblocked)
    · cases constraints <;> simp [verifyAgainstEntries, isSlotError]

@[simp] theorem scanBefore_slotSafe {ixs : List RawInstruction} {n : Nat} : SlotSafe (scanBefore ixs n) := by
  induction ixs generalizing n with
  | nil => exact avoids_pure
  | cons ix ixs ih => simp [scanBefore, ih, isSlotError]

@[simp] theorem scanSpending_slotSafe {constraints : Option InstructionConstraints} {target : Pubkey}
    {ixs : List RawInstruction} {n k : Nat} : SlotSafe (scanSpending policy constraints target ixs n k) := by
  induction ixs generalizing n k with
  | nil => exact avoids_pure
  | cons ix ixs ih =>
      simp only [scanSpending, avoids_bind, scanInstructionShared_slotSafe, true_and]
      refine ⟨by simp [isSlotError], fun _ _ action _ => ?_⟩
      cases action <;> simp [ih, isSlotError]

@[simp] theorem scanNonSpending_slotSafe {constraints : Option InstructionConstraints}
    {ixs : List RawInstruction} {n : Nat} : SlotSafe (scanNonSpending policy constraints ixs n) := by
  induction ixs generalizing n with
  | nil => exact avoids_pure
  | cons ix ixs ih =>
      simp only [scanNonSpending, avoids_bind, scanInstructionShared_slotSafe, true_and]
      refine ⟨by simp [isSlotError], fun _ _ action _ => ?_⟩
      cases action <;> simp [ih]

@[simp] theorem scanAfter_slotSafe {ixs : List RawInstruction} {n : Nat} : SlotSafe (scanAfter ixs n) := by
  induction ixs generalizing n with
  | nil => exact avoids_pure
  | cons ix ixs ih => simp [scanAfter, ih, isSlotError]

/-! ## Charges and payments -/

@[simp] theorem checkRollingCap_slotSafe {tracker : SpendTracker} {x : Nat} :
    SlotSafe (checkRollingCap policy tracker clock x) := by
  simp [checkRollingCap, isSlotError]

@[simp] theorem checkAgentLimit_slotSafe {e : AgentEntry} {overlay : AgentSpendOverlay} {i : Fin maxOverlayEntries}
    {x : Nat} : SlotSafe (checkAgentLimit e overlay clock i x) := by
  simp [checkAgentLimit, isSlotError]

@[simp] theorem addLifetime_slotSafe {overlay : AgentSpendOverlay} {i : Fin maxOverlayEntries} {x : Nat} :
    SlotSafe (addLifetime overlay i x) := by
  simp [addLifetime, isSlotError]

@[simp] theorem checkProtocolCap_slotSafe {tracker : SpendTracker} {protocol : Pubkey} {x : Nat} :
    SlotSafe (checkProtocolCap policy tracker clock protocol x) := by
  unfold checkProtocolCap
  split <;> simp [isSlotError]

@[simp] theorem addPayment_slotSafe {vault : AgentVault} {amount fee : Nat} :
    SlotSafe (addPayment vault amount fee) := by
  simp [addPayment, isSlotError]

@[simp] theorem checkTransfer_slotSafe {a : AgentTransfer} {vault : AgentVault} {source destination : TokenAccount} :
    SlotSafe (checkTransfer a vault policy source destination) := by
  simp [checkTransfer, isSlotError]

@[simp] theorem ensureAssociated_slotSafe {owner mint : Pubkey} : SlotSafe (ensureAssociated l owner mint) := by
  unfold ensureAssociated
  split <;> simp [isSlotError]

@[simp] theorem checkEscrow_slotSafe {a : CreateEscrow} {vault : AgentVault} :
    SlotSafe (checkEscrow clock a vault) := by
  simp [checkEscrow, isSlotError]

@[simp] theorem fundEscrow_slotSafe {a : CreateEscrow} {vault : AgentVault} {fee fee' net : Nat} :
    SlotSafe (fundEscrow l a vault fee fee' net) := by
  simp [fundEscrow, isSlotError]

@[simp] theorem payOut_slotSafe {p : Payout} {recipient owner : Pubkey} {amount : Nat} :
    SlotSafe (payOut w p recipient owner amount) := by
  simp [payOut, isSlotError]

@[simp] theorem loadEscrow_slotSafe {address source : Pubkey} : SlotSafe (loadEscrow w address source) := by
  simp [loadEscrow, isSlotError]

/-! ## Sessions -/

@[simp] theorem checkScans_slotSafe {a : ValidateAndAuthorize} {constraints : Option InstructionConstraints} :
    SlotSafe (checkScans ctx a policy constraints) := by
  simp [checkScans, isSlotError]

@[simp] theorem checkRequest_slotSafe {a : ValidateAndAuthorize} {vault : AgentVault} :
    SlotSafe (checkRequest w a vault policy) := by
  simp [checkRequest, isSlotError]

@[simp] theorem revokeDelegation_slotSafe {a : FinalizeSession} {session : SessionAuthority} :
    SlotSafe (revokeDelegation l a session) := by
  simp [revokeDelegation, isSlotError]

@[simp] theorem measureSpend_slotSafe {a : FinalizeSession} {session : SessionAuthority} {expired : Bool} :
    SlotSafe (measureSpend w a session expired) := by
  simp [measureSpend, measureDecrease, measureIncrease, isSlotError]

@[simp] theorem finalizeStats_slotSafe {vault : AgentVault} {session : SessionAuthority} {expired : Bool} {x : Nat} :
    SlotSafe (finalizeStats vault session expired x) := by
  simp [finalizeStats, isSlotError]

@[simp] theorem checkAssertion_slotSafe {remaining : List Pubkey} {entry : PostAssertionEntry} {snapshot : List UInt8} :
    SlotSafe (checkAssertion ctx remaining entry snapshot) := by
  simp only [checkAssertion, avoids_bind]
  refine ⟨by simp [isSlotError], fun _ _ => ⟨by simp [isSlotError], fun mode _ => ?_⟩⟩
  cases mode <;> simp [checkCrossField, isSlotError]

@[simp] theorem checkAssertionList_slotSafe {remaining : List Pubkey} {snapshots : Fin 4 → List UInt8}
    {entries : List PostAssertionEntry} {i : Nat} :
    SlotSafe (checkAssertionList ctx remaining snapshots entries i) := by
  induction entries generalizing i with
  | nil => exact avoids_pure
  | cons entry entries ih => exact avoids_bind.mpr ⟨checkAssertion_slotSafe, fun _ _ => ih⟩

@[simp] theorem checkAssertions_slotSafe {a : FinalizeSession} {session : SessionAuthority} {expired : Bool} :
    SlotSafe (checkAssertions w ctx a policy session expired) := by
  simp [checkAssertions, isSlotError]

@[simp] theorem loadSession_slotSafe {a : FinalizeSession} : SlotSafe (loadSession w a) := by
  simp [loadSession, isSlotError]

/-! ## Vaults and queued updates -/

@[simp] theorem initializeCheck_slotSafe {a : InitializeVault} : SlotSafe (a.check) := by
  simp [InitializeVault.check, isSlotError]

@[simp] theorem revokePairs_slotSafe {pairs : List (Pubkey × Pubkey)} : SlotSafe (revokePairs w v pairs l) := by
  induction pairs generalizing l with
  | nil => exact avoids_pure
  | cons pair pairs ih => simp [revokePairs, ih]

@[simp] theorem reactivatedAgents_slotSafe {vault : AgentVault} {newAgent : Option Pubkey} {capability : Option UInt8} :
    SlotSafe (reactivatedAgents vault newAgent capability) := by
  unfold reactivatedAgents
  split <;> simp [isSlotError]

@[simp] theorem executesAt_slotSafe : SlotSafe (executesAt clock policy) := by simp [executesAt, isSlotError]

@[simp] theorem checkApplyTime_slotSafe {t : Int} {slot : Nat} : SlotSafe (checkApplyTime clock t slot) := by
  simp [checkApplyTime, isSlotError]

@[simp] theorem bumpVersion_slotSafe : SlotSafe (bumpVersion policy) := by simp [bumpVersion, isSlotError]

@[simp] theorem checkField_slotSafe {α : Type} {field : Option α} {p : α → Prop} [DecidablePred p]
    {e : SigilError} (he : isSlotError e = false) : SlotSafe (PolicyUpdate.checkField field p e) := by
  cases field <;> simp [PolicyUpdate.checkField, he]

@[simp] theorem checkFields_slotSafe {u : PolicyUpdate} : SlotSafe (u.checkFields) := by
  simp [PolicyUpdate.checkFields, isSlotError]

@[simp] theorem checkProtocolCaps_slotSafe {u : PolicyUpdate} : SlotSafe (u.checkProtocolCaps policy) := by
  simp [PolicyUpdate.checkProtocolCaps, isSlotError]

@[simp] theorem loadAllocated_slotSafe {α : Type} {account : Option (Allocated α)} {size : Nat} {e : SigilError}
    (he : isSlotError e = false) : SlotSafe (loadAllocated account size v e) := by
  simp_all [loadAllocated, isSlotError]

@[simp] theorem loadPopulated_slotSafe : SlotSafe (loadPopulated w v) := by simp [loadPopulated, isSlotError]

@[simp] theorem loadPendingConstraints_slotSafe : SlotSafe (loadPendingConstraints w v) := by
  simp [loadPendingConstraints, isSlotError]

@[simp] theorem checkUnpopulated_slotSafe {α : Type} {account : Allocated α} :
    SlotSafe (checkUnpopulated account v) := by
  simp [checkUnpopulated, isSlotError]

@[simp] theorem loadPendingAgentPerms_slotSafe {address : Pubkey} :
    SlotSafe (loadPendingAgentPerms w v address) := by
  simp [loadPendingAgentPerms, isSlotError]

@[simp] theorem extendAllocated_slotSafe {α : Type} {account : Option (Allocated α)} {target : Nat} :
    SlotSafe (extendAllocated account v target) := by
  simp [extendAllocated, checkTargetSize, isSlotError]

end

/-! ## The functions that can end with such an error -/

section
variable {vault : AgentVault} {overlay : AgentSpendOverlay} {agent : Pubkey} {clock : Clock} {x : Nat}

theorem claimForNewAgent_slotSafe {limit : Nat} (h : SlotsOf vault.agents overlay)
    (hlength : vault.agents.length < maxAgentsPerVault) : SlotSafe (claimForNewAgent overlay agent limit) := by
  unfold claimForNewAgent
  split
  · exact avoids_pure
  · split
    · exact avoids_pure
    · rename_i hnone
      exact absurd hnone (h.exists_free hlength)

theorem adjustSlot_slotSafe {e : AgentEntry} {old new : Nat} (h : SlotsOf vault.agents overlay)
    (hentry : vault.getAgent agent = some e) : SlotSafe (adjustSlot overlay agent old new) := by
  obtain ⟨he, hkey⟩ := getAgent_some hentry
  unfold adjustSlot
  split
  · rename_i hslot
    refine avoids_ite.mpr ⟨fun _ => avoids_okOr.mpr (.inl ?_), fun _ => avoids_pure⟩
    rw [Option.isSome_iff_ne_none]
    exact h.exists_free_of_missing (List.mem_map.mpr ⟨e, he, hkey⟩)
      (AgentSpendOverlay.findAgentSlot_eq_none.mp hslot)
  · exact avoids_pure

theorem chargeAgent_slotSafe {lifetime : Bool} (h : SlotsOf vault.agents overlay) :
    SlotSafe (chargeAgent vault overlay clock agent x lifetime) := by
  refine avoids_bind.mpr ⟨by simp [isSlotError], fun e hentry => ?_⟩
  obtain ⟨he, hkey⟩ := getAgent_some (okOr_eq_ok.mp hentry)
  split
  · simp
  · rename_i hslot
    -- an agent with a limit has a slot
    refine avoids_bind.mpr ⟨avoids_require.mpr (.inl (Nat.eq_zero_of_not_pos fun hpos => ?_)), fun _ _ => avoids_pure⟩
    obtain ⟨i, hi⟩ := h.limited e he hpos
    exact AgentSpendOverlay.findAgentSlot_eq_none.mp hslot i (hi.trans hkey)

end

/-! ## The handlers -/

section
variable {w : World} {ctx : Ctx} {i : Instruction}

theorem slotsOf_found (hinv : ∀ v, (w.staff v).SlotInv) {v : Pubkey} {vault : AgentVault}
    {overlay : AgentSpendOverlay} (hv : w.vaults v = some vault) (ho : w.overlays v = some overlay) :
    SlotsOf vault.agents overlay := (hinv v).slots _ _ (World.staff_roster hv) ho

theorem exists_overlay (hinv : ∀ v, (w.staff v).SlotInv) {v : Pubkey} {vault : AgentVault}
    (hv : w.vaults v = some vault) : ∃ overlay, w.overlays v = some overlay := by
  have hlive := (hinv v).live
  rw [World.staff_roster hv] at hlive
  exact Option.isSome_iff_exists.mp hlive.symm

theorem registerAgent_slotSafe (hinv : ∀ v, (w.staff v).SlotInv) {a : RegisterAgent} :
    SlotSafe (registerAgent ctx a w) := by
  simp only [registerAgent, avoids_bind, avoids_require, loadOwnedVault_slotSafe, loadOverlay_avoids, true_and,
    World.loadOwnedVault_eq_ok, World.loadOverlay_eq_ok, require_eq_ok]
  simp only [isSlotError, reduceCtorEq, ProgramError.sigil.injEq, or_self, decide_false, or_true, true_and]
  intro vault howned overlay ho _ _ _ _ _ _ _ hlength _ _ _ _
  exact ⟨claimForNewAgent_slotSafe (slotsOf_found hinv howned.found ho) hlength, fun _ _ => avoids_pure⟩

theorem applyAgentPermissionsUpdate_slotSafe (hinv : ∀ v, (w.staff v).SlotInv) {a : OwnerAction} {address : Pubkey} :
    SlotSafe (applyAgentPermissionsUpdate ctx a address w) := by
  simp only [applyAgentPermissionsUpdate, avoids_bind, loadOwnedVault_slotSafe, loadPolicy_avoids,
    loadOverlay_avoids, loadPendingAgentPerms_slotSafe, checkApplyTime_slotSafe, true_and,
    World.loadOwnedVault_eq_ok, World.loadOverlay_eq_ok, okOr_eq_ok]
  intro vault howned _ _ pending _ overlay ho _ _
  refine ⟨by simp [isSlotError], fun e he => ⟨?_, by simp⟩⟩
  exact adjustSlot_slotSafe (slotsOf_found hinv howned.found ho) he

theorem agentTransfer_slotSafe (hinv : ∀ v, (w.staff v).SlotInv) {a : AgentTransfer} :
    SlotSafe (agentTransfer ctx a w) := by
  have hcharge : ∀ vault overlay x, w.loadVault a.vault = .ok vault → w.overlays a.vault = some overlay →
      SlotSafe (chargeAgent vault overlay ctx.clock a.agent x false) :=
    fun _ _ _ hv ho => chargeAgent_slotSafe (slotsOf_found hinv (World.loadVault_eq_ok.mp hv).1 ho)
  simp +contextual [agentTransfer, isSlotError, hcharge]

theorem createEscrow_slotSafe (hinv : ∀ v, (w.staff v).SlotInv) {a : CreateEscrow} :
    SlotSafe (createEscrow ctx a w) := by
  have hcharge : ∀ vault overlay x, w.loadVault a.sourceVault = .ok vault → w.overlays a.sourceVault = some overlay →
      SlotSafe (chargeAgent vault overlay ctx.clock a.agent x false) :=
    fun _ _ _ hv ho => chargeAgent_slotSafe (slotsOf_found hinv (World.loadVault_eq_ok.mp hv).1 ho)
  simp +contextual [createEscrow, isSlotError, hcharge]

theorem chargeSession_slotSafe {v : Pubkey} {vault : AgentVault} {policy : PolicyConfig} {session : SessionAuthority}
    {x : Nat} {clock : Clock} (h : ∀ overlay, w.overlays v = some overlay → SlotsOf vault.agents overlay) :
    SlotSafe (chargeSession w clock v vault policy session x) := by
  simp only [chargeSession, avoids_bind, loadTracker_avoids, loadOverlay_avoids, true_and,
    World.loadOverlay_eq_ok]
  intro tracker _ overlay ho
  have hcharge : SlotSafe (chargeAgent vault overlay clock session.agent x true) := chargeAgent_slotSafe (h overlay ho)
  simp [chargeSpend, chargeFees, hcharge, isSlotError]

theorem finalizeSession_slotSafe (hinv : ∀ v, (w.staff v).SlotInv) {a : FinalizeSession} :
    SlotSafe (finalizeSession ctx a w) := by
  have hcharge : ∀ vault policy session x, w.loadVault a.vault = .ok vault →
      SlotSafe (chargeSession w ctx.clock a.vault vault policy session x) :=
    fun _ _ _ _ hv => chargeSession_slotSafe fun _ ho => slotsOf_found hinv (World.loadVault_eq_ok.mp hv).1 ho
  simp +contextual [finalizeSession, isSlotError, hcharge]

theorem Instruction.exec_slotSafe (hinv : ∀ v, (w.staff v).SlotInv) : SlotSafe (i.exec ctx w) := by
  cases i with
  | initializeVault a => simp [exec, Sigil.initializeVault, isSlotError]
  | closeVault a => simp [exec, Sigil.closeVault, isSlotError]
  | depositFunds a => simp [exec, Sigil.depositFunds, isSlotError]
  | withdrawFunds a => simp [exec, Sigil.withdrawFunds, isSlotError]
  | registerAgent a => exact registerAgent_slotSafe hinv
  | revokeAgent a => simp [exec, Sigil.revokeAgent, isSlotError]
  | pauseAgent a => simp [exec, Sigil.pauseAgent, setPaused, isSlotError]
  | unpauseAgent a => simp [exec, Sigil.unpauseAgent, setPaused, isSlotError]
  | freezeVault a => simp [exec, Sigil.freezeVault, isSlotError]
  | reactivateVault a => simp [exec, Sigil.reactivateVault, isSlotError]
  | validateAndAuthorize a => simp [exec, Sigil.validateAndAuthorize, isSlotError]
  | finalizeSession a => exact finalizeSession_slotSafe hinv
  | agentTransfer a => exact agentTransfer_slotSafe hinv
  | createEscrow a => exact createEscrow_slotSafe hinv
  | settleEscrow a => simp [exec, Sigil.settleEscrow, isSlotError]
  | refundEscrow a => simp [exec, Sigil.refundEscrow, isSlotError]
  | closeSettledEscrow a => simp [exec, Sigil.closeSettledEscrow, isSlotError]
  | queuePolicyUpdate a u => simp [exec, Sigil.queuePolicyUpdate, isSlotError]
  | applyPendingPolicy a => simp [exec, Sigil.applyPendingPolicy, isSlotError]
  | cancelPendingPolicy a => simp [exec, Sigil.cancelPendingPolicy, isSlotError]
  | queueConstraintsUpdate a entries strictMode => simp [exec, Sigil.queueConstraintsUpdate, isSlotError]
  | applyConstraintsUpdate a => simp [exec, Sigil.applyConstraintsUpdate]
  | cancelConstraintsUpdate a => simp [exec, Sigil.cancelConstraintsUpdate]
  | queueCloseConstraints a => simp [exec, Sigil.queueCloseConstraints, isSlotError]
  | applyCloseConstraints a closesPending => simp [exec, Sigil.applyCloseConstraints, isSlotError]
  | cancelCloseConstraints a => simp [exec, Sigil.cancelCloseConstraints, isSlotError]
  | queueAgentPermissionsUpdate a capability limit => simp [exec, Sigil.queueAgentPermissionsUpdate, isSlotError]
  | applyAgentPermissionsUpdate a address => exact applyAgentPermissionsUpdate_slotSafe hinv
  | cancelAgentPermissionsUpdate a address => simp [exec, Sigil.cancelAgentPermissionsUpdate]
  | allocateConstraintsPda a => simp [exec, Sigil.allocateConstraintsPda, isSlotError]
  | allocatePendingConstraintsPda a => simp [exec, Sigil.allocatePendingConstraintsPda, isSlotError]
  | extendPda a pda target => cases pda <;> simp [exec, Sigil.extendPda, isSlotError]
  | createInstructionConstraints a entries strictMode =>
      simp [exec, Sigil.createInstructionConstraints, isSlotError]
  | cleanupOrphanConstraintsPda a => simp [exec, Sigil.cleanupOrphanConstraintsPda, isSlotError]
  | createPostAssertions a entries => simp [exec, Sigil.createPostAssertions, isSlotError]
  | closePostAssertions a => simp [exec, Sigil.closePostAssertions, isSlotError]

theorem Step.exec_slotSafe (hinv : ∀ v, (w.staff v).SlotInv) (st : Step) : SlotSafe (st.exec w) := by
  unfold exec TopLevel.exec
  split
  · exact avoids_bind.mpr ⟨by simp [isSlotError], fun _ _ => Instruction.exec_slotSafe hinv⟩
  · refine avoids_bind.mpr ⟨by simp [isSlotError], fun _ _ => ?_⟩
    exact avoids_bind.mpr ⟨avoids_run (fun _ _ => tokenInstruction_avoids) _ _, fun _ _ => avoids_pure⟩

end

end Sigil
