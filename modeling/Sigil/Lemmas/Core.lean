import Sigil.Lemmas.Handlers

/-!
# Instructions on sessions, escrows and trackers
-/

namespace Sigil

open Library

/-- Instructions that touch vaults as a whole, sessions, escrows or trackers. -/
def Instruction.isCore : Instruction → Bool
  | .initializeVault _ | .closeVault _ | .validateAndAuthorize _ | .finalizeSession _ | .agentTransfer _
  | .createEscrow _ | .settleEscrow _ | .refundEscrow _ | .closeSettledEscrow _ => true
  | _ => false

variable {w w' : World} {ctx : Ctx} {i : Instruction} {st : Step}

theorem Instruction.coreFrame (hcore : i.isCore = false) (hkeys : ∀ k ∈ ctx.signers, k.isKey = true)
    (h : i.exec ctx w = .ok w') : CoreFrame w w' := by
  cases hadmin : i.isAdministrative with
  | true => exact (i.frame hadmin hkeys h).toCoreFrame
  | false =>
      cases i with
      | queuePolicyUpdate a update =>
          obtain ⟨_, _, _, -, -, -, -, -, -, rfl⟩ := queuePolicyUpdate_ok h
          exact { CoreFrame.refl w with }
      | applyPendingPolicy a =>
          obtain ⟨_, _, _, -, -, -, -, rfl⟩ := applyPendingPolicy_ok h
          exact { CoreFrame.refl w with }
      | queueConstraintsUpdate a entries strictMode =>
          obtain ⟨_, _, _, -, -, -, -, -, rfl⟩ := queueConstraintsUpdate_ok h
          exact { CoreFrame.refl w with }
      | queueCloseConstraints a =>
          obtain ⟨_, _, -, -, -, -, rfl⟩ := queueCloseConstraints_ok h
          exact { CoreFrame.refl w with }
      | queueAgentPermissionsUpdate a capability limit =>
          obtain ⟨_, _, -, -, -, -, rfl⟩ := queueAgentPermissionsUpdate_ok h
          exact { CoreFrame.refl w with }
      | _ => simp [isCore, isAdministrative] at hcore hadmin

/-- A step keeps the core frame or is one of the core instructions. -/
theorem Step.core_cases (h : st.exec w = .ok w') :
    (CoreFrame w w' ∧ ∀ i, st.instruction.call = .sigil i → i.isCore = false) ∨
      ∃ i, st.instruction.call = .sigil i ∧ i.isCore ∧ i.exec st.ctx w = .ok w' := by
  rcases Step.exec_cases h with ⟨i, hcall, -, -, hi⟩ | ⟨ops, hcall, -, l, -, rfl, hmoves⟩
  · cases hcore : i.isCore with
    | false =>
        refine .inl ⟨i.coreFrame hcore st.signers_isKey hi, fun j hj => ?_⟩
        cases hcall.symm.trans hj
        exact hcore
    | true => exact .inr ⟨i, hcall, hcore, hi⟩
  · refine .inl ⟨{ CoreFrame.refl w with ledger := hmoves _ }, fun j hj => ?_⟩
    cases hcall.symm.trans hj

theorem CoreFrame.vault (h : CoreFrame w w') {v : Pubkey} {vault' : AgentVault} (hv : w'.vaults v = some vault') :
    ∃ vault, w.vaults v = some vault ∧ vault'.counters = vault.counters := by
  have := h.vaults v
  rw [hv, Option.map_some] at this
  obtain ⟨vault, hvault, heq⟩ := Option.map_eq_some_iff.mp this.symm
  exact ⟨vault, hvault, heq.symm⟩

/-! ## Trackers -/

/-- What a step does to the tracker of one vault. -/
inductive TrackerChange (st : Step) (v : Pubkey) (w w' : World) : Prop where
  | same (htracker : w'.trackers v = w.trackers v) (hlog : w'.spendLog v = w.spendLog v)
  | opened (a : InitializeVault) (hcall : st.instruction.call = .sigil (.initializeVault a)) (hv : a.vault = v)
      (hnone : w.vaults v = none) (htracker : w'.trackers v = some {}) (hlog : w'.spendLog v = [])
  | closed (htracker : w'.trackers v = none) (hlog : w'.spendLog v = w.spendLog v)
  | charged (policy : PolicyConfig) (tracker tracker' : SpendTracker) (x : Nat)
      (hpolicy : w.policies v = some policy) (hbefore : w.trackers v = some tracker)
      (hcharged : Charged policy st.ctx.clock x tracker tracker') (hafter : w'.trackers v = some tracker')
      (hlog : w'.spendLog v = (epochOf st.ctx.clock, x) :: w.spendLog v)

/-- A charge on one vault, seen from every vault. -/
theorem TrackerChange.of_setTracker {v y : Pubkey} {policy : PolicyConfig}
    {tracker tracker' : SpendTracker} {x : Nat} (hpolicy : w.policies y = some policy)
    (hbefore : w.trackers y = some tracker) (hcharged : Charged policy st.ctx.clock x tracker tracker')
    (htrackers : w'.trackers = (w.setTracker y tracker' st.ctx.clock x).trackers)
    (hlog : w'.spendLog = (w.setTracker y tracker' st.ctx.clock x).spendLog) : TrackerChange st v w w' := by
  rcases eq_or_ne v y with rfl | hne
  · refine .charged policy tracker tracker' x hpolicy hbefore hcharged ?_ ?_
    · rw [htrackers]
      exact Function.update_self ..
    · rw [hlog]
      exact Function.update_self ..
  · refine .same ?_ ?_
    · rw [htrackers]
      exact Function.update_of_ne hne ..
    · rw [hlog]
      exact Function.update_of_ne hne ..

theorem Step.trackerChange (h : st.exec w = .ok w') (v : Pubkey) : TrackerChange st v w w' := by
  rcases Step.core_cases h with ⟨hframe, -⟩ | ⟨i, hcall, hcore, hi⟩
  · exact .same (by rw [hframe.trackers]) (by rw [hframe.spendLog])
  · cases i with
    | initializeVault a =>
        obtain ⟨⟨hnone, -⟩, -, rfl⟩ := initializeVault_ok hi
        rcases eq_or_ne v a.vault with rfl | hne
        · exact .opened a hcall rfl hnone (Function.update_self ..) (Function.update_self ..)
        · exact .same (Function.update_of_ne hne ..) (Function.update_of_ne hne ..)
    | closeVault a =>
        obtain ⟨_, _, -, rfl⟩ := closeVault_ok hi
        rcases eq_or_ne v a.vault with rfl | hne
        · exact .closed (Function.update_self ..) rfl
        · exact .same (Function.update_of_ne hne ..) rfl
    | validateAndAuthorize a =>
        obtain ⟨_, _, _, _, _, _, _, -, -, -, -, -, -, -, -, -, rfl⟩ := validateAndAuthorize_ok hi
        exact .same rfl rfl
    | finalizeSession a =>
        obtain ⟨_, _, _, _, _, _, _, -, -, hp, -, -, hcharge, -, rfl⟩ := finalizeSession_ok hi
        rcases chargeSession_ok hcharge with ⟨-, rfl⟩ | ⟨-, _, _, _, ht, hcharged, rfl⟩
        · exact .same rfl rfl
        · exact .of_setTracker hp ht hcharged rfl rfl
    | agentTransfer a =>
        obtain ⟨_, _, _, _, _, _, _, _, -, hp, ht, hcharged, -, -, rfl⟩ := agentTransfer_ok hi
        exact .of_setTracker hp ht hcharged rfl rfl
    | createEscrow a =>
        obtain ⟨_, _, _, _, _, _, _, _, _, _, _, _, -, hp, ht, -, hcharged, -, -, -, rfl⟩ := createEscrow_ok hi
        exact .of_setTracker hp ht hcharged rfl rfl
    | settleEscrow a =>
        obtain ⟨_, _, _, -, -, -, -, -, -, -, rfl⟩ := settleEscrow_ok hi
        exact .same rfl rfl
    | refundEscrow a =>
        obtain ⟨_, _, _, -, -, -, -, -, rfl⟩ := refundEscrow_ok hi
        exact .same rfl rfl
    | closeSettledEscrow a =>
        obtain ⟨_, _, -, -, rfl⟩ := closeSettledEscrow_ok hi
        exact .same rfl rfl
    | _ => cases hcore

end Sigil
