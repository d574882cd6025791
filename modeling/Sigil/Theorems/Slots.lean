import Sigil.Lemmas.SlotErrors
import Sigil.Theorems.SpendingCap

/-!
# The discipline of the slots

Agents come and go in four ways: they are registered, revoked, added by a reactivation, and given another limit.
In every order of these, slots and agents fit together, so the two errors about slots never occur.
-/

namespace Sigil

open Library

/-- Agents and slots of one vault. -/
structure SlotDiscipline (vault : AgentVault) (overlay : AgentSpendOverlay) : Prop where
  distinct : (vault.agents.map AgentEntry.pubkey).Nodup
  nonzero : ∀ e ∈ vault.agents, e.pubkey ≠ .default
  few : vault.agents.length ≤ 10
  limited : ∀ e ∈ vault.agents, 0 < e.spendingLimitUsd → ∃! i, (overlay.entries i).agent = e.pubkey
  owned : ∀ i, (overlay.entries i).agent ≠ .default →
    ∃! e, e ∈ vault.agents ∧ e.pubkey = (overlay.entries i).agent
  unused : ∀ i, (overlay.entries i).agent = .default → (∀ k, (overlay.entries i).contributions k = 0) ∧
    (overlay.entries i).lastWriteEpoch = 0 ∧ overlay.lifetimeSpend i = 0 ∧ overlay.lifetimeTxCount i = 0

theorem SlotsOf.discipline {vault : AgentVault} {overlay : AgentSpendOverlay} (h : SlotsOf vault.agents overlay) :
    SlotDiscipline vault overlay where
  distinct := h.tracks.nodup
  nonzero e he hkey := h.tracks.free_notMem (hkey ▸ List.mem_map_of_mem he)
  few := h.few
  limited e he hpos := by
    obtain ⟨i, hi⟩ := h.limited e he hpos
    refine ⟨i, hi, fun j hj => h.tracks.injective j i (Eq.trans hj hi.symm) fun hfree => ?_⟩
    have hkey : e.pubkey = .default := Eq.trans (Eq.symm hj) hfree
    exact h.tracks.free_notMem (hkey ▸ List.mem_map_of_mem he)
  owned i hi := by
    obtain ⟨e, he, hkey⟩ := List.mem_map.mp (h.tracks.registered i hi)
    exact ⟨e, ⟨he, hkey⟩, fun e' ⟨he', hkey'⟩ => h.unique he' he (hkey'.trans hkey.symm)⟩
  unused i hi := by
    obtain ⟨hentry, hspend, hcount⟩ := h.unused i hi
    rw [hentry]
    exact ⟨fun _ => rfl, rfl, hspend, hcount⟩

/-- After every run the slots of every vault fit its agents, and no step can end with an error about slots. -/
theorem slots_disciplined {steps : List Step} {w : World} (h : run Step.exec steps {} = .ok w) :
    (∀ v vault, w.vaults v = some vault → ∃ overlay, w.overlays v = some overlay ∧ SlotDiscipline vault overlay) ∧
    ∀ st : Step, st.exec w ≠ .error SigilError.overlaySlotExhausted ∧
      st.exec w ≠ .error SigilError.agentSlotNotFound := by
  have hinv := slotInv_run h
  refine ⟨fun v vault hv => ?_, fun st => ⟨fun hexec => ?_, fun hexec => ?_⟩⟩
  · obtain ⟨overlay, ho⟩ := exists_overlay hinv hv
    exact ⟨overlay, ho, (slotsOf_found hinv hv ho).discipline⟩
  · cases Step.exec_slotSafe hinv st _ hexec
  · cases Step.exec_slotSafe hinv st _ hexec

/-! ### Agent 3 is revoked, agent 7 comes with the reactivation, and agent 3 comes back with a limit -/

def limitedAgent : RegisterAgent := { payAgent with spendingLimitUsd := 2000000 }

def staffRun : List Step :=
  [.ofKey payClock 1 (Instruction.initializeVault payVault).toTopLevel,
   .ofKey payClock 1 (Instruction.registerAgent payAgent).toTopLevel,
   .ofKey payClock 1 (Instruction.revokeAgent { owner := .key 1, vault := payVault.vault, agent := .key 3 }).toTopLevel,
   .ofKey payClock 1 (Instruction.reactivateVault
    { owner := .key 1, vault := payVault.vault, newAgent := some (.key 7), newAgentCapability := some 2 }).toTopLevel,
   .ofKey payClock 1 (Instruction.registerAgent limitedAgent).toTopLevel]

theorem slots_disciplined_staff : ∃ w vault overlay, run Step.exec staffRun {} = .ok w ∧
    w.vaults payVault.vault = some vault ∧ vault.agents.map AgentEntry.pubkey = [.key 7, .key 3] ∧
    w.overlays payVault.vault = some overlay ∧ SlotDiscipline vault overlay := by
  obtain ⟨w, vault, hrun, hv, hagents⟩ : ∃ w vault, run Step.exec staffRun {} = .ok w ∧
      w.vaults payVault.vault = some vault ∧ vault.agents.map AgentEntry.pubkey = [.key 7, .key 3] :=
    ⟨_, _, rfl, rfl, rfl⟩
  obtain ⟨overlay, ho, hdiscipline⟩ := (slots_disciplined hrun).1 _ vault hv
  exact ⟨w, vault, overlay, hrun, hv, hagents, ho, hdiscipline⟩

end Sigil
