import Sigil.Library.Slots
import Sigil.Lemmas.Staff

/-!
# Slots of the agents

The overlay of a vault is a table of slots for the keys of its agents. Agents with a limit have a slot, and a
free slot holds nothing.
-/

namespace Sigil

open Library

/-! ## Finding slots and agents -/

namespace AgentSpendOverlay

variable {overlay overlay' : AgentSpendOverlay} {agent : Pubkey} {i : Fin maxOverlayEntries}

/-- The key that a slot holds. -/
def keyAt (overlay : AgentSpendOverlay) (i : Fin maxOverlayEntries) : Pubkey := (overlay.entries i).agent

theorem findAgentSlot_some (h : overlay.findAgentSlot agent = some i) : overlay.keyAt i = agent := by
  simpa [keyAt] using List.find?_some h

theorem findAgentSlot_eq_none : overlay.findAgentSlot agent = none ↔ ∀ i, overlay.keyAt i ≠ agent := by
  simp [findAgentSlot, keyAt]

theorem claimSlot_some (h : overlay.claimSlot agent = some overlay') :
    ∃ i, overlay.keyAt i = .default ∧
      overlay' =
        { overlay with entries := Function.update overlay.entries i { overlay.entries i with agent := agent } } := by
  obtain ⟨i, hi, rfl⟩ := Option.map_eq_some_iff.mp h
  exact ⟨i, findAgentSlot_some hi, rfl⟩

theorem claimSlot_eq_none : overlay.claimSlot agent = none ↔ ∀ i, overlay.keyAt i ≠ .default := by
  rw [claimSlot, Option.map_eq_none_iff, findAgentSlot_eq_none]

/-- A slot that is not in use. -/
structure Unused (overlay : AgentSpendOverlay) (i : Fin maxOverlayEntries) : Prop where
  entry : overlay.entries i = {}
  spend : overlay.lifetimeSpend i = 0
  count : overlay.lifetimeTxCount i = 0

end AgentSpendOverlay

/-- The slots of an overlay fit the agents of its vault. -/
structure SlotsOf (agents : List AgentEntry) (overlay : AgentSpendOverlay) : Prop where
  tracks : Tracks .default overlay.keyAt (agents.map AgentEntry.pubkey)
  few : agents.length ≤ maxAgentsPerVault
  limited : ∀ e ∈ agents, 0 < e.spendingLimitUsd → ∃ i, overlay.keyAt i = e.pubkey
  unused : ∀ i, overlay.keyAt i = .default → overlay.Unused i

namespace SlotsOf

variable {agents agents' : List AgentEntry} {overlay overlay' : AgentSpendOverlay} {agent : Pubkey}
  {e : AgentEntry} {i : Fin maxOverlayEntries}

theorem empty : SlotsOf [] {} where
  tracks := .empty
  few := Nat.zero_le _
  limited _ he := absurd he List.not_mem_nil
  unused _ _ := ⟨rfl, rfl, rfl⟩

/-- A key is the key of one agent only. -/
theorem unique (h : SlotsOf agents overlay) {e e' : AgentEntry} (he : e ∈ agents) (he' : e' ∈ agents)
    (hkey : e.pubkey = e'.pubkey) : e = e' := List.inj_on_of_nodup_map h.tracks.nodup he he' hkey

theorem length_keys : (agents.map AgentEntry.pubkey).length = agents.length := List.length_map _

/-! ## The agents change -/

/-- Other entries under the same keys. -/
theorem congr (h : SlotsOf agents overlay) (hkeys : agents'.map AgentEntry.pubkey = agents.map AgentEntry.pubkey)
    (hlimited : ∀ e ∈ agents', 0 < e.spendingLimitUsd → ∃ i, overlay.keyAt i = e.pubkey) :
    SlotsOf agents' overlay where
  tracks := hkeys ▸ h.tracks
  few := by
    have hlength := congrArg List.length hkeys
    rw [length_keys, length_keys] at hlength
    exact hlength ▸ h.few
  limited := hlimited
  unused := h.unused

/-- A new agent that has a slot or no limit. -/
theorem add (h : SlotsOf agents overlay) (hnew : e.pubkey ∉ agents.map AgentEntry.pubkey) (hkey : e.pubkey ≠ .default)
    (hlength : agents.length < maxAgentsPerVault) (hslot : 0 < e.spendingLimitUsd → ∃ i, overlay.keyAt i = e.pubkey) :
    SlotsOf (agents ++ [e]) overlay where
  tracks := by
    rw [List.map_append, List.map_singleton]
    exact h.tracks.add hnew hkey
  few := by
    rw [List.length_append, List.length_singleton]
    exact hlength
  limited e' he' hlimit := by
    rcases List.mem_append.mp he' with he' | he'
    · exact h.limited e' he' hlimit
    · rw [List.mem_singleton.mp he'] at hlimit ⊢
      exact hslot hlimit
  unused := h.unused

/-- An agent without a slot leaves. -/
theorem remove (h : SlotsOf agents overlay) (hnone : ∀ i, overlay.keyAt i ≠ agent) :
    SlotsOf (agents.filter fun e => e.pubkey ≠ agent) overlay where
  tracks := by
    refine h.tracks.remove (List.filter_sublist.map _) fun i hi => ?_
    obtain ⟨e, he, hkey⟩ := List.mem_map.mp (h.tracks.registered i hi)
    refine List.mem_map.mpr ⟨e, List.mem_filter.mpr ⟨he, ?_⟩, hkey⟩
    rw [decide_eq_true_eq, hkey]
    exact hnone i
  few := (List.length_filter_le _ _).trans h.few
  limited e he := h.limited e (List.mem_filter.mp he).1
  unused := h.unused

/-! ## The slots change -/

/-- A slot is written under the key it has. -/
theorem write (h : SlotsOf agents overlay) (hkeys : overlay'.keyAt = overlay.keyAt)
    (hothers : ∀ j, overlay.keyAt j = .default → overlay'.entries j = overlay.entries j ∧
      overlay'.lifetimeSpend j = overlay.lifetimeSpend j ∧ overlay'.lifetimeTxCount j = overlay.lifetimeTxCount j) :
    SlotsOf agents overlay' where
  tracks := by
    rw [hkeys]
    exact h.tracks
  few := h.few
  limited := by
    rw [hkeys]
    exact h.limited
  unused j hj := by
    rw [hkeys] at hj
    obtain ⟨hentry, hspend, hcount⟩ := hothers j hj
    exact ⟨hentry.trans (h.unused j hj).entry, hspend.trans (h.unused j hj).spend, hcount.trans (h.unused j hj).count⟩

theorem keyAt_update (overlay : AgentSpendOverlay) (i : Fin maxOverlayEntries) (entry : AgentContributionEntry) :
    AgentSpendOverlay.keyAt { overlay with entries := Function.update overlay.entries i entry } =
      Function.update overlay.keyAt i entry.agent := by
  funext j
  rcases eq_or_ne j i with rfl | hne
  · simp [AgentSpendOverlay.keyAt]
  · simp [AgentSpendOverlay.keyAt, Function.update_of_ne hne]

/-- A registered agent without a slot claims one. -/
theorem claim (h : SlotsOf agents overlay) (hagent : agent ∈ agents.map AgentEntry.pubkey)
    (hnone : ∀ i, overlay.keyAt i ≠ agent) (hclaim : overlay.claimSlot agent = some overlay') :
    SlotsOf agents overlay' ∧ ∃ i, overlay'.keyAt i = agent := by
  obtain ⟨i, hi, rfl⟩ := AgentSpendOverlay.claimSlot_some hclaim
  have hkeys := keyAt_update overlay i { overlay.entries i with agent := agent }
  refine ⟨⟨?_, h.few, ?_, ?_⟩, i, ?_⟩
  · rw [hkeys]
    exact h.tracks.claim hi hagent hnone
  · intro e he hlimit
    obtain ⟨j, hj⟩ := h.limited e he hlimit
    have hne : j ≠ i := by
      rintro rfl
      exact h.tracks.free_notMem (hi ▸ hj ▸ List.mem_map_of_mem he)
    exact ⟨j, by rw [hkeys, Function.update_of_ne hne, hj]⟩
  · intro j hj
    rcases eq_or_ne j i with rfl | hne
    · rw [hkeys, Function.update_self] at hj
      exact absurd (hj ▸ hagent) h.tracks.free_notMem
    · rw [hkeys, Function.update_of_ne hne] at hj
      have hunused := h.unused j hj
      exact ⟨(Function.update_of_ne hne ..).trans hunused.entry, hunused.spend, hunused.count⟩
  · rw [hkeys, Function.update_self]

/-- The slot of an agent is released; the agents that stay with a limit have another one. -/
theorem release (h : SlotsOf agents overlay) (hi : overlay.keyAt i = agent)
    (htracks : Tracks .default (Function.update overlay.keyAt i .default) (agents'.map AgentEntry.pubkey))
    (hfew : agents'.length ≤ maxAgentsPerVault)
    (hlimited : ∀ e ∈ agents', 0 < e.spendingLimitUsd → e.pubkey ≠ agent ∧ ∃ j, overlay.keyAt j = e.pubkey) :
    SlotsOf agents' (overlay.releaseSlot i) := by
  have hkeys : (overlay.releaseSlot i).keyAt = Function.update overlay.keyAt i .default :=
    keyAt_update overlay i {}
  refine ⟨hkeys ▸ htracks, hfew, ?_, ?_⟩
  · intro e he hpos
    obtain ⟨hother, j, hj⟩ := hlimited e he hpos
    have hne : j ≠ i := by
      rintro rfl
      exact hother (hj.symm.trans hi)
    exact ⟨j, by rw [hkeys, Function.update_of_ne hne, hj]⟩
  · intro j hj
    rcases eq_or_ne j i with rfl | hne
    · exact ⟨Function.update_self .., Function.update_self .., Function.update_self ..⟩
    · rw [hkeys, Function.update_of_ne hne] at hj
      have hunused := h.unused j hj
      exact ⟨(Function.update_of_ne hne ..).trans hunused.entry, (Function.update_of_ne hne ..).trans hunused.spend,
        (Function.update_of_ne hne ..).trans hunused.count⟩

/-- There is a free slot for a new agent. -/
theorem exists_free (h : SlotsOf agents overlay) (hlength : agents.length < maxAgentsPerVault) :
    overlay.claimSlot agent ≠ none := by
  intro hnone
  obtain ⟨i, hi⟩ := h.tracks.exists_free (length_keys.trans_lt hlength)
  exact AgentSpendOverlay.claimSlot_eq_none.mp hnone i hi

/-- There is a free slot for an agent that has none. -/
theorem exists_free_of_missing (h : SlotsOf agents overlay) (hagent : agent ∈ agents.map AgentEntry.pubkey)
    (hmissing : ∀ i, overlay.keyAt i ≠ agent) : overlay.claimSlot agent ≠ none := by
  intro hnone
  obtain ⟨i, hi⟩ := h.tracks.exists_free_of_missing (length_keys.trans_le h.few) hagent hmissing
  exact AgentSpendOverlay.claimSlot_eq_none.mp hnone i hi

end SlotsOf

/-! ## What the handlers do to agents and slots -/

section
variable {vault : AgentVault} {agents : List AgentEntry} {overlay overlay' : AgentSpendOverlay} {agent : Pubkey}
  {e : AgentEntry} {clock : Clock}

theorem isAgent_eq_false_iff : vault.isAgent agent = false ↔ agent ∉ vault.agents.map AgentEntry.pubkey := by
  simp [AgentVault.isAgent]

theorem getAgent_some (h : vault.getAgent agent = some e) : e ∈ vault.agents ∧ e.pubkey = agent :=
  ⟨List.mem_of_find?_eq_some h, by simpa using List.find?_some h⟩

section
variable {f : AgentEntry → AgentEntry}

theorem updateAgent_keys (hf : ∀ e, (f e).pubkey = e.pubkey) :
    (updateAgent agents agent f).map AgentEntry.pubkey = agents.map AgentEntry.pubkey := by
  induction agents with
  | nil => rfl
  | cons e es ih =>
      unfold updateAgent
      split
      · simp [hf]
      · simp [ih]

/-- Entries of other agents stay, and the one of the agent is changed. -/
theorem mem_updateAgent (hnodup : (agents.map AgentEntry.pubkey).Nodup) (h : e ∈ updateAgent agents agent f) :
    (e ∈ agents ∧ e.pubkey ≠ agent) ∨ ∃ e' ∈ agents, e'.pubkey = agent ∧ e = f e' := by
  induction agents with
  | nil => exact absurd h List.not_mem_nil
  | cons e₀ es ih =>
      obtain ⟨hfresh, hnodup⟩ := List.nodup_cons.mp hnodup
      unfold updateAgent at h
      split at h
      · rename_i hkey
        rcases List.mem_cons.mp h with rfl | h
        · exact .inr ⟨e₀, List.mem_cons_self, hkey, rfl⟩
        · refine .inl ⟨List.mem_cons_of_mem _ h, fun heq => hfresh ?_⟩
          exact List.mem_map.mpr ⟨e, h, heq.trans hkey.symm⟩
      · rename_i hkey
        rcases List.mem_cons.mp h with rfl | h
        · exact .inl ⟨List.mem_cons_self, hkey⟩
        · rcases ih hnodup h with ⟨hmem, hne⟩ | ⟨e', hmem, hkey', rfl⟩
          · exact .inl ⟨List.mem_cons_of_mem _ hmem, hne⟩
          · exact .inr ⟨e', List.mem_cons_of_mem _ hmem, hkey', rfl⟩

end

namespace SlotsOf

theorem pause (h : SlotsOf agents overlay) (b : Bool) :
    SlotsOf (updateAgent agents agent fun e => { e with paused := b }) overlay := by
  refine h.congr (updateAgent_keys fun _ => rfl) fun e he hlimit => ?_
  rcases mem_updateAgent h.tracks.nodup he with ⟨he, -⟩ | ⟨e', he', -, rfl⟩
  · exact h.limited e he hlimit
  · exact h.limited e' he' hlimit

theorem register (h : SlotsOf vault.agents overlay) (hnew : vault.isAgent e.pubkey = false)
    (hlength : vault.agents.length < maxAgentsPerVault) (hkey : e.pubkey ≠ .default)
    (hclaim : claimForNewAgent overlay e.pubkey e.spendingLimitUsd = .ok overlay') :
    SlotsOf (vault.agents ++ [e]) overlay' := by
  have hfresh := isAgent_eq_false_iff.mp hnew
  unfold claimForNewAgent at hclaim
  split at hclaim
  · rename_i i hslot
    obtain rfl := pure_eq_ok.mp hclaim
    exact h.add hfresh hkey hlength fun _ => ⟨i, AgentSpendOverlay.findAgentSlot_some hslot⟩
  · rename_i hslot
    have hmissing := AgentSpendOverlay.findAgentSlot_eq_none.mp hslot
    split at hclaim
    · rename_i overlay₁ hclaimed
      obtain rfl := pure_eq_ok.mp hclaim
      -- the agent is added with any limit first, and gets its slot then
      have hunlimited : SlotsOf (vault.agents ++ [{ e with spendingLimitUsd := 0 }]) overlay :=
        h.add (e := { e with spendingLimitUsd := 0 }) hfresh hkey hlength fun hpos => absurd hpos (lt_irrefl 0)
      obtain ⟨hslots, i, hi⟩ := hunlimited.claim (by simp) hmissing hclaimed
      refine hslots.congr (by simp) fun e' he' hlimit => ?_
      rcases List.mem_append.mp he' with he' | he'
      · exact hslots.limited e' (List.mem_append_left _ he') hlimit
      · exact ⟨i, by rw [List.mem_singleton.mp he', hi]⟩
    · rename_i hnone
      exact absurd hnone (h.exists_free hlength)

theorem mem_without (hmem : e ∈ agents) (hkey : e.pubkey ≠ agent) : e ∈ agents.filter fun e => e.pubkey ≠ agent :=
  List.mem_filter.mpr ⟨hmem, by simpa using hkey⟩

theorem revoke (h : SlotsOf agents overlay) :
    SlotsOf (agents.filter fun e => e.pubkey ≠ agent) (overlay.without agent) := by
  unfold AgentSpendOverlay.without
  split
  · rename_i i hslot
    have hi := AgentSpendOverlay.findAgentSlot_some hslot
    refine h.release hi ?_ ((List.length_filter_le _ _).trans h.few) ?_
    · refine (h.tracks.release i).remove (List.filter_sublist.map _) fun j hj => ?_
      rcases eq_or_ne j i with rfl | hne
      · exact absurd (Function.update_self ..) hj
      · rw [Function.update_of_ne hne] at hj ⊢
        obtain ⟨e, he, hkey⟩ := List.mem_map.mp (h.tracks.registered j hj)
        refine List.mem_map.mpr ⟨e, mem_without he fun heq => hne ?_, hkey⟩
        exact h.tracks.injective j i (by rw [← hkey, heq, hi]) hj
    · intro e he hpos
      obtain ⟨he, hne⟩ := List.mem_filter.mp he
      exact ⟨by simpa using hne, h.limited e he hpos⟩
  · rename_i hslot
    exact h.remove (AgentSpendOverlay.findAgentSlot_eq_none.mp hslot)

theorem reactivate {newAgent : Option Pubkey} {capability : Option UInt8} (h : SlotsOf vault.agents overlay)
    (hagents : reactivatedAgents vault newAgent capability = .ok agents) : SlotsOf agents overlay := by
  unfold reactivatedAgents at hagents
  split at hagents
  · obtain rfl := pure_eq_ok.mp hagents
    exact h
  · simp only [bind_eq_ok, require_eq_ok, exists_and_left, exists_const, pure_eq_ok] at hagents
    obtain ⟨hkey, -, -, hlength, hnew, rfl⟩ := hagents
    exact h.add (isAgent_eq_false_iff.mp hnew) hkey hlength fun hpos => absurd hpos (lt_irrefl 0)
  · cases hagents

/-- The new limit of an agent decides about its slot. -/
theorem permit (h : SlotsOf vault.agents overlay) {pending : PendingAgentPermissionsUpdate}
    (hentry : vault.getAgent pending.agent = some e)
    (hadjust : adjustSlot overlay pending.agent e.spendingLimitUsd pending.spendingLimitUsd = .ok overlay') :
    SlotsOf (updateAgent vault.agents pending.agent pending.permit) overlay' := by
  obtain ⟨he, hkey⟩ := getAgent_some hentry
  have hkeys : (updateAgent vault.agents pending.agent pending.permit).map AgentEntry.pubkey =
      vault.agents.map AgentEntry.pubkey := updateAgent_keys fun _ => rfl
  have hagent : pending.agent ∈ vault.agents.map AgentEntry.pubkey := List.mem_map.mpr ⟨e, he, hkey⟩
  -- entries of the other agents are as before
  have hupdated : ∀ {overlay₁}, SlotsOf vault.agents overlay₁ →
      (0 < pending.spendingLimitUsd → ∃ i, overlay₁.keyAt i = pending.agent) →
      SlotsOf (updateAgent vault.agents pending.agent pending.permit) overlay₁ := by
    intro overlay₁ h₁ hslot
    refine h₁.congr hkeys fun e' he' hlimit => ?_
    rcases mem_updateAgent h.tracks.nodup he' with ⟨he', -⟩ | ⟨e'', -, hkey', rfl⟩
    · exact h₁.limited e' he' hlimit
    · obtain ⟨i, hi⟩ := hslot hlimit
      exact ⟨i, hi.trans hkey'.symm⟩
  unfold adjustSlot at hadjust
  split at hadjust
  · rename_i hslot
    have hmissing := AgentSpendOverlay.findAgentSlot_eq_none.mp hslot
    split at hadjust
    · obtain ⟨hclaimed, hi⟩ := h.claim hagent hmissing (okOr_eq_ok.mp hadjust)
      exact hupdated hclaimed fun _ => hi
    · rename_i hzero
      obtain rfl := pure_eq_ok.mp hadjust
      exact hupdated h fun hpos => absurd hpos hzero
  · rename_i i hslot
    have hi := AgentSpendOverlay.findAgentSlot_some hslot
    obtain rfl := pure_eq_ok.mp hadjust
    split
    · rename_i hrelease
      refine h.release hi (hkeys ▸ h.tracks.release i) ?_ ?_
      · rw [← length_keys, hkeys, length_keys]
        exact h.few
      · intro e' he' hpos
        rcases mem_updateAgent h.tracks.nodup he' with ⟨he', hne⟩ | ⟨e'', -, -, rfl⟩
        · exact ⟨hne, h.limited e' he' hpos⟩
        · exact absurd hrelease.1 (Nat.pos_iff_ne_zero.mp hpos)
    · exact hupdated h fun _ => ⟨i, hi⟩

end SlotsOf

/-! ## Charges -/

/-- What a charge leaves: nothing new without a slot, and else another entry under the same key. -/
theorem chargeAgent_ok {amount : Nat} {lifetime : Bool}
    (h : chargeAgent vault overlay clock agent amount lifetime = .ok overlay') :
    ∃ e, vault.getAgent agent = some e ∧
      ((overlay.findAgentSlot agent = none ∧ e.spendingLimitUsd = 0 ∧ overlay' = overlay) ∨
      ∃ i overlay₁, overlay.findAgentSlot agent = some i ∧ checkAgentLimit e overlay clock i amount = .ok () ∧
        overlay.recordAgentContribution clock i amount = .ok overlay₁ ∧ overlay'.entries = overlay₁.entries ∧
        ∀ j ≠ i, overlay'.lifetimeSpend j = overlay.lifetimeSpend j ∧
          overlay'.lifetimeTxCount j = overlay.lifetimeTxCount j) := by
  simp only [chargeAgent, bind_eq_ok, okOr_eq_ok] at h
  obtain ⟨e, he, h⟩ := h
  refine ⟨e, he, ?_⟩
  split at h
  · rename_i i hslot
    simp only [bind_eq_ok] at h
    obtain ⟨_, hlimit, overlay₁, hrecord, h⟩ := h
    refine .inr ⟨i, overlay₁, hslot, hlimit, hrecord, ?_⟩
    have hlifetime : overlay₁.lifetimeSpend = overlay.lifetimeSpend ∧
        overlay₁.lifetimeTxCount = overlay.lifetimeTxCount := by
      simp only [AgentSpendOverlay.recordAgentContribution, bind_eq_ok, pure_eq_ok] at hrecord
      obtain ⟨_, -, rfl⟩ := hrecord
      exact ⟨rfl, rfl⟩
    split at h
    · simp only [addLifetime, bind_eq_ok, pure_eq_ok] at h
      obtain ⟨_, -, _, -, rfl⟩ := h
      refine ⟨rfl, fun j hj => ⟨?_, ?_⟩⟩
      · exact (Function.update_of_ne hj ..).trans (congrFun hlifetime.1 j)
      · exact (Function.update_of_ne hj ..).trans (congrFun hlifetime.2 j)
    · obtain rfl := pure_eq_ok.mp h
      exact ⟨rfl, fun j _ => ⟨congrFun hlifetime.1 j, congrFun hlifetime.2 j⟩⟩
  · rename_i hslot
    simp only [bind_eq_ok, require_eq_ok, exists_and_left, exists_const, pure_eq_ok] at h
    exact .inl ⟨hslot, h.1, h.2.symm⟩

theorem AgentSpendOverlay.zeroGapBuckets_agent (entry : AgentContributionEntry) (epoch : Int) :
    (zeroGapBuckets entry epoch).agent = entry.agent := by
  simp only [zeroGapBuckets]
  split
  · rfl
  · split <;> rfl

/-- One entry is written, under the key it has. -/
theorem recordAgentContribution_ok {amount : Nat} {i : Fin maxOverlayEntries}
    (h : overlay.recordAgentContribution clock i amount = .ok overlay') :
    overlay'.keyAt = overlay.keyAt ∧ ∀ j ≠ i, overlay'.entries j = overlay.entries j := by
  simp only [AgentSpendOverlay.recordAgentContribution, bind_eq_ok, pure_eq_ok] at h
  obtain ⟨amount', -, rfl⟩ := h
  refine ⟨?_, fun j hj => Function.update_of_ne hj ..⟩
  rw [SlotsOf.keyAt_update]
  exact Function.update_eq_self_iff.mpr (AgentSpendOverlay.zeroGapBuckets_agent _ _)

theorem SlotsOf.charge {amount : Nat} {lifetime : Bool} (h : SlotsOf vault.agents overlay)
    (hcharge : chargeAgent vault overlay clock agent amount lifetime = .ok overlay') :
    SlotsOf vault.agents overlay' := by
  obtain ⟨e, he, ⟨-, -, rfl⟩ | ⟨i, overlay₁, hslot, -, hrecord, hentries, hlifetime⟩⟩ := chargeAgent_ok hcharge
  · exact h
  · obtain ⟨hkeys, hothers⟩ := recordAgentContribution_ok hrecord
    have hkeys' : overlay'.keyAt = overlay.keyAt := by
      rw [← hkeys]
      funext j
      simp [AgentSpendOverlay.keyAt, hentries]
    refine h.write hkeys' fun j hj => ?_
    -- the slot of a registered agent is not free
    have hne : j ≠ i := by
      rintro rfl
      rw [AgentSpendOverlay.findAgentSlot_some hslot] at hj
      obtain ⟨hmem, hkey⟩ := getAgent_some he
      exact h.tracks.free_notMem (hj ▸ hkey ▸ List.mem_map_of_mem hmem)
    exact ⟨by rw [hentries, hothers j hne], hlifetime j hne⟩

end

/-! ## Runs -/

/-- A vault and its overlay live together, and the slots fit the agents. -/
structure Staff.SlotInv (s : Staff) : Prop where
  live : s.roster.isSome = s.overlay.isSome
  slots : ∀ r overlay, s.roster = some r → s.overlay = some overlay → SlotsOf r.agents overlay

namespace Staff.SlotInv

variable {s s' : Staff} {ctx : Ctx} {c : Option (Pubkey × Nat)}

theorem of_some {r : Roster} {overlay : AgentSpendOverlay} (h : SlotsOf r.agents overlay) :
    SlotInv { roster := some r, overlay := some overlay } :=
  ⟨rfl, by rintro _ _ ⟨rfl⟩ ⟨rfl⟩; exact h⟩

/-- The agents change and the overlay stays. -/
theorem of_roster (h : s.SlotInv) {r r' : Roster} (hroster : s.roster = some r)
    (hslots : ∀ overlay, SlotsOf r.agents overlay → SlotsOf r'.agents overlay) :
    SlotInv { s with roster := some r' } := by
  refine ⟨?_, ?_⟩
  · rw [← h.live, hroster]
    rfl
  · rintro _ overlay ⟨rfl⟩ ho
    exact hslots overlay (h.slots r overlay hroster ho)

theorem change (h : s.SlotInv) (hchange : StaffChange ctx c s s') : s'.SlotInv := by
  cases hchange with
  | same => exact h
  | opened owner hdead => exact .of_some .empty
  | closed hroster hsigned => exact ⟨rfl, by rintro _ _ ⟨⟩⟩
  | registered e hroster hsigned hoverlay hnew hlength hkey hclaim =>
      exact .of_some ((h.slots _ _ hroster hoverlay).register hnew hlength hkey hclaim)
  | revoked agent hroster hsigned hoverlay => exact .of_some (h.slots _ _ hroster hoverlay).revoke
  | paused agent b hroster hsigned => exact h.of_roster hroster fun _ hslots => hslots.pause b
  | frozen hroster hsigned => exact h.of_roster hroster fun _ hslots => hslots
  | reactivated newAgent capability hroster hsigned hagents =>
      exact h.of_roster hroster fun _ hslots => hslots.reactivate hagents
  | permitted pending hroster hsigned hoverlay hentry hadjust =>
      exact .of_some ((h.slots _ _ hroster hoverlay).permit hentry hadjust)
  | charged agent amount lifetime hroster hoverlay hcharge =>
      have hcharged := (h.slots _ _ hroster hoverlay).charge hcharge
      refine ⟨by rw [hroster]; rfl, ?_⟩
      rintro _ _ hr ⟨rfl⟩
      cases hroster.symm.trans hr
      exact hcharged

end Staff.SlotInv

theorem slotInv_run {steps : List Step} {w : World} (h : run Step.exec steps {} = .ok w) (v : Pubkey) :
    (w.staff v).SlotInv :=
  staff_invariant (P := Staff.SlotInv) ⟨rfl, by rintro _ _ ⟨⟩⟩ (fun _ _ _ _ hs hchange => hs.change hchange) h v

end Sigil
