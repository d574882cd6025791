import Sigil.Lemmas.Overlay
import Sigil.Theorems.Slots

/-!
# The limit of an agent over whole runs

The slot of an agent mirrors the last 24 hours of what was recorded for it, whatever the other slots do. So as long
as its limit stays the same, no 24 consecutive hours hold more than the limit.
-/

namespace Sigil

open Library

/-- What is recorded in the slot of an agent since the slot was claimed, newest first. There is no record while the
agent has no slot. -/
def Step.record (v agent : Pubkey) (st : Step) (w w' : World) (log : EpochLog) : EpochLog :=
  if ((w'.staff v).entryOf agent).isNone then []
  else match st.charge w v with
    | some (a, x) => if a = agent then (overlayEpochOf st.ctx.clock, x) :: log else log
    | none => log

/-- A step together with the record of one agent. -/
def Step.execRecorded (v agent : Pubkey) (st : Step) (s : World × EpochLog) : Result (World × EpochLog) := do
  let w' ← st.exec s.1
  pure (w', st.record v agent s.1 w' s.2)

/-- The limit of an agent that is registered. -/
def World.limitOf (w : World) (v agent : Pubkey) : Option Nat :=
  (w.vaults v).bind fun vault => (vault.getAgent agent).map AgentEntry.spendingLimitUsd

section
variable {v agent : Pubkey} {st : Step} {s s' : World × EpochLog} {steps before : List Step} {limit : Nat}

theorem Step.execRecorded_eq_ok :
    st.execRecorded v agent s = .ok s' ↔ st.exec s.1 = .ok s'.1 ∧ s'.2 = st.record v agent s.1 s'.1 s.2 := by
  simp only [execRecorded, bind_eq_ok, pure_eq_ok]
  constructor
  · rintro ⟨w', hexec, rfl⟩
    exact ⟨hexec, rfl⟩
  · rintro ⟨hexec, hlog⟩
    exact ⟨s'.1, hexec, Prod.ext rfl hlog.symm⟩

/-- The record changes nothing in the run. -/
theorem run_execRecorded (h : run (Step.execRecorded v agent) steps s = .ok s') :
    run Step.exec steps s.1 = .ok s'.1 :=
  run_map (fun _ _ _ hst => (Step.execRecorded_eq_ok.mp hst).1) h

/-- The entry of the agent in the state. -/
def entryAt (v agent : Pubkey) (s : World × EpochLog) : Option AgentContributionEntry := (s.1.staff v).entryOf agent

/-- What a step does to the entry of the agent and to its record. -/
inductive RecordChange (v agent : Pubkey) (st : Step) (s s' : World × EpochLog) : Prop where
  | same (hentry : entryAt v agent s' = entryAt v agent s) (hlog : s'.2 = s.2)
  | gone (hentry : entryAt v agent s' = none) (hlog : s'.2 = [])
  | claimed (hentry : entryAt v agent s' = some { agent := agent }) (hlog : s'.2 = []) (hbefore : s.2 = [])
  | charged {vault : AgentVault} {overlay overlay' : AgentSpendOverlay} {e : AgentEntry} (i : Fin maxOverlayEntries)
      (x : Nat) (hroster : (s.1.staff v).roster = some vault.roster) (hagent : vault.getAgent agent = some e)
      (hlimit : checkAgentLimit e overlay st.ctx.clock i x = .ok ())
      (hrecord : overlay.recordAgentContribution st.ctx.clock i x = .ok overlay')
      (hbefore : entryAt v agent s = some (overlay.entries i))
      (hentry : entryAt v agent s' = some (overlay'.entries i))
      (hlog : s'.2 = (overlayEpochOf st.ctx.clock, x) :: s.2)

theorem Step.recordChange (hinv : (s.1.staff v).SlotInv) (hagent : agent ≠ .default)
    (hempty : entryAt v agent s = none → s.2 = []) (hexec : st.execRecorded v agent s = .ok s') :
    RecordChange v agent st s s' := by
  obtain ⟨hexec, hlog⟩ := Step.execRecorded_eq_ok.mp hexec
  have hchange := EntryChange.of_staff hinv hagent (Step.staffChange hexec v)
  unfold Step.record at hlog
  generalize st.charge s.1 v = c at hchange hlog
  generalize hafter : (s'.1.staff v).entryOf agent = after at hchange hlog
  generalize hbefore : (s.1.staff v).entryOf agent = o at hchange
  cases hchange with
  | same hc =>
      refine .same (hafter.trans hbefore.symm) ?_
      cases after with
      | none => rw [hlog, hempty hbefore]; rfl
      | some entry =>
          rw [hlog, if_neg (by simp)]
          cases c with
          | none => rfl
          | some charge => exact if_neg fun heq => hc charge.2 (by rw [← heq])
  | gone => exact .gone hafter hlog
  | claimed =>
      rw [if_neg (by simp)] at hlog
      exact .claimed hafter (hlog.trans (hempty hbefore)) (hempty hbefore)
  | charged i x hroster hentry hlimit hrecord =>
      rw [if_neg (by simp)] at hlog
      exact .charged i x hroster hentry hlimit hrecord hbefore hafter (hlog.trans (if_pos rfl))

/-- The slot mirrors the record, and the record is about hours of the run. -/
structure EntryInv (v agent : Pubkey) (before : List Step) (s : World × EpochLog) : Prop where
  represents : ∀ entry, entryAt v agent s = some entry → entry.Represents s.2
  empty : entryAt v agent s = none → s.2 = []
  logged : ∀ e ∈ s.2.epochs, ∃ st ∈ before, e = overlayEpochOf st.ctx.clock

namespace EntryInv

theorem genesis : EntryInv v agent [] ({}, []) := ⟨nofun, fun _ => rfl, nofun⟩

/-- Records are not later than a step that follows. -/
theorem le {after : List Step} (h : EntryInv v agent before s) (hclocks : Nondecreasing (before ++ st :: after))
    (hpos : ∀ t ∈ before ++ st :: after, 0 < t.ctx.clock.unixTimestamp) :
    ∀ e ∈ s.2.epochs, e ≤ overlayEpochOf st.ctx.clock := by
  intro e he
  obtain ⟨t, ht, rfl⟩ := h.logged e he
  exact overlayEpochOf_mono (hpos t (by simp [ht])) ((List.pairwise_append.mp hclocks).2.2 t ht st (by simp))

theorem step (h : EntryInv v agent before s) (hpos : 0 < st.ctx.clock.unixTimestamp)
    (hle : ∀ e ∈ s.2.epochs, e ≤ overlayEpochOf st.ctx.clock) (hchange : RecordChange v agent st s s') :
    EntryInv v agent (before ++ [st]) s' := by
  have hlater : ∀ e ∈ s.2.epochs, ∃ t ∈ before ++ [st], e = overlayEpochOf t.ctx.clock := by
    intro e he
    obtain ⟨t, ht, rfl⟩ := h.logged e he
    exact ⟨t, List.mem_append_left _ ht, rfl⟩
  cases hchange with
  | same hentry hlog =>
      exact ⟨by rw [hentry, hlog]; exact h.represents, by rw [hentry, hlog]; exact h.empty, by rwa [hlog]⟩
  | gone hentry hlog => exact ⟨by rw [hentry]; exact nofun, fun _ => hlog, by rw [hlog]; exact nofun⟩
  | claimed hentry hlog hbefore =>
      refine ⟨?_, fun _ => hlog, by rw [hlog]; exact nofun⟩
      rw [hentry, hlog]
      rintro _ ⟨rfl⟩
      exact .fresh agent
  | charged i x hroster hagent hlimit hrecord hbefore hentry hlog =>
      refine ⟨?_, by rw [hentry]; exact nofun, ?_⟩
      · rw [hentry, hlog]
        rintro _ ⟨rfl⟩
        exact (h.represents _ hbefore).record hpos hle hrecord
      · rw [hlog]
        intro e he
        rcases List.mem_cons.mp he with rfl | he
        · exact ⟨st, by simp, rfl⟩
        · exact hlater e he

end EntryInv

/-! ## The window -/

/-- A charge within the limit keeps every window of the records within the limit; older records only add to what
is read. -/
theorem windowTotal_agentCharge {overlay : AgentSpendOverlay} {e : AgentEntry} {clock : Clock}
    {i : Fin maxOverlayEntries} {x : Nat} {recorded earlier : EpochLog}
    (hrep : (overlay.entries i).Represents (recorded ++ earlier)) (hpos : 0 < clock.unixTimestamp)
    (hle : ∀ k ∈ EpochLog.epochs (recorded ++ earlier), k ≤ overlayEpochOf clock)
    (hlimit : checkAgentLimit e overlay clock i x = .ok ()) (he : e.spendingLimitUsd = limit) (hpositive : 0 < limit)
    (hwindow : ∀ k, recorded.windowTotal (k - 23) k ≤ limit) (k : Int) :
    EpochLog.windowTotal ((overlayEpochOf clock, x) :: recorded) (k - 23) k ≤ limit := by
  have hrolling := hrep.le_rolling hpos hle
  rw [EpochLog.windowTotal_append] at hrolling
  have hbefore := hwindow (overlayEpochOf clock)
  simp only [checkAgentLimit, he, gt_iff_lt, hpositive, if_true, bind_eq_ok, okOr_eq_ok, checkedAdd_eq_some,
    require_eq_ok] at hlimit
  obtain ⟨_, ⟨hfits, rfl⟩, hcap⟩ := hlimit
  refine EpochLog.windowTotal_cons_le ?_ (by decide) hwindow ?_ k
  · have hchronological : recorded.Chronological := (List.pairwise_append.mp hrep.chronological).1
    refine hchronological.cons fun k hk => hle k ?_
    rw [EpochLog.epochs, List.map_append]
    exact List.mem_append_left _ hk
  · dsimp only
    omega

/-! ## Runs -/

theorem limitOf_eq_some (h : s.1.limitOf v agent = some limit) :
    ∃ vault e, s.1.vaults v = some vault ∧ vault.getAgent agent = some e ∧ e.spendingLimitUsd = limit := by
  obtain ⟨vault, hv, h⟩ := Option.bind_eq_some_iff.mp h
  obtain ⟨e, he, hlimit⟩ := Option.map_eq_some_iff.mp h
  exact ⟨vault, e, hv, he, hlimit⟩

/-- The limit is the one of the entry that a charge finds. -/
theorem limit_of_roster {vault : AgentVault} {e : AgentEntry} (h : s.1.limitOf v agent = some limit)
    (hroster : (s.1.staff v).roster = some vault.roster) (hagent : vault.getAgent agent = some e) :
    e.spendingLimitUsd = limit := by
  obtain ⟨vault', e', hv, he', hlimit⟩ := limitOf_eq_some h
  rw [World.staff_roster hv] at hroster
  have hagents : vault'.agents = vault.agents := congrArg Roster.agents (Option.some.inj hroster)
  rw [AgentVault.getAgent, hagents] at he'
  cases he'.symm.trans hagent
  exact hlimit

/-- A registered agent with a limit has an entry. -/
theorem exists_entryAt (hrun : run Step.exec steps {} = .ok s.1) (h : s.1.limitOf v agent = some limit)
    (hpositive : 0 < limit) : ∃ overlay i, s.1.overlays v = some overlay ∧ (overlay.entries i).agent = agent ∧
      agent ≠ .default ∧ entryAt v agent s = some (overlay.entries i) := by
  obtain ⟨vault, e, hv, he, rfl⟩ := limitOf_eq_some h
  obtain ⟨hmem, hkey⟩ := getAgent_some he
  have hinv := slotInv_run hrun
  obtain ⟨overlay, ho⟩ := exists_overlay hinv hv
  have hslots := slotsOf_found hinv hv ho
  obtain ⟨i, hi⟩ := hslots.limited e hmem hpositive
  have hne : agent ≠ .default := by
    rintro rfl
    exact hslots.tracks.free_notMem (hkey ▸ List.mem_map_of_mem hmem)
  refine ⟨overlay, i, ho, hi.trans hkey, hne, ?_⟩
  exact (EntryChange.entryOf_of_overlay ho).trans (hslots.entryOf_eq hne (hi.trans hkey))

theorem entryInv_run (hagent : agent ≠ .default) (hrun : run (Step.execRecorded v agent) steps ({}, []) = .ok s)
    (hclocks : Nondecreasing steps) (hpos : ∀ st ∈ steps, 0 < st.ctx.clock.unixTimestamp) :
    EntryInv v agent steps s := by
  refine run_history (P := EntryInv v agent) .genesis ?_ hrun
  rintro before st after s₁ s₂ rfl hbefore hentry hexec
  have hinv := slotInv_run (run_execRecorded hbefore) v
  exact hentry.step (hpos st (by simp)) (hentry.le hclocks hpos) (Step.recordChange hinv hagent hentry.empty hexec)

/-- What is added to a record, over steps with a constant limit. -/
def WithinLimit (limit : Nat) (earlier : EpochLog) (s : World × EpochLog) : Prop :=
  ∃ recorded, s.2 = recorded ++ earlier ∧ ∀ e, recorded.windowTotal (e - 23) e ≤ limit

theorem WithinLimit.step {earlier : EpochLog} (h : WithinLimit limit earlier s) (hentry : EntryInv v agent before s)
    (hpos : 0 < st.ctx.clock.unixTimestamp) (hle : ∀ e ∈ s.2.epochs, e ≤ overlayEpochOf st.ctx.clock)
    (hlimit : s.1.limitOf v agent = some limit) (hpositive : 0 < limit) (hslot : entryAt v agent s' ≠ none)
    (hchange : RecordChange v agent st s s') : WithinLimit limit earlier s' := by
  obtain ⟨recorded, hlog, hwindow⟩ := h
  cases hchange with
  | same _ hlog' => exact ⟨recorded, hlog'.trans hlog, hwindow⟩
  | gone hnone => exact absurd hnone hslot
  | claimed _ hlog' hbefore => exact ⟨recorded, hlog'.trans (hbefore.symm.trans hlog), hwindow⟩
  | charged i x hroster hagent hcheck hrecord hbefore _ hlog' =>
      have hrep := hentry.represents _ hbefore
      rw [hlog] at hrep hle
      refine ⟨(overlayEpochOf st.ctx.clock, x) :: recorded, by rw [hlog', hlog, List.cons_append], ?_⟩
      exact windowTotal_agentCharge hrep hpos hle hcheck (limit_of_roster hlimit hroster hagent) hpositive hwindow

theorem withinLimit_run {segment : List Step} {s₀ : World × EpochLog} (hagent : agent ≠ .default)
    (hbefore : run (Step.execRecorded v agent) before ({}, []) = .ok s₀)
    (hsegment : run (Step.execRecorded v agent) segment s₀ = .ok s) (hclocks : Nondecreasing (before ++ segment))
    (hpos : ∀ st ∈ before ++ segment, 0 < st.ctx.clock.unixTimestamp)
    (hlimit : Along (Step.execRecorded v agent) (fun s => s.1.limitOf v agent = some limit) segment s₀)
    (hpositive : 0 < limit) : WithinLimit limit s₀.2 s := by
  refine run_history (P := fun _ s => WithinLimit limit s₀.2 s) ⟨[], rfl, fun _ => Nat.zero_le _⟩ ?_ hsegment
  rintro done st after s₁ s₂ rfl hdone hwithin hexec
  rw [← List.append_assoc] at hclocks hpos
  have hrun : run (Step.execRecorded v agent) (before ++ done) ({}, []) = .ok s₁ :=
    run_append_eq_ok.mpr ⟨s₀, hbefore, hdone⟩
  have hentry := entryInv_run hagent hrun (List.pairwise_append.mp hclocks).1
    fun t ht => hpos t (List.mem_append_left _ ht)
  have hlimit₂ : s₂.1.limitOf v agent = some limit := by
    rw [List.append_cons] at hlimit
    exact hlimit.of_run (run_concat_eq_ok.mpr ⟨s₁, hdone, hexec⟩)
  obtain ⟨_, _, -, -, -, hslot⟩ := exists_entryAt (run_execRecorded (run_concat_eq_ok.mpr ⟨s₁, hrun, hexec⟩)) hlimit₂
    hpositive
  refine hwithin.step hentry (hpos st (by simp)) (hentry.le hclocks hpos) (hlimit.of_run hdone) hpositive
    (by simp [hslot]) ?_
  exact Step.recordChange (slotInv_run (run_execRecorded hrun) v) hagent hentry.empty hexec

/-- While an agent keeps a limit, no 24 consecutive hours hold more than the limit of what is recorded for it, and
every cell of its slot holds what was recorded in its hour. -/
theorem agent_within_limit {segment : List Step} {s₀ : World × EpochLog}
    (hbefore : run (Step.execRecorded v agent) before ({}, []) = .ok s₀)
    (hsegment : run (Step.execRecorded v agent) segment s₀ = .ok s) (hclocks : Nondecreasing (before ++ segment))
    (hpos : ∀ st ∈ before ++ segment, 0 < st.ctx.clock.unixTimestamp)
    (hlimit : Along (Step.execRecorded v agent) (fun s => s.1.limitOf v agent = some limit) segment s₀)
    (hpositive : 0 < limit) :
    ∃ recorded, s.2 = recorded ++ s₀.2 ∧ (∀ e, recorded.windowTotal (e - 23) e ≤ limit) ∧
      ∃ overlay i, s.1.overlays v = some overlay ∧ (overlay.entries i).agent = agent ∧
        ∀ k : Nat, k < 24 → (overlay.entries i).contributions (cellOf 24 ((overlay.entries i).lastWriteEpoch - k)) =
          s.2.total ((overlay.entries i).lastWriteEpoch - k) := by
  have hrun : run (Step.execRecorded v agent) (before ++ segment) ({}, []) = .ok s :=
    run_append_eq_ok.mpr ⟨s₀, hbefore, hsegment⟩
  have hend : s.1.limitOf v agent = some limit := (List.append_nil segment ▸ hlimit).of_run hsegment
  obtain ⟨overlay, i, ho, hkey, hagent, hentry⟩ := exists_entryAt (run_execRecorded hrun) hend hpositive
  obtain ⟨recorded, hlog, hwindow⟩ := withinLimit_run hagent hbefore hsegment hclocks hpos hlimit hpositive
  have hrep := (entryInv_run hagent hrun hclocks hpos).represents _ hentry
  exact ⟨recorded, hlog, hwindow, overlay, i, ho, hkey, hrep.mirrors.cells⟩

end

/-! ### Agent 3 has a limit of 2 USDC and pays 1 USDC twice -/

def limitedRun : List Step :=
  [.alone payClock [usdcMint, .key 4] payLaunch launchers_isKey,
   .ofKey payClock 1 (Instruction.initializeVault payVault).toTopLevel,
   .ofKey payClock 1 (Instruction.registerAgent limitedAgent).toTopLevel]

def limitedPayments : List Step :=
  [.ofKey payClock 3 (Instruction.agentTransfer payTransfer).toTopLevel,
   .ofKey payClock 3 (Instruction.agentTransfer payTransfer).toTopLevel]

theorem agent_within_limit_payments : ∃ s₀ s,
    run (Step.execRecorded payVault.vault (.key 3)) limitedRun ({}, []) = .ok s₀ ∧
    run (Step.execRecorded payVault.vault (.key 3)) limitedPayments s₀ = .ok s ∧
    s₀.2 = [] ∧ s.2 = [(166, 1000000), (166, 1000000)] ∧ s.2.windowTotal (166 - 23) 166 ≤ 2000000 := by
  obtain ⟨s₀, h₀, hlog₀⟩ : ∃ s₀, run (Step.execRecorded payVault.vault (.key 3)) limitedRun ({}, []) = .ok s₀ ∧
      s₀.2 = [] := ⟨_, rfl, rfl⟩
  have hrecord : (run (Step.execRecorded payVault.vault (.key 3)) limitedPayments s₀).map Prod.snd =
      .ok [(166, 1000000), (166, 1000000)] := by
    cases h₀
    decide +kernel
  obtain ⟨s, h, hlog⟩ : ∃ s, run (Step.execRecorded payVault.vault (.key 3)) limitedPayments s₀ = .ok s ∧
      s.2 = [(166, 1000000), (166, 1000000)] := by
    cases hrun : run (Step.execRecorded payVault.vault (.key 3)) limitedPayments s₀ with
    | error e => simp [hrun, Except.map] at hrecord
    | ok s => exact ⟨s, rfl, by simpa [hrun, Except.map] using hrecord⟩
  have hclocks : Nondecreasing (limitedRun ++ limitedPayments) := by
    simp [Nondecreasing, limitedRun, limitedPayments, Step.ofKey, Step.alone]
  have hpos : ∀ st ∈ limitedRun ++ limitedPayments, 0 < st.ctx.clock.unixTimestamp := by
    simp [limitedRun, limitedPayments, Step.ofKey, Step.alone, payClock]
  have hlimit : Along (Step.execRecorded payVault.vault (.key 3))
      (fun s => s.1.limitOf payVault.vault (.key 3) = some 2000000) limitedPayments s₀ := by
    cases h₀
    decide +kernel
  obtain ⟨recorded, hrecorded, hwindow, -⟩ := agent_within_limit h₀ h hclocks hpos hlimit (by decide)
  rw [hlog₀, List.append_nil] at hrecorded
  exact ⟨s₀, s, h₀, h, hlog₀, hlog, hrecorded ▸ hwindow 166⟩

end Sigil
