import Sigil.Theorems.AgentLimit
import Sigil.Theorems.CreateVault
import Sigil.Theorems.KillSwitch

/-!
# The cap of a new agent

What a limit given to `createVault` comes to over the runs of the vault. A positive limit is enforced, and an agent
below the operator spends nothing. But a limit of zero is read as no limit by the program.
-/

namespace Sigil

open Library

/-- Capability and limit of an agent that is registered. -/
def World.grantOf (w : World) (v agent : Pubkey) : Option (Nat × Nat) :=
  (w.vaults v).bind fun vault => (vault.getAgent agent).map fun e => (e.capability, e.spendingLimitUsd)

/-- What is charged for an agent, newest first. -/
def Step.chargeLog (v agent : Pubkey) (st : Step) (w : World) (log : EpochLog) : EpochLog :=
  match st.charge w v with
  | some (a, x) => if a = agent then (overlayEpochOf st.ctx.clock, x) :: log else log
  | none => log

/-- A step together with the charges of one agent. -/
def Step.execCharged (v agent : Pubkey) (st : Step) (s : World × EpochLog) : Result (World × EpochLog) := do
  let w' ← st.exec s.1
  pure (w', st.chargeLog v agent s.1 s.2)

/-- What `createVault` gives to the agent. -/
def Sdk.CreateVaultResult.grant (created : CreateVaultResult) : Nat × Nat :=
  (created.registerAgentIx.capability.toNat, created.registerAgentIx.spendingLimitUsd.toNat)

/-- Transactions after which an agent has a grant, and later ones during which it keeps the grant. A transaction that
fails leaves nothing behind, so those that are accepted are all that count. -/
structure GrantRun (v agent : Pubkey) (grant : Nat × Nat) (before later : List Transaction)
    (s : World × EpochLog) : Prop where
  run : ∃ w₀, Library.run Step.exec (before.flatMap Transaction.steps) {} = .ok w₀ ∧
    Library.run (Step.execCharged v agent) (later.flatMap Transaction.steps) (w₀, []) = .ok s ∧
    Along Step.exec (fun w => w.grantOf v agent = some grant) (later.flatMap Transaction.steps) w₀
  clocks : Nondecreasing ((before ++ later).flatMap Transaction.steps)
  positive : ∀ st ∈ (before ++ later).flatMap Transaction.steps, 0 < st.ctx.clock.unixTimestamp

section
variable {v agent : Pubkey} {grant : Nat × Nat} {st : Step} {w w' : World} {s s' : World × EpochLog}
  {steps : List Step} {before later : List Transaction} {ctx : Ctx} {i : Instruction}

theorem Step.execCharged_eq_ok :
    st.execCharged v agent s = .ok s' ↔ st.exec s.1 = .ok s'.1 ∧ s'.2 = st.chargeLog v agent s.1 s.2 := by
  simp only [execCharged, bind_eq_ok, pure_eq_ok]
  constructor
  · rintro ⟨w', hexec, rfl⟩
    exact ⟨hexec, rfl⟩
  · rintro ⟨hexec, hlog⟩
    exact ⟨s'.1, hexec, Prod.ext rfl hlog.symm⟩

theorem Step.exec_of_execCharged (st : Step) (s s' : World × EpochLog) (h : st.execCharged v agent s = .ok s') :
    st.exec s.1 = .ok s'.1 := (execCharged_eq_ok.mp h).1

theorem run_execCharged (h : run (Step.execCharged v agent) steps s = .ok s') :
    run Step.exec steps s.1 = .ok s'.1 := run_map Step.exec_of_execCharged h

/-- Every run has a record of the agent. -/
theorem exists_execRecorded (h : run Step.exec steps s.1 = .ok w') :
    ∃ s', run (Step.execRecorded v agent) steps s = .ok s' ∧ s'.1 = w' := by
  refine exists_run_of_map (f := Prod.fst) ?_ h
  intro st s w' hexec
  exact ⟨(w', st.record v agent s.1 w' s.2), Step.execRecorded_eq_ok.mpr ⟨hexec, rfl⟩, rfl⟩

theorem grantOf_eq_some : w.grantOf v agent = some grant ↔
    ∃ vault e, w.vaults v = some vault ∧ vault.getAgent agent = some e ∧
      (e.capability, e.spendingLimitUsd) = grant := by
  simp only [World.grantOf, Option.bind_eq_some_iff, Option.map_eq_some_iff]
  constructor
  · rintro ⟨vault, hv, e, he, hgrant⟩
    exact ⟨vault, e, hv, he, hgrant⟩
  · rintro ⟨vault, e, hv, he, hgrant⟩
    exact ⟨vault, hv, e, he, hgrant⟩

theorem limitOf_of_grantOf (h : w.grantOf v agent = some grant) : w.limitOf v agent = some grant.2 := by
  obtain ⟨vault, e, hv, he, rfl⟩ := grantOf_eq_some.mp h
  simp [World.limitOf, hv, he]

/-- What is charged for an agent is recorded in the tracker. -/
theorem Step.spendLog_of_charge {x : Nat} (hexec : st.exec w = .ok w') (hcharge : st.charge w v = some (agent, x)) :
    w'.spendLog v = (epochOf st.ctx.clock, x) :: w.spendLog v := by
  rcases Step.exec_cases hexec with ⟨i, hcall, -, -, hi⟩ | ⟨_, hcall, -⟩
  · simp only [Step.charge, hcall] at hcharge
    cases i with
    | agentTransfer a =>
        obtain ⟨t⟩ := agentTransfer_trace hi
        simp only [Instruction.charge, Option.ite_none_right_eq_some, Option.map_eq_some_iff, toOption_eq_some,
          Prod.mk.injEq] at hcharge
        obtain ⟨rfl, _, husd, -, rfl⟩ := hcharge
        obtain rfl := Except.ok.inj (t.usdAmount_eq.symm.trans husd)
        exact (congrFun (congrArg World.spendLog t.result) _).trans (Function.update_self ..)
    | createEscrow a =>
        obtain ⟨t⟩ := createEscrow_trace hi
        simp only [Instruction.charge, Option.ite_none_right_eq_some, Option.map_eq_some_iff, toOption_eq_some,
          Prod.mk.injEq] at hcharge
        obtain ⟨rfl, _, husd, -, rfl⟩ := hcharge
        obtain rfl := Except.ok.inj (t.usdAmount_eq.symm.trans husd)
        exact (congrFun (congrArg World.spendLog t.result) _).trans (Function.update_self ..)
    | finalizeSession a =>
        obtain ⟨_, session, _, _, spend, _, _, -, hs, -, -, hspend, hcharged, -, rfl⟩ := finalizeSession_ok hi
        simp only [Instruction.charge, Option.ite_none_right_eq_some, Option.filter_eq_some_iff, toOption_eq_some,
          decide_eq_true_eq] at hcharge
        obtain ⟨rfl, hmeasured, hpos⟩ := hcharge
        cases (FinalizeSession.spend_eq hs hspend).symm.trans hmeasured
        rcases chargeSession_ok hcharged with ⟨hzero, -⟩ | ⟨-, _, _, _, -, -, rfl⟩
        · simp only [chargedAmount, if_pos hpos] at hzero
          exact absurd hpos (hzero ▸ Nat.lt_irrefl 0)
        · simp only [chargedAmount, if_pos hpos]
          exact Function.update_self ..
    | _ => cases hcharge
  · simp [Step.charge, hcall] at hcharge

/-! ## A positive limit -/

/-- The agent has a slot, so the record is what was there with the charges on top. -/
theorem Step.record_eq_append {earlier : EpochLog} (hslot : (w'.staff v).entryOf agent ≠ none) (log : EpochLog) :
    st.record v agent w w' (log ++ earlier) = st.chargeLog v agent w log ++ earlier := by
  unfold record chargeLog
  rw [if_neg (by simp [hslot])]
  cases st.charge w v with
  | none => rfl
  | some c =>
      dsimp only
      split <;> rfl

/-- While the agent keeps a positive limit, its charges are its records. -/
theorem run_recorded {limit : Nat} {before later : List Step} {s₀ : World × EpochLog}
    (hbefore : run Step.exec before {} = .ok s₀.1) (hpositive : 0 < limit)
    (hlimit : Along Step.exec (fun w => w.limitOf v agent = some limit) later s₀.1)
    (h : run (Step.execCharged v agent) later (s₀.1, []) = .ok s) :
    run (Step.execRecorded v agent) later s₀ = .ok (s.1, s.2 ++ s₀.2) := by
  refine run_history (P := fun done s => run (Step.execRecorded v agent) done s₀ = .ok (s.1, s.2 ++ s₀.2))
    (run_nil_eq_ok.mpr rfl) ?_ h
  rintro done st after s₁ s₂ rfl hdone hrecorded hst
  obtain ⟨hexec, hlog⟩ := Step.execCharged_eq_ok.mp hst
  have hreached : run Step.exec (done ++ [st]) s₀.1 = .ok s₂.1 :=
    run_concat_eq_ok.mpr ⟨s₁.1, run_execCharged (s := (s₀.1, [])) hdone, hexec⟩
  have hlimit₂ : s₂.1.limitOf v agent = some limit := by
    rw [List.append_cons] at hlimit
    exact hlimit.of_run hreached
  obtain ⟨_, _, -, -, -, hslot⟩ :=
    exists_entryAt (s := s₂) (run_append_eq_ok.mpr ⟨s₀.1, hbefore, hreached⟩) hlimit₂ hpositive
  have hne : (s₂.1.staff v).entryOf agent ≠ none := by
    intro hnone
    cases hslot.symm.trans hnone
  refine run_concat_eq_ok.mpr ⟨_, hrecorded, Step.execRecorded_eq_ok.mpr ⟨hexec, ?_⟩⟩
  rw [Step.record_eq_append hne, hlog]

theorem GrantRun.within_limit (h : GrantRun v agent grant before later s) (hpositive : 0 < grant.2) (e : Int) :
    s.2.windowTotal (e - 23) e ≤ grant.2 := by
  obtain ⟨⟨w₀, hbefore, hlater, hgrant⟩, hclocks, hpos⟩ := h
  have hlimit : Along Step.exec (fun w => w.limitOf v agent = some grant.2) (later.flatMap Transaction.steps) w₀ :=
    along_iff.mpr fun done after w hsplit hdone => limitOf_of_grantOf (along_iff.mp hgrant done after w hsplit hdone)
  obtain ⟨s₀, hrecorded, rfl⟩ := exists_execRecorded (v := v) (s := ({}, [])) hbefore
  obtain ⟨_, _, -, -, hagent, -⟩ := exists_entryAt hbefore
    (along_iff.mp hlimit [] _ _ rfl (run_nil_eq_ok.mpr rfl)) hpositive
  have hrun := run_recorded hbefore hpositive hlimit hlater
  rw [List.flatMap_append] at hclocks hpos
  obtain ⟨recorded, hlog, hwindow⟩ := withinLimit_run hagent hrecorded hrun hclocks hpos
    (hlimit.map fun _ _ _ hst => (Step.execRecorded_eq_ok.mp hst).1) hpositive
  rw [List.append_cancel_right hlog]
  exact hwindow e

/-! ## Below the operator -/

/-- The sessions of an agent measure nothing. -/
def Unmeasured (v agent : Pubkey) (w : World) : Prop :=
  ∀ x s, w.sessions x = some s → s.vault = v → s.agent = agent → s.outputMint = .default

theorem no_operator_of_grant {vault : AgentVault} (h : w.grantOf v agent = some grant)
    (hbelow : grant.1 < capabilityOperator) (hv : w.vaults v = some vault) : ¬ vault.hasCapability agent true := by
  obtain ⟨vault', e, hv', he, rfl⟩ := grantOf_eq_some.mp h
  cases hv'.symm.trans hv
  simpa [AgentVault.hasCapability, he] using hbelow

/-- Nothing is charged for the agent. -/
theorem Instruction.charge_ne (h : w.grantOf v agent = some grant) (hbelow : grant.1 < capabilityOperator)
    (hsessions : Unmeasured v agent w) (hi : i.exec ctx w = .ok w') (x : Nat) : i.charge ctx w v ≠ some (agent, x) := by
  intro hcharge
  cases i with
  | agentTransfer a =>
      obtain ⟨t⟩ := agentTransfer_trace hi
      simp only [charge, Option.ite_none_right_eq_some, Option.map_eq_some_iff, Prod.mk.injEq] at hcharge
      obtain ⟨rfl, _, -, rfl, -⟩ := hcharge
      exact no_operator_of_grant h hbelow t.vault_found (checkTransfer_ok t.checked).capability
  | createEscrow a =>
      obtain ⟨t⟩ := createEscrow_trace hi
      simp only [charge, Option.ite_none_right_eq_some, Option.map_eq_some_iff, Prod.mk.injEq] at hcharge
      obtain ⟨rfl, _, -, rfl, -⟩ := hcharge
      have hchecked := t.checked
      simp only [checkEscrow, bind_eq_ok, require_eq_ok, exists_and_left, exists_const] at hchecked
      exact no_operator_of_grant h hbelow t.vault_found hchecked.2.1
  | finalizeSession a =>
      simp only [charge, Option.ite_none_right_eq_some, Option.filter_eq_some_iff, decide_eq_true_eq,
        toOption_eq_some] at hcharge
      obtain ⟨rfl, hspend, hpos⟩ := hcharge
      simp only [FinalizeSession.spend, bind_eq_ok, pure_eq_ok, Prod.mk.injEq] at hspend
      obtain ⟨session, hload, spend, hmeasured, rfl, rfl⟩ := hspend
      obtain ⟨hfound, hvault, -⟩ := loadSession_eq_ok.mp hload
      rw [measureSpend, if_pos (.inr (hsessions _ _ hfound hvault rfl))] at hmeasured
      cases pure_eq_ok.mp hmeasured
      exact absurd hpos (Nat.lt_irrefl 0)
  | _ => cases hcharge

theorem Unmeasured.step (hsessions : Unmeasured v agent w) (h : w.grantOf v agent = some grant)
    (hbelow : grant.1 < capabilityOperator) (hexec : st.exec w = .ok w') : Unmeasured v agent w' := by
  cases Step.sessionChange hexec with
  | kept hframe =>
      rw [Unmeasured, hframe.sessions]
      exact hsessions
  | opened a _ hi =>
      intro x s hx hv hagent
      obtain ⟨vault, _, _, hfound, -, hrequested⟩ := validateAndAuthorize_requested hi
      obtain ⟨_, _, _, _, _, _, _, -, -, -, -, -, -, hplan, -, -, rfl⟩ := validateAndAuthorize_ok hi
      rcases update_cases hx with ⟨-, heq⟩ | ⟨-, hx⟩
      · obtain rfl := Option.some.inj heq
        have hvault : a.vault = v := hv
        have hsame : a.agent = agent := hagent
        subst hvault hsame
        refine (Stopped.newSession_idle ?_ hplan).outputMint
        by_contra hamount
        have hcapability := hrequested.capability
        rw [decide_eq_true (Nat.pos_of_ne_zero hamount)] at hcapability
        exact no_operator_of_grant h hbelow hfound hcapability
      · exact hsessions x s hx hv hagent
  | closed a _ hi =>
      intro x s hx hv hagent
      obtain ⟨_, _, _, _, _, _, _, -, -, -, -, -, hcharge, -, rfl⟩ := finalizeSession_ok hi
      refine hsessions x s ?_ hv hagent
      rw [← (chargeSession_frame hcharge).1]
      exact update_none_subset x s hx

theorem Step.chargeLog_below (h : w.grantOf v agent = some grant) (hbelow : grant.1 < capabilityOperator)
    (hsessions : Unmeasured v agent w) (hexec : st.exec w = .ok w') (log : EpochLog) :
    st.chargeLog v agent w log = log := by
  unfold chargeLog
  split
  · rename_i a x hcharge
    refine if_neg ?_
    rintro rfl
    rcases Step.exec_cases hexec with ⟨i, hcall, -, -, hi⟩ | ⟨_, hcall, -⟩
    · simp only [Step.charge, hcall] at hcharge
      exact Instruction.charge_ne h hbelow hsessions hi x hcharge
    · simp [Step.charge, hcall] at hcharge
  · rfl

theorem run_quiescent {txs : List Transaction} (hw : Quiescent w)
    (h : run Step.exec (txs.flatMap Transaction.steps) w = .ok w') : Quiescent w' := by
  induction txs generalizing w with
  | nil =>
      obtain rfl := run_nil_eq_ok.mp h
      exact hw
  | cons tx txs ih =>
      rw [List.flatMap_cons] at h
      obtain ⟨w₁, htx, h⟩ := run_append_eq_ok.mp h
      exact ih (Transaction.quiescent hw htx) h

theorem GrantRun.nothing_charged (h : GrantRun v agent grant before later s) (hbelow : grant.1 < capabilityOperator) :
    s.2 = [] := by
  obtain ⟨⟨w₀, hbefore, hlater, hgrant⟩, -, -⟩ := h
  have hquiescent := run_quiescent genesis_quiescent hbefore
  have hboth : Unmeasured v agent s.1 ∧ s.2 = [] := by
    refine run_history (P := fun _ s => Unmeasured v agent s.1 ∧ s.2 = []) ⟨?_, rfl⟩ ?_ hlater
    · intro x s hx
      cases (hquiescent.sessions x).symm.trans hx
    · rintro done st after s₁ s₂ hsplit hdone ⟨hsessions, hlog⟩ hst
      rw [hsplit] at hgrant
      have hg := hgrant.of_run (run_execCharged hdone)
      obtain ⟨hexec, hlog₂⟩ := Step.execCharged_eq_ok.mp hst
      refine ⟨hsessions.step hg hbelow hexec, ?_⟩
      rw [hlog₂, Step.chargeLog_below hg hbelow hsessions hexec, hlog]
  exact hboth.2

namespace Sdk

variable {o : CreateVaultOptions} {created : CreateVaultResult} {findNextVaultId : Pubkey → Option Int}

theorem exec_grantOf (hcreates : o.Creates created) (h : created.exec ctx w = .ok w') :
    w'.grantOf created.vaultAddress o.agent = some created.grant := by
  obtain ⟨w₁, -, hregister⟩ := bind_eq_ok.mp h
  obtain ⟨vault, _, _, -, -, hnew, -, -, -, rfl⟩ := registerAgent_ok hregister
  obtain ⟨-, hvault, hagent, -⟩ := hcreates.registers
  rw [hcreates.address, ← hvault, ← hagent, grantOf_eq_some]
  refine ⟨_, created.registerAgentIx.entry, Function.update_self .., ?_, rfl⟩
  rw [AgentVault.getAgent, List.find?_append, List.find?_eq_none.mpr]
  · simp [RegisterAgent.entry]
  · intro e he
    have hkey : e.pubkey ≠ created.registerAgentIx.agent := by
      rintro heq
      exact isAgent_eq_false_iff.mp hnew (heq ▸ List.mem_map_of_mem he)
    simpa using hkey

/-- With a positive limit, or below the operator, no 24 consecutive hours charge the agent of a new vault with more
than the limit, for as long as it keeps what it was given. -/
theorem agent_cap_kept (hcreated : createVault findNextVaultId o = .ok created)
    (hcap : 0 < o.spendingLimitUsd ∨ o.permissions.getD fullPermissions < 2) :
    (∀ ctx w w', created.exec ctx w = .ok w' → w'.grantOf created.vaultAddress o.agent = some created.grant) ∧
    ∀ before later s, GrantRun created.vaultAddress o.agent created.grant before later s →
      ∀ e, (s.2.windowTotal (e - 23) e : Int) ≤ o.spendingLimitUsd := by
  have hcreates := CreateVaultOptions.createVault_eq_ok hcreated
  refine ⟨fun ctx w w' => exec_grantOf hcreates, fun before later s hrun e => ?_⟩
  have hlimit : (created.grant.2 : Int) = o.spendingLimitUsd := hcreates.registers.spendingLimitUsd
  have hcapability : (created.grant.1 : Int) = o.permissions.getD fullPermissions := hcreates.registers.capability
  rw [← hlimit]
  rcases hcap with hpositive | hbelow
  · exact_mod_cast hrun.within_limit (by omega) e
  · have hoperator : created.grant.1 < capabilityOperator := by
      show created.grant.1 < 2
      omega
    rw [hrun.nothing_charged hoperator, EpochLog.windowTotal_nil]
    exact_mod_cast Nat.zero_le _

end Sdk

end

/-! ### Agent 3 of a new vault pays 1 USDC twice -/

namespace Sdk

def cappedOptions (limit : UInt64) : CreateVaultOptions :=
  { owner := .key 1
    agent := .key 3
    spendingLimitUsd := limit.toNat
    dailySpendingCapUsd := 5000000
    feeDestination := some (.key 2)
    timelockDuration := .ofRat 1800
    allowedDestinations := some [.key 5]
    vaultId := some 0 }

def cappedResult (limit : UInt64) : CreateVaultResult :=
  { vaultAddress := payVault.vault
    vaultId := 0
    initializeVaultIx := payVault
    registerAgentIx := { payAgent with spendingLimitUsd := limit } }

def cappedCreation (limit : UInt64) : Transaction :=
  .ofKey payClock 1
    [(Instruction.initializeVault (cappedResult limit).initializeVaultIx).toTopLevel,
     (Instruction.registerAgent (cappedResult limit).registerAgentIx).toTopLevel]

def cappedSetup (limit : UInt64) : List Transaction :=
  [{ clock := payClock, signers := [usdcMint, .key 4], instructions := [payLaunch],
     signers_isKey := launchers_isKey }, cappedCreation limit]

def cappedPayments : List Transaction :=
  [.ofKey payClock 3 [(Instruction.agentTransfer payTransfer).toTopLevel],
   .ofKey payClock 3 [(Instruction.agentTransfer payTransfer).toTopLevel]]

abbrev CappedRun (limit : UInt64) : World × EpochLog → Prop :=
  GrantRun payVault.vault (.key 3) (cappedResult limit).grant (cappedSetup limit) cappedPayments

theorem initializeVaultInstruction_capped (limit : UInt64) :
    (cappedOptions limit).initializeVaultInstruction 0 = .ok payVault := by
  have hmode : encodeU8 "protocolMode" (.ofRat 0) = .ok 0 := by decide +kernel
  have hfee : encodeU16 "developerFeeRate" (.ofRat 0) = .ok 0 := by decide +kernel
  have hslippage : encodeU16 "maxSlippageBps" (.ofRat 100) = .ok 100 := by decide +kernel
  have htimelock : encodeNumberU64 "timelockDuration" (.ofRat 1800) = .ok 1800 := by decide +kernel
  simp only [CreateVaultOptions.initializeVaultInstruction, cappedOptions, Option.getD_none, hmode, hfee, hslippage,
    htimelock]
  rfl

theorem createVault_capped {limit : UInt64} (hcap : limit.toNat ≤ 5000000) :
    createVault (fun _ => none) (cappedOptions limit) = .ok (cappedResult limit) := by
  have haggregate : validateAgentCapAggregate 5000000 [] limit.toNat = .ok () := by
    simp [validateAgentCapAggregate, hcap, require, bind, Except.bind, pure, Except.pure]
  have hid : encodeU64 "vaultId" 0 = .ok 0 := by decide +kernel
  have hcapability : encodeU8 "capability" (.ofRat 2) = .ok 2 := by decide +kernel
  have hlimit : encodeU64 "spendingLimitUsd" limit.toNat = .ok limit := by
    have := limit.toNat_lt
    simp only [encodeU64, bind_eq_ok, require_eq_ok, exists_and_left, exists_const, pure_eq_ok]
    exact ⟨by omega, by simp⟩
  simp only [createVault, CreateVaultOptions.registerAgentInstruction, bind_eq_ok, require_eq_ok, exists_and_left,
    exists_const, pure_eq_ok]
  exact ⟨by simp [cappedOptions], (), haggregate, (), rfl, 0, rfl, 0, hid, payVault,
    initializeVaultInstruction_capped limit, _,
    ⟨2, hcapability, limit, hlimit, rfl⟩, rfl⟩

/-- What is charged for the payments, and whether the agent keeps its grant. -/
def cappedCharges (limit : UInt64) : Result (EpochLog × Bool) := do
  let w₀ ← run Step.exec ((cappedSetup limit).flatMap Transaction.steps) {}
  let s ← run (Step.execCharged payVault.vault (.key 3)) (cappedPayments.flatMap Transaction.steps) (w₀, [])
  pure (s.2, decide (Along Step.exec (fun w => w.grantOf payVault.vault (.key 3) = some (cappedResult limit).grant)
    (cappedPayments.flatMap Transaction.steps) w₀))

theorem exists_cappedRun {limit : UInt64} {log : EpochLog} (h : cappedCharges limit = .ok (log, true)) :
    ∃ s, CappedRun limit s ∧ s.2 = log := by
  simp only [cappedCharges, bind_eq_ok, pure_eq_ok, Prod.mk.injEq, decide_eq_true_eq] at h
  obtain ⟨w₀, hbefore, s, hlater, hlog, hgrant⟩ := h
  refine ⟨s, ⟨⟨w₀, hbefore, hlater, hgrant⟩, ?_, ?_⟩, hlog⟩
  · simp [Nondecreasing, cappedSetup, cappedCreation, cappedPayments, Transaction.steps, Transaction.stepsFrom,
      Transaction.step, Transaction.ofKey]
  · simp [cappedSetup, cappedCreation, cappedPayments, Transaction.steps, Transaction.stepsFrom, Transaction.step,
      Transaction.ofKey, payClock]

theorem agent_cap_kept_payments : ∃ s, CappedRun 2000000 s ∧ s.2 = [(166, 1000000), (166, 1000000)] ∧
    (s.2.windowTotal (166 - 23) 166 : Int) ≤ 2000000 := by
  have hcharges : cappedCharges 2000000 = .ok ([(166, 1000000), (166, 1000000)], true) := by decide +kernel
  obtain ⟨s, hrun, hlog⟩ := exists_cappedRun hcharges
  exact ⟨s, hrun, hlog, (agent_cap_kept (createVault_capped (by decide)) (.inl (by decide))).2 _ _ s hrun 166⟩

/-- Without a budget of its own the agent pays all the same. -/
theorem zero_cap_spent : ¬ ∀ findNextVaultId o created earlier creation front later s,
    createVault findNextVaultId o = .ok created →
      creation.instructions = front ++ [(Instruction.initializeVault created.initializeVaultIx).toTopLevel,
        (Instruction.registerAgent created.registerAgentIx).toTopLevel] →
      GrantRun created.vaultAddress o.agent created.grant (earlier ++ [creation]) later s →
      ∀ e, (s.2.windowTotal (e - 23) e : Int) ≤ o.spendingLimitUsd := by
  intro h
  have hcharges : cappedCharges 0 = .ok ([(166, 1000000), (166, 1000000)], true) := by decide +kernel
  obtain ⟨s, hrun, hlog⟩ := exists_cappedRun hcharges
  have hbound := h (fun _ => none) (cappedOptions 0) (cappedResult 0) [_] (cappedCreation 0) [] cappedPayments s
    (createVault_capped (by decide)) rfl hrun 166
  rw [hlog] at hbound
  exact absurd hbound (by decide)

end Sdk

end Sigil
