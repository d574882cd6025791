import Sigil.Lemmas.Charge
import Sigil.Theorems.AgentLimit
import Sigil.Theorems.Finalize

/-!
# Lifetime counters of the agents

Three instructions write the hours of an agent's slot, and only `finalize_session` writes its lifetime counters as
well, when it has measured a spend.
-/

namespace Sigil

open Library

/-- A spending operation that succeeded: a session that was closed in time, with what it has spent, or a transfer or
escrow. -/
inductive SpendingOperation where
  | session (measured : Nat)
  | payment (amount : Nat)
  deriving DecidableEq, Repr

def SpendingOperation.amount : SpendingOperation → Nat
  | .session x => x
  | .payment x => x

def SpendingOperation.Measured : SpendingOperation → Prop
  | .session x => 0 < x
  | .payment _ => False

instance : DecidablePred SpendingOperation.Measured
  | .session x => inferInstanceAs (Decidable (0 < x))
  | .payment _ => inferInstanceAs (Decidable False)

/-- The session that is closed is a spending one and has not expired. -/
def FinalizeSession.succeeds (ctx : Ctx) (a : FinalizeSession) (w : World) : Bool :=
  (w.sessions a.session).any fun s => s.isSpending && !s.isExpired ctx.clock.unixTimestamp

/-- Agent and kind of the spending operation that an accepted instruction is on a vault. -/
def Instruction.operation (ctx : Ctx) (w : World) (v : Pubkey) : Instruction → Option (Pubkey × SpendingOperation)
  | .agentTransfer a => if a.vault = v then (a.usdAmount w).toOption.map fun x => (a.agent, .payment x) else none
  | .createEscrow a => if a.sourceVault = v then (a.usdAmount w).toOption.map fun x => (a.agent, .payment x) else none
  | .finalizeSession a =>
      if a.vault = v ∧ a.succeeds ctx w then (a.spend ctx w).toOption.map fun c => (c.1, .session c.2) else none
  | _ => none

def Step.operation (st : Step) (w : World) (v : Pubkey) : Option (Pubkey × SpendingOperation) :=
  match st.instruction.call with
  | .sigil i => i.operation st.ctx w v
  | .foreign _ => none

def World.slotOf (w : World) (v agent : Pubkey) : Option (Fin maxOverlayEntries) :=
  (w.overlays v).bind fun overlay => overlay.findAgentSlot agent

/-- Spending operations of an agent since it claimed its slot, newest first. -/
def Step.operationLog (v agent : Pubkey) (st : Step) (w w' : World) (log : List SpendingOperation) :
    List SpendingOperation :=
  if (w'.slotOf v agent).isNone then []
  else ((st.operation w v).filter fun o => o.1 = agent).elim log fun o => o.2 :: log

def Step.execLogged (v agent : Pubkey) (st : Step) (s : World × List SpendingOperation) :
    Result (World × List SpendingOperation) := do
  let w' ← st.exec s.1
  pure (w', st.operationLog v agent s.1 w' s.2)

def AgentSpendOverlay.lifetimeAt (overlay : AgentSpendOverlay) (i : Fin maxOverlayEntries) : Nat × Nat :=
  (overlay.lifetimeSpend i, overlay.lifetimeTxCount i)

def World.lifetimeOf (w : World) (v agent : Pubkey) : Option (Nat × Nat) :=
  (w.overlays v).bind fun overlay => (overlay.findAgentSlot agent).map overlay.lifetimeAt

/-- What the lifetime counters come to after the operations. -/
def measuredTotal (log : List SpendingOperation) : Nat × Nat :=
  let measured := log.filter fun o => o.Measured
  ((measured.map SpendingOperation.amount).sum, measured.length)

/-- The counters show all that was recorded, and every operation. -/
def LifetimeAccurate (overlay : AgentSpendOverlay) (i : Fin maxOverlayEntries) (log : List SpendingOperation) : Prop :=
  overlay.lifetimeSpend i = (log.map SpendingOperation.amount).sum ∧ overlay.lifetimeTxCount i = log.length

section
variable {v agent agent' : Pubkey} {st : Step} {s s' : World × List SpendingOperation} {steps : List Step}
  {w w' : World} {ctx : Ctx} {vault : AgentVault} {overlay overlay' : AgentSpendOverlay}
  {o o' : Option AgentSpendOverlay} {i : Fin maxOverlayEntries} {x : Nat} {clock : Clock} {log : List SpendingOperation}

theorem Step.execLogged_eq_ok :
    st.execLogged v agent s = .ok s' ↔ st.exec s.1 = .ok s'.1 ∧ s'.2 = st.operationLog v agent s.1 s'.1 s.2 := by
  simp only [execLogged, bind_eq_ok, pure_eq_ok]
  constructor
  · rintro ⟨w', hexec, rfl⟩
    exact ⟨hexec, rfl⟩
  · rintro ⟨hexec, hlog⟩
    exact ⟨s'.1, hexec, Prod.ext rfl hlog.symm⟩

theorem run_execLogged (h : run (Step.execLogged v agent) steps s = .ok s') : run Step.exec steps s.1 = .ok s'.1 :=
  run_map (fun _ _ _ hst => (Step.execLogged_eq_ok.mp hst).1) h

/-! ## Slots that come and go -/

/-- What a step without a charge does to the lifetime counters of an agent. -/
inductive LifetimeChange : Option (Nat × Nat) → Option (Nat × Nat) → Prop where
  | same {o : Option (Nat × Nat)} : LifetimeChange o o
  | gone {o : Option (Nat × Nat)} : LifetimeChange o none
  | claimed : LifetimeChange none (some (0, 0))

theorem LifetimeChange.of_slots (h : SlotsChange o o') (hagent : agent ≠ .default) :
    LifetimeChange (o.bind fun overlay => (overlay.findAgentSlot agent).map overlay.lifetimeAt)
      (o'.bind fun overlay => (overlay.findAgentSlot agent).map overlay.lifetimeAt) := by
  cases h with
  | same => exact .same
  | opened =>
      have hnone : AgentSpendOverlay.findAgentSlot {} agent = none :=
        AgentSpendOverlay.findAgentSlot_eq_none.mpr fun _ => hagent.symm
      rw [Option.bind_some, hnone]
      exact .gone
  | closed => exact .gone
  | claimed agent' hbefore hafter hnone hclaim =>
      rename_i overlay overlay'
      obtain ⟨i, hi, hoverlay'⟩ := AgentSpendOverlay.claimSlot_some hclaim
      have hkey : overlay'.keyAt i = agent' := by
        rw [hoverlay', SlotsOf.keyAt_update, Function.update_self]
      rcases eq_or_ne agent' agent with rfl | hne
      · obtain ⟨-, hspend, hcount⟩ := hbefore.unused i hi
        have hzero : overlay'.lifetimeAt i = (0, 0) := by
          rw [hoverlay']
          exact Prod.ext hspend hcount
        rw [Option.bind_some, Option.bind_some, AgentSpendOverlay.findAgentSlot_eq_none.mpr hnone,
          hafter.findAgentSlot_eq hagent hkey, Option.map_some, hzero]
        exact .claimed
      · have hothers : ∀ j ≠ i, overlay'.entries j = overlay.entries j := by
          intro j hj
          rw [hoverlay']
          exact Function.update_of_ne hj ..
        have hsame : overlay'.lifetimeAt = overlay.lifetimeAt := by rw [hoverlay']; rfl
        rw [Option.bind_some, Option.bind_some, hsame,
          AgentSpendOverlay.findAgentSlot_congr hothers (hi ▸ hagent.symm) (hkey ▸ hne)]
        exact .same
  | released i agent' hbefore hi =>
      rename_i overlay
      rcases eq_or_ne agent' agent with rfl | hne
      · have hnone := AgentSpendOverlay.findAgentSlot_eq_none.mpr (hbefore.keyAt_releaseSlot_ne hagent hi)
        rw [Option.bind_some, Option.bind_some, hnone]
        exact .gone
      · have hothers : ∀ j ≠ i, (overlay.releaseSlot i).entries j = overlay.entries j :=
          fun j hj => Function.update_of_ne hj ..
        have hfree := AgentSpendOverlay.keyAt_releaseSlot overlay i
        rw [Option.bind_some, Option.bind_some,
          AgentSpendOverlay.findAgentSlot_congr hothers (hi ▸ hne) (hfree ▸ hagent.symm)]
        cases hslot : overlay.findAgentSlot agent with
        | none => exact .same
        | some j =>
            have hji : j ≠ i := by
              rintro rfl
              exact hne (hi.symm.trans (AgentSpendOverlay.findAgentSlot_some hslot))
            have hsame : (overlay.releaseSlot i).lifetimeAt j = overlay.lifetimeAt j := by
              simp [AgentSpendOverlay.lifetimeAt, AgentSpendOverlay.releaseSlot, Function.update_of_ne hji]
            rw [Option.map_some, Option.map_some, hsame]
            exact .same

/-! ## Charges -/

inductive Operated (st : Step) (v : Pubkey) (w w' : World) : Prop where
  | idle (hcharge : st.charge w v = none) (hoperation : st.operation w v = none)
  | free (agent : Pubkey) (hcharge : st.charge w v = none) (hoperation : st.operation w v = some (agent, .session 0))
  | session (agent : Pubkey) (x : Nat) (vault : AgentVault) (overlay overlay' : AgentSpendOverlay) (hpos : 0 < x)
      (hoperation : st.operation w v = some (agent, .session x)) (hbefore : w.overlays v = some overlay)
      (hafter : w'.overlays v = some overlay')
      (hcharged : chargeAgent vault overlay st.ctx.clock agent x true = .ok overlay')
  | payment (agent : Pubkey) (x : Nat) (vault : AgentVault) (overlay overlay' : AgentSpendOverlay)
      (hoperation : st.operation w v = some (agent, .payment x)) (hbefore : w.overlays v = some overlay)
      (hafter : w'.overlays v = some overlay')
      (hcharged : chargeAgent vault overlay st.ctx.clock agent x false = .ok overlay')

/-- Only a spending session that has not expired measures anything. -/
theorem succeeds_of_measured {a : FinalizeSession} {session : SessionAuthority}
    (hopened : ∀ y s, w.sessions y = some s → s.WellOpened) (hs : w.sessions a.session = some session)
    (hspend : measureSpend w a session (session.isExpired ctx.clock.unixTimestamp) = .ok x) (hpos : 0 < x) :
    a.succeeds ctx w := by
  have hmeasured : ¬ (session.isExpired ctx.clock.unixTimestamp ∨ session.outputMint = .default) := by
    intro hnothing
    rw [measureSpend, if_pos hnothing] at hspend
    cases pure_eq_ok.mp hspend
    omega
  obtain ⟨hlive, hmint⟩ := not_or.mp hmeasured
  have hspending : session.isSpending := by
    by_contra hnot
    exact hmint ((hopened _ _ hs).idle (by simpa using hnot))
  simp [FinalizeSession.succeeds, hs, hspending, hlive]

theorem Operated.of_payment {y : Pubkey} (hcharge : y ≠ v → st.charge w v = none)
    (hoperation : st.operation w v = if y = v then some (agent, .payment x) else none)
    (hbefore : w.overlays y = some overlay) (hafter : w'.overlays y = some overlay')
    (hcharged : chargeAgent vault overlay st.ctx.clock agent x false = .ok overlay') : Operated st v w w' := by
  rcases eq_or_ne y v with rfl | hne
  · exact .payment agent x vault overlay overlay' (hoperation.trans (if_pos rfl)) hbefore hafter hcharged
  · exact .idle (hcharge hne) (hoperation.trans (if_neg hne))

theorem finalizeSession_operated {a : FinalizeSession} (hopened : ∀ y s, w.sessions y = some s → s.WellOpened)
    (hcall : st.instruction.call = .sigil (.finalizeSession a)) (h : finalizeSession st.ctx a w = .ok w') :
    Operated st a.vault w w' := by
  obtain ⟨vault, session, policy, ledger, spend, charged, vault', -, hs, -, -, hspend, hcharged, -, rfl⟩ :=
    finalizeSession_ok h
  have hmeasured := FinalizeSession.spend_eq hs hspend
  rcases chargeSession_agent hcharged with ⟨rfl, -⟩ | ⟨hpos, overlay, overlay', ho, hagent, ho', -⟩
  · have hnone : st.charge w a.vault = none := by
      simp [Step.charge, hcall, Instruction.charge, hmeasured, Except.toOption]
    by_cases hsucceeds : a.succeeds st.ctx w
    · refine .free session.agent hnone ?_
      simp [Step.operation, hcall, Instruction.operation, hsucceeds, hmeasured, Except.toOption]
    · refine .idle hnone ?_
      simp [Step.operation, hcall, Instruction.operation, hsucceeds]
  · have hsucceeds := succeeds_of_measured hopened hs.1 hspend hpos
    refine .session session.agent spend vault overlay overlay' hpos ?_ ho ?_ hagent
    · simp [Step.operation, hcall, Instruction.operation, hsucceeds, hmeasured, Except.toOption]
    · exact (congrFun ho' _).trans (Function.update_self ..)

theorem Step.operated (hopened : ∀ y s, w.sessions y = some s → s.WellOpened) (h : st.exec w = .ok w') :
    Operated st v w w' := by
  rcases Step.exec_cases h with ⟨i, hcall, -, -, hi⟩ | ⟨_, hcall, -⟩
  · have hcharge : st.charge w v = i.charge st.ctx w v := by rw [charge, hcall]
    have hoperation : st.operation w v = i.operation st.ctx w v := by rw [operation, hcall]
    cases i with
    | finalizeSession a =>
        rcases eq_or_ne a.vault v with rfl | hne
        · exact finalizeSession_operated hopened hcall hi
        · refine .idle (hcharge.trans (if_neg hne)) (hoperation.trans (if_neg ?_))
          exact fun hboth => hne hboth.1
    | agentTransfer a =>
        obtain ⟨t⟩ := agentTransfer_trace hi
        have hafter := (congrFun (congrArg World.overlays t.result) a.vault).trans (Function.update_self ..)
        refine .of_payment (fun hne => hcharge.trans (if_neg hne)) ?_ t.overlay_found hafter t.agentCharged
        rw [hoperation, Instruction.operation, t.usdAmount_eq]
        rfl
    | createEscrow a =>
        obtain ⟨t⟩ := createEscrow_trace hi
        have hafter := (congrFun (congrArg World.overlays t.result) a.sourceVault).trans (Function.update_self ..)
        refine .of_payment (fun hne => hcharge.trans (if_neg hne)) ?_ t.overlay_found hafter t.agentCharged
        rw [hoperation, Instruction.operation, t.usdAmount_eq]
        rfl
    | _ => exact .idle hcharge hoperation
  · exact .idle (by rw [charge, hcall]) (by rw [operation, hcall])

/-- A charge writes entries under the keys they have. -/
theorem AgentCharged.findAgentSlot_eq (h : AgentCharged vault clock agent' x overlay overlay') (agent : Pubkey) :
    overlay'.findAgentSlot agent = overlay.findAgentSlot agent := by
  have hkeys : ∀ j, (overlay'.entries j).agent = (overlay.entries j).agent := by
    intro j
    cases hslot : overlay.findAgentSlot agent' with
    | none => rw [h.free hslot]
    | some i =>
        rcases eq_or_ne j i with rfl | hne
        · exact (h.slot j hslot).agent
        · rw [(h.slot i hslot).others j hne]
  unfold AgentSpendOverlay.findAgentSlot
  congr 1
  funext j
  rw [hkeys j]

theorem chargeAgent_lifetimeAt {lifetime : Bool}
    (h : chargeAgent vault overlay clock agent' x lifetime = .ok overlay')
    (hi : overlay.findAgentSlot agent = some i) : overlay'.lifetimeAt i =
      if lifetime ∧ agent' = agent then (overlay.lifetimeSpend i + x, overlay.lifetimeTxCount i + 1)
      else overlay.lifetimeAt i := by
  obtain ⟨hcharged, hlifetime⟩ := chargeAgent_spec h
  cases lifetime with
  | false =>
      rw [if_neg (by simp)] at hlifetime ⊢
      rw [AgentSpendOverlay.lifetimeAt, hlifetime.spend, hlifetime.count]
      rfl
  | true =>
      rw [if_pos rfl] at hlifetime
      rcases eq_or_ne agent' agent with rfl | hne
      · rw [if_pos ⟨rfl, rfl⟩, AgentSpendOverlay.lifetimeAt, (hlifetime i hi).spend, (hlifetime i hi).count,
          Function.update_self, Function.update_self]
      · rw [if_neg fun hboth => hne hboth.2]
        cases hslot : overlay.findAgentSlot agent' with
        | none => rw [hcharged.free hslot]
        | some j =>
            have hij : i ≠ j := by
              rintro rfl
              have hkey := AgentSpendOverlay.findAgentSlot_some hslot
              exact hne (hkey.symm.trans (AgentSpendOverlay.findAgentSlot_some hi))
            rw [AgentSpendOverlay.lifetimeAt, (hlifetime j hslot).spend, (hlifetime j hslot).count,
              Function.update_of_ne hij, Function.update_of_ne hij]
            rfl

/-! ## Runs -/

theorem slotOf_isNone : (w.slotOf v agent).isNone = (w.lifetimeOf v agent).isNone := by
  unfold World.slotOf World.lifetimeOf
  cases w.overlays v with
  | none => rfl
  | some overlay => simp

theorem lifetimeOf_eq (ho : w.overlays v = some overlay) :
    w.lifetimeOf v agent = (overlay.findAgentSlot agent).map overlay.lifetimeAt := by
  rw [World.lifetimeOf, ho, Option.bind_some]

@[simp] theorem measuredTotal_nil : measuredTotal [] = (0, 0) := rfl

theorem measuredTotal_session (x : Nat) (log : List SpendingOperation) : measuredTotal (.session x :: log) =
    if 0 < x then ((measuredTotal log).1 + x, (measuredTotal log).2 + 1) else measuredTotal log := by
  unfold measuredTotal
  by_cases hpos : 0 < x
  · have hmeasured : (SpendingOperation.session x).Measured := hpos
    rw [if_pos hpos, List.filter_cons_of_pos (by simpa using hmeasured)]
    simp [SpendingOperation.amount, Nat.add_comm]
  · have hmeasured : ¬ (SpendingOperation.session x).Measured := hpos
    rw [if_neg hpos, List.filter_cons_of_neg (by simpa using hmeasured)]

theorem measuredTotal_payment (x : Nat) (log : List SpendingOperation) :
    measuredTotal (.payment x :: log) = measuredTotal log := by
  have hmeasured : ¬ (SpendingOperation.payment x).Measured := id
  rw [measuredTotal, List.filter_cons_of_neg (by simpa using hmeasured)]
  rfl

theorem logged_eq (op : SpendingOperation) (log : List SpendingOperation) :
    ((some (agent', op)).filter fun o => o.1 = agent).elim log (fun o => o.2 :: log) =
      if agent' = agent then op :: log else log := by
  rw [Option.filter_some]
  by_cases heq : agent' = agent
  · simp [heq]
  · simp [heq]

/-- The counters of the slot come to the measured sessions of the log. -/
structure LifetimeInv (v agent : Pubkey) (s : World × List SpendingOperation) : Prop where
  counted : ∀ l, s.1.lifetimeOf v agent = some l → l = measuredTotal s.2
  empty : s.1.lifetimeOf v agent = none → s.2 = []

namespace LifetimeInv

theorem genesis : LifetimeInv v agent ({}, []) where
  counted := by simp [World.lifetimeOf]
  empty := by simp

/-- A step without a charge, which may still be a session that has spent nothing. -/
theorem uncharged (h : LifetimeInv v agent s)
    (hchange : LifetimeChange (s.1.lifetimeOf v agent) (s'.1.lifetimeOf v agent))
    (hlog : s'.2 = if (s'.1.lifetimeOf v agent).isNone then [] else log)
    (hfree : log = s.2 ∨ log = .session 0 :: s.2) : LifetimeInv v agent s' := by
  have hsame : measuredTotal log = measuredTotal s.2 := by
    rcases hfree with rfl | rfl
    · rfl
    · rw [measuredTotal_session, if_neg (lt_irrefl 0)]
  constructor
  case counted =>
    intro l hl
    rw [hl, Option.isNone_some, if_neg (by simp)] at hlog
    rw [hlog, hsame]
    generalize hbefore : s.1.lifetimeOf v agent = before at hchange
    rw [hl] at hchange
    cases hchange with
    | same => exact h.counted l hbefore
    | claimed => rw [h.empty hbefore, measuredTotal_nil]
  case empty =>
    intro hnone
    rw [hlog, hnone]
    rfl

theorem charged {lifetime : Bool} (op : SpendingOperation) (h : LifetimeInv v agent s)
    (hbefore : s.1.overlays v = some overlay) (hafter : s'.1.overlays v = some overlay')
    (hcharge : chargeAgent vault overlay clock agent' x lifetime = .ok overlay')
    (htotal : measuredTotal (op :: s.2) =
      if lifetime then ((measuredTotal s.2).1 + x, (measuredTotal s.2).2 + 1) else measuredTotal s.2)
    (hlog : s'.2 = if (s'.1.lifetimeOf v agent).isNone then [] else if agent' = agent then op :: s.2 else s.2) :
    LifetimeInv v agent s' := by
  have hslot := (chargeAgent_spec hcharge).1.findAgentSlot_eq agent
  constructor
  case counted =>
    intro l hl
    rw [hl, Option.isNone_some, if_neg (by simp)] at hlog
    rw [lifetimeOf_eq hafter, hslot] at hl
    obtain ⟨i, hi, rfl⟩ := Option.map_eq_some_iff.mp hl
    have hcounted : overlay.lifetimeAt i = measuredTotal s.2 :=
      h.counted _ (by rw [lifetimeOf_eq hbefore, hi, Option.map_some])
    rw [chargeAgent_lifetimeAt hcharge hi, hlog]
    by_cases hagent : agent' = agent
    · rw [if_pos hagent, htotal, ← hcounted]
      cases lifetime with
      | true => rw [if_pos ⟨rfl, hagent⟩, if_pos rfl]; rfl
      | false => rw [if_neg (by simp), if_neg (by simp)]
    · rw [if_neg hagent, if_neg fun hboth => hagent hboth.2, hcounted]
  case empty =>
    intro hnone
    rw [hlog, hnone]
    rfl

theorem step (h : LifetimeInv v agent s) (hagent : agent ≠ .default) (hinv : (s.1.staff v).SlotInv)
    (hopened : ∀ y s₀, s.1.sessions y = some s₀ → s₀.WellOpened) (hexec : st.execLogged v agent s = .ok s') :
    LifetimeInv v agent s' := by
  obtain ⟨hexec, hlog⟩ := Step.execLogged_eq_ok.mp hexec
  rw [Step.operationLog, slotOf_isNone] at hlog
  have huncharged (hcharge : st.charge s.1 v = none) :
      LifetimeChange (s.1.lifetimeOf v agent) (s'.1.lifetimeOf v agent) := by
    have hstaff := Step.staffChange hexec v
    rw [hcharge] at hstaff
    exact .of_slots (.of_staff hinv hstaff) hagent
  cases Step.operated (v := v) hopened hexec with
  | idle hcharge hoperation =>
      rw [hoperation] at hlog
      exact h.uncharged (huncharged hcharge) hlog (.inl rfl)
  | free agent' hcharge hoperation =>
      rw [hoperation, logged_eq] at hlog
      refine h.uncharged (huncharged hcharge) hlog ?_
      split
      · exact .inr rfl
      · exact .inl rfl
  | session agent' x vault overlay overlay' hpos hoperation hbefore hafter hcharged =>
      rw [hoperation, logged_eq] at hlog
      refine h.charged (.session x) hbefore hafter hcharged ?_ hlog
      rw [measuredTotal_session, if_pos hpos]
      rfl
  | payment agent' x vault overlay overlay' hoperation hbefore hafter hcharged =>
      rw [hoperation, logged_eq] at hlog
      exact h.charged (.payment x) hbefore hafter hcharged (measuredTotal_payment x s.2) hlog

end LifetimeInv

theorem lifetimeInv_run (hagent : agent ≠ .default) (hrun : run (Step.execLogged v agent) steps ({}, []) = .ok s) :
    LifetimeInv v agent s := by
  refine run_history (P := fun _ s => LifetimeInv v agent s) .genesis ?_ hrun
  rintro before st after s₁ s₂ rfl hbefore ih hexec
  have hrun₁ := run_execLogged hbefore
  exact ih.step hagent (slotInv_run hrun₁ v) (sessions_wellOpened hrun₁) hexec

theorem lifetimeAccurate_iff (h : overlay.lifetimeAt i = measuredTotal log) :
    LifetimeAccurate overlay i log ↔ ∀ o ∈ log, o.Measured := by
  obtain ⟨hspend, hcount⟩ := Prod.mk.inj h
  rw [LifetimeAccurate, hspend, hcount]
  constructor
  · rintro ⟨-, hlength⟩
    simpa using List.length_filter_eq_length_iff.mp hlength
  · intro hall
    have hself : log.filter (fun o => o.Measured) = log := List.filter_eq_self.mpr (by simpa using hall)
    rw [hself]
    exact ⟨rfl, rfl⟩

/-- The counters are right exactly when all that the agent has done since it claimed its slot are sessions with
measured spend. -/
theorem lifetime_accurate_iff (hagent : agent ≠ .default)
    (hrun : run (Step.execLogged v agent) steps ({}, []) = .ok s) (ho : s.1.overlays v = some overlay)
    (hi : overlay.findAgentSlot agent = some i) :
    overlay.lifetimeAt i = measuredTotal s.2 ∧ (LifetimeAccurate overlay i s.2 ↔ ∀ o ∈ s.2, o.Measured) := by
  have hcounted := (lifetimeInv_run hagent hrun).counted (overlay.lifetimeAt i)
    (by rw [lifetimeOf_eq ho, hi, Option.map_some])
  exact ⟨hcounted, lifetimeAccurate_iff hcounted⟩

end

/-! ### Agent 3 trades in a session, or pays outside of one -/

theorem lifetime_accurate_trade : ∃ s overlay i,
    run (Step.execLogged payVault.vault (.key 3)) tradeSteps ({}, []) = .ok s ∧
    s.1.overlays payVault.vault = some overlay ∧ s.2 = [.session 500000] ∧ overlay.lifetimeSpend i = 500000 ∧
    LifetimeAccurate overlay i s.2 := by
  obtain ⟨s, hrun, overlay, ho, i, hi, hlog⟩ :
      ∃ s, run (Step.execLogged payVault.vault (.key 3)) tradeSteps ({}, []) = .ok s ∧
        ∃ overlay, s.1.overlays payVault.vault = some overlay ∧
          ∃ i, overlay.findAgentSlot (.key 3) = some i ∧ s.2 = [.session 500000] :=
    ⟨_, rfl, _, rfl, _, rfl, rfl⟩
  obtain ⟨hcounted, hiff⟩ := lifetime_accurate_iff (by decide) hrun ho hi
  refine ⟨s, overlay, i, hrun, ho, hlog, ?_, hiff.mpr ?_⟩
  · rw [hlog] at hcounted
    exact congrArg Prod.fst hcounted
  · rw [hlog]
    simp [SpendingOperation.Measured]

/-- A transfer is recorded in the slot and not counted. -/
theorem transfer_not_counted : ¬ ∀ (v agent : Pubkey) (steps : List Step) (s : World × List SpendingOperation)
    (overlay : AgentSpendOverlay) (i : Fin maxOverlayEntries), agent ≠ .default →
    run (Step.execLogged v agent) steps ({}, []) = .ok s → s.1.overlays v = some overlay →
    overlay.findAgentSlot agent = some i → LifetimeAccurate overlay i s.2 := by
  intro h
  obtain ⟨s, hrun, overlay, ho, i, hi, hlog, hspend⟩ :
      ∃ s, run (Step.execLogged payVault.vault (.key 3)) payRun ({}, []) = .ok s ∧
        ∃ overlay, s.1.overlays payVault.vault = some overlay ∧
          ∃ i, overlay.findAgentSlot (.key 3) = some i ∧ s.2 = [.payment 1000000] ∧ overlay.lifetimeSpend i = 0 :=
    ⟨_, rfl, _, rfl, _, rfl, rfl, rfl⟩
  obtain ⟨haccurate, -⟩ := h payVault.vault (.key 3) payRun s overlay i (by decide) hrun ho hi
  rw [hspend, hlog] at haccurate
  simp [SpendingOperation.amount] at haccurate

end Sigil
