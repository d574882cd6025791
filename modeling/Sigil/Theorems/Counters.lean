import Sigil.Lemmas.Counters

/-!
# Ten counters for all protocols that were ever counted

An update of the policy can replace the allowlist, but it leaves the counters alone. So it is the history of a vault
and not its allowlist that decides whether a protocol finds a counter.
-/

namespace Sigil

open Library

/-- The protocol for which a `finalize_session` counts what was spent. -/
def FinalizeSession.counts (a : FinalizeSession) (clock : Clock) (w : World) : Option Pubkey :=
  match w.sessions a.session, w.policies a.vault with
  | some session, some policy =>
      match measureSpend w a session (session.isExpired clock.unixTimestamp) with
      | .ok spend => if spend > 0 ∧ policy.hasProtocolCaps then some session.authorizedProtocol else none
      | .error _ => none
  | _, _ => none

/-- The protocol that a step counts on a vault. -/
def Step.counts (st : Step) (w : World) (v : Pubkey) : Option Pubkey :=
  match st.instruction.call with
  | .sigil (.finalizeSession a) => if a.vault = v then a.counts st.ctx.clock w else none
  | _ => none

def Step.creates (st : Step) (v : Pubkey) : Bool :=
  match st.instruction.call with
  | .sigil (.initializeVault a) => a.vault = v
  | _ => false

/-- Protocols that were counted on a vault since it was created: `ps` before the steps. -/
def countedProtocols (v : Pubkey) : List Step → World → List Pubkey → List Pubkey
  | [], _, ps => ps
  | st :: steps, w, ps =>
      match st.exec w with
      | .error _ => ps
      | .ok w' => countedProtocols v steps w' <|
          if st.creates v then [] else (st.counts w v).elim ps (SpendTracker.countedWith ps)

section
variable {w w' : World} {st : Step} {v : Pubkey} {steps : List Step} {ps : List Pubkey} {ctx : Ctx}

theorem countedProtocols_concat (hrun : run Step.exec steps w = .ok w') {w₂ : World} (hexec : st.exec w' = .ok w₂) :
    countedProtocols v (steps ++ [st]) w ps =
      if st.creates v then [] else
        (st.counts w' v).elim (countedProtocols v steps w ps)
          (SpendTracker.countedWith (countedProtocols v steps w ps)) := by
  induction steps generalizing w ps with
  | nil =>
      obtain rfl := run_nil_eq_ok.mp hrun
      simp [countedProtocols, hexec]
  | cons s steps ih =>
      obtain ⟨w₁, hs, hrun⟩ := run_cons_eq_ok.mp hrun
      simp only [List.cons_append, countedProtocols, hs]
      exact ih hrun

/-! ## What a step does to the counters -/

inductive CountersChange (st : Step) (v : Pubkey) (w w' : World) : Prop where
  | closed (hnone : w'.trackers v = none)
  | opened (hcreates : st.creates v) (htracker : w'.trackers v = some {})
  | kept (tracker tracker' : SpendTracker) (hcreates : st.creates v = false) (hcounts : st.counts w v = none)
      (hbefore : w.trackers v = some tracker) (hafter : w'.trackers v = some tracker')
      (hsame : tracker'.protocolCounters = tracker.protocolCounters)
  | counted (p : Pubkey) (x : Nat) (tracker recorded tracker' : SpendTracker) (hcreates : st.creates v = false)
      (hcounts : st.counts w v = some p) (hbefore : w.trackers v = some tracker)
      (hsame : recorded.protocolCounters = tracker.protocolCounters)
      (hrecord : recorded.recordProtocolSpend st.ctx.clock p x = .ok tracker') (hafter : w'.trackers v = some tracker')

/-- The trackers are what they were. -/
theorem CountersChange.of_same (hcreates : st.creates v = false) (hcounts : st.counts w v = none)
    (h : w'.trackers v = w.trackers v) : CountersChange st v w w' := by
  cases ht : w.trackers v with
  | none => exact .closed (h.trans ht)
  | some tracker => exact .kept tracker tracker hcreates hcounts ht (h.trans ht) rfl

/-- Payments outside of sessions are recorded, but counted for no protocol. -/
theorem agentTransfer_counters {a : AgentTransfer} (h : agentTransfer ctx a w = .ok w') :
    ∃ tracker tracker', w.trackers a.vault = some tracker ∧ tracker'.protocolCounters = tracker.protocolCounters ∧
      w'.trackers = Function.update w.trackers a.vault (some tracker') := by
  obtain ⟨t, hrecord⟩ := agentTransfer_recorded h
  have hafter := congrArg World.trackers t.result
  exact ⟨t.tracker, t.tracker', t.tracker_found, recordSpend_protocolCounters hrecord, hafter⟩

theorem createEscrow_counters {a : CreateEscrow} (h : createEscrow ctx a w = .ok w') :
    ∃ tracker tracker', w.trackers a.sourceVault = some tracker ∧
      tracker'.protocolCounters = tracker.protocolCounters ∧
      w'.trackers = Function.update w.trackers a.sourceVault (some tracker') := by
  obtain ⟨t, hrecord⟩ := createEscrow_recorded h
  have hafter := congrArg World.trackers t.result
  exact ⟨t.tracker, t.tracker', t.tracker_found, recordSpend_protocolCounters hrecord, hafter⟩

/-- A record on one vault, seen from another. -/
theorem CountersChange.of_recorded {y : Pubkey} {tracker tracker' : SpendTracker} (hcreates : st.creates v = false)
    (hcounts : st.counts w v = none) (hbefore : w.trackers y = some tracker)
    (hsame : tracker'.protocolCounters = tracker.protocolCounters)
    (hafter : w'.trackers = Function.update w.trackers y (some tracker')) : CountersChange st v w w' := by
  rcases eq_or_ne v y with rfl | hne
  · exact .kept tracker tracker' hcreates hcounts hbefore (by rw [hafter, Function.update_self]) hsame
  · exact .of_same hcreates hcounts (by rw [hafter, Function.update_of_ne hne])

/-- The charge of a session goes through the protocol's counter if the policy has caps and something was spent. -/
theorem chargeSession_counters {clock : Clock} {vault : AgentVault} {policy : PolicyConfig}
    {session : SessionAuthority} {spend : Nat} (h : chargeSession w clock v vault policy session spend = .ok w') :
    ∃ tracker tracker', w.trackers v = some tracker ∧ w'.trackers = Function.update w.trackers v (some tracker') ∧
      if spend > 0 ∧ policy.hasProtocolCaps then
        ∃ recorded : SpendTracker, recorded.protocolCounters = tracker.protocolCounters ∧
          recorded.recordProtocolSpend clock session.authorizedProtocol spend = .ok tracker'
      else tracker'.protocolCounters = tracker.protocolCounters := by
  simp only [chargeSession, bind_eq_ok, World.loadTracker_eq_ok] at h
  obtain ⟨tracker, ht, _, -, _, -, h⟩ := h
  split at h
  · rename_i hpos
    simp only [bind_eq_ok, pure_eq_ok] at h
    obtain ⟨charged, hcharge, rfl⟩ := h
    simp only [chargeSpend, bind_eq_ok] at hcharge
    obtain ⟨_, -, _, -, _, -, _, -, recorded, hrecord, hcharge⟩ := hcharge
    have hsame := recordSpend_protocolCounters hrecord
    split at hcharge
    · rename_i hcaps
      simp only [bind_eq_ok, pure_eq_ok] at hcharge
      obtain ⟨tracker', hcount, rfl⟩ := hcharge
      refine ⟨tracker, tracker', ht, rfl, ?_⟩
      rw [if_pos ⟨hpos, hcaps⟩]
      exact ⟨recorded, hsame, hcount⟩
    · rename_i hcaps
      simp only [bind_eq_ok, pure_eq_ok] at hcharge
      obtain ⟨_, rfl, rfl⟩ := hcharge
      refine ⟨tracker, recorded, ht, rfl, ?_⟩
      rw [if_neg fun hboth => hcaps hboth.2]
      exact hsame
  · rename_i hzero
    split at h
    · simp only [bind_eq_ok, pure_eq_ok] at h
      obtain ⟨tracker', hcharge, rfl⟩ := h
      simp only [chargeFees, bind_eq_ok] at hcharge
      obtain ⟨_, -, hrecord⟩ := hcharge
      refine ⟨tracker, tracker', ht, rfl, ?_⟩
      rw [if_neg fun hboth => hzero hboth.1]
      exact recordSpend_protocolCounters hrecord
    · obtain rfl := pure_eq_ok.mp h
      refine ⟨tracker, tracker, ht, ?_, ?_⟩
      · rw [← ht, Function.update_eq_self]
      · rw [if_neg fun hboth => hzero hboth.1]

theorem finalizeSession_counters {a : FinalizeSession} (hcall : st.instruction.call = .sigil (.finalizeSession a))
    (h : finalizeSession st.ctx a w = .ok w') : CountersChange st v w w' := by
  have hcreates : st.creates v = false := by simp [Step.creates, hcall]
  obtain ⟨vault, session, policy, _, spend, charged, _, -, ⟨hs, -⟩, hp, -, hspend, hcharge, -, rfl⟩ :=
    finalizeSession_ok h
  obtain ⟨tracker, tracker', ht, hafter, hcount⟩ := chargeSession_counters hcharge
  rcases eq_or_ne a.vault v with rfl | hne
  · have hcounts : st.counts w a.vault =
        if spend > 0 ∧ policy.hasProtocolCaps then some session.authorizedProtocol else none := by
      simp [Step.counts, hcall, FinalizeSession.counts, hs, hp, hspend]
    have htracker : charged.trackers a.vault = some tracker' := by rw [hafter, Function.update_self]
    split at hcount
    · rename_i hboth
      obtain ⟨recorded, hsame, hrecord⟩ := hcount
      rw [if_pos hboth] at hcounts
      exact .counted _ spend tracker recorded tracker' hcreates hcounts ht hsame hrecord htracker
    · rename_i hnot
      rw [if_neg hnot] at hcounts
      exact .kept tracker tracker' hcreates hcounts ht htracker hcount
  · refine .of_same hcreates (by simp [Step.counts, hcall, hne]) ?_
    exact (congrFun hafter v).trans (Function.update_of_ne hne.symm ..)

theorem Step.countersChange (h : st.exec w = .ok w') (v : Pubkey) : CountersChange st v w w' := by
  rcases Step.core_cases h with ⟨hframe, hnot⟩ | ⟨i, hcall, hcore, hi⟩
  · refine .of_same ?_ ?_ (by rw [hframe.trackers])
    · unfold Step.creates
      split
      · rename_i a hcall
        cases hnot _ hcall
      · rfl
    · unfold Step.counts
      split
      · rename_i a hcall
        cases hnot _ hcall
      · rfl
  · cases i with
    | finalizeSession a => exact finalizeSession_counters hcall hi
    | initializeVault a =>
        obtain ⟨-, -, rfl⟩ := initializeVault_ok hi
        rcases eq_or_ne a.vault v with rfl | hne
        · exact .opened (by simp [Step.creates, hcall]) (Function.update_self ..)
        · exact .of_same (by simp [Step.creates, hcall, hne]) (by simp [Step.counts, hcall])
            (Function.update_of_ne hne.symm ..)
    | closeVault a =>
        obtain ⟨_, _, -, rfl⟩ := closeVault_ok hi
        rcases eq_or_ne a.vault v with rfl | hne
        · exact .closed (Function.update_self ..)
        · exact .of_same (by simp [Step.creates, hcall]) (by simp [Step.counts, hcall])
            (Function.update_of_ne hne.symm ..)
    | agentTransfer a =>
        obtain ⟨_, _, ht, hsame, hafter⟩ := agentTransfer_counters hi
        exact .of_recorded (by simp [Step.creates, hcall]) (by simp [Step.counts, hcall]) ht hsame hafter
    | createEscrow a =>
        obtain ⟨_, _, ht, hsame, hafter⟩ := createEscrow_counters hi
        exact .of_recorded (by simp [Step.creates, hcall]) (by simp [Step.counts, hcall]) ht hsame hafter
    | validateAndAuthorize a =>
        obtain ⟨_, _, _, _, _, _, _, -, -, -, -, -, -, -, -, -, rfl⟩ := validateAndAuthorize_ok hi
        exact .of_same (by simp [Step.creates, hcall]) (by simp [Step.counts, hcall]) rfl
    | settleEscrow a =>
        obtain ⟨_, _, _, -, -, -, -, -, -, -, rfl⟩ := settleEscrow_ok hi
        exact .of_same (by simp [Step.creates, hcall]) (by simp [Step.counts, hcall]) rfl
    | refundEscrow a =>
        obtain ⟨_, _, _, -, -, -, -, -, rfl⟩ := refundEscrow_ok hi
        exact .of_same (by simp [Step.creates, hcall]) (by simp [Step.counts, hcall]) rfl
    | closeSettledEscrow a =>
        obtain ⟨_, _, -, -, rfl⟩ := closeSettledEscrow_ok hi
        exact .of_same (by simp [Step.creates, hcall]) (by simp [Step.counts, hcall]) rfl
    | _ => cases hcore

/-! ## Runs -/

/-- Nothing is ever counted for the zero address. -/
def CountsProtocols (v : Pubkey) (steps : List Step) : Prop :=
  Always Step.exec (fun st w _ => st.counts w v ≠ some .default) steps {}

theorem counts_run (hzero : CountsProtocols v steps) (hrun : run Step.exec steps {} = .ok w) {tracker : SpendTracker}
    (ht : w.trackers v = some tracker) : tracker.Counts (countedProtocols v steps {} []) := by
  refine run_history (P := fun before w => ∀ tracker, w.trackers v = some tracker →
    tracker.Counts (countedProtocols v before {} [])) (by simp) ?_ hrun tracker ht
  intro before st after w₁ w₂ hsplit hbefore ih hexec tracker₂ ht₂
  rw [countedProtocols_concat hbefore hexec]
  cases Step.countersChange hexec v with
  | closed hnone => cases hnone.symm.trans ht₂
  | opened hcreates htracker =>
      cases htracker.symm.trans ht₂
      rw [if_pos hcreates]
      exact SpendTracker.counts_empty
  | kept tracker tracker' hcreates hcounts hbefore hafter hsame =>
      cases hafter.symm.trans ht₂
      rw [hcreates, hcounts]
      exact (ih tracker hbefore).congr hsame
  | counted p x tracker recorded tracker' hcreates hcounts hbefore' hsame hrecord hafter =>
      cases hafter.symm.trans ht₂
      have hp : p ≠ .default := fun heq =>
        always_iff.mp hzero before st after w₁ w₂ hsplit hbefore hexec (by rw [hcounts, heq])
      rw [hcreates, hcounts]
      exact ((ih tracker hbefore').congr hsame).record hp hrecord

/-- In a run that counts nothing for the zero address, all protocols of an allowlist find a counter iff fewer than ten
protocols were counted since the vault was created, or the allowlist has none but these. And a charge for one protocol
changes nothing that is read for another. The allowlist of the policy in force is one of those meant. -/
theorem counters_available_iff (hzero : CountsProtocols v steps) (hrun : run Step.exec steps {} = .ok w)
    {tracker : SpendTracker} (ht : w.trackers v = some tracker) :
    (∀ policy : PolicyConfig, (∀ p ∈ policy.protocols, tracker.Available p) ↔
      (countedProtocols v steps {} []).length < maxAllowedProtocols ∨
        policy.protocols ⊆ countedProtocols v steps {} []) ∧
    ∀ clock p x tracker', tracker.recordProtocolSpend clock p x = .ok tracker' →
      ∀ q, q ≠ p → ∀ now, tracker'.getProtocolSpend now q = tracker.getProtocolSpend now q := by
  have hcounts := counts_run hzero hrun ht
  refine ⟨fun policy => ?_, fun clock p x tracker' hrecord q hne now => hcounts.spend_other hrecord hne now⟩
  simp only [hcounts.available_iff]
  constructor
  · intro h
    by_contra hnot
    push Not at hnot
    exact hnot.2 fun p hp => (h p hp).resolve_right (by omega)
  · rintro (hlt | hsub) p hp
    · exact .inr hlt
    · exact .inl (hsub hp)

end

/-! ### A vault whose allowlist changes, and one that allows the zero address -/

/-- Program 9 takes 0.1 USDC in a session that declares another program. -/
def rotatedSession (clock : Clock) (version : UInt64) (declared : Pubkey) : List Step :=
  (Transaction.ofKey clock 3
    [(Instruction.validateAndAuthorize
        { payValidate with targetProtocol := declared, expectedPolicyVersion := version }).toTopLevel,
     capTrade 100000, (Instruction.finalizeSession payFinalize).toTopLevel]).steps

/-- Programs 9 and 11 to 19 are allowed. -/
def rotatedVault : InitializeVault :=
  { payVault with
    protocolMode := 1
    protocols := [.key 9, .key 11, .key 12, .key 13, .key 14, .key 15, .key 16, .key 17, .key 18, .key 19]
    protocolCaps := List.replicate 10 5000000 }

def zeroVault : InitializeVault :=
  { payVault with protocolMode := 1, protocols := [.default, .key 9], protocolCaps := [5000000, 5000000] }

def protocolSetup (a : InitializeVault) : List Step :=
  [.alone payClock [usdcMint, .key 4] payLaunch launchers_isKey,
   .ofKey payClock 1 (Instruction.initializeVault a).toTopLevel,
   .ofKey payClock 1 (Instruction.registerAgent payAgent).toTopLevel]

def rotationClock : Clock := { unixTimestamp := 603000, slot := 1350 }

/-- Each of the ten is counted, and then programs 11 to 19 give way to program 20. -/
def rotatedRun : List Step :=
  protocolSetup rotatedVault ++ rotatedVault.protocols.flatMap (rotatedSession payClock 0) ++
    [.ofKey payClock 1 (Instruction.queuePolicyUpdate payAction
      { protocols := some [.key 9, .key 20], protocolCaps := some [5000000, 5000000] }).toTopLevel,
     .ofKey rotationClock 1 (Instruction.applyPendingPolicy payAction).toTopLevel]

def countersAfter (steps : List Step) : Option (SpendTracker × PolicyConfig) :=
  match run Step.exec steps {} with
  | .ok w =>
      (w.trackers payVault.vault).bind fun tracker => (w.policies payVault.vault).map fun policy => (tracker, policy)
  | .error _ => none

def spendAfter (steps : List Step) (p : Pubkey) : Option Nat :=
  (countersAfter steps).map fun after => after.1.getProtocolSpend payClock p

def cappedRun : List Step := protocolSetup rotatedVault ++ rotatedSession payClock 0 (.key 9)

set_option maxRecDepth 4000 in
/-- Program 20 is allowed and finds no counter, and a charge for program 9 resets the counter of the zero address. -/
theorem counters_run_out :
    (∃ tracker policy, countersAfter rotatedRun = some (tracker, policy) ∧ policy.hasProtocolCaps ∧
      .key 20 ∈ policy.protocols ∧ ¬ tracker.Available (.key 20)) ∧
    spendAfter (protocolSetup zeroVault ++ rotatedSession payClock 0 .default) .default = some 100000 ∧
    spendAfter (protocolSetup zeroVault ++ rotatedSession payClock 0 .default ++ rotatedSession payClock 0 (.key 9))
      .default = some 0 := by
  refine ⟨?_, by decide +kernel, by decide +kernel⟩
  have hfull : (countersAfter rotatedRun).any fun after =>
      after.2.hasProtocolCaps ∧ .key 20 ∈ after.2.protocols ∧
        ¬ ((∃ i, after.1.counterKeys i = .key 20) ∨ ∃ i, after.1.counterKeys i = .default) := by decide +kernel
  obtain ⟨⟨tracker, policy⟩, hafter, hfull⟩ := (Option.any_eq_true ..).mp hfull
  obtain ⟨hcaps, hallowed, hnone⟩ := of_decide_eq_true hfull
  exact ⟨tracker, policy, hafter, hcaps, hallowed, SpendTracker.available_iff_exists.not.mpr hnone⟩

set_option maxRecDepth 4000 in
/-- After one session, the nine protocols that were not counted find counters as well. -/
theorem counters_available_first :
    ∃ w tracker policy, run Step.exec cappedRun {} = .ok w ∧ w.trackers payVault.vault = some tracker ∧
      w.policies payVault.vault = some policy ∧ ∀ p ∈ policy.protocols, tracker.Available p := by
  obtain ⟨w, hrun⟩ := exists_ok_of_isOk (x := run Step.exec cappedRun {}) (by decide +kernel)
  have hzero : CountsProtocols payVault.vault cappedRun := by
    unfold CountsProtocols
    decide +kernel
  have hfew : (countedProtocols payVault.vault cappedRun {} []).length < maxAllowedProtocols := by decide +kernel
  have hsome : (countersAfter cappedRun).isSome := by decide +kernel
  simp only [countersAfter, hrun] at hsome
  cases ht : w.trackers payVault.vault with
  | none => simp [ht] at hsome
  | some tracker =>
      cases hp : w.policies payVault.vault with
      | none => simp [ht, hp] at hsome
      | some policy =>
          have hall := ((counters_available_iff hzero hrun ht).1 policy).mpr (.inl hfew)
          exact ⟨w, tracker, policy, hrun, ht, hp, hall⟩

end Sigil
