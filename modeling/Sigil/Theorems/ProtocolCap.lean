import Sigil.Library.Window
import Sigil.Theorems.AgentCap
import Sigil.Theorems.Counters

/-!
# The cap of a protocol over whole runs

The counter of a protocol starts a window with the first charge and another one with the first charge that comes 144
epochs later. So a protocol with a constant cap is charged no more than twice the cap in any 144 epochs.
-/

namespace Sigil

open Library

/-- Amounts that are counted for a protocol since the vault was created, newest first. -/
def Step.protocolLog (v p : Pubkey) (st : Step) (w : World) (log : EpochLog) : EpochLog :=
  if st.creates v then []
  else if st.counts w v = some p then (epochOf st.ctx.clock, (st.charge w v).elim 0 Prod.snd) :: log
  else log

def Step.execCounted (v p : Pubkey) (st : Step) (s : World × EpochLog) : Result (World × EpochLog) := do
  let w' ← st.exec s.1
  pure (w', st.protocolLog v p s.1 s.2)

/-- In every state of the run the policy of the vault, if there is one, caps the protocol at `cap`. -/
def ProtocolCapIs (cap : Nat) (v p : Pubkey) (steps : List Step) : Prop :=
  Along Step.exec (fun w => ∀ policy ∈ w.policies v, policy.getProtocolCap p = some cap) steps {}

def SpendTracker.counterOf (tracker : SpendTracker) (p : Pubkey) : Option ProtocolSpendCounter :=
  (tracker.findCounter fun k => k.protocol = p).map tracker.protocolCounters

section
variable {v p q : Pubkey} {cap x : Nat} {st : Step} {s s' : World × EpochLog} {steps before after : List Step}
  {w w' : World} {tracker tracker' : SpendTracker} {clock : Clock} {policy : PolicyConfig}

theorem Step.execCounted_eq_ok :
    st.execCounted v p s = .ok s' ↔ st.exec s.1 = .ok s'.1 ∧ s'.2 = st.protocolLog v p s.1 s.2 := by
  simp only [execCounted, bind_eq_ok, pure_eq_ok]
  constructor
  · rintro ⟨w', hexec, rfl⟩
    exact ⟨hexec, rfl⟩
  · rintro ⟨hexec, hlog⟩
    exact ⟨s'.1, hexec, Prod.ext rfl hlog.symm⟩

/-! ## One charge -/

namespace SpendTracker

theorem counterOf_congr (h : tracker'.protocolCounters = tracker.protocolCounters) :
    tracker'.counterOf p = tracker.counterOf p := by
  unfold counterOf findCounter
  rw [h]

theorem counterOf_empty (hp : p ≠ .default) : ({} : SpendTracker).counterOf p = none := by
  have hnone : ({} : SpendTracker).findCounter (fun k => k.protocol = p) = none :=
    findCounter_eq_none.mpr fun _ => hp.symm
  rw [counterOf, hnone, Option.map_none]

/-- What a charge does to the counter of its protocol. -/
inductive WindowChange (clock : Clock) (p : Pubkey) (x : Nat) (before after : Option ProtocolSpendCounter) : Prop where
  | first (hbefore : before = none) (hafter : after = some ⟨p, epochOf clock, x⟩)
  | restarted (counter : ProtocolSpendCounter) (hbefore : before = some counter)
      (hexpired : numEpochs ≤ epochOf clock - counter.windowStart) (hafter : after = some ⟨p, epochOf clock, x⟩)
  | extended (counter : ProtocolSpendCounter) (hbefore : before = some counter)
      (hrunning : epochOf clock - counter.windowStart < numEpochs)
      (hafter : after = some { counter with windowSpend := counter.windowSpend + x })

theorem counterOf_setCounter {i : Fin maxAllowedProtocols} {counter : ProtocolSpendCounter}
    (hprotocol : counter.protocol = p)
    (hi : tracker.findCounter (fun k => k.protocol = p) = some i ∨
      tracker.findCounter (fun k => k.protocol = p) = none) :
    (tracker.setCounter i counter).counterOf p = some counter := by
  rw [counterOf, findCounter_setCounter hprotocol hi, Option.map_some]
  exact congrArg some (Function.update_self ..)

theorem recordProtocolSpend_window (h : tracker.recordProtocolSpend clock p x = .ok tracker') :
    0 < clock.unixTimestamp ∧ WindowChange clock p x (tracker.counterOf p) (tracker'.counterOf p) := by
  simp only [recordProtocolSpend, bind_eq_ok, require_eq_ok, exists_and_left, exists_const] at h
  obtain ⟨hpos, h⟩ := h
  refine ⟨hpos, ?_⟩
  split at h
  · rename_i i hfind
    have hprotocol : (tracker.protocolCounters i).protocol = p := findCounter_key hfind
    have hbefore : tracker.counterOf p = some (tracker.protocolCounters i) := by rw [counterOf, hfind]; rfl
    split at h
    · rename_i hexpired
      obtain rfl := pure_eq_ok.mp h
      rw [hprotocol]
      exact .restarted _ hbefore hexpired (counterOf_setCounter rfl (.inl hfind))
    · rename_i hrunning
      simp only [bind_eq_ok, okOr_eq_ok, checkedAdd_eq_some, pure_eq_ok] at h
      obtain ⟨_, ⟨-, rfl⟩, rfl⟩ := h
      exact .extended _ hbefore (by omega) (counterOf_setCounter (by exact hprotocol) (.inl hfind))
  · rename_i hfind
    simp only [bind_eq_ok, pure_eq_ok] at h
    obtain ⟨i, -, rfl⟩ := h
    exact .first (by rw [counterOf, hfind]; rfl) (counterOf_setCounter rfl (.inr hfind))

/-- A charge leaves the counters of other protocols alone. -/
theorem recordProtocolSpend_other (h : tracker.recordProtocolSpend clock q x = .ok tracker') (hne : p ≠ q)
    (hp : p ≠ .default) : tracker'.counterOf p = tracker.counterOf p := by
  obtain ⟨i, counter, rfl, rfl, hi⟩ := recordProtocolSpend_cases h
  have hkey : tracker.counterKeys i ≠ p := by
    rintro rfl
    rcases hi with heq | ⟨heq, -⟩
    · exact hne heq
    · exact hp heq
  have hfind : (tracker.setCounter i counter).findCounter (fun k => k.protocol = p) =
      tracker.findCounter (fun k => k.protocol = p) := by
    refine findCounter_congr fun j => ?_
    rcases eq_or_ne j i with rfl | hj
    · have hself : (tracker.setCounter j counter).protocolCounters j = counter := Function.update_self ..
      rw [hself]
      exact decide_eq_decide.mpr (iff_of_false hne.symm hkey)
    · rw [protocolCounters_setCounter_of_ne hj]
  unfold counterOf
  rw [hfind]
  cases hj : tracker.findCounter (fun k => k.protocol = p) with
  | none => rfl
  | some j =>
      have hji : j ≠ i := by
        rintro rfl
        exact hkey (findCounter_key hj)
      exact congrArg some (protocolCounters_setCounter_of_ne hji)

theorem getProtocolSpend_eq (hpos : 0 < clock.unixTimestamp) : tracker.getProtocolSpend clock p =
    (tracker.counterOf p).elim 0 fun counter =>
      if epochOf clock - counter.windowStart < numEpochs then counter.windowSpend else 0 := by
  rw [getProtocolSpend, if_neg (by omega), counterOf]
  cases tracker.findCounter (fun k => k.protocol = p) <;> rfl

end SpendTracker

/-! ## One step -/

theorem chargeSession_counted {vault : AgentVault} {session : SessionAuthority}
    (h : chargeSession w clock v vault policy session x = .ok w') (hpos : 0 < x) (hcaps : policy.hasProtocolCaps) :
    ∃ tracker tracker' recorded : SpendTracker, w.trackers v = some tracker ∧ w'.trackers v = some tracker' ∧
      checkProtocolCap policy tracker clock session.authorizedProtocol x = .ok () ∧
      recorded.protocolCounters = tracker.protocolCounters ∧
      recorded.recordProtocolSpend clock session.authorizedProtocol x = .ok tracker' := by
  simp only [chargeSession, bind_eq_ok, World.loadTracker_eq_ok] at h
  obtain ⟨tracker, htracker, _, -, _, -, h⟩ := h
  rw [if_pos hpos] at h
  simp only [bind_eq_ok, pure_eq_ok] at h
  obtain ⟨charged, hcharge, rfl⟩ := h
  simp only [chargeSpend, hcaps, if_true, bind_eq_ok, pure_eq_ok] at hcharge
  obtain ⟨_, -, _, -, _, -, _, hcap, recorded, hrecord, tracker', hcount, rfl⟩ := hcharge
  exact ⟨tracker, tracker', recorded, htracker, Function.update_self .., hcap, recordSpend_protocolCounters hrecord,
    hcount⟩

theorem Step.counted_within (h : st.exec w = .ok w') (hcounts : st.counts w v = some p) :
    ∃ policy tracker tracker' recorded agent x, w.policies v = some policy ∧ w.trackers v = some tracker ∧
      w'.trackers v = some tracker' ∧ st.charge w v = some (agent, x) ∧
      checkProtocolCap policy tracker st.ctx.clock p x = .ok () ∧
      recorded.protocolCounters = tracker.protocolCounters ∧
      SpendTracker.recordProtocolSpend recorded st.ctx.clock p x = .ok tracker' := by
  rcases Step.exec_cases h with ⟨i, hcall, -, -, hi⟩ | ⟨_, hcall, -⟩
  · cases i with
    | finalizeSession a =>
        obtain ⟨vault, session, policy, _, spend, charged, _, -, hs, hp, -, hspend, hcharge, -, rfl⟩ :=
          finalizeSession_ok hi
        simp only [Step.counts, hcall, FinalizeSession.counts, hs.1, hp, hspend, Option.ite_none_right_eq_some,
          Option.some.injEq] at hcounts
        obtain ⟨rfl, ⟨hpos, hcaps⟩, rfl⟩ := hcounts
        obtain ⟨tracker, tracker', recorded, ht, ht', hcap, hsame, hcount⟩ := chargeSession_counted hcharge hpos hcaps
        refine ⟨policy, tracker, tracker', recorded, session.agent, spend, hp, ht, ht', ?_, hcap, hsame, hcount⟩
        have hmeasured := FinalizeSession.spend_eq hs hspend
        simp [Step.charge, hcall, Instruction.charge, hmeasured, Except.toOption, hpos]
    | _ => simp [Step.counts, hcall] at hcounts
  · simp [Step.counts, hcall] at hcounts

theorem Step.counts_of_creates (h : st.creates v) : st.counts w v = none := by
  unfold creates at h
  split at h
  · rename_i a hcall
    simp [counts, hcall]
  · cases h

/-- What a step does to the counter of a protocol and to what is counted for it. -/
inductive ProtocolChange (cap : Nat) (v p : Pubkey) (st : Step) (s s' : World × EpochLog) : Prop where
  | closed (hnone : s'.1.trackers v = none) (hlog : s'.2 = s.2 ∨ s'.2 = [])
  | opened (htracker : s'.1.trackers v = some {}) (hlog : s'.2 = [])
  | kept (tracker tracker' : SpendTracker) (hbefore : s.1.trackers v = some tracker)
      (hafter : s'.1.trackers v = some tracker') (hcounter : tracker'.counterOf p = tracker.counterOf p)
      (hlog : s'.2 = s.2)
  | counted (x : Nat) (tracker tracker' : SpendTracker) (hpos : 0 < st.ctx.clock.unixTimestamp)
      (hbefore : s.1.trackers v = some tracker) (hafter : s'.1.trackers v = some tracker')
      (hcap : tracker.getProtocolSpend st.ctx.clock p + x ≤ cap)
      (hchange : SpendTracker.WindowChange st.ctx.clock p x (tracker.counterOf p) (tracker'.counterOf p))
      (hlog : s'.2 = (epochOf st.ctx.clock, x) :: s.2)

theorem Step.protocolChange (hp : p ≠ .default) (hpos : 0 < cap)
    (hcap : ∀ policy ∈ s.1.policies v, policy.getProtocolCap p = some cap) (hexec : st.execCounted v p s = .ok s') :
    ProtocolChange cap v p st s s' := by
  obtain ⟨hexec, hlog⟩ := Step.execCounted_eq_ok.mp hexec
  unfold protocolLog at hlog
  by_cases hcounts : st.counts s.1 v = some p
  · have hcreates : ¬ st.creates v := fun hcreates => by cases hcounts.symm.trans (counts_of_creates hcreates)
    obtain ⟨policy, tracker, tracker', recorded, agent, x, hpolicy, ht, ht', hcharge, hcheck, hsame, hcount⟩ :=
      Step.counted_within hexec hcounts
    rw [if_neg hcreates, if_pos hcounts, hcharge] at hlog
    obtain ⟨hclock, hchange⟩ := SpendTracker.recordProtocolSpend_window hcount
    rw [SpendTracker.counterOf_congr hsame] at hchange
    exact .counted x tracker tracker' hclock ht ht' (checkProtocolCap_ok hcheck (hcap policy hpolicy) hpos) hchange
      hlog
  · rw [if_neg hcounts] at hlog
    cases Step.countersChange hexec v with
    | closed hnone =>
        refine .closed hnone ?_
        rw [hlog]
        split
        · exact .inr rfl
        · exact .inl rfl
    | opened hcreates htracker =>
        rw [if_pos hcreates] at hlog
        exact .opened htracker hlog
    | kept tracker tracker' hcreates _ hbefore hafter hsame =>
        rw [hcreates, if_neg (by simp)] at hlog
        exact .kept tracker tracker' hbefore hafter (SpendTracker.counterOf_congr hsame) hlog
    | counted q x tracker recorded tracker' hcreates hother hbefore hsame hrecord hafter =>
        rw [hcreates, if_neg (by simp)] at hlog
        refine .kept tracker tracker' hbefore hafter ?_ hlog
        have hne : p ≠ q := by
          rintro rfl
          exact hcounts hother
        rw [SpendTracker.recordProtocolSpend_other hrecord hne hp, SpendTracker.counterOf_congr hsame]

/-! ## Runs -/

/-- The counter has counted the log, whose epochs are epochs of the run. -/
structure ProtocolInv (cap : Nat) (v p : Pubkey) (before : List Step) (s : World × EpochLog) : Prop where
  counter : ∀ tracker, s.1.trackers v = some tracker → match tracker.counterOf p with
    | none => s.2 = []
    | some counter => s.2.Windowed numEpochs cap counter.windowStart counter.windowSpend
  window : ∀ e, s.2.windowTotal (e - 143) e ≤ 2 * cap
  logged : ∀ k ∈ s.2.epochs, ∃ t ∈ before, k = epochOf t.ctx.clock ∧ 0 < t.ctx.clock.unixTimestamp

namespace ProtocolInv

theorem genesis : ProtocolInv cap v p [] ({}, []) where
  counter := by simp
  window := by simp
  logged := by simp [EpochLog.epochs]

theorem le (h : ProtocolInv cap v p before s) (hclocks : Nondecreasing (before ++ st :: after)) :
    ∀ k ∈ s.2.epochs, k ≤ epochOf st.ctx.clock := by
  intro k hk
  obtain ⟨t, ht, rfl, hpos⟩ := h.logged k hk
  exact epochOf_mono hpos.le ((List.pairwise_append.mp hclocks).2.2 t ht st (by simp))

/-- A charge within the cap goes into the running window or starts another one. -/
theorem charged (h : ProtocolInv cap v p before s) (hle : ∀ k ∈ s.2.epochs, k ≤ epochOf clock)
    (hpos : 0 < clock.unixTimestamp) (hbefore : s.1.trackers v = some tracker)
    (hcap : tracker.getProtocolSpend clock p + x ≤ cap)
    (hchange : SpendTracker.WindowChange clock p x (tracker.counterOf p) (tracker'.counterOf p)) :
    ∃ counter, tracker'.counterOf p = some counter ∧ EpochLog.Windowed numEpochs cap counter.windowStart
      counter.windowSpend ((epochOf clock, x) :: s.2) := by
  have hcounter := h.counter tracker hbefore
  rw [SpendTracker.getProtocolSpend_eq hpos] at hcap
  cases hchange with
  | first hnone hafter =>
      rw [hnone] at hcounter hcap
      refine ⟨_, hafter, ?_⟩
      rw [hcounter]
      exact .first (by decide) (by simpa using hcap)
  | restarted counter hsome hexpired hafter =>
      rw [hsome] at hcounter hcap
      rw [Option.elim_some, if_neg (by omega), Nat.zero_add] at hcap
      exact ⟨_, hafter, hcounter.restart (by decide) hexpired hcap⟩
  | extended counter hsome hrunning hafter =>
      rw [hsome] at hcounter hcap
      rw [Option.elim_some, if_pos hrunning] at hcap
      exact ⟨_, hafter, hcounter.extend (hle _ hcounter.start_mem) hrunning hcap⟩

theorem step (hp : p ≠ .default) (h : ProtocolInv cap v p before s)
    (hle : ∀ k ∈ s.2.epochs, k ≤ epochOf st.ctx.clock) (hchange : ProtocolChange cap v p st s s') :
    ProtocolInv cap v p (before ++ [st]) s' := by
  have hlater : ∀ k ∈ s.2.epochs, ∃ t ∈ before ++ [st], k = epochOf t.ctx.clock ∧ 0 < t.ctx.clock.unixTimestamp := by
    intro k hk
    obtain ⟨t, ht, hkey⟩ := h.logged k hk
    exact ⟨t, List.mem_append_left _ ht, hkey⟩
  cases hchange with
  | closed hnone hlog =>
      constructor
      case counter => simp [hnone]
      case window =>
        rcases hlog with hlog | hlog
        · rw [hlog]
          exact h.window
        · simp [hlog]
      case logged =>
        rcases hlog with hlog | hlog
        · rwa [hlog]
        · simp [hlog, EpochLog.epochs]
  | opened htracker hlog =>
      constructor
      case counter =>
        intro tracker ht
        cases htracker.symm.trans ht
        rw [SpendTracker.counterOf_empty hp]
        exact hlog
      case window => simp [hlog]
      case logged => simp [hlog, EpochLog.epochs]
  | kept tracker tracker' hbefore hafter hcounter hlog =>
      constructor
      case counter =>
        intro t ht
        cases hafter.symm.trans ht
        rw [hcounter, hlog]
        exact h.counter tracker hbefore
      case window =>
        rw [hlog]
        exact h.window
      case logged => rwa [hlog]
  | counted x tracker tracker' hpos hbefore hafter hcap hwindow hlog =>
      obtain ⟨counter, hcounter, hwindowed⟩ := h.charged hle hpos hbefore hcap hwindow
      constructor
      case counter =>
        intro t ht
        cases hafter.symm.trans ht
        rw [hcounter, hlog]
        exact hwindowed
      case window =>
        rw [hlog]
        exact hwindowed.window_le
      case logged =>
        rw [hlog]
        intro k hk
        rcases List.mem_cons.mp hk with rfl | hk
        · exact ⟨st, by simp, rfl, hpos⟩
        · exact hlater k hk

end ProtocolInv

theorem run_execCounted (h : run (Step.execCounted v p) steps s = .ok s') : run Step.exec steps s.1 = .ok s'.1 :=
  run_map (fun _ _ _ hst => (Step.execCounted_eq_ok.mp hst).1) h

theorem protocolInv_run (hp : p ≠ .default) (hpos : 0 < cap)
    (hrun : run (Step.execCounted v p) steps ({}, []) = .ok s) (hclocks : Nondecreasing steps)
    (hcap : ProtocolCapIs cap v p steps) : ProtocolInv cap v p steps s := by
  refine run_history (P := ProtocolInv cap v p) .genesis ?_ hrun
  rintro before st after s₁ s₂ rfl hbefore ih hexec
  exact ih.step hp (ih.le hclocks) (Step.protocolChange hp hpos (hcap.of_run (run_execCounted hbefore)) hexec)

theorem protocol_window_bound (hp : p ≠ .default) (hpos : 0 < cap)
    (hrun : run (Step.execCounted v p) steps ({}, []) = .ok s) (hclocks : Nondecreasing steps)
    (hcap : ProtocolCapIs cap v p steps) :
    (∀ tracker counter, s.1.trackers v = some tracker → tracker.counterOf p = some counter →
      s.2.windowTotal counter.windowStart (counter.windowStart + 143) = counter.windowSpend ∧
      counter.windowSpend ≤ cap ∧
      ∀ k ∈ s.2.epochs, counter.windowStart ≤ k → k < counter.windowStart + 144) ∧
    ∀ e, s.2.windowTotal (e - 143) e ≤ 2 * cap := by
  have hinv := protocolInv_run hp hpos hrun hclocks hcap
  refine ⟨fun tracker counter ht hcounter => ?_, hinv.window⟩
  have hwindowed := hinv.counter tracker ht
  rw [hcounter] at hwindowed
  exact ⟨hwindowed.since.2, hwindowed.spend_le, hwindowed.since.1⟩

end

/-! ### Program 9 is charged in two windows -/

def nextWindowClock : Clock := { unixTimestamp := 686700, slot := 217300 }

def windowsRun : List Step := cappedRun ++ rotatedSession nextWindowClock 0 (.key 9)

set_option maxRecDepth 4000 in
theorem protocol_window_bound_two : ∃ s, run (Step.execCounted payVault.vault (.key 9)) windowsRun ({}, []) = .ok s ∧
    s.2 = [(1144, 100000), (1000, 100000)] ∧ ∀ e, s.2.windowTotal (e - 143) e ≤ 2 * 5000000 := by
  obtain ⟨s, hrun⟩ :=
    exists_ok_of_isOk (x := run (Step.execCounted payVault.vault (.key 9)) windowsRun ({}, [])) (by decide +kernel)
  have hlog : (run (Step.execCounted payVault.vault (.key 9)) windowsRun ({}, [])).toOption.map Prod.snd =
      some [(1144, 100000), (1000, 100000)] := by decide +kernel
  rw [hrun] at hlog
  have hcap : ProtocolCapIs 5000000 payVault.vault (.key 9) windowsRun := by
    unfold ProtocolCapIs
    decide +kernel
  have hclocks : Nondecreasing windowsRun := by
    unfold Nondecreasing
    decide +kernel
  exact ⟨s, hrun, Option.some.inj hlog, (protocol_window_bound (by decide) (by decide) hrun hclocks hcap).2⟩

end Sigil
