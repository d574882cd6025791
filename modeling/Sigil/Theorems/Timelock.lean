import Mathlib.Algebra.Order.Floor.Ring
import Mathlib.Algebra.Order.Archimedean.Real.Basic
import Mathlib.Tactic.NormNum
import Sigil.Lemmas.Timelock

/-!
# How long an update waits

An update is queued with the timelock of the policy read as a signed number. While every timelock fits into
63 bits it waits at least the minimum; and it can be applied at all slot durations iff the timelock ends
within the slots an update stays fresh.
-/

namespace Sigil

open Library

/-! ## The floor -/

/-- The timelock an instruction sets is not read as a negative number. -/
def Step.TimelockFits (st : Step) : Prop :=
  match st.instruction.call with
  | .sigil (.initializeVault a) => a.timelockDuration.toNat < 2 ^ 63
  | .sigil (.queuePolicyUpdate _ update) => ∀ d, update.timelockDuration = some d → d.toNat < 2 ^ 63
  | _ => True

/-- Timelocks that the floor holds for. -/
def SoundTimelock (d : Nat) : Prop := minTimelockDuration ≤ d ∧ d < 2 ^ 63

structure TimelockInv (w : World) : Prop where
  policies : ∀ v p, w.policies v = some p → SoundTimelock p.timelockDuration
  pendingPolicies : ∀ v p, w.pendingPolicies v = some p → ∀ d, p.timelockDuration = some d → SoundTimelock d
  waits : ∀ u t, w.pendingTimes u = some t → t.queuedAt + minTimelockDuration ≤ t.executesAt

section
variable {w w' : World} {st : Step} {before : List Step} {i : Instruction} {u : Update}

theorem queuedTimes_waits {clock : Clock} {policy : PolicyConfig} (h : SoundTimelock policy.timelockDuration) :
    (queuedTimes clock policy).queuedAt + minTimelockDuration ≤ (queuedTimes clock policy).executesAt := by
  obtain ⟨hmin, hmax⟩ := h
  simp only [queuedTimes, asI64_of_lt hmax]
  omega

theorem TimelockInv.of_frame (h : TimelockInv w) (hframe : TimelockFrame w w') : TimelockInv w' where
  policies v p' hp' := by
    obtain ⟨p, hp, heq⟩ := hframe.policies v p' hp'
    exact heq ▸ h.policies v p hp
  pendingPolicies v p hp := h.pendingPolicies v p (hframe.pendingPolicies v p hp)
  waits u t ht := h.waits u t (hframe.pendingTimes ht)

/-- The waiting times of a step follow from the policies before it. -/
theorem TimelockInv.waits_step (h : TimelockInv w) (hkeys : ∀ k ∈ st.ctx.signers, k.isKey = true)
    (hexec : i.exec st.ctx w = .ok w') (u : Update) (t : UpdateTimes) (ht : w'.pendingTimes u = some t) :
    t.queuedAt + minTimelockDuration ≤ t.executesAt := by
  rcases i.pendingTimes_cases hkeys hexec ht with ⟨hw, -⟩ | ⟨v, policy, -, hp, rfl⟩
  · exact h.waits u t hw
  · exact queuedTimes_waits (h.policies v policy hp)

theorem TimelockInv.step (h : TimelockInv w) (hfits : st.TimelockFits) (hexec : st.exec w = .ok w') :
    TimelockInv w' := by
  rcases Step.exec_cases hexec with ⟨i, hcall, -, -, hi⟩ | ⟨ops, -, -, l, -, rfl, -⟩
  · have hwaits := h.waits_step st.signers_isKey hi
    cases hchanges : i.changesTimelock with
    | false => exact h.of_frame (i.timelockFrame hchanges st.signers_isKey hi)
    | true =>
        simp only [Step.TimelockFits, hcall] at hfits
        cases i with
        | initializeVault a =>
            obtain ⟨-, hcheck, rfl⟩ := initializeVault_ok hi
            refine ⟨fun v p hp => ?_, h.pendingPolicies, hwaits⟩
            rcases update_cases hp with ⟨rfl, heq⟩ | ⟨-, hp⟩
            · obtain rfl := Option.some.inj heq
              exact ⟨InitializeVault.check_timelock hcheck, hfits⟩
            · exact h.policies v p hp
        | applyPendingPolicy a =>
            obtain ⟨_, policy, pending, -, hp, hpending, -, rfl⟩ := applyPendingPolicy_ok hi
            refine ⟨fun v p hv => ?_, fun v p hv => ?_, hwaits⟩
            · rcases update_cases hv with ⟨rfl, heq⟩ | ⟨-, hv⟩
              · obtain rfl := Option.some.inj heq
                simp only [PolicyConfig.bumped, PendingPolicyUpdate.applyTo]
                cases hd : pending.timelockDuration with
                | none => exact h.policies _ _ hp
                | some d => exact h.pendingPolicies _ _ hpending d hd
              · exact h.policies v p hv
            · exact h.pendingPolicies v p (update_none_subset v p hv)
        | queuePolicyUpdate a update =>
            obtain ⟨_, policy, executes, -, hp, -, hfields, -, -, rfl⟩ := queuePolicyUpdate_ok hi
            refine ⟨fun v p hv => ?_, fun v p hv d hd => ?_, hwaits⟩
            · rcases update_cases hv with ⟨rfl, heq⟩ | ⟨-, hv⟩
              · obtain rfl := Option.some.inj heq
                exact h.policies _ policy hp
              · exact h.policies v p hv
            · rcases update_cases hv with ⟨rfl, heq⟩ | ⟨-, hv⟩
              · obtain rfl := Option.some.inj heq
                obtain ⟨n, hn, rfl⟩ := Option.map_eq_some_iff.mp hd
                exact ⟨PolicyUpdate.checkFields_timelock hfields n hn, hfits n hn⟩
              · exact h.pendingPolicies v p hv d hd
        | queueConstraintsUpdate a entries strictMode =>
            obtain ⟨_, _, _, -, -, -, -, -, rfl⟩ := queueConstraintsUpdate_ok hi
            exact ⟨h.policies, h.pendingPolicies, hwaits⟩
        | queueCloseConstraints a =>
            obtain ⟨_, _, -, -, -, -, rfl⟩ := queueCloseConstraints_ok hi
            exact ⟨h.policies, h.pendingPolicies, hwaits⟩
        | queueAgentPermissionsUpdate a capability limit =>
            obtain ⟨_, _, -, -, -, -, rfl⟩ := queueAgentPermissionsUpdate_ok hi
            exact ⟨h.policies, h.pendingPolicies, hwaits⟩
        | _ => cases hchanges
  · exact h.of_frame { TimelockFrame.refl w with }

theorem genesis_pendingTimes (u : Update) : ({} : World).pendingTimes u = none := by
  cases u <;> rfl

theorem timelockInv_genesis : TimelockInv {} where
  policies := by simp
  pendingPolicies := by simp
  waits u := by simp [genesis_pendingTimes]

/-- The step that queued a pending update, after which nothing was queued in its place. -/
def QueuedBy (before : List Step) (u : Update) (t : UpdateTimes) : Prop :=
  ∃ earlier q later i v, before = earlier ++ q :: later ∧ q.instruction.call = .sigil i ∧
    i.queues = some (u, v) ∧ q.ctx.clock.unixTimestamp = t.queuedAt ∧
    ∀ s ∈ later, ∀ j v, s.instruction.call = .sigil j → j.queues ≠ some (u, v)

theorem QueuedBy.concat {t : UpdateTimes} (h : QueuedBy before u t)
    (hst : ∀ j v, st.instruction.call = .sigil j → j.queues ≠ some (u, v)) : QueuedBy (before ++ [st]) u t := by
  obtain ⟨earlier, q, later, i, v, rfl, hcall, hqueue, htime, hlater⟩ := h
  refine ⟨earlier, q, later ++ [st], i, v, by simp, hcall, hqueue, htime, ?_⟩
  intro s hs
  rcases List.mem_append.mp hs with hs | hs
  · exact hlater s hs
  · obtain rfl := List.mem_singleton.mp hs
    exact hst

theorem pending_queuedBy (hrun : run Step.exec before {} = .ok w) :
    ∀ u t, w.pendingTimes u = some t → QueuedBy before u t := by
  refine run_history (P := fun before w => ∀ u t, w.pendingTimes u = some t → QueuedBy before u t) ?_ ?_ hrun
  · intro u t ht
    simp [genesis_pendingTimes] at ht
  · intro before st after w₁ w₂ _ _ ih hexec u t ht
    rcases Step.exec_cases hexec with ⟨i, hcall, -, -, hi⟩ | ⟨ops, hcall, -, l, -, rfl, -⟩
    · rcases i.pendingTimes_cases st.signers_isKey hi ht with ⟨hw, hnot⟩ | ⟨v, policy, hqueue, -, rfl⟩
      · refine (ih u t hw).concat fun j v hj => ?_
        cases hcall.symm.trans hj
        exact hnot v
      · exact ⟨before, st, [], i, v, rfl, hcall, hqueue, rfl, by simp⟩
    · refine (ih u t ht).concat fun j v hj => ?_
      cases hcall.symm.trans hj

/-- If every timelock that the run sets fits into 63 bits, an update that is applied was queued at least the
minimum before. -/
theorem timelock_floor (hrun : run Step.exec before {} = .ok w) (hfits : ∀ s ∈ before, s.TimelockFits)
    (hcall : st.instruction.call = .sigil i) (happly : i.applies = some u) (hexec : st.exec w = .ok w') :
    ∃ t, w.pendingTimes u = some t ∧ QueuedBy before u t ∧
      minTimelockDuration ≤ st.ctx.clock.unixTimestamp - t.queuedAt := by
  have hinv : TimelockInv w := run_invariant timelockInv_genesis
    (fun s hs w₁ w₂ hw₁ hs' => hw₁.step (hfits s hs) hs') hrun
  rcases Step.exec_cases hexec with ⟨j, hj, -, -, hi⟩ | ⟨ops, hops, -⟩
  · cases hcall.symm.trans hj
    obtain ⟨t, ht, hready, -⟩ := i.apply_time happly hi
    have := hinv.waits u t ht
    exact ⟨t, ht, pending_queuedBy hrun u t ht, by omega⟩
  · cases hcall.symm.trans hops

end

/-! ### A vault of owner 1, and an update of its policy -/

def timelockVault (timelock : UInt64) : InitializeVault :=
  { owner := .key 1, feeDestination := .key 2, vaultId := 0, dailySpendingCapUsd := 1000000,
    maxTransactionSizeUsd := 1000000, protocolMode := 0, protocols := [], developerFeeRate := 0,
    maxSlippageBps := 100, timelockDuration := timelock, allowedDestinations := [], protocolCaps := [] }

def timelockAction : OwnerAction := { owner := .key 1, vault := .vault (.key 1) 0 }

/-- Creation of the vault and queueing of an update, both at time 1000. -/
def queueRun (timelock : UInt64) : List Step :=
  [.ofKey { unixTimestamp := 1000, slot := 0 } 1
    (Instruction.initializeVault (timelockVault timelock)).toTopLevel,
   .ofKey { unixTimestamp := 1000, slot := 0 } 1
    (Instruction.queuePolicyUpdate timelockAction {}).toTopLevel]

def applyAt (clock : Clock) : Step :=
  .ofKey clock 1 (Instruction.applyPendingPolicy timelockAction).toTopLevel

theorem timelock_floor_minimum : ∃ w w' t, run Step.exec (queueRun 1800) {} = .ok w ∧
    (applyAt { unixTimestamp := 2800, slot := 4500 }).exec w = .ok w' ∧
    w.pendingTimes (.policy timelockAction.vault) = some t ∧ minTimelockDuration ≤ 2800 - t.queuedAt := by
  obtain ⟨w, hrun⟩ : ∃ w, run Step.exec (queueRun 1800) {} = .ok w := ⟨_, rfl⟩
  obtain ⟨w', hexec⟩ : ∃ w', (applyAt { unixTimestamp := 2800, slot := 4500 }).exec w = .ok w' := by
    cases hrun
    exact ⟨_, rfl⟩
  obtain ⟨t, ht, -, hfloor⟩ := timelock_floor hrun
    (by simp [queueRun, Step.ofKey, Step.alone, Step.TimelockFits, Instruction.toTopLevel, timelockVault]) rfl rfl hexec
  exact ⟨w, w', t, hrun, hexec, ht, hfloor⟩

/-- A timelock of `u64::MAX` is read as `-1`: the update is ready before it is queued. -/
theorem timelock_floor_violated : ∃ w w' t, run Step.exec (queueRun 18446744073709551615) {} = .ok w ∧
    (applyAt { unixTimestamp := 1000, slot := 0 }).exec w = .ok w' ∧
    w.pendingTimes (.policy timelockAction.vault) = some t ∧ t.queuedAt = 1000 ∧ t.executesAt = 999 ∧
    1000 - t.queuedAt < minTimelockDuration :=
  ⟨_, _, _, rfl, rfl, rfl, rfl, rfl, by decide⟩

/-! ## Two clocks -/

/-- Time of a slot when every slot takes `δ` seconds. -/
noncomputable def slotClock (genesis δ : ℝ) (slot : ℕ) : ℤ := ⌊genesis + slot * δ⌋

/-- A later slot passes both time checks. -/
def CanApply (t : UpdateTimes) (time : ℕ → ℤ) : Prop :=
  ∃ slot, t.queuedAtSlot < slot ∧ isReady t.executesAt (time slot) ∧ isFresh t.queuedAtSlot slot

/-- Whatever the duration of a slot between 400 ms and 1.5 s, an update that is queued now can be applied. -/
def Alive (clock : Clock) (t : UpdateTimes) : Prop :=
  ∀ genesis δ : ℝ, 2 / 5 ≤ δ → δ ≤ 3 / 2 → slotClock genesis δ clock.slot = clock.unixTimestamp →
    CanApply t (slotClock genesis δ)

section
variable {clock : Clock} {t : UpdateTimes} {d : Int}

/-- The last fresh slot is 86399.6 seconds away at 400 ms a slot. -/
theorem alive_of_le (hd : d ≤ 86399) : Alive clock ⟨clock.unixTimestamp, clock.unixTimestamp + d, clock.slot⟩ := by
  intro genesis δ hlow _ hnow
  refine ⟨clock.slot + 215999, by dsimp only; omega, ?_, ?_⟩
  · have hle : (clock.unixTimestamp : ℝ) ≤ genesis + clock.slot * δ := Int.floor_eq_iff.mp hnow |>.1
    have hlate : clock.unixTimestamp + 86399 ≤ slotClock genesis δ (clock.slot + 215999) := by
      refine Int.le_floor.mpr ?_
      push_cast
      linarith
    simp only [isReady, decide_eq_true_eq]
    omega
  · simp [isFresh]

theorem not_canApply (clock : Clock) (hd : 86400 ≤ d) :
    ¬ CanApply ⟨clock.unixTimestamp, clock.unixTimestamp + d, clock.slot⟩
      (slotClock (clock.unixTimestamp - clock.slot * (2 / 5)) (2 / 5)) := by
  rintro ⟨slot, -, hready, hfresh⟩
  simp only [isReady, isFresh, decide_eq_true_eq, maxApplyAgeSlots] at hready hfresh
  have hslot : (slot : ℝ) ≤ clock.slot + 215999 := by exact_mod_cast (by omega : slot ≤ clock.slot + 215999)
  have hearly : slotClock (clock.unixTimestamp - clock.slot * (2 / 5)) (2 / 5) slot <
      clock.unixTimestamp + 86400 := by
    refine Int.floor_lt.mpr ?_
    push_cast
    linarith
  omega

theorem slotClock_now (clock : Clock) :
    slotClock (clock.unixTimestamp - clock.slot * (2 / 5)) (2 / 5) clock.slot = clock.unixTimestamp := by
  simp [slotClock]

theorem alive_iff :
    Alive clock ⟨clock.unixTimestamp, clock.unixTimestamp + d, clock.slot⟩ ↔ d ≤ 86399 := by
  refine ⟨fun h => ?_, alive_of_le⟩
  by_contra hd
  exact not_canApply clock (by omega) (h _ _ le_rfl (by norm_num) (slotClock_now clock))

end

/-- An update that is queued stays applicable at every slot duration iff the timelock of the policy, read as a
signed number, is less than a day. -/
theorem queued_alive_iff {w w' : World} {ctx : Ctx} {i : Instruction} {u : Update} {v : Pubkey}
    (hqueue : i.queues = some (u, v)) (h : i.exec ctx w = .ok w') :
    ∃ policy t, w.policies v = some policy ∧ w'.pendingTimes u = some t ∧
      (Alive ctx.clock t ↔ asI64 policy.timelockDuration ≤ 86399) := by
  obtain ⟨policy, hp, ht⟩ := queue_pendingTimes hqueue h
  exact ⟨policy, _, hp, ht, alive_iff⟩

theorem queued_alive_minimum : ∃ w w' policy t,
    run Step.exec ((queueRun 1800).take 1) {} = .ok w ∧
    (Instruction.queuePolicyUpdate timelockAction {}).exec
      { clock := { unixTimestamp := 1000, slot := 0 }, signers := [.key 1] } w = .ok w' ∧
    w.policies timelockAction.vault = some policy ∧ policy.timelockDuration = 1800 ∧
    w'.pendingTimes (.policy timelockAction.vault) = some t ∧
    Alive { unixTimestamp := 1000, slot := 0 } t := by
  obtain ⟨w, hrun⟩ : ∃ w, run Step.exec ((queueRun 1800).take 1) {} = .ok w := ⟨_, rfl⟩
  obtain ⟨w', hexec⟩ : ∃ w', (Instruction.queuePolicyUpdate timelockAction {}).exec
      { clock := { unixTimestamp := 1000, slot := 0 }, signers := [.key 1] } w = .ok w' := by
    cases hrun
    exact ⟨_, rfl⟩
  obtain ⟨policy, t, hp, ht, hiff⟩ := queued_alive_iff rfl hexec
  have htimelock : policy.timelockDuration = 1800 := by
    cases hrun
    cases hp
    rfl
  exact ⟨w, w', policy, t, hrun, hexec, hp, htimelock, ht, hiff.mpr (by rw [htimelock]; decide)⟩

/-- The production preset of one day, at 400 ms a slot: the update is stale before it is ready. -/
theorem queued_update_dead : ∃ w t, run Step.exec (queueRun 86400) {} = .ok w ∧
    w.pendingTimes (.policy timelockAction.vault) = some t ∧
    slotClock 1000 (2 / 5) t.queuedAtSlot = t.queuedAt ∧ ¬ CanApply t (slotClock 1000 (2 / 5)) := by
  refine ⟨_, ⟨1000, 87400, 0⟩, rfl, rfl, ?_, ?_⟩
  · simpa using slotClock_now { unixTimestamp := 1000, slot := 0 }
  · simpa using not_canApply { unixTimestamp := 1000, slot := 0 } (d := 86400) le_rfl

end Sigil
