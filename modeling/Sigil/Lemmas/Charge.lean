import Sigil.Lemmas.Overlay
import Sigil.Lemmas.Tracker

/-!
# What a charge writes
-/

namespace Sigil

open Library

/-! ## The tracker -/

/-- What is recorded for the current epoch. -/
def SpendTracker.current (tracker : SpendTracker) (clock : Clock) : Nat :=
  let bucket := tracker.buckets (bucketIndex (epochOf clock))
  if bucket.epochId = epochOf clock then bucket.usdAmount else 0

/-- The current epoch has `x` more, and the other buckets are what they were. -/
structure SpendTracker.Recorded (clock : Clock) (x : Nat) (tracker tracker' : SpendTracker) : Prop where
  bucket : tracker'.buckets (bucketIndex (epochOf clock)) = ⟨epochOf clock, tracker.current clock + x⟩
  others : ∀ j ≠ bucketIndex (epochOf clock), tracker'.buckets j = tracker.buckets j
  lastWriteEpoch : tracker'.lastWriteEpoch = epochOf clock

/-! ## The overlay -/

/-- What the slot holds once the hours since its last write are cleared. -/
def AgentSpendOverlay.cleared (overlay : AgentSpendOverlay) (clock : Clock) (slot : Fin maxOverlayEntries) :
    Fin overlayNumEpochs → Nat :=
  (zeroGapBuckets (overlay.entries slot) (overlayEpochOf clock)).contributions

/-- The current hour of a slot has `x` more, and the other slots are what they were. -/
structure AgentSpendOverlay.Contributed (clock : Clock) (slot : Fin maxOverlayEntries) (x : Nat)
    (overlay overlay' : AgentSpendOverlay) : Prop where
  agent : (overlay'.entries slot).agent = (overlay.entries slot).agent
  contributions : (overlay'.entries slot).contributions = Function.update (overlay.cleared clock slot)
    (overlayIndex (overlayEpochOf clock)) (overlay.cleared clock slot (overlayIndex (overlayEpochOf clock)) + x)
  lastWriteEpoch : (overlay'.entries slot).lastWriteEpoch = overlayEpochOf clock
  others : ∀ j ≠ slot, overlay'.entries j = overlay.entries j

/-- The lifetime counters of a slot count one operation of `x` more. -/
structure AgentSpendOverlay.CountsOne (slot : Fin maxOverlayEntries) (x : Nat) (overlay overlay' : AgentSpendOverlay) :
    Prop where
  spend : overlay'.lifetimeSpend = Function.update overlay.lifetimeSpend slot (overlay.lifetimeSpend slot + x)
  count : overlay'.lifetimeTxCount = Function.update overlay.lifetimeTxCount slot (overlay.lifetimeTxCount slot + 1)

structure AgentSpendOverlay.KeepsLifetime (overlay overlay' : AgentSpendOverlay) : Prop where
  spend : overlay'.lifetimeSpend = overlay.lifetimeSpend
  count : overlay'.lifetimeTxCount = overlay.lifetimeTxCount

/-- An agent without a slot has no limit and leaves no trace. -/
structure AgentCharged (vault : AgentVault) (clock : Clock) (agent : Pubkey) (x : Nat)
    (overlay overlay' : AgentSpendOverlay) : Prop where
  slot : ∀ i, overlay.findAgentSlot agent = some i → overlay.Contributed clock i x overlay'
  limit : ∀ e, vault.getAgent agent = some e → 0 < e.spendingLimitUsd →
    ∃ i, overlay.findAgentSlot agent = some i ∧
      overlay.getAgentRolling24hUsd clock i + x ≤ e.spendingLimitUsd
  free : overlay.findAgentSlot agent = none → overlay' = overlay

/-! ## The counter of a protocol -/

/-- One counter, which is the protocol's, has `x` more. -/
structure ProtocolCharged (policy : PolicyConfig) (clock : Clock) (p : Pubkey) (x : Nat)
    (tracker tracker' : SpendTracker) : Prop where
  spend : tracker'.getProtocolSpend clock p = tracker.getProtocolSpend clock p + x
  cap : ∀ cap, policy.getProtocolCap p = some cap → 0 < cap → tracker.getProtocolSpend clock p + x ≤ cap
  others : ∃ i, (tracker'.protocolCounters i).protocol = p ∧
    ∀ j ≠ i, tracker'.protocolCounters j = tracker.protocolCounters j

section
variable {w w' : World} {clock : Clock} {v agent p : Pubkey} {vault : AgentVault} {policy : PolicyConfig}
  {tracker tracker' : SpendTracker} {overlay overlay' : AgentSpendOverlay} {slot : Fin maxOverlayEntries} {x : Nat}

theorem Charged.recorded_current (h : Charged policy clock x tracker tracker') : tracker.Recorded clock x tracker' := by
  obtain ⟨t, hrecord, hbuckets, hlast⟩ := h.recorded
  obtain ⟨-, bucket, rfl, -, rfl⟩ := SpendTracker.recordSpend_ok hrecord
  dsimp only at hbuckets hlast
  constructor
  case bucket =>
    rw [hbuckets, Function.update_self, SpendTracker.current]
    split
    · rename_i hepoch
      rw [hepoch]
    · rfl
  case others =>
    intro j hj
    rw [hbuckets, Function.update_of_ne hj]
  case lastWriteEpoch => exact hlast

theorem AgentSpendOverlay.recordAgentContribution_spec
    (h : overlay.recordAgentContribution clock slot x = .ok overlay') :
    overlay.Contributed clock slot x overlay' ∧ overlay.KeepsLifetime overlay' := by
  simp only [recordAgentContribution, bind_eq_ok, okOr_eq_ok, checkedAdd_eq_some, pure_eq_ok] at h
  obtain ⟨_, ⟨-, rfl⟩, rfl⟩ := h
  refine ⟨?_, rfl, rfl⟩
  constructor
  case agent => exact (congrArg _ (Function.update_self ..)).trans (AgentSpendOverlay.zeroGapBuckets_agent _ _)
  case contributions => simp [cleared]
  case lastWriteEpoch => simp
  case others =>
    intro j hj
    exact Function.update_of_ne hj ..

theorem checkAgentLimit_ok {e : AgentEntry} (h : checkAgentLimit e overlay clock slot x = .ok ())
    (hpos : 0 < e.spendingLimitUsd) : overlay.getAgentRolling24hUsd clock slot + x ≤ e.spendingLimitUsd := by
  rw [checkAgentLimit, if_pos hpos] at h
  simp only [bind_eq_ok, okOr_eq_ok, checkedAdd_eq_some, require_eq_ok] at h
  obtain ⟨_, ⟨-, rfl⟩, hle⟩ := h
  exact hle

theorem addLifetime_spec (h : addLifetime overlay slot x = .ok overlay') :
    overlay.CountsOne slot x overlay' ∧ overlay'.entries = overlay.entries := by
  simp only [addLifetime, bind_eq_ok, okOr_eq_ok, checkedAdd_eq_some, pure_eq_ok] at h
  obtain ⟨_, ⟨-, rfl⟩, _, ⟨-, rfl⟩, rfl⟩ := h
  exact ⟨⟨rfl, rfl⟩, rfl⟩

/-- Only the charge of a session counts for the lifetime of its agent. -/
theorem chargeAgent_spec {lifetime : Bool} (h : chargeAgent vault overlay clock agent x lifetime = .ok overlay') :
    AgentCharged vault clock agent x overlay overlay' ∧
      if lifetime then ∀ i, overlay.findAgentSlot agent = some i → overlay.CountsOne i x overlay'
      else overlay.KeepsLifetime overlay' := by
  simp only [chargeAgent, bind_eq_ok, okOr_eq_ok] at h
  obtain ⟨e, he, h⟩ := h
  split at h
  · rename_i i hslot
    simp only [bind_eq_ok] at h
    obtain ⟨_, hlimit, overlay₁, hrecord, h⟩ := h
    obtain ⟨hcontributed, hkept⟩ := AgentSpendOverlay.recordAgentContribution_spec hrecord
    have hcharged : ∀ overlay₂ : AgentSpendOverlay, overlay₂.entries = overlay₁.entries →
        AgentCharged vault clock agent x overlay overlay₂ := by
      intro overlay₂ hentries
      constructor
      case slot =>
        intro j hj
        cases hslot.symm.trans hj
        constructor <;> rw [hentries]
        · exact hcontributed.agent
        · exact hcontributed.contributions
        · exact hcontributed.lastWriteEpoch
        · exact hcontributed.others
      case limit =>
        intro e' he' hpos
        cases he.symm.trans he'
        exact ⟨i, hslot, checkAgentLimit_ok hlimit hpos⟩
      case free =>
        intro hnone
        cases hslot.symm.trans hnone
    cases lifetime with
    | true =>
        obtain ⟨hcount, hentries⟩ := addLifetime_spec h
        refine ⟨hcharged _ hentries, ?_⟩
        intro j hj
        cases hslot.symm.trans hj
        exact ⟨by rw [hcount.spend, hkept.spend], by rw [hcount.count, hkept.count]⟩
    | false =>
        obtain rfl := pure_eq_ok.mp h
        exact ⟨hcharged _ rfl, hkept⟩
  · rename_i hnone
    simp only [bind_eq_ok, require_eq_ok, exists_and_left, exists_const, pure_eq_ok] at h
    obtain ⟨hlimit, rfl⟩ := h
    constructor
    · constructor
      case slot =>
        intro i hi
        cases hnone.symm.trans hi
      case limit =>
        intro e' he' hpos
        cases he.symm.trans he'
        omega
      case free => exact fun _ => rfl
    · cases lifetime with
      | true =>
          intro i hi
          cases hnone.symm.trans hi
      | false => exact ⟨rfl, rfl⟩

end

end Sigil
