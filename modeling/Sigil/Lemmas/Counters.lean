import Sigil.Library.Slots
import Sigil.Theorems.Attribution

/-!
# Counters of the protocols

A protocol that is counted for the first time takes a counter, and keeps it as long as the tracker lives. A counter
that nobody has taken holds the zero address.
-/

namespace Sigil

open Library

namespace SpendTracker

variable {tracker tracker' : SpendTracker} {clock : Clock} {p q : Pubkey} {x : Nat} {i : Fin maxAllowedProtocols}
  {ps : List Pubkey}

def counterKeys (tracker : SpendTracker) (i : Fin maxAllowedProtocols) : Pubkey := (tracker.protocolCounters i).protocol

/-- Nothing of the charge depends on a missing counter. -/
def Available (tracker : SpendTracker) (p : Pubkey) : Prop :=
  ∀ clock x, tracker.recordProtocolSpend clock p x ≠ .error SigilError.protocolCapExceeded

/-- The protocols that were counted, each with a counter of its own. -/
structure Counts (tracker : SpendTracker) (ps : List Pubkey) : Prop where
  tracks : Tracks Pubkey.default tracker.counterKeys ps
  counted : ∀ p ∈ ps, ∃ i, tracker.counterKeys i = p
  empty : ∀ i, tracker.counterKeys i = .default → (tracker.protocolCounters i).windowSpend = 0

theorem counts_empty : Counts {} [] := ⟨Tracks.empty, by simp, fun _ _ => rfl⟩

theorem Counts.congr (h : tracker.Counts ps) (heq : tracker'.protocolCounters = tracker.protocolCounters) :
    tracker'.Counts ps := by
  have hkeys : tracker'.counterKeys = tracker.counterKeys := by
    unfold counterKeys
    rw [heq]
  exact ⟨hkeys ▸ h.tracks, hkeys ▸ h.counted, hkeys ▸ heq ▸ h.empty⟩

/-! ## Finding a counter -/

theorem findCounter_eq_none : tracker.findCounter (fun c => c.protocol = p) = none ↔
    ∀ i, tracker.counterKeys i ≠ p := by
  simp [findCounter, counterKeys]

theorem findCounter_key (h : tracker.findCounter (fun c => c.protocol = p) = some i) : tracker.counterKeys i = p :=
  of_decide_eq_true (findCounter_some h)

theorem findCounter_isSome : (tracker.findCounter (fun c => c.protocol = p)).isSome ↔
    ∃ i, tracker.counterKeys i = p := by
  rw [Option.isSome_iff_ne_none, Ne, findCounter_eq_none]
  push Not
  rfl

/-- A charge lacks a counter when its protocol has none and none is free. -/
theorem available_iff_exists :
    tracker.Available p ↔ (∃ i, tracker.counterKeys i = p) ∨ ∃ i, tracker.counterKeys i = .default := by
  rw [← findCounter_isSome, ← findCounter_isSome]
  constructor
  · intro h
    by_contra hnone
    simp only [not_or, Option.not_isSome_iff_eq_none] at hnone
    refine h { unixTimestamp := 1, slot := 0 } 0 ?_
    simp [recordProtocolSpend, require, hnone.1, hnone.2, okOr, bind, Except.bind]
  · intro h clock x herror
    have havoids : Avoids (· = ProgramError.sigil .protocolCapExceeded) (tracker.recordProtocolSpend clock p x) := by
      unfold recordProtocolSpend
      refine avoids_bind.mpr ⟨by simp, fun _ _ => ?_⟩
      split
      · dsimp only
        split
        · simp
        · simp
      · rename_i hnone
        simp [hnone] at h
        simp [h]
    simpa using havoids _ herror

theorem Counts.mem_iff (h : tracker.Counts ps) (hp : p ≠ .default) : p ∈ ps ↔ ∃ i, tracker.counterKeys i = p := by
  refine ⟨h.counted p, ?_⟩
  rintro ⟨i, rfl⟩
  exact h.tracks.registered i hp

theorem Counts.available_iff (h : tracker.Counts ps) :
    tracker.Available p ↔ p ∈ ps ∨ ps.length < maxAllowedProtocols := by
  rw [available_iff_exists, h.tracks.exists_free_iff h.counted]
  rcases eq_or_ne p .default with rfl | hp
  · rw [h.tracks.exists_free_iff h.counted]
    simp [h.tracks.free_notMem]
  · rw [h.mem_iff hp]

/-! ## Counting -/

/-- The zero address stands for no protocol, so nothing is read for it. -/
theorem spend_default (h : ∀ i, tracker.counterKeys i = .default → (tracker.protocolCounters i).windowSpend = 0) :
    tracker.getProtocolSpend clock .default = 0 := by
  unfold getProtocolSpend
  split
  · rfl
  · split
    · rfl
    · rename_i i hfind
      simp [h i (findCounter_key hfind)]

/-- What is read for a protocol depends on its first counter only. -/
theorem getProtocolSpend_of_kept (hkeys : ∀ j, tracker'.counterKeys j = q ↔ tracker.counterKeys j = q)
    (hkept : ∀ j, tracker.counterKeys j = q → tracker'.protocolCounters j = tracker.protocolCounters j) :
    tracker'.getProtocolSpend clock q = tracker.getProtocolSpend clock q := by
  have hfind : tracker'.findCounter (fun c => c.protocol = q) = tracker.findCounter (fun c => c.protocol = q) :=
    findCounter_congr fun j => decide_eq_decide.mpr (hkeys j)
  unfold getProtocolSpend
  rw [hfind]
  cases hj : tracker.findCounter (fun c => c.protocol = q) with
  | none => rfl
  | some j => simp only [hkept j (findCounter_key hj)]

/-- What a record does to the counters: the protocol's own one, or else a free one, is written. -/
theorem recordProtocolSpend_cases (h : tracker.recordProtocolSpend clock p x = .ok tracker') :
    ∃ i counter, tracker' = tracker.setCounter i counter ∧ counter.protocol = p ∧
      (tracker.counterKeys i = p ∨ tracker.counterKeys i = .default ∧ ∀ j, tracker.counterKeys j ≠ p) := by
  simp only [recordProtocolSpend, bind_eq_ok] at h
  obtain ⟨_, -, h⟩ := h
  split at h
  · rename_i i hfind
    have hkey := findCounter_key hfind
    split at h
    · obtain rfl := pure_eq_ok.mp h
      exact ⟨i, _, rfl, hkey, .inl hkey⟩
    · simp only [bind_eq_ok, pure_eq_ok] at h
      obtain ⟨_, -, rfl⟩ := h
      exact ⟨i, _, rfl, hkey, .inl hkey⟩
  · rename_i hnone
    simp only [bind_eq_ok, okOr_eq_ok, pure_eq_ok] at h
    obtain ⟨i, hfree, rfl⟩ := h
    exact ⟨i, _, rfl, rfl, .inr ⟨findCounter_key hfree, findCounter_eq_none.mp hnone⟩⟩

theorem counterKeys_setCounter (i : Fin maxAllowedProtocols) (counter : ProtocolSpendCounter) :
    (tracker.setCounter i counter).counterKeys = Function.update tracker.counterKeys i counter.protocol := by
  funext j
  unfold counterKeys setCounter
  rcases eq_or_ne j i with rfl | hne
  · simp
  · simp [Function.update_of_ne hne]

theorem protocolCounters_setCounter_of_ne {j : Fin maxAllowedProtocols} {counter : ProtocolSpendCounter} (hne : j ≠ i) :
    (tracker.setCounter i counter).protocolCounters j = tracker.protocolCounters j := Function.update_of_ne hne ..

/-- A record for one protocol changes nothing that is read for another. -/
theorem Counts.spend_other (h : tracker.Counts ps) (hrecord : tracker.recordProtocolSpend clock p x = .ok tracker')
    (hne : q ≠ p) (now : Clock) : tracker'.getProtocolSpend now q = tracker.getProtocolSpend now q := by
  obtain ⟨i, counter, rfl, rfl, hi⟩ := recordProtocolSpend_cases hrecord
  have hkey : ∀ j, j ≠ i → (tracker.setCounter i counter).counterKeys j = tracker.counterKeys j :=
    fun j hj => by rw [counterKeys_setCounter, Function.update_of_ne hj]
  have hself : (tracker.setCounter i counter).counterKeys i = counter.protocol := by
    rw [counterKeys_setCounter, Function.update_self]
  by_cases hq : tracker.counterKeys i = q
  · -- only a free counter is taken from `q`, which then is the zero address
    obtain ⟨hfree, -⟩ : tracker.counterKeys i = .default ∧ ∀ j, tracker.counterKeys j ≠ counter.protocol :=
      hi.resolve_left fun heq => hne (hq.symm.trans heq)
    obtain rfl : Pubkey.default = q := hfree.symm.trans hq
    rw [spend_default h.empty]
    refine spend_default fun j hj => ?_
    have hji : j ≠ i := by
      rintro rfl
      exact hne (hj.symm.trans hself)
    rw [protocolCounters_setCounter_of_ne hji]
    exact h.empty j ((hkey j hji).symm.trans hj)
  · refine getProtocolSpend_of_kept (fun j => ?_) fun j hj => ?_
    · rcases eq_or_ne j i with rfl | hj
      · rw [hself]
        exact iff_of_false hne.symm hq
      · rw [hkey j hj]
    · refine protocolCounters_setCounter_of_ne ?_
      rintro rfl
      exact hq hj

/-- The protocols counted after a record for `p`. -/
def countedWith (ps : List Pubkey) (p : Pubkey) : List Pubkey := if p ∈ ps then ps else ps ++ [p]

theorem Counts.record (h : tracker.Counts ps) (hp : p ≠ .default)
    (hrecord : tracker.recordProtocolSpend clock p x = .ok tracker') : tracker'.Counts (countedWith ps p) := by
  obtain ⟨i, counter, rfl, rfl, hi⟩ := recordProtocolSpend_cases hrecord
  have hempty : ∀ j, (tracker.setCounter i counter).counterKeys j = .default →
      ((tracker.setCounter i counter).protocolCounters j).windowSpend = 0 := by
    intro j hj
    rw [counterKeys_setCounter] at hj
    have hji : j ≠ i := by
      rintro rfl
      rw [Function.update_self] at hj
      exact hp hj
    rw [Function.update_of_ne hji] at hj
    rw [protocolCounters_setCounter_of_ne hji]
    exact h.empty j hj
  rcases hi with hkey | ⟨hfree, hnew⟩
  · have hmem : counter.protocol ∈ ps := (h.mem_iff hp).mpr ⟨i, hkey⟩
    have hkeys : (tracker.setCounter i counter).counterKeys = tracker.counterKeys := by
      rw [counterKeys_setCounter, ← hkey, Function.update_eq_self]
    rw [countedWith, if_pos hmem]
    exact ⟨hkeys ▸ h.tracks, hkeys ▸ h.counted, hempty⟩
  · have hnot : counter.protocol ∉ ps := fun hmem => by
      obtain ⟨j, hj⟩ := h.counted _ hmem
      exact hnew j hj
    rw [countedWith, if_neg hnot]
    refine ⟨?_, fun q hq => ?_, hempty⟩
    · rw [counterKeys_setCounter]
      exact (h.tracks.add hnot hp).claim hfree (by simp) hnew
    · rw [counterKeys_setCounter]
      rcases List.mem_append.mp hq with hq | hq
      · obtain ⟨j, hj⟩ := h.counted q hq
        have hji : j ≠ i := by
          rintro rfl
          exact h.tracks.free_notMem (hfree ▸ hj ▸ hq)
        exact ⟨j, by rw [Function.update_of_ne hji, hj]⟩
      · exact ⟨i, by rw [Function.update_self, List.mem_singleton.mp hq]⟩

end SpendTracker

end Sigil
