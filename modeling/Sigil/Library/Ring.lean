import Sigil.Library.EpochLog
import Mathlib.Algebra.Order.BigOperators.Group.Finset

/-!
# Rings that forget by clearing

A ring of `N` cells with the epoch that was written last. Before an epoch is written, the cells of the epochs
since the last write are cleared, so the ring always mirrors the last `N` epochs of the log.
-/

namespace Sigil.Library

variable {N : Nat} [NeZero N]

/-- The cell of an epoch. -/
def cellOf (N : Nat) [NeZero N] (e : Int) : Fin N := Fin.ofNat N (e % N).toNat

theorem cellOf_val (e : Int) : ((cellOf N e : Fin N) : Int) = e % N := by
  have hN : (0 : Int) < N := by exact_mod_cast Nat.pos_of_ne_zero (NeZero.ne N)
  have hlow := Int.emod_nonneg e hN.ne'
  have hhigh := Int.emod_lt_of_pos e hN
  rw [cellOf, Fin.val_ofNat, Nat.mod_eq_of_lt (by omega), Int.toNat_of_nonneg hlow]

theorem cellOf_eq_iff {a b : Int} : cellOf N a = cellOf N b ↔ a % N = b % N := by
  rw [Fin.ext_iff, ← cellOf_val, ← cellOf_val]
  exact Int.natCast_inj.symm

/-- Two different epochs of one cell are at least `N` apart. -/
theorem cellOf_ne {a b : Int} (hlt : a < b) (hnear : b < a + N) : cellOf N a ≠ cellOf N b := by
  intro heq
  rcases EpochLog.eq_or_far (cellOf_eq_iff.mp heq) with h | h | h <;> omega

/-- Cells of `n` epochs after `last` are cleared. -/
def clearAfter (last : Int) (n : Nat) (c : Fin N → Nat) : Fin N → Nat :=
  (List.range n).foldl (fun c (k : Nat) => Function.update c (cellOf N (last + k + 1)) 0) c

theorem clearAfter_succ (last : Int) (n : Nat) (c : Fin N → Nat) :
    clearAfter last (n + 1) c = Function.update (clearAfter last n c) (cellOf N (last + n + 1)) 0 := by
  simp [clearAfter, List.range_succ]

theorem clearAfter_cleared {last e : Int} {n : Nat} (c : Fin N → Nat) (hlt : last < e) (hle : e ≤ last + n) :
    clearAfter last n c (cellOf N e) = 0 := by
  induction n with
  | zero => omega
  | succ n ih =>
      rw [clearAfter_succ]
      rcases eq_or_ne (cellOf N e) (cellOf N (last + n + 1)) with heq | hne
      · rw [heq, Function.update_self]
      · rw [Function.update_of_ne hne]
        refine ih ?_
        by_contra hnot
        exact hne (congrArg _ (by omega))

theorem clearAfter_kept {last e : Int} {n : Nat} (c : Fin N → Nat) (hle : e ≤ last) (hnear : last + n < e + N) :
    clearAfter last n c (cellOf N e) = c (cellOf N e) := by
  induction n with
  | zero => rfl
  | succ n ih =>
      rw [clearAfter_succ, Function.update_of_ne (cellOf_ne (by omega) (by omega)), ih (by omega)]

/-- The ring holds what the log holds for the last `N` epochs, and the log holds nothing later. -/
structure Mirrors (l : EpochLog) (last : Int) (c : Fin N → Nat) : Prop where
  cells : ∀ k : Nat, k < N → c (cellOf N (last - k)) = l.total (last - k)
  newest : ∀ e ∈ l.epochs, e ≤ last

namespace Mirrors

variable {l : EpochLog} {last e : Int} {c : Fin N → Nat}

theorem empty (last : Int) : Mirrors [] last (fun _ : Fin N => 0) := ⟨fun _ _ => rfl, by simp [EpochLog.epochs]⟩

theorem total_later (h : Mirrors l last c) (hlt : last < e) : l.total e = 0 :=
  EpochLog.total_eq_zero fun he => absurd (h.newest e he) (by omega)

/-- All of the ring is too old. -/
theorem reset (h : Mirrors l last c) (hfar : last + N ≤ e) : Mirrors l e (fun _ : Fin N => 0) := by
  refine ⟨fun k hk => (h.total_later (by omega)).symm, fun k hk => ?_⟩
  have := h.newest k hk
  omega

/-- The cells of the epochs since the last write are cleared. -/
theorem clear (h : Mirrors l last c) (n : Nat) : Mirrors l (last + n) (clearAfter last n c) := by
  refine ⟨fun k hk => ?_, fun k hk => ?_⟩
  · rcases lt_or_ge k n with hlt | hge
    · rw [clearAfter_cleared c (by omega) (by omega), h.total_later (by omega)]
    · rw [clearAfter_kept c (by omega) (by omega), show last + n - k = last - (k - n : Nat) by omega,
        h.cells (k - n) (by omega)]
  · have := h.newest k hk
    omega

/-- An amount is recorded in the newest epoch. -/
theorem record (h : Mirrors l last c) (x : Nat) :
    Mirrors ((last, x) :: l) last (Function.update c (cellOf N last) (c (cellOf N last) + x)) := by
  refine ⟨fun k hk => ?_, fun k hk => ?_⟩
  · rw [EpochLog.total_cons]
    rcases Nat.eq_zero_or_pos k with rfl | hpos
    · have hcell := h.cells 0 hk
      simp only [Nat.cast_zero, sub_zero] at hcell ⊢
      rw [Function.update_self, if_pos trivial, hcell, Nat.add_comm]
    · rw [Function.update_of_ne (cellOf_ne (by omega) (by omega)), if_neg (by dsimp only; omega), zero_add,
        h.cells k hk]
  · rcases List.mem_cons.mp hk with rfl | hk
    · exact le_rfl
    · exact h.newest k hk

/-- What the log holds for the last `N` epochs before `e` is found in the ring, from the last write backwards. -/
theorem windowTotal_le (h : Mirrors l last c) (hle : last ≤ e) :
    l.windowTotal (e - N + 1) e ≤ ∑ k ∈ Finset.range N, if e < last - k + N then l.total (last - k) else 0 := by
  rcases le_or_gt (last + N) e with hfar | hnear
  · rw [EpochLog.windowTotal_eq_zero fun k hk hmem => absurd (h.newest k hmem) (by omega)]
    exact Nat.zero_le _
  · obtain ⟨n, hn⟩ : ∃ n : Nat, last - n = e - N + 1 := ⟨(last + N - 1 - e).toNat, by omega⟩
    calc l.windowTotal (e - N + 1) e
        ≤ l.windowTotal (last - n) last :=
          EpochLog.windowTotal_le fun k hk hlow _ => ⟨by omega, h.newest k hk⟩
      _ = ∑ k ∈ Finset.range (n + 1), l.total (last - k) := EpochLog.windowTotal_eq_sum l last n
      _ = ∑ k ∈ Finset.range (n + 1), if e < last - k + N then l.total (last - k) else 0 := by
          refine Finset.sum_congr rfl fun k hk => ?_
          have := Finset.mem_range.mp hk
          rw [if_pos (by omega)]
      _ ≤ ∑ k ∈ Finset.range N, if e < last - k + N then l.total (last - k) else 0 :=
          Finset.sum_le_sum_of_subset (Finset.range_subset_range.mpr (by omega))

end Mirrors

end Sigil.Library
