import Mathlib.Algebra.BigOperators.Group.Finset.Piecewise
import Mathlib.Algebra.BigOperators.Group.List.Basic
import Mathlib.Data.Fintype.Fin
import Mathlib.Data.Int.ModEq
import Mathlib.Tactic.Linarith

/-!
# Amounts recorded by epoch, and rings that remember them

A log lists epoch-stamped amounts, newest first. A ring of `N` cells keeps, in the cell of a residue,
the newest epoch of that residue and what the log holds for it. The last `N` epochs always survive in
such a ring; the epoch `N` before the current one survives until something is recorded now.
-/

namespace Sigil.Library

/-- Epoch-stamped amounts, newest first. -/
abbrev EpochLog := List (Int × Nat)

namespace EpochLog

/-- What the log holds for one epoch. -/
def total (l : EpochLog) (e : Int) : Nat := ((l.filter fun r => r.1 = e).map Prod.snd).sum

def epochs (l : EpochLog) : List Int := l.map Prod.fst

/-- Epochs never decrease from a record to a later one. -/
def Chronological (l : EpochLog) : Prop := l.Pairwise fun r s => s.1 ≤ r.1

/-- Newest epoch of the log with a given residue. -/
def newest (N : Nat) (l : EpochLog) (i : Int) : Option Int := l.epochs.find? fun e => e % N = i

/-- What the log holds for the epochs `a .. b`. -/
def windowTotal (l : EpochLog) (a b : Int) : Nat :=
  ((l.filter fun r => a ≤ r.1 ∧ r.1 ≤ b).map Prod.snd).sum

/-! ## Totals -/

@[simp] theorem total_nil (e : Int) : total [] e = 0 := rfl

theorem total_cons (r : Int × Nat) (l : EpochLog) (e : Int) :
    total (r :: l) e = (if r.1 = e then r.2 else 0) + total l e := by
  by_cases h : r.1 = e <;> simp [total, h]

theorem total_eq_zero {l : EpochLog} {e : Int} (h : e ∉ l.epochs) : l.total e = 0 := by
  induction l with
  | nil => rfl
  | cons r l ih =>
      simp only [epochs, List.map_cons, List.mem_cons, not_or] at h
      rw [total_cons, if_neg (Ne.symm h.1), ih h.2]

@[simp] theorem windowTotal_nil (a b : Int) : windowTotal [] a b = 0 := rfl

theorem windowTotal_cons (r : Int × Nat) (l : EpochLog) (a b : Int) :
    windowTotal (r :: l) a b = (if a ≤ r.1 ∧ r.1 ≤ b then r.2 else 0) + windowTotal l a b := by
  by_cases h : a ≤ r.1 ∧ r.1 ≤ b <;> simp [windowTotal, h]

theorem windowTotal_append (l l' : EpochLog) (a b : Int) :
    (l ++ l').windowTotal a b = l.windowTotal a b + l'.windowTotal a b := by
  simp [windowTotal]

/-- A window holds no more than another one that has every recorded epoch of it. -/
theorem windowTotal_le {l : EpochLog} {a a' b b' : Int}
    (h : ∀ e ∈ l.epochs, a ≤ e → e ≤ b → a' ≤ e ∧ e ≤ b') :
    l.windowTotal a b ≤ l.windowTotal a' b' := by
  induction l with
  | nil => exact le_rfl
  | cons r l ih =>
      have htail := ih fun e he => h e (List.mem_cons_of_mem _ he)
      rw [windowTotal_cons, windowTotal_cons]
      by_cases hr : a ≤ r.1 ∧ r.1 ≤ b
      · rw [if_pos hr, if_pos (h r.1 List.mem_cons_self hr.1 hr.2)]
        omega
      · rw [if_neg hr]
        omega

theorem windowTotal_mono {l : EpochLog} {a a' b b' : Int} (ha : a' ≤ a) (hb : b ≤ b') :
    l.windowTotal a b ≤ l.windowTotal a' b' :=
  windowTotal_le fun _ _ h₁ h₂ => ⟨ha.trans h₁, h₂.trans hb⟩

theorem windowTotal_eq_zero {l : EpochLog} {a b : Int} (h : ∀ k, a ≤ k → k ∉ l.epochs) :
    l.windowTotal a b = 0 := by
  -- nothing recorded lies in the window, so the empty window covers it
  have hempty : l.windowTotal (b + 1) b = 0 := by
    have hnone : l.filter (fun r => b + 1 ≤ r.1 ∧ r.1 ≤ b) = [] :=
      List.filter_eq_nil_iff.mpr fun r _ => by rw [decide_eq_true_eq]; omega
    rw [windowTotal, hnone, List.map_nil, List.sum_nil]
  have hle : l.windowTotal a b ≤ l.windowTotal (b + 1) b :=
    windowTotal_le fun e he ha _ => absurd he (h e ha)
  omega

/-- A window, epoch by epoch. -/
theorem windowTotal_eq_sum (l : EpochLog) (e : Int) (n : Nat) :
    l.windowTotal (e - n) e = ∑ j ∈ Finset.range (n + 1), l.total (e - j) := by
  induction l with
  | nil => simp
  | cons r l ih =>
      simp only [windowTotal_cons, total_cons, Finset.sum_add_distrib, ih]
      congr 1
      by_cases h : e - n ≤ r.1 ∧ r.1 ≤ e
      · have hidx : ∀ j : Nat, r.1 = e - j ↔ (e - r.1).toNat = j := by omega
        simp only [h, hidx, and_self, if_true, Finset.sum_ite_eq, Finset.mem_range]
        rw [if_pos (by omega)]
      · rw [if_neg h, Finset.sum_eq_zero]
        intro j hj
        have := Finset.mem_range.mp hj
        rw [if_neg (by omega)]

/-! ## Chronological logs -/

theorem Chronological.le_head {r : Int × Nat} {l : EpochLog} (h : Chronological (r :: l)) {e : Int}
    (he : e ∈ epochs l) : e ≤ r.1 := by
  obtain ⟨s, hs, rfl⟩ := List.mem_map.mp he
  exact (List.pairwise_cons.mp h).1 s hs

theorem Chronological.tail {r : Int × Nat} {l : EpochLog} (h : Chronological (r :: l)) :
    Chronological l := (List.pairwise_cons.mp h).2

theorem Chronological.cons {r : Int × Nat} {l : EpochLog} (h : Chronological l)
    (hr : ∀ e ∈ epochs l, e ≤ r.1) : Chronological (r :: l) :=
  List.pairwise_cons.mpr ⟨fun _ hs => hr _ (List.mem_map_of_mem hs), h⟩

/-- Beyond the newest record there is nothing, so a window may stop there. -/
theorem windowTotal_le_head {r : Int × Nat} {l : EpochLog} (h : Chronological (r :: l)) (a b : Int) :
    windowTotal (r :: l) a b ≤ windowTotal (r :: l) a r.1 := by
  refine windowTotal_le fun e he ha _ => ⟨ha, ?_⟩
  rcases List.mem_cons.mp he with rfl | he
  · exact le_rfl
  · exact h.le_head he

/-- Windows of one length stay within a bound if the window that ends with the new record does. -/
theorem windowTotal_cons_le {r : Int × Nat} {l : EpochLog} {n : Int} {bound : Nat} (h : Chronological (r :: l))
    (hn : 0 ≤ n) (hbefore : ∀ e, windowTotal l (e - n) e ≤ bound) (hnow : r.2 + windowTotal l (r.1 - n) r.1 ≤ bound)
    (e : Int) : windowTotal (r :: l) (e - n) e ≤ bound := by
  rcases lt_or_ge e r.1 with hlt | hge
  · rw [windowTotal_cons, if_neg (by omega), zero_add]
    exact hbefore e
  · calc windowTotal (r :: l) (e - n) e
        ≤ windowTotal (r :: l) (e - n) r.1 := windowTotal_le_head h _ _
      _ ≤ windowTotal (r :: l) (r.1 - n) r.1 := windowTotal_mono (by omega) le_rfl
      _ = r.2 + windowTotal l (r.1 - n) r.1 := by rw [windowTotal_cons, if_pos ⟨by omega, le_rfl⟩]
      _ ≤ bound := hnow

/-! ## The newest epoch of a residue -/

variable {N : Nat}

@[simp] theorem newest_nil (i : Int) : newest N [] i = none := rfl

theorem newest_cons (r : Int × Nat) (l : EpochLog) (i : Int) :
    newest N (r :: l) i = if r.1 % N = i then some r.1 else newest N l i := by
  by_cases h : r.1 % N = i <;> simp [newest, epochs, h]

theorem newest_mem {l : EpochLog} {i k : Int} (h : newest N l i = some k) : k ∈ l.epochs :=
  List.mem_of_find?_eq_some h

theorem newest_residue {l : EpochLog} {i k : Int} (h : newest N l i = some k) : k % N = i := by
  simpa using List.find?_some h

theorem Chronological.le_newest {l : EpochLog} (hc : Chronological l) {i k e : Int}
    (h : newest N l i = some k) (he : e ∈ l.epochs) (hi : e % N = i) : e ≤ k := by
  induction l with
  | nil => simp at h
  | cons r l ih =>
      rw [newest_cons] at h
      split at h
      · obtain rfl := Option.some.inj h
        rcases List.mem_cons.mp he with rfl | he
        · exact le_rfl
        · exact hc.le_head he
      · rename_i hr
        rcases List.mem_cons.mp he with rfl | he
        · exact absurd hi hr
        · exact ih hc.tail h he

theorem not_mem_of_newest_none {l : EpochLog} {e : Int} (h : newest N l (e % N) = none) :
    e ∉ l.epochs := by
  intro he
  have := List.find?_eq_none.mp h e he
  simp at this

/-! ## What a ring of `N` cells still knows -/

/-- Contribution of the cell of a residue to a sum weighted by `w`. -/
def cell (N : Nat) (w : Int → Nat → Nat) (l : EpochLog) (i : Int) : Nat :=
  match newest N l i with
  | some k => w k (l.total k)
  | none => 0

/-- The representative of a residue among the last `N` epochs. -/
def representative (N : Nat) (e i : Int) : Int := e - (e - i) % N

theorem representative_mem (hN : 0 < N) (e i : Int) :
    e - N < representative N e i ∧ representative N e i ≤ e := by
  have h₁ := Int.emod_nonneg (e - i) (show (N : Int) ≠ 0 by omega)
  have h₂ := Int.emod_lt_of_pos (e - i) (show (0 : Int) < N by omega)
  unfold representative; omega

theorem representative_residue {e i : Int} (hi : 0 ≤ i) (hN : i < N) :
    representative N e i % N = i := by
  unfold representative
  rw [Int.sub_emod_emod, sub_sub_cancel]
  exact Int.emod_eq_of_lt hi hN

/-- Two epochs of one residue are equal or at least `N` apart. -/
theorem eq_or_far {a b : Int} (h : a % N = b % N) : a = b ∨ a + N ≤ b ∨ b + N ≤ a := by
  obtain ⟨c, hc⟩ : (N : Int) ∣ a - b := Int.ModEq.dvd (n := N) h.symm
  rcases lt_trichotomy c 0 with hlt | rfl | hgt
  · right; left
    have : (N : Int) * c ≤ N * (-1) := mul_le_mul_of_nonneg_left (by omega) (by omega)
    omega
  · left; omega
  · right; right
    have : (N : Int) * 1 ≤ N * c := mul_le_mul_of_nonneg_left (by omega) (by omega)
    omega

/-- A cell holds its representative among the last `N` epochs. The cell of the current epoch `e` holds
the epoch `e - N` instead as long as nothing is recorded in `e`. -/
theorem cell_eq {w : Int → Nat → Nat} {l : EpochLog} {e i : Int} (hc : Chronological l)
    (hN : 0 < N) (hw : ∀ k, w k 0 = 0) (hold : ∀ k x, k < e - N → w k x = 0)
    (hle : ∀ k ∈ l.epochs, k ≤ e) (hi : 0 ≤ i) (hiN : i < N) :
    cell N w l i = w (representative N e i) (l.total (representative N e i)) +
      if i = e % N ∧ e ∉ l.epochs then w (e - N) (l.total (e - N)) else 0 := by
  obtain ⟨hlo, hhi⟩ := representative_mem hN e i
  have hres := representative_residue (e := e) hi hiN
  generalize hr : representative N e i = r at hlo hhi hres
  have hre : i = e % N ↔ r = e := by
    constructor
    · intro h
      rcases eq_or_far (hres.trans h) with h' | h' | h' <;> omega
    · rintro rfl; exact hres.symm
  have hsame : (e - N) % N = e % N := by simp
  unfold cell
  cases hn : newest N l i with
  | none =>
      have hr0 : l.total r = 0 := total_eq_zero (not_mem_of_newest_none (by rw [hres]; exact hn))
      simp only [hr0, hw, zero_add]
      split
      · rename_i h
        rw [total_eq_zero (not_mem_of_newest_none (by rw [hsame, ← h.1]; exact hn)), hw]
      · rfl
  | some k =>
      have hk := newest_mem hn
      have hkN : k % N = r % N := (newest_residue hn).trans hres.symm
      simp only
      rcases eq_or_far hkN with rfl | hfar | hfar
      · -- the cell is up to date
        rw [if_neg, add_zero]
        rintro ⟨h, hne⟩
        exact hne (hre.mp h ▸ hk)
      · -- the cell holds an epoch that left the last `N`
        have hr0 : l.total r = 0 := by
          refine total_eq_zero fun hmem => ?_
          have := hc.le_newest hn hmem hres
          omega
        rw [hr0, hw, zero_add]
        rcases lt_or_ge k (e - N) with hlt | hge
        · rw [hold k _ hlt]
          split
          · rename_i h
            have h0 : l.total (e - N) = 0 := by
              refine total_eq_zero fun hmem => ?_
              have := hc.le_newest hn hmem (by rw [hsame, ← h.1])
              omega
            rw [h0, hw]
          · rfl
        · have hrk : r = e := by omega
          have hke : k = e - N := by omega
          subst hke
          rw [if_pos]
          refine ⟨hre.mpr hrk, fun hmem => ?_⟩
          have := hc.le_newest hn hmem (hre.mpr hrk).symm
          omega
      · have := hle k hk
        omega

/-- The epochs `e - N + 1 .. e` are the representatives of the `N` residues. -/
theorem sum_representatives (hN : 0 < N) (e : Int) (f : Int → Nat) :
    ∑ i : Fin N, f (representative N e i) = ∑ j ∈ Finset.range N, f (e - j) := by
  have hlt : ∀ i : Int, 0 ≤ (e - i) % N ∧ (e - i) % N < N := fun i =>
    ⟨Int.emod_nonneg _ (by omega), Int.emod_lt_of_pos _ (by omega)⟩
  refine Finset.sum_bij (fun i _ => ((e - i) % N).toNat) ?_ ?_ ?_ ?_
  · intro i _
    have := hlt i
    exact Finset.mem_range.mpr (by omega)
  · intro i _ j _ h
    have hi := representative_residue (N := N) (e := e) (i := i) (by omega) (by omega)
    have hj := representative_residue (N := N) (e := e) (i := j) (by omega) (by omega)
    have := hlt i
    have := hlt j
    rw [representative, show (e - i) % N = (e - j) % N by omega] at hi
    rw [representative, hi] at hj
    exact Fin.ext (by omega)
  · intro j hj
    have hj := Finset.mem_range.mp hj
    have := hlt j
    refine ⟨⟨((e - j) % N).toNat, by omega⟩, Finset.mem_univ _, ?_⟩
    have hcast : (((e - j) % N).toNat : Int) = (e - j) % N := Int.toNat_of_nonneg this.1
    show ((e - (((e - j) % N).toNat : Int)) % N).toNat = j
    rw [hcast, Int.sub_emod_emod, sub_sub_cancel, Int.emod_eq_of_lt (by omega) (by omega)]
    simp
  · intro i _
    have := hlt i
    rw [representative, Int.toNat_of_nonneg this.1]

/-- Weighted sum of a ring: the last `N` epochs, and the epoch before them unless the current epoch
already took its cell. -/
theorem sum_cells {w : Int → Nat → Nat} {l : EpochLog} {e : Int} (hc : Chronological l)
    (hN : 0 < N) (hw : ∀ k, w k 0 = 0) (hold : ∀ k x, k < e - N → w k x = 0)
    (hle : ∀ k ∈ l.epochs, k ≤ e) :
    ∑ i : Fin N, cell N w l i = ∑ j ∈ Finset.range N, w (e - j) (l.total (e - j)) +
      if e ∈ l.epochs then 0 else w (e - N) (l.total (e - N)) := by
  have hcell : ∀ i : Fin N, cell N w l i = w (representative N e i) (l.total (representative N e i)) +
      if (i : Int) = e % N ∧ e ∉ l.epochs then w (e - N) (l.total (e - N)) else 0 :=
    fun i => cell_eq hc hN hw hold hle (by omega) (by omega)
  simp only [hcell, Finset.sum_add_distrib]
  rw [sum_representatives hN e fun k => w k (l.total k)]
  congr 1
  have h₁ := Int.emod_nonneg e (show (N : Int) ≠ 0 by omega)
  have h₂ := Int.emod_lt_of_pos e (show (0 : Int) < N by omega)
  by_cases hmem : e ∈ l.epochs
  · simp [hmem]
  · have hidx : ∀ i : Fin N, (i : Int) = e % N ↔ i = ⟨(e % N).toNat, by omega⟩ := by
      intro i
      rw [Fin.ext_iff]
      simp only
      omega
    simp [hmem, hidx]

/-- The same sum over every epoch of the log: nothing outside `e - N .. e` counts. -/
theorem sum_epochs {w : Int → Nat → Nat} {l : EpochLog} {e : Int}
    (hw : ∀ k, w k 0 = 0) (hold : ∀ k x, k < e - N → w k x = 0) (hle : ∀ k ∈ l.epochs, k ≤ e) :
    ∑ k ∈ l.epochs.toFinset, w k (l.total k) =
      ∑ j ∈ Finset.range N, w (e - j) (l.total (e - j)) + w (e - N) (l.total (e - N)) := by
  have hinj : Set.InjOn (fun j : Nat => e - j) (Finset.range (N + 1)) := fun i _ j _ h => by
    simp only at h
    omega
  have hmem : ∀ k, k ∈ (Finset.range (N + 1)).image (fun j : Nat => e - j) ↔ e - N ≤ k ∧ k ≤ e := by
    intro k
    simp only [Finset.mem_image, Finset.mem_range]
    exact ⟨by rintro ⟨j, hj, rfl⟩; omega, fun h => ⟨(e - k).toNat, by omega, by omega⟩⟩
  calc ∑ k ∈ l.epochs.toFinset, w k (l.total k)
      = ∑ k ∈ l.epochs.toFinset.filter (fun k => e - N ≤ k), w k (l.total k) := by
        rw [Finset.sum_filter_of_ne]
        intro k _ hne
        by_contra hlt
        exact hne (hold k _ (by omega))
    _ = ∑ k ∈ (Finset.range (N + 1)).image (fun j : Nat => e - j), w k (l.total k) := by
        refine Finset.sum_subset (fun k hk => ?_) fun k hk hne => ?_
        · obtain ⟨hk, hlo⟩ := Finset.mem_filter.mp hk
          exact (hmem k).mpr ⟨hlo, hle k (List.mem_toFinset.mp hk)⟩
        · rw [total_eq_zero, hw]
          intro hk'
          exact hne (Finset.mem_filter.mpr ⟨List.mem_toFinset.mpr hk', ((hmem k).mp hk).1⟩)
    _ = _ := by rw [Finset.sum_image hinj, Finset.sum_range_succ]

end EpochLog

end Sigil.Library
