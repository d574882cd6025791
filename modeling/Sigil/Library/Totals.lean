import Mathlib.Algebra.BigOperators.Finprod
import Mathlib.Algebra.Order.BigOperators.Group.Finset

/-!
# Totals of balance sheets

A balance sheet gives every key a balance, almost all of them zero. One entry that changes changes the total by as
much, and what one key loses and another gains leaves it alone.
-/

namespace Sigil.Library

open Function

variable {κ M : Type} [AddCommMonoid M] {f : κ → M}

theorem total_update [DecidableEq κ] (hf : (support f).Finite) (k : κ) (b : M) :
    (∑ᶠ x, update f k b x) + f k = (∑ᶠ x, f x) + b := by
  have hk : k ∈ insert k hf.toFinset := Finset.mem_insert_self k _
  have hbefore : support f ⊆ ↑(insert k hf.toFinset) := by
    intro x hx
    exact Finset.mem_coe.mpr (Finset.mem_insert_of_mem (hf.mem_toFinset.mpr hx))
  have hafter : support (update f k b) ⊆ ↑(insert k hf.toFinset) := by
    intro x hx
    rcases eq_or_ne x k with rfl | hne
    · exact Finset.mem_coe.mpr hk
    · rw [mem_support, update_of_ne hne] at hx
      exact hbefore hx
  rw [finsum_eq_sum_of_support_subset _ hafter, finsum_eq_sum_of_support_subset _ hbefore,
    Finset.sum_update_of_mem hk, ← Finset.add_sum_erase _ _ hk, Finset.sdiff_singleton_eq_erase]
  rw [add_assoc, add_comm, add_comm (f k)]

theorem le_total {f : κ → Nat} (hf : (support f).Finite) (k : κ) : f k ≤ ∑ᶠ x, f x :=
  single_le_finsum k hf fun _ => Nat.zero_le _

end Sigil.Library
