import Mathlib.Data.Finset.Card
import Mathlib.Data.Fintype.Card
import Mathlib.Data.List.Nodup

/-!
# Tables of slots

A table of `n` slots holds keys out of a list, each at most once; a slot that holds nothing holds the key `free`.
As long as the table is not the smaller of the two, a key without a slot finds a free one.
-/

namespace Sigil.Library

/-- Every slot is free or holds a key of the list, and no key is held twice. -/
structure Tracks {κ : Type} {n : Nat} (free : κ) (slots : Fin n → κ) (keys : List κ) : Prop where
  nodup : keys.Nodup
  free_notMem : free ∉ keys
  injective : ∀ i j, slots i = slots j → slots i ≠ free → i = j
  registered : ∀ i, slots i ≠ free → slots i ∈ keys

namespace Tracks

variable {κ : Type} {n : Nat} {free k : κ} {slots : Fin n → κ} {keys : List κ}

theorem empty : Tracks free (fun _ : Fin n => free) [] :=
  ⟨List.nodup_nil, List.not_mem_nil, fun _ _ _ h => absurd rfl h, fun _ h => absurd rfl h⟩

/-! ## The keys -/

theorem add (h : Tracks free slots keys) (hk : k ∉ keys) (hfree : k ≠ free) : Tracks free slots (keys ++ [k]) where
  nodup := by
    refine List.nodup_append.mpr ⟨h.nodup, List.nodup_singleton k, ?_⟩
    rintro a ha b hb rfl
    exact hk (List.mem_singleton.mp hb ▸ ha)
  free_notMem := by
    simp only [List.mem_append, List.mem_singleton, not_or]
    exact ⟨h.free_notMem, hfree.symm⟩
  injective := h.injective
  registered i hi := List.mem_append_left _ (h.registered i hi)

/-- A key that has no slot can go. -/
theorem remove {keys' : List κ} (h : Tracks free slots keys) (hsub : keys'.Sublist keys)
    (hkept : ∀ i, slots i ≠ free → slots i ∈ keys') : Tracks free slots keys' :=
  ⟨h.nodup.sublist hsub, fun hmem => h.free_notMem (hsub.subset hmem), h.injective, hkept⟩

/-! ## The slots -/

theorem claim (h : Tracks free slots keys) {i : Fin n} (hi : slots i = free) (hk : k ∈ keys)
    (hnew : ∀ j, slots j ≠ k) : Tracks free (Function.update slots i k) keys where
  nodup := h.nodup
  free_notMem := h.free_notMem
  injective a b hab hne := by
    rcases eq_or_ne a i with rfl | ha <;> rcases eq_or_ne b a with rfl | hb
    · rfl
    · rw [Function.update_self, Function.update_of_ne hb] at hab
      exact absurd hab.symm (hnew b)
    · rfl
    · rw [Function.update_of_ne ha] at hab hne
      rcases eq_or_ne b i with rfl | hbi
      · rw [Function.update_self] at hab
        exact absurd hab (hnew a)
      · rw [Function.update_of_ne hbi] at hab
        exact h.injective a b hab hne
  registered a hne := by
    rcases eq_or_ne a i with rfl | ha
    · rwa [Function.update_self]
    · rw [Function.update_of_ne ha] at hne ⊢
      exact h.registered a hne

theorem release (h : Tracks free slots keys) (i : Fin n) : Tracks free (Function.update slots i free) keys where
  nodup := h.nodup
  free_notMem := h.free_notMem
  injective a b hab hne := by
    rcases eq_or_ne a i with rfl | ha
    · exact absurd (Function.update_self ..) hne
    · rw [Function.update_of_ne ha] at hab hne
      rcases eq_or_ne b i with rfl | hb
      · rw [Function.update_self] at hab
        exact absurd hab hne
      · rw [Function.update_of_ne hb] at hab
        exact h.injective a b hab hne
  registered a hne := by
    rcases eq_or_ne a i with rfl | ha
    · exact absurd (Function.update_self ..) hne
    · rw [Function.update_of_ne ha] at hne ⊢
      exact h.registered a hne

/-- The slots are more than the keys, so one of them is free. -/
theorem exists_free (h : Tracks free slots keys) (hlength : keys.length < n) : ∃ i, slots i = free := by
  classical
  by_contra hnone
  have hfull : ∀ i, slots i ≠ free := fun i hi => hnone ⟨i, hi⟩
  have hinjective : Function.Injective slots := fun i j hij => h.injective i j hij (hfull i)
  have hsubset : Finset.univ.image slots ⊆ keys.toFinset := by
    intro k hk
    obtain ⟨i, -, rfl⟩ := Finset.mem_image.mp hk
    exact List.mem_toFinset.mpr (h.registered i (hfull i))
  have hcard := Finset.card_le_card hsubset
  rw [Finset.card_image_of_injective _ hinjective, Finset.card_univ, Fintype.card_fin] at hcard
  exact absurd (hcard.trans (List.toFinset_card_le keys)) (by omega)

/-- A key without a slot leaves one free. -/
theorem exists_free_of_missing (h : Tracks free slots keys) (hlength : keys.length ≤ n) (hk : k ∈ keys)
    (hmissing : ∀ i, slots i ≠ k) : ∃ i, slots i = free := by
  classical
  have hothers : Tracks free slots (keys.erase k) :=
    h.remove List.erase_sublist fun i hi => (List.mem_erase_of_ne (hmissing i)).mpr (h.registered i hi)
  refine hothers.exists_free ?_
  have := List.length_pos_of_mem hk
  rw [List.length_erase_of_mem hk]
  omega

/-- If every key has a slot, a slot is free exactly as long as the keys are fewer. -/
theorem exists_free_iff (h : Tracks free slots keys) (hall : ∀ k ∈ keys, ∃ i, slots i = k) :
    (∃ i, slots i = free) ↔ keys.length < n := by
  classical
  refine ⟨?_, h.exists_free⟩
  rintro ⟨i, hi⟩
  have hsubset : keys.toFinset ⊆ (Finset.univ.erase i).image slots := by
    intro k hk
    obtain ⟨j, rfl⟩ := hall k (List.mem_toFinset.mp hk)
    refine Finset.mem_image_of_mem _ (Finset.mem_erase.mpr ⟨?_, Finset.mem_univ j⟩)
    rintro rfl
    exact h.free_notMem (hi ▸ List.mem_toFinset.mp hk)
  calc keys.length = keys.toFinset.card := (List.toFinset_card_of_nodup h.nodup).symm
    _ ≤ ((Finset.univ.erase i).image slots).card := Finset.card_le_card hsubset
    _ ≤ (Finset.univ.erase i).card := Finset.card_image_le
    _ < n := by
      rw [Finset.card_erase_of_mem (Finset.mem_univ i), Finset.card_univ, Fintype.card_fin]
      exact Nat.sub_lt (Fin.pos i) Nat.one_pos

end Tracks

end Sigil.Library
