import Mathlib.Algebra.BigOperators.Group.Finset.Basic
import Mathlib.Algebra.Order.BigOperators.Group.Finset
import Sigil.Instructions.CloseVault
import Sigil.Lemmas.EscrowInv
import Sigil.Lemmas.Staff
import Sigil.Sdk.CloseVault
import Sigil.Theorems.Policy
import Sigil.Theorems.SpendingCap

/-!
# Closing a vault

The kit appends every account that exists at an address which the handler looks for; the handler drains whatever has
lamports there. So a vault can be closed as long as nobody has sent lamports to such an address before the program
created its account.
-/

namespace Sigil

open Library

/-! ## Draining accounts

What the drains of `close_vault` leave, and when they go through. The lamports of the chain fit into 64 bits
together, so that no sum overflows; a drain fails on an account of another program only.
-/

namespace Closing

variable {w : World} {owner x y : Pubkey} {s s' s'' : Closing} {p q : Set Pubkey} {remaining pdas : List Pubkey}

/-- Accounts of the program have lamports, and there are no more lamports than a 64-bit word counts. -/
structure Sound (w : World) (s : Closing) : Prop where
  rentExempt : ∀ x, w.owns x → x ∉ s.closed → 0 < s.lamports x
  supply : ∀ l : Finset Pubkey, ∑ x ∈ l, s.lamports x ≤ uMax 64

def Drainable (w : World) (s : Closing) (x : Pubkey) : Prop := 0 < s.lamports x → w.owns x ∧ x ∉ s.closed

/-- From `s` to `s'` exactly the addresses of `p` are drained. -/
structure Drained (w : World) (owner : Pubkey) (p : Set Pubkey) (s s' : Closing) : Prop where
  owned : ∀ x ∈ p, w.owns x ∧ x ∉ s.closed
  closed : ∀ x, x ∈ s'.closed ↔ x ∈ p ∨ x ∈ s.closed
  emptied : ∀ x ∈ p, s'.lamports x = 0
  kept : ∀ x, x ∉ p → x ≠ owner → s'.lamports x = s.lamports x
  sound : s.Sound w → s'.Sound w

theorem Drained.refl : Drained w owner ∅ s s where
  owned x hx := hx.elim
  closed x := by simp
  emptied x hx := hx.elim
  kept x _ _ := rfl
  sound h := h

theorem Drained.trans (howner : w.owns owner = false) (h : Drained w owner p s s') (h' : Drained w owner q s' s'') :
    Drained w owner (p ∪ q) s s'' where
  owned x hx := by
    cases hx with
    | inl hp => exact h.owned x hp
    | inr hq =>
        obtain ⟨howned, hclosed⟩ := h'.owned x hq
        exact ⟨howned, fun hx => hclosed ((h.closed x).mpr (.inr hx))⟩
  closed x := by
    rw [h'.closed x, h.closed x, Set.mem_union]
    tauto
  emptied x hx := by
    by_cases hq : x ∈ q
    · exact h'.emptied x hq
    · have hp : x ∈ p := hx.resolve_right hq
      have hne : x ≠ owner := by
        intro heq
        have := (h.owned x hp).1
        simp [heq, howner] at this
      rw [h'.kept x hq hne, h.emptied x hp]
  kept x hx hne := by
    rw [Set.mem_union, not_or] at hx
    rw [h'.kept x hx.2 hne, h.kept x hx.1 hne]
  sound hs := h'.sound (h.sound hs)

theorem Drained.drainable_iff (h : Drained w owner p s s') (hne : x ≠ owner) :
    s'.Drainable w x ↔ s.Drainable w x := by
  unfold Drainable
  by_cases hp : x ∈ p
  · have howned := h.owned x hp
    simp [h.emptied x hp, howned]
  · rw [h.kept x hp hne, h.closed x]
    simp [hp]

/-! ## One drain -/

/-- Moving the lamports of one address to another keeps their sum. -/
theorem sum_move_le {f : Pubkey → Nat} {n : Nat} (hne : x ≠ owner) (hn : ∀ l : Finset Pubkey, ∑ y ∈ l, f y ≤ n)
    (l : Finset Pubkey) : ∑ y ∈ l, Function.update (Function.update f owner (f owner + f x)) x 0 y ≤ n := by
  let others := (l.erase owner).erase x
  let f' := Function.update (Function.update f owner (f owner + f x)) x 0
  have hx : x ∉ others := by simp [others]
  have howner : owner ∉ insert x others := by simp [others, hne.symm]
  have hsum : ∀ g : Pubkey → Nat, ∑ y ∈ insert owner (insert x others), g y = g owner + (g x + ∑ y ∈ others, g y) := by
    intro g
    rw [Finset.sum_insert howner, Finset.sum_insert hx]
  have hothers : ∑ y ∈ others, f' y = ∑ y ∈ others, f y := by
    apply Finset.sum_congr rfl
    intro y hy
    simp only [others, Finset.mem_erase] at hy
    simp [f', hy.1, hy.2.1]
  have hsubset : l ⊆ insert owner (insert x others) := by
    intro y hy
    simp only [others, Finset.mem_insert, Finset.mem_erase]
    tauto
  calc ∑ y ∈ l, f' y ≤ ∑ y ∈ insert owner (insert x others), f' y := Finset.sum_le_sum_of_subset hsubset
    _ = f owner + f x + (0 + ∑ y ∈ others, f y) := by
        rw [hsum, hothers]
        simp [f', hne.symm]
    _ = ∑ y ∈ insert owner (insert x others), f y := by
        rw [hsum]
        omega
    _ ≤ n := hn _

theorem drain_eq_ok : s.drain w owner x = .ok s' ↔ s.lamports owner + s.lamports x ≤ uMax 64 ∧
    (w.owns x ∧ x ∉ s.closed) ∧
    s' = { lamports := Function.update (Function.update s.lamports owner (s.lamports owner + s.lamports x)) x 0
           closed := x :: s.closed } := by
  simp only [drain, bind_eq_ok, okOr_eq_ok, checkedAdd_eq_some, require_eq_ok, pure_eq_ok, exists_const]
  constructor
  · rintro ⟨_, ⟨hfits, rfl⟩, howned, rfl⟩
    exact ⟨hfits, howned, rfl⟩
  · rintro ⟨hfits, howned, rfl⟩
    exact ⟨_, ⟨hfits, rfl⟩, howned, rfl⟩

theorem Drained.of_drain (howner : w.owns owner = false) (h : s.drain w owner x = .ok s') :
    Drained w owner {x} s s' := by
  obtain ⟨-, howned, rfl⟩ := drain_eq_ok.mp h
  have hne : x ≠ owner := by
    intro heq
    simp [heq, howner] at howned
  exact {
    owned := by
      intro y hy
      rw [Set.mem_singleton_iff.mp hy]
      exact howned
    closed := by simp
    emptied := by
      intro y hy
      rw [Set.mem_singleton_iff.mp hy]
      exact Function.update_self ..
    kept := by
      intro y hy hyowner
      have hyx : y ≠ x := hy
      simp [hyx, hyowner]
    sound := fun hs =>
      { rentExempt := by
          intro y hy hclosed
          have hyowner : y ≠ owner := by
            intro heq
            simp [heq, howner] at hy
          simp only [List.mem_cons, not_or] at hclosed
          simpa [hclosed.1, hyowner] using hs.rentExempt y hy hclosed.2
        supply := sum_move_le hne hs.supply } }

theorem Sound.exists_drain (hs : s.Sound w) (hne : x ≠ owner) (howned : w.owns x) (hclosed : x ∉ s.closed) :
    ∃ s', s.drain w owner x = .ok s' := by
  have hfits := hs.supply {owner, x}
  rw [Finset.sum_pair hne.symm] at hfits
  exact ⟨_, drain_eq_ok.mpr ⟨hfits, ⟨howned, hclosed⟩, rfl⟩⟩

/-! ## Looking for an account -/

theorem cleanUp_eq : s.cleanUp w owner remaining x =
    if x ∈ remaining ∧ 0 < s.lamports x then s.drain w owner x else pure s := by
  unfold cleanUp
  cases hfind : remaining.find? fun address => address = x && 0 < s.lamports address with
  | none =>
      rw [List.find?_eq_none] at hfind
      rw [if_neg]
      rintro ⟨hmem, hpos⟩
      exact hfind x hmem (by simp [hpos])
  | some y =>
      have hy := List.find?_some hfind
      simp only [Bool.and_eq_true, decide_eq_true_eq] at hy
      obtain ⟨rfl, hpos⟩ := hy
      exact (if_pos ⟨List.mem_of_find?_eq_some hfind, hpos⟩).symm

/-- The addresses of a list that are found and drained. -/
def found (s : Closing) (remaining pdas : List Pubkey) : Set Pubkey :=
  {x | x ∈ pdas ∧ x ∈ remaining ∧ 0 < s.lamports x}

theorem mem_found : x ∈ s.found remaining pdas ↔ x ∈ pdas ∧ x ∈ remaining ∧ 0 < s.lamports x := Iff.rfl

theorem found_nil : s.found remaining [] = ∅ := by
  ext x
  simp [mem_found]

theorem found_cons : s.found remaining (x :: pdas) = s.found remaining [x] ∪ s.found remaining pdas := by
  ext y
  simp only [mem_found, Set.mem_union, List.mem_cons, List.not_mem_nil, or_false]
  tauto

theorem Drained.of_cleanUp (howner : w.owns owner = false) (h : s.cleanUp w owner remaining x = .ok s') :
    Drained w owner (s.found remaining [x]) s s' := by
  rw [cleanUp_eq] at h
  split at h
  · rename_i hfound
    have heq : s.found remaining [x] = {x} := by
      ext y
      simp only [mem_found, List.mem_singleton, Set.mem_singleton_iff]
      constructor
      · exact fun hy => hy.1
      · rintro rfl
        exact ⟨rfl, hfound⟩
    rw [heq]
    exact .of_drain howner h
  · rename_i hfound
    obtain rfl := pure_eq_ok.mp h
    have heq : s.found remaining [x] = ∅ := by
      ext y
      simp only [mem_found, List.mem_singleton, Set.mem_empty_iff_false, iff_false]
      rintro ⟨rfl, hy⟩
      exact hfound hy
    rw [heq]
    exact .refl

theorem Sound.cleanUp_iff (hs : s.Sound w) (hne : x ≠ owner) :
    (∃ s', s.cleanUp w owner remaining x = .ok s') ↔ (x ∈ remaining → s.Drainable w x) := by
  rw [cleanUp_eq]
  split
  · rename_i hfound
    constructor
    · rintro ⟨s', h⟩ - -
      exact (drain_eq_ok.mp h).2.1
    · intro h
      obtain ⟨howned, hclosed⟩ := h hfound.1 hfound.2
      exact hs.exists_drain hne howned hclosed
  · rename_i hfound
    constructor
    · intro _ hmem hpos
      exact absurd ⟨hmem, hpos⟩ hfound
    · intro _
      exact ⟨s, rfl⟩

/-! ## Lists of addresses -/

/-- What was drained before is not found again. -/
theorem Drained.of_run_cleanUp (howner : w.owns owner = false) (hpdas : owner ∉ pdas)
    (h : run (Closing.cleanUp w owner remaining) pdas s = .ok s') :
    Drained w owner (s.found remaining pdas) s s' := by
  induction pdas generalizing s with
  | nil =>
      obtain rfl := run_nil_eq_ok.mp h
      rw [found_nil]
      exact .refl
  | cons x pdas ih =>
      rw [List.mem_cons, not_or] at hpdas
      obtain ⟨s₁, hx, hrest⟩ := run_cons_eq_ok.mp h
      have hfirst := Drained.of_cleanUp howner hx
      have hnext := hfirst.trans howner (ih hpdas.2 hrest)
      have heq : s.found remaining [x] ∪ s₁.found remaining pdas = s.found remaining (x :: pdas) := by
        apply Eq.trans _ found_cons.symm
        ext y
        by_cases hy : y ∈ s.found remaining [x]
        · simp [hy]
        · have hlater : y ∈ s₁.found remaining pdas ↔ y ∈ s.found remaining pdas := by
            rw [mem_found, mem_found]
            apply and_congr_right
            intro hmem
            rw [hfirst.kept y hy fun hyowner => hpdas.2 (hyowner ▸ hmem)]
          rw [Set.mem_union, Set.mem_union, hlater]
      rw [← heq]
      exact hnext

theorem Sound.run_cleanUp_iff (hs : s.Sound w) (howner : w.owns owner = false) (hpdas : owner ∉ pdas) :
    (∃ s', run (Closing.cleanUp w owner remaining) pdas s = .ok s') ↔
      ∀ x ∈ pdas, x ∈ remaining → s.Drainable w x := by
  induction pdas generalizing s with
  | nil => simp [run_nil_eq_ok]
  | cons x pdas ih =>
      rw [List.mem_cons, not_or] at hpdas
      have hne : x ≠ owner := fun heq => hpdas.1 heq.symm
      have hlater : ∀ s₁, s.cleanUp w owner remaining x = .ok s₁ →
          ((∃ s', run (Closing.cleanUp w owner remaining) pdas s₁ = .ok s') ↔
            ∀ y ∈ pdas, y ∈ remaining → s.Drainable w y) := by
        intro s₁ hx
        have hdrained := Drained.of_cleanUp howner hx
        rw [ih (hdrained.sound hs) hpdas.2]
        apply forall₂_congr
        intro y hy
        rw [hdrained.drainable_iff fun heq => hpdas.2 (heq ▸ hy)]
      rw [List.forall_mem_cons, ← hs.cleanUp_iff hne]
      constructor
      · rintro ⟨s', h⟩
        obtain ⟨s₁, hx, hrest⟩ := run_cons_eq_ok.mp h
        exact ⟨⟨s₁, hx⟩, (hlater s₁ hx).mp ⟨s', hrest⟩⟩
      · rintro ⟨⟨s₁, hx⟩, hrest⟩
        obtain ⟨s', hrun⟩ := (hlater s₁ hx).mpr hrest
        exact ⟨s', run_cons_eq_ok.mpr ⟨s₁, hx, hrun⟩⟩

theorem Drained.of_run_drain (howner : w.owns owner = false)
    (h : run (Closing.drain w owner) pdas s = .ok s') : Drained w owner {x | x ∈ pdas} s s' := by
  induction pdas generalizing s with
  | nil =>
      obtain rfl := run_nil_eq_ok.mp h
      simpa using Drained.refl
  | cons x pdas ih =>
      obtain ⟨s₁, hx, hrest⟩ := run_cons_eq_ok.mp h
      have heq : {y | y ∈ x :: pdas} = {x} ∪ {y | y ∈ pdas} := by
        ext y
        simp
      rw [heq]
      exact (Drained.of_drain howner hx).trans howner (ih hrest)

/-- Accounts of the program that are there can be closed, each once. -/
theorem Sound.exists_run_drain (hs : s.Sound w) (howner : w.owns owner = false) (hnodup : pdas.Nodup)
    (hpdas : ∀ x ∈ pdas, w.owns x ∧ x ∉ s.closed) : ∃ s', run (Closing.drain w owner) pdas s = .ok s' := by
  induction pdas generalizing s with
  | nil => exact ⟨s, rfl⟩
  | cons x pdas ih =>
      obtain ⟨⟨howned, hclosed⟩, hrest⟩ := List.forall_mem_cons.mp hpdas
      obtain ⟨hx, hnodup⟩ := List.nodup_cons.mp hnodup
      have hne : x ≠ owner := by
        intro heq
        simp [heq, howner] at howned
      obtain ⟨s₁, hdrain⟩ := hs.exists_drain hne howned hclosed
      have hdrained := Drained.of_drain howner hdrain
      obtain ⟨s', hrun⟩ := ih (hdrained.sound hs) hnodup (by
        intro y hy
        refine ⟨(hrest y hy).1, ?_⟩
        rw [hdrained.closed y, Set.mem_singleton_iff, not_or]
        exact ⟨fun heq => hx (heq ▸ hy), (hrest y hy).2⟩)
      exact ⟨s', run_cons_eq_ok.mpr ⟨s₁, hdrain, hrun⟩⟩

end Closing

variable {w w' : World} {ctx : Ctx} {st : Step} {v : Pubkey} {vault : AgentVault} {policy : PolicyConfig}

/-! ## The stores of a vault -/

theorem isSome_update {α β : Type} {f : Pubkey → Option α} {g : Pubkey → Option β} {y : Pubkey} {a : α}
    (h : ∀ v, (f v).isSome → (g v).isSome) (hy : (f y).isSome) :
    (Function.update f y (some a) v).isSome → (g v).isSome := by
  intro hv
  rcases eq_or_ne v y with rfl | hne
  · exact h v hy
  · exact h v (by simpa [hne] using hv)

theorem isSome_set {α β : Type} {f : Pubkey → Option α} {g : Pubkey → Option β} {y : Pubkey} {b : β}
    (h : ∀ v, (f v).isSome → (g v).isSome) : ∀ v, (f v).isSome → (Function.update g y (some b) v).isSome := by
  intro v hv
  rcases eq_or_ne v y with rfl | hne
  · simp
  · simpa [hne] using h v hv

theorem Step.trackers_isSome (h : st.exec w = .ok w') (hinv : ∀ v, (w.vaults v).isSome → (w.trackers v).isSome) :
    ∀ v, (w'.vaults v).isSome → (w'.trackers v).isSome := by
  rcases Step.core_cases h with ⟨hframe, -⟩ | ⟨i, hcall, hcore, hi⟩
  · intro v hv
    obtain ⟨vault', hv'⟩ := Option.isSome_iff_exists.mp hv
    obtain ⟨vault, hvault, -⟩ := hframe.vault hv'
    rw [hframe.trackers]
    exact hinv v (by simp [hvault])
  · cases i with
    | initializeVault a =>
        obtain ⟨-, -, rfl⟩ := initializeVault_ok hi
        intro v hv
        rcases eq_or_ne v a.vault with rfl | hne
        · simp
        · simpa [hne] using hinv v (by simpa [hne] using hv)
    | closeVault a =>
        obtain ⟨_, _, -, rfl⟩ := closeVault_ok hi
        intro v hv
        rcases eq_or_ne v a.vault with rfl | hne
        · simp [World.withoutVault] at hv
        · simpa [World.withoutVault, hne] using hinv v (by simpa [World.withoutVault, hne] using hv)
    | validateAndAuthorize a =>
        obtain ⟨_, _, _, _, _, _, _, ⟨hv, -⟩, -, -, -, -, -, -, -, -, rfl⟩ := validateAndAuthorize_ok hi
        exact fun v => isSome_update hinv (Option.isSome_of_eq_some hv)
    | finalizeSession a =>
        obtain ⟨_, _, _, _, _, _, _, ⟨hv, -⟩, -, hp, -, -, hcharge, -, rfl⟩ := finalizeSession_ok hi
        rcases chargeSession_ok hcharge with ⟨-, rfl⟩ | ⟨-, _, _, _, ht, hcharged, rfl⟩
        · exact fun v => isSome_update hinv (Option.isSome_of_eq_some hv)
        · exact fun v => isSome_update (isSome_set hinv) (Option.isSome_of_eq_some hv)
    | agentTransfer a =>
        obtain ⟨_, _, _, _, _, _, _, _, ⟨hv, -⟩, hp, ht, hcharged, -, -, rfl⟩ := agentTransfer_ok hi
        exact fun v => isSome_update (isSome_set hinv) (Option.isSome_of_eq_some hv)
    | createEscrow a =>
        obtain ⟨_, _, _, _, _, _, _, _, _, _, _, _, ⟨hv, -⟩, hp, ht, -, hcharged, -, -, -, rfl⟩ := createEscrow_ok hi
        exact fun v => isSome_update (isSome_set hinv) (Option.isSome_of_eq_some hv)
    | settleEscrow a =>
        obtain ⟨_, _, _, ⟨hv, -⟩, -, -, -, -, -, -, rfl⟩ := settleEscrow_ok hi
        exact fun v => isSome_update hinv (Option.isSome_of_eq_some hv)
    | refundEscrow a =>
        obtain ⟨_, _, _, ⟨hv, -⟩, -, -, -, -, rfl⟩ := refundEscrow_ok hi
        exact fun v => isSome_update hinv (Option.isSome_of_eq_some hv)
    | closeSettledEscrow a =>
        obtain ⟨_, _, -, -, rfl⟩ := closeSettledEscrow_ok hi
        exact hinv
    | _ => simp [Instruction.isCore] at hcore

theorem StaffChange.overlay_isSome {o : Option (Pubkey × Nat)} {s s' : Staff} (h : StaffChange ctx o s s')
    (hs : s.roster.isSome → s.overlay.isSome) : s'.roster.isSome → s'.overlay.isSome := by
  cases h with
  | same => exact hs
  | opened _ hdead => simp
  | closed => simp
  | registered => simp
  | revoked => simp
  | paused _ _ hroster => simpa [hroster] using hs
  | frozen hroster => simpa [hroster] using hs
  | reactivated _ _ hroster => simpa [hroster] using hs
  | permitted => simp
  | charged => simp

/-- A vault that a run leads to has its tracker and its overlay. -/
theorem stores_run {steps : List Step} (h : run Step.exec steps {} = .ok w) (hv : w.vaults v = some vault) :
    (w.trackers v).isSome ∧ (w.overlays v).isSome := by
  constructor
  · exact run_invariant (P := fun w => ∀ v, (w.vaults v).isSome → (w.trackers v).isSome) (by simp)
      (fun _ _ _ _ hinv hstep => Step.trackers_isSome hstep hinv) h v (Option.isSome_of_eq_some hv)
  · have hstaff := staff_invariant (P := fun s => s.roster.isSome → s.overlay.isSome) (by simp)
      (fun _ _ _ _ hinv hchange => hchange.overlay_isSome hinv) h v
    apply hstaff
    simp [World.staff, hv]

/-! ## The drains of the handler -/

namespace World

variable {x : Pubkey}

@[simp] theorem owns_policy : w.owns (.policy v) = (w.policies v).isSome := rfl

@[simp] theorem owns_tracker : w.owns (.tracker v) = (w.trackers v).isSome := rfl

@[simp] theorem owns_agentSpend : w.owns (.agentSpend v) = (w.overlays v).isSome := rfl

@[simp] theorem owns_pendingPolicy : w.owns (.pendingPolicy v) = (w.pendingPolicies v).isSome := rfl

@[simp] theorem owns_pendingAgentPerms : w.owns (.pendingAgentPerms v x) =
    (w.pendingAgentPerms (.pendingAgentPerms v x)).isSome := rfl

@[simp] theorem owns_pendingCloseConstraints : w.owns (.pendingCloseConstraints v) =
    (w.pendingCloseConstraints v).isSome := rfl

theorem owns_vault (haddress : v.isVault) : w.owns v = (w.vaults v).isSome := by
  cases v with
  | vault owner vaultId => rfl
  | _ => cases haddress

theorem owns_of_isKey (h : x.isKey) : w.owns x = false := by
  cases x with
  | key n => rfl
  | _ => cases h

end World

namespace CloseVaultAccounts

variable {a : CloseVaultAccounts} {s s' : Closing} {x : Pubkey}

/-- Addresses that the handler looks for, after the one of the pending policy. -/
def soughtPdas (vault : AgentVault) (v : Pubkey) : List Pubkey := vault.pendingPerms v ++ [.pendingCloseConstraints v]

theorem not_isKey_of_sought (h : x ∈ soughtPdas vault v) : x.isKey = false := by
  simp only [soughtPdas, AgentVault.pendingPerms, List.mem_append, List.mem_map, List.mem_singleton] at h
  rcases h with ⟨_, -, rfl⟩ | rfl
  · rfl
  · rfl

/-- Every address that the handler drains. -/
def drained (a : CloseVaultAccounts) (vault : AgentVault) (policy : PolicyConfig) (s : Closing) : Set Pubkey :=
  {x | policy.hasPendingPolicy ∧ x = .pendingPolicy a.vault} ∪ s.found (a.rest policy) (soughtPdas vault a.vault) ∪
    {x | x ∈ accountsOfVault a.vault}

theorem drains_eq_ok : a.drains w vault policy s = .ok s' ↔
    ∃ s₁, s.cleanUpPolicy w a.owner a.vault policy a.remaining = .ok s₁ ∧
      ∃ s₂, run (Closing.cleanUp w a.owner (a.rest policy)) (soughtPdas vault a.vault) s₁ = .ok s₂ ∧
        run (Closing.drain w a.owner) (accountsOfVault a.vault) s₂ = .ok s' := by
  simp only [drains, bind_eq_ok, soughtPdas, run_append_eq_ok, run_cons_eq_ok, run_nil_eq_ok]
  constructor
  · rintro ⟨s₁, h₁, s₂, h₂, s₃, h₃, h⟩
    exact ⟨s₁, h₁, s₃, ⟨s₂, h₂, s₃, h₃, rfl⟩, h⟩
  · rintro ⟨s₁, h₁, s₃, ⟨s₂, h₂, _, h₃, rfl⟩, h⟩
    exact ⟨s₁, h₁, s₂, h₂, _, h₃, h⟩

theorem drained_of_cleanUpPolicy (howner : w.owns a.owner = false)
    (h : s.cleanUpPolicy w a.owner a.vault policy a.remaining = .ok s') :
    Closing.Drained w a.owner {x | policy.hasPendingPolicy ∧ x = .pendingPolicy a.vault} s s' := by
  unfold Closing.cleanUpPolicy at h
  split at h
  · rename_i hflag
    simp only [bind_eq_ok, okOr_eq_ok, require_eq_ok, exists_const] at h
    obtain ⟨_, -, ⟨rfl, -⟩, hdrain⟩ := h
    simpa [hflag] using Closing.Drained.of_drain howner hdrain
  · rename_i hflag
    obtain rfl := pure_eq_ok.mp h
    simpa [hflag] using Closing.Drained.refl

theorem found_of_cleanUpPolicy (howner : a.owner.isKey)
    (h : Closing.Drained w a.owner {x | policy.hasPendingPolicy ∧ x = .pendingPolicy a.vault} s s') :
    s'.found (a.rest policy) (soughtPdas vault a.vault) = s.found (a.rest policy) (soughtPdas vault a.vault) := by
  ext x
  rw [Closing.mem_found, Closing.mem_found]
  apply and_congr_right
  intro hx
  have hne : x ≠ a.owner := by
    rintro rfl
    simp [not_isKey_of_sought hx] at howner
  have hnot : x ≠ .pendingPolicy a.vault := by
    rintro rfl
    simp [soughtPdas, AgentVault.pendingPerms] at hx
  rw [h.kept x (fun hx => hnot hx.2) hne]

theorem owner_not_sought (howner : a.owner.isKey) : a.owner ∉ soughtPdas vault a.vault := by
  intro hx
  simp [not_isKey_of_sought hx] at howner

theorem drained_of_drains (howner : a.owner.isKey) (h : a.drains w vault policy s = .ok s') :
    Closing.Drained w a.owner (a.drained vault policy s) s s' := by
  have hforeign := World.owns_of_isKey (w := w) howner
  obtain ⟨s₁, h₁, s₂, h₂, h₃⟩ := drains_eq_ok.mp h
  have hpolicy := drained_of_cleanUpPolicy hforeign h₁
  have hsought := Closing.Drained.of_run_cleanUp hforeign (owner_not_sought howner) h₂
  rw [found_of_cleanUpPolicy howner hpolicy] at hsought
  exact (hpolicy.trans hforeign hsought).trans hforeign (.of_run_drain hforeign h₃)

theorem cleanUpPolicy_iff (hs : s.Sound w) (howner : a.owner.isKey) :
    (∃ s', s.cleanUpPolicy w a.owner a.vault policy a.remaining = .ok s') ↔
      (policy.hasPendingPolicy → a.remaining.head? = some (.pendingPolicy a.vault) ∧
        0 < s.lamports (.pendingPolicy a.vault) ∧ s.Drainable w (.pendingPolicy a.vault)) := by
  have hne : Pubkey.pendingPolicy a.vault ≠ a.owner := by
    intro heq
    simp [← heq, Pubkey.isKey] at howner
  unfold Closing.cleanUpPolicy
  split
  · rename_i hflag
    simp only [bind_eq_ok, okOr_eq_ok, require_eq_ok, exists_const, hflag, forall_const]
    constructor
    · rintro ⟨s', _, hhead, ⟨rfl, hpos⟩, hdrain⟩
      exact ⟨hhead, hpos, fun _ => (Closing.drain_eq_ok.mp hdrain).2.1⟩
    · rintro ⟨hhead, hpos, hdrainable⟩
      obtain ⟨howned, hclosed⟩ := hdrainable hpos
      obtain ⟨s', hdrain⟩ := hs.exists_drain hne howned hclosed
      exact ⟨s', _, hhead, ⟨rfl, hpos⟩, hdrain⟩
  · rename_i hflag
    constructor
    · intro _ hpending
      exact absurd hpending hflag
    · intro _
      exact ⟨s, rfl⟩

/-- The accounts of a vault lie at different addresses, none of which the handler looks for. -/
theorem accountsOfVault_nodup (hv : v.isVault) : (accountsOfVault v).Nodup := by
  cases v with
  | vault owner vaultId => simp [accountsOfVault]
  | _ => cases hv

theorem not_drained_account (hv : a.vault.isVault) (hx : x ∈ accountsOfVault a.vault) :
    x ≠ .pendingPolicy a.vault ∧ x ∉ soughtPdas vault a.vault := by
  simp only [accountsOfVault, List.mem_cons, List.not_mem_nil, or_false] at hx
  rcases hx with rfl | rfl | rfl | rfl
  · generalize a.vault = v at hv
    cases v with
    | vault owner vaultId => simp [soughtPdas, AgentVault.pendingPerms]
    | _ => cases hv
  · simp [soughtPdas, AgentVault.pendingPerms]
  · simp [soughtPdas, AgentVault.pendingPerms]
  · simp [soughtPdas, AgentVault.pendingPerms]

/-- The drains go through when the account of a pending policy comes first and no account that is found belongs to
another program. -/
theorem drains_iff (hs : s.Sound w) (howner : a.owner.isKey) (hv : a.vault.isVault) (hfresh : s.closed = [])
    (haccounts : ∀ x ∈ accountsOfVault a.vault, w.owns x) :
    (∃ s', a.drains w vault policy s = .ok s') ↔
      (policy.hasPendingPolicy → a.remaining.head? = some (.pendingPolicy a.vault) ∧
        0 < s.lamports (.pendingPolicy a.vault) ∧ s.Drainable w (.pendingPolicy a.vault)) ∧
      ∀ x ∈ soughtPdas vault a.vault, x ∈ a.rest policy → s.Drainable w x := by
  have hforeign := World.owns_of_isKey (w := w) howner
  have hlater : ∀ s₁, s.cleanUpPolicy w a.owner a.vault policy a.remaining = .ok s₁ →
      ((∃ s₂, run (Closing.cleanUp w a.owner (a.rest policy)) (soughtPdas vault a.vault) s₁ = .ok s₂) ↔
        ∀ x ∈ soughtPdas vault a.vault, x ∈ a.rest policy → s.Drainable w x) := by
    intro s₁ h₁
    have hpolicy := drained_of_cleanUpPolicy hforeign h₁
    rw [(hpolicy.sound hs).run_cleanUp_iff hforeign (owner_not_sought howner)]
    apply forall₂_congr
    intro x hx
    rw [hpolicy.drainable_iff fun heq => owner_not_sought howner (heq ▸ hx)]
  rw [← cleanUpPolicy_iff hs howner]
  constructor
  · rintro ⟨s', h⟩
    obtain ⟨s₁, h₁, s₂, h₂, -⟩ := drains_eq_ok.mp h
    exact ⟨⟨s₁, h₁⟩, (hlater s₁ h₁).mp ⟨s₂, h₂⟩⟩
  · rintro ⟨⟨s₁, h₁⟩, hsought⟩
    obtain ⟨s₂, h₂⟩ := (hlater s₁ h₁).mpr hsought
    have hpolicy := drained_of_cleanUpPolicy hforeign h₁
    have hdrained := hpolicy.trans hforeign (.of_run_cleanUp hforeign (owner_not_sought howner) h₂)
    obtain ⟨s', h₃⟩ := (hdrained.sound hs).exists_run_drain hforeign (accountsOfVault_nodup hv) (by
      intro x hx
      have hnot : x ≠ .pendingPolicy a.vault ∧ x ∉ soughtPdas vault a.vault := not_drained_account hv hx
      refine ⟨haccounts x hx, ?_⟩
      rw [hdrained.closed x, hfresh]
      rintro ((⟨-, rfl⟩ | hfound) | hnil)
      · exact hnot.1 rfl
      · exact hnot.2 hfound.1
      · cases hnil)
    exact ⟨s', drains_eq_ok.mpr ⟨s₁, h₁, s₂, h₂, h₃⟩⟩

/-! ## The handler closes the vault -/

/-- What the remaining accounts amount to. -/
def request (a : CloseVaultAccounts) (c : Chain) (vault : AgentVault) (policy : PolicyConfig) : CloseVault :=
  { owner := a.owner
    vault := a.vault
    closesPendingPolicy := policy.hasPendingPolicy
    closesPendingAgentPerms := (vault.agents.map AgentEntry.pubkey).filter fun agent =>
      .pendingAgentPerms a.vault agent ∈ a.rest policy ∧ 0 < c.lamports (.pendingAgentPerms a.vault agent)
    closesPendingCloseConstraints :=
      .pendingCloseConstraints a.vault ∈ a.rest policy ∧ 0 < c.lamports (.pendingCloseConstraints a.vault) }

theorem without_eq_update {α : Type} {f : Pubkey → Option α} {y : Pubkey} {P : Pubkey → Prop} [DecidablePred P]
    (h : ∀ x, P x ↔ x = y) : (fun x => if P x then none else f x) = Function.update f y none := by
  funext x
  by_cases hx : x = y
  · rw [if_pos ((h x).mpr hx), hx, Function.update_self]
  · rw [if_neg (mt (h x).mp hx), Function.update_of_ne hx]

theorem mem_drained : x ∈ a.drained vault policy s ↔
    (policy.hasPendingPolicy ∧ x = .pendingPolicy a.vault) ∨
      (x ∈ soughtPdas vault a.vault ∧ x ∈ a.rest policy ∧ 0 < s.lamports x) ∨ x ∈ accountsOfVault a.vault := by
  simp only [drained, Set.mem_union, Set.mem_ofPred_eq, Closing.mem_found, or_assoc]

theorem ne_vault (hv : a.vault.isVault) (hx : x.isVault = false) : x ≠ a.vault := by
  rintro rfl
  simp [hx] at hv

theorem vault_mem_drained (hv : a.vault.isVault) : x.isVault ∧ x ∈ a.drained vault policy s ↔ x = a.vault := by
  constructor
  · rintro ⟨hx, hdrained⟩
    cases x with
    | vault owner vaultId => simpa [mem_drained, soughtPdas, AgentVault.pendingPerms, accountsOfVault] using hdrained
    | _ => cases hx
  · rintro rfl
    exact ⟨hv, mem_drained.mpr (.inr (.inr List.mem_cons_self))⟩

/-- The accounts of a vault beside its own. -/
theorem store_mem_drained {store : Pubkey → Pubkey} (hv : a.vault.isVault)
    (hstore : store ∈ [Pubkey.policy, .tracker, .agentSpend]) : store x ∈ a.drained vault policy s ↔ x = a.vault := by
  simp only [List.mem_cons, List.not_mem_nil, or_false] at hstore
  rcases hstore with rfl | rfl | rfl
  · have hne : .policy x ≠ a.vault := ne_vault hv rfl
    simp [mem_drained, soughtPdas, AgentVault.pendingPerms, accountsOfVault, hne]
  · have hne : .tracker x ≠ a.vault := ne_vault hv rfl
    simp [mem_drained, soughtPdas, AgentVault.pendingPerms, accountsOfVault, hne]
  · have hne : .agentSpend x ≠ a.vault := ne_vault hv rfl
    simp [mem_drained, soughtPdas, AgentVault.pendingPerms, accountsOfVault, hne]

theorem pendingPolicy_mem_drained (hv : a.vault.isVault) :
    .pendingPolicy x ∈ a.drained vault policy s ↔ policy.hasPendingPolicy ∧ x = a.vault := by
  have hne : .pendingPolicy x ≠ a.vault := ne_vault hv rfl
  simp [mem_drained, soughtPdas, AgentVault.pendingPerms, accountsOfVault, hne]

theorem agentPerms_mem_drained {c : Chain} (hv : a.vault.isVault) :
    x.isPendingAgentPerms ∧ x ∈ a.drained vault policy { lamports := c.lamports } ↔
      (a.request c vault policy).clearsAgentPerms vault x := by
  cases x with
  | pendingAgentPerms y agent =>
      have hne : .pendingAgentPerms y agent ≠ a.vault := ne_vault hv rfl
      simp only [mem_drained, soughtPdas, AgentVault.pendingPerms, accountsOfVault, CloseVault.clearsAgentPerms,
        request, AgentVault.isAgent, List.any_eq_true, List.mem_filter, List.mem_append, List.mem_map, List.mem_cons,
        List.not_mem_nil, Bool.and_eq_true, decide_eq_true_eq, Pubkey.pendingAgentPerms.injEq, reduceCtorEq, hne,
        Pubkey.isPendingAgentPerms, and_false, or_false, false_or, true_and]
      constructor
      · rintro ⟨⟨entry, hentry, rfl, rfl⟩, hrest⟩
        exact ⟨_, ⟨⟨entry, hentry, rfl⟩, hrest⟩, ⟨entry, hentry, rfl⟩, rfl, rfl⟩
      · rintro ⟨_, ⟨⟨entry, hentry, rfl⟩, hrest⟩, -, rfl, rfl⟩
        exact ⟨⟨entry, hentry, rfl, rfl⟩, hrest⟩
  | _ => simp [Pubkey.isPendingAgentPerms, CloseVault.clearsAgentPerms]

theorem closeConstraints_mem_drained {c : Chain} (hv : a.vault.isVault) :
    .pendingCloseConstraints x ∈ a.drained vault policy { lamports := c.lamports } ↔
      (a.request c vault policy).closesPendingCloseConstraints ∧ x = a.vault := by
  have hne : .pendingCloseConstraints x ≠ a.vault := ne_vault hv rfl
  simp only [mem_drained, soughtPdas, AgentVault.pendingPerms, accountsOfVault, request, List.mem_append, List.mem_map,
    List.mem_cons, List.not_mem_nil, decide_eq_true_eq, Pubkey.pendingCloseConstraints.injEq, reduceCtorEq, hne,
    and_false, exists_false, or_false, false_or]
  constructor
  · rintro ⟨rfl, hfound⟩
    exact ⟨hfound, rfl⟩
  · rintro ⟨hfound, rfl⟩
    exact ⟨rfl, hfound⟩

theorem without_eq_ite {α : Type} {f : Pubkey → Option α} {y : Pubkey} {flag : Bool} {P : Pubkey → Prop}
    [DecidablePred P] (h : ∀ x, P x ↔ flag ∧ x = y) :
    (fun x => if P x then none else f x) = if flag then Function.update f y none else f := by
  cases flag with
  | false =>
      funext x
      exact if_neg fun hx => by simpa using (h x).mp hx
  | true => exact without_eq_update fun x => by simpa using h x

theorem withoutAccounts_eq {c : Chain} (hv : a.vault.isVault)
    (hclosed : ∀ x, x ∈ s.closed ↔ x ∈ a.drained vault policy { lamports := c.lamports }) :
    c.world.withoutAccounts s.closed = c.world.withoutVault (a.request c vault policy) vault policy := by
  have hvaults : ∀ x : Pubkey, x.isVault ∧ x ∈ s.closed ↔ x = a.vault := by
    intro x
    rw [hclosed, vault_mem_drained hv]
  have hstore : ∀ store ∈ [Pubkey.policy, .tracker, .agentSpend], ∀ x, store x ∈ s.closed ↔ x = a.vault := by
    intro store hmem x
    rw [hclosed, store_mem_drained hv hmem]
  have hpending : ∀ x, .pendingPolicy x ∈ s.closed ↔ policy.hasPendingPolicy ∧ x = a.vault := by
    intro x
    rw [hclosed, pendingPolicy_mem_drained hv]
  have hperms : ∀ x : Pubkey, x.isPendingAgentPerms ∧ x ∈ s.closed ↔
      (a.request c vault policy).clearsAgentPerms vault x := by
    intro x
    rw [hclosed, agentPerms_mem_drained hv]
  have hclose : ∀ x, .pendingCloseConstraints x ∈ s.closed ↔
      (a.request c vault policy).closesPendingCloseConstraints ∧ x = a.vault := by
    intro x
    rw [hclosed, closeConstraints_mem_drained hv]
  simp only [World.withoutAccounts, World.withoutVault, without_eq_update hvaults,
    without_eq_update (hstore Pubkey.policy (by simp)), without_eq_update (hstore Pubkey.tracker (by simp)),
    without_eq_update (hstore Pubkey.agentSpend (by simp)), without_eq_ite hpending, without_eq_ite hclose, hperms]
  rfl

/-- Whatever the remaining accounts are, the handler does what `closeVault` says of them. -/
theorem exec_refines {c c' : Chain} (hkeys : ∀ k ∈ ctx.signers, k.isKey = true) (h : a.exec ctx c = .ok c') :
    ∃ vault policy, c.world.vaults a.vault = some vault ∧ c.world.policies a.vault = some policy ∧
      closeVault ctx (a.request c vault policy) c.world = .ok c'.world := by
  simp only [exec, bind_eq_ok, require_eq_ok, exists_const, pure_eq_ok, World.loadOwnedVault_eq_ok] at h
  obtain ⟨vault, howned, policy, hp, tracker, ht, overlay, ho, hstatus, hescrows, hsessions, hconstraints, s, hs,
    rfl⟩ := h
  have howner := hkeys _ howned.signer
  have hv : a.vault.isVault := isVault_of_address howned.address
  have hdrained := drained_of_drains howner hs
  have hpending : policy.hasPendingPolicy → (c.world.pendingPolicies a.vault).isSome := by
    intro hflag
    exact (hdrained.owned (.pendingPolicy a.vault) (.inl (.inl ⟨hflag, rfl⟩))).1
  have hclosed : ∀ x, x ∈ s.closed ↔ x ∈ a.drained vault policy { lamports := c.lamports } := by
    intro x
    simp [hdrained.closed x]
  refine ⟨vault, policy, howned.found, World.loadPolicy_eq_ok.mp hp, ?_⟩
  rw [withoutAccounts_eq hv hclosed]
  simp only [closeVault, bind_eq_ok, require_eq_ok, exists_const, pure_eq_ok, World.loadOwnedVault_eq_ok]
  exact ⟨vault, howned, policy, hp, tracker, ht, overlay, ho, hstatus, hescrows, hsessions, hconstraints,
    fun hflag => ⟨hflag, hpending hflag⟩, rfl⟩

end CloseVaultAccounts

/-! ## The kit -/

/-- Accounts of the program have lamports, and a 64-bit word counts all lamports there are. -/
structure Chain.Sound (c : Chain) : Prop where
  rentExempt : ∀ x, c.world.owns x → 0 < c.lamports x
  supply : ∀ l : Finset Pubkey, ∑ x ∈ l, c.lamports x ≤ uMax 64

theorem Chain.Sound.closing {c : Chain} (h : c.Sound) : Closing.Sound c.world { lamports := c.lamports } :=
  ⟨fun x hx _ => h.rentExempt x hx, h.supply⟩

structure ClosingGates (vault : AgentVault) (policy : PolicyConfig) : Prop where
  status : vault.status ≠ .closed
  escrows : vault.activeEscrowCount = 0
  sessions : vault.activeSessions = 0
  constraints : policy.hasConstraints = false

/-- Nothing but accounts of the program lies where the kit and the handler look for them, and an account of
constraints has its full length. -/
structure Chain.Tidy (c : Chain) (v : Pubkey) (vault : AgentVault) : Prop where
  agentPerms : ∀ entry ∈ vault.agents, 0 < c.lamports (.pendingAgentPerms v entry.pubkey) →
    (c.world.pendingAgentPerms (.pendingAgentPerms v entry.pubkey)).isSome
  closeConstraints : 0 < c.lamports (.pendingCloseConstraints v) → (c.world.pendingCloseConstraints v).isSome
  constraints : 0 < c.lamports (.constraints v) →
    ∃ account, c.world.constraints v = some account ∧ instructionConstraintsSize ≤ account.size

structure Chain.Live (c : Chain) (v : Pubkey) (vault : AgentVault) (policy : PolicyConfig) : Prop where
  sound : c.Sound
  found : c.world.vaults v = some vault
  address : v = vault.address
  policyFound : c.world.policies v = some policy
  tracker : (c.world.trackers v).isSome
  overlay : (c.world.overlays v).isSome
  pending : policy.hasPendingPolicy → (c.world.pendingPolicies v).isSome

section
variable {c : Chain} {x : Pubkey}

theorem live_run {steps : List Step} (hrun : run Step.exec steps {} = .ok c.world) (hsound : c.Sound)
    (hv : c.world.vaults v = some vault) (hp : c.world.policies v = some policy) : c.Live v vault policy where
  sound := hsound
  found := hv
  address := run_vaults_address (by simp) hrun v vault hv
  policyFound := hp
  tracker := (stores_run hrun hv).1
  overlay := (stores_run hrun hv).2
  pending := by
    rw [(policyInv_run hrun v).flag policy hp]
    exact id

theorem Chain.Live.isVault (h : c.Live v vault policy) : v.isVault := isVault_of_address h.address

theorem Chain.Live.owns (h : c.Live v vault policy) : ∀ x ∈ accountsOfVault v, c.world.owns x := by
  simp [accountsOfVault, World.owns_vault h.isVault, h.found, h.policyFound, h.tracker, h.overlay]

theorem Chain.Live.pending_pos (h : c.Live v vault policy) (hflag : policy.hasPendingPolicy) :
    0 < c.lamports (.pendingPolicy v) :=
  h.sound.rentExempt _ (by simpa using h.pending hflag)

/-! ### Reading -/

theorem decodeMaybe_some {α : Type} {a : α} (h : 0 < c.lamports x) : Sdk.decodeMaybe c x (some a) = .ok (some a) := by
  simp [Sdk.decodeMaybe, Sdk.accountExists, h, pure, Except.pure]

theorem exists_decodeMaybe_iff {α : Type} {account : Option α} :
    (∃ o, Sdk.decodeMaybe c x account = .ok o) ↔ (0 < c.lamports x → account.isSome) := by
  unfold Sdk.decodeMaybe Sdk.accountExists
  cases account with
  | none => by_cases h : 0 < c.lamports x <;> simp [h]
  | some a => by_cases h : 0 < c.lamports x <;> simp [h]

theorem decodableConstraints_isSome_iff : (Sdk.decodableConstraints w v).isSome ↔
    ∃ account, w.constraints v = some account ∧ instructionConstraintsSize ≤ account.size := by
  simp [Sdk.decodableConstraints, Option.isSome_filter, Option.any_eq_true]

/-- All that the read of a vault can fail at is the account of constraints. -/
theorem resolveVaultState_eq_ok {vault' : AgentVault} (h : c.Live v vault policy) :
    Sdk.resolveVaultStateForOwner c v = .ok vault' ↔ (0 < c.lamports (.constraints v) →
      ∃ account, c.world.constraints v = some account ∧ instructionConstraintsSize ≤ account.size) ∧
      vault = vault' := by
  obtain ⟨tracker, ht⟩ := Option.isSome_iff_exists.mp h.tracker
  obtain ⟨overlay, ho⟩ := Option.isSome_iff_exists.mp h.overlay
  have hdecodes : ∀ {α : Type} {x : Pubkey} {a : α}, x ∈ accountsOfVault v →
      Sdk.decodeMaybe c x (some a) = .ok (some a) := fun hx => decodeMaybe_some (h.sound.rentExempt _ (h.owns _ hx))
  rw [← decodableConstraints_isSome_iff, ← exists_decodeMaybe_iff]
  simp only [Sdk.resolveVaultStateForOwner, h.found, h.policyFound, ht, ho, bind_eq_ok, okOr_eq_ok, pure_eq_ok]
  constructor
  · rintro ⟨_, hvault, _, rfl, _, -, _, -, _, -, _, -, o, hconstraints, rfl⟩
    cases hvault.symm.trans (hdecodes (by simp [accountsOfVault]))
    exact ⟨⟨o, hconstraints⟩, rfl⟩
  · rintro ⟨⟨o, hconstraints⟩, rfl⟩
    exact ⟨_, hdecodes (by simp [accountsOfVault]), _, rfl, _, hdecodes (by simp [accountsOfVault]), _, rfl,
      _, hdecodes (by simp [accountsOfVault]), _, hdecodes (by simp [accountsOfVault]), o, hconstraints, rfl⟩

/-- The instruction that the kit builds. -/
def kitAccounts (c : Chain) (v : Pubkey) (vault : AgentVault) : CloseVaultAccounts :=
  { owner := vault.owner, vault := v, remaining := Sdk.remainingAccounts c vault v }

theorem closeVault_eq_ok {a : CloseVaultAccounts} (h : c.Live v vault policy) :
    Sdk.closeVault c v vault.owner = .ok a ↔ (0 < c.lamports (.constraints v) →
      ∃ account, c.world.constraints v = some account ∧ instructionConstraintsSize ≤ account.size) ∧
      a = kitAccounts c v vault := by
  simp only [Sdk.closeVault, bind_eq_ok, pure_eq_ok, resolveVaultState_eq_ok h]
  constructor
  · rintro ⟨_, ⟨hconstraints, rfl⟩, rfl⟩
    exact ⟨hconstraints, rfl⟩
  · rintro ⟨hconstraints, rfl⟩
    exact ⟨vault, ⟨hconstraints, rfl⟩, rfl⟩

/-! ### Executing -/

/-- The account of a pending policy comes first, and what is sought among the others are the accounts that exist. -/
theorem mem_rest_iff (h : c.Live v vault policy) (hx : x ∈ CloseVaultAccounts.soughtPdas vault v) :
    x ∈ (kitAccounts c v vault).rest policy ↔ 0 < c.lamports x := by
  have hall : Sdk.allPdas vault v = .pendingPolicy v :: CloseVaultAccounts.soughtPdas vault v := rfl
  have hmem : x ∈ (CloseVaultAccounts.soughtPdas vault v).filter (Sdk.accountExists c) ↔ 0 < c.lamports x := by
    simp [hx, Sdk.accountExists]
  have hne : x ≠ .pendingPolicy v := by
    rintro rfl
    simp [CloseVaultAccounts.soughtPdas, AgentVault.pendingPerms] at hx
  rw [CloseVaultAccounts.rest, kitAccounts, Sdk.remainingAccounts, hall]
  by_cases hpos : 0 < c.lamports (.pendingPolicy v)
  · have hexists : Sdk.accountExists c (.pendingPolicy v) := decide_eq_true hpos
    rw [List.filter_cons_of_pos hexists]
    split
    · rw [List.drop_one, List.tail_cons, hmem]
    · rw [List.drop_zero, List.mem_cons, hmem]
      simp [hne]
  · have hexists : ¬ Sdk.accountExists c (.pendingPolicy v) := by simpa [Sdk.accountExists] using hpos
    rw [List.filter_cons_of_neg hexists, if_neg (mt h.pending_pos hpos), List.drop_zero, hmem]

theorem head_remaining (h : 0 < c.lamports (.pendingPolicy v)) :
    (kitAccounts c v vault).remaining.head? = some (.pendingPolicy v) := by
  have hexists : Sdk.accountExists c (.pendingPolicy v) := decide_eq_true h
  simp [kitAccounts, Sdk.remainingAccounts, Sdk.allPdas, hexists]

theorem exists_exec_iff (h : c.Live v vault policy) (hgates : ClosingGates vault policy)
    (hsigner : vault.owner ∈ ctx.signers) (hkeys : ∀ k ∈ ctx.signers, k.isKey = true) :
    (∃ c', (kitAccounts c v vault).exec ctx c = .ok c') ↔
      ∀ x ∈ CloseVaultAccounts.soughtPdas vault v, 0 < c.lamports x → c.world.owns x := by
  obtain ⟨tracker, ht⟩ := Option.isSome_iff_exists.mp h.tracker
  obtain ⟨overlay, ho⟩ := Option.isSome_iff_exists.mp h.overlay
  have howned : Owned c.world ctx vault.owner v vault := ⟨hsigner, h.found, h.address, rfl⟩
  have hexec : (∃ c', (kitAccounts c v vault).exec ctx c = .ok c') ↔
      ∃ s', (kitAccounts c v vault).drains c.world vault policy { lamports := c.lamports } = .ok s' := by
    simp only [CloseVaultAccounts.exec, bind_eq_ok, require_eq_ok, exists_const, pure_eq_ok,
      World.loadOwnedVault_eq_ok, World.loadPolicy_eq_ok, World.loadTracker_eq_ok, World.loadOverlay_eq_ok]
    constructor
    · rintro ⟨c', vault', howned', policy', hp', _, -, _, -, -, -, -, -, s', hs', -⟩
      cases h.found.symm.trans howned'.found
      cases h.policyFound.symm.trans hp'
      exact ⟨s', hs'⟩
    · rintro ⟨s', hs'⟩
      exact ⟨_, vault, howned, policy, h.policyFound, tracker, ht, overlay, ho, hgates.status, hgates.escrows,
        hgates.sessions, hgates.constraints, s', hs', rfl⟩
  have hpolicy : policy.hasPendingPolicy →
      (kitAccounts c v vault).remaining.head? = some (.pendingPolicy v) ∧ 0 < c.lamports (.pendingPolicy v) ∧
        Closing.Drainable c.world { lamports := c.lamports } (.pendingPolicy v) := by
    intro hflag
    have hpos := h.pending_pos hflag
    exact ⟨head_remaining hpos, hpos, fun _ => ⟨by simpa using h.pending hflag, by simp⟩⟩
  rw [hexec, CloseVaultAccounts.drains_iff h.sound.closing (hkeys _ hsigner) h.isVault rfl h.owns]
  constructor
  · rintro ⟨-, hsought⟩ x hx hpos
    exact (hsought x hx ((mem_rest_iff h hx).mpr hpos) hpos).1
  · intro hsought
    exact ⟨hpolicy, fun x hx _ hpos => ⟨hsought x hx hpos, by simp⟩⟩

end

/-- The kit closes a vault whose gates hold exactly when its sought addresses are tidy: an account that is merely
funded there is passed and cannot be drained, and one at the address of the constraints is not read. -/
theorem closeVault_succeeds_iff {steps : List Step} {c : Chain} (hrun : run Step.exec steps {} = .ok c.world)
    (hsound : c.Sound) (hv : c.world.vaults v = some vault) (hp : c.world.policies v = some policy)
    (hgates : ClosingGates vault policy) (hsigner : vault.owner ∈ ctx.signers)
    (hkeys : ∀ k ∈ ctx.signers, k.isKey = true) :
    (∃ a c', Sdk.closeVault c v vault.owner = .ok a ∧ a.exec ctx c = .ok c') ↔ c.Tidy v vault := by
  have h := live_run hrun hsound hv hp
  have hexec := exists_exec_iff h hgates hsigner hkeys
  constructor
  · rintro ⟨a, c', hread, hclosed⟩
    obtain ⟨hconstraints, rfl⟩ := (closeVault_eq_ok h).mp hread
    have hsought := hexec.mp ⟨c', hclosed⟩
    exact {
      agentPerms := by
        intro entry hentry hpos
        simpa using hsought (.pendingAgentPerms v entry.pubkey)
          (List.mem_append_left _ (List.mem_map_of_mem hentry)) hpos
      closeConstraints := by
        intro hpos
        simpa using hsought (.pendingCloseConstraints v) (by simp [CloseVaultAccounts.soughtPdas]) hpos
      constraints := hconstraints }
  · intro htidy
    have hsought : ∀ x ∈ CloseVaultAccounts.soughtPdas vault v, 0 < c.lamports x → c.world.owns x := by
      intro x hx hpos
      rcases List.mem_append.mp hx with hx | hx
      · obtain ⟨entry, hentry, rfl⟩ := List.mem_map.mp hx
        exact htidy.agentPerms entry hentry hpos
      · obtain rfl := List.mem_singleton.mp hx
        exact htidy.closeConstraints hpos
    obtain ⟨c', hclosed⟩ := hexec.mpr hsought
    exact ⟨_, c', (closeVault_eq_ok h).mpr ⟨htidy.constraints, rfl⟩, hclosed⟩

/-! ### A vault with one agent -/

def fundedAt (w : World) (l : List Pubkey) : Chain := { world := w, lamports := fun x => if x ∈ l then 1 else 0 }

theorem fundedAt_sound {w : World} {l : List Pubkey} (howns : ∀ x, w.owns x → x ∈ l) (hl : l.length ≤ uMax 64) :
    (fundedAt w l).Sound where
  rentExempt x hx := by
    simp [fundedAt, howns x hx]
  supply s := by
    have hsubset : s.filter (· ∈ l) ⊆ l.toFinset := by
      intro x hx
      simpa using (Finset.mem_filter.mp hx).2
    calc ∑ x ∈ s, (fundedAt w l).lamports x = (s.filter (· ∈ l)).card := by
          simp [fundedAt]
      _ ≤ l.toFinset.card := Finset.card_le_card hsubset
      _ ≤ l.length := l.toFinset_card_le
      _ ≤ uMax 64 := hl

def staffedRun : List Step :=
  [.ofKey payClock 1 (Instruction.initializeVault payVault).toTopLevel,
   .ofKey payClock 1 (Instruction.registerAgent
    { owner := .key 1, vault := payVault.vault, agent := .key 3, capability := 2, spendingLimitUsd := 0 }).toTopLevel]

theorem staffedRun_ok : ∃ w vault policy, run Step.exec staffedRun {} = .ok w ∧
    w.vaults payVault.vault = some vault ∧ w.policies payVault.vault = some policy ∧
    vault.owner = .key 1 ∧ vault.agents.map AgentEntry.pubkey = [.key 3] ∧
    ClosingGates vault policy ∧ (∀ x, w.owns x → x ∈ accountsOfVault payVault.vault) := by
  refine ⟨_, _, _, rfl, rfl, rfl, rfl, rfl, ⟨by decide, rfl, rfl, rfl⟩, fun x hx => ?_⟩
  by_contra hnot
  cases x with
  | vault owner vaultId =>
      have hne : Pubkey.vault owner vaultId ≠ payVault.vault := fun heq => hnot (by simp [accountsOfVault, heq])
      simp [World.owns, World.setVault, World.setOverlay, hne] at hx
  | policy v =>
      have hne : v ≠ payVault.vault := fun heq => hnot (by simp [accountsOfVault, heq])
      simp [World.owns, World.setVault, World.setOverlay, hne] at hx
  | tracker v =>
      have hne : v ≠ payVault.vault := fun heq => hnot (by simp [accountsOfVault, heq])
      simp [World.owns, World.setVault, World.setOverlay, hne] at hx
  | agentSpend v =>
      have hne : v ≠ payVault.vault := fun heq => hnot (by simp [accountsOfVault, heq])
      simp [World.owns, World.setVault, World.setOverlay, hne] at hx
  | _ => cases hx

def closingSigners : Ctx := { clock := payClock, signers := [.key 1] }

theorem closeVault_succeeds_unfunded : ∃ w vault, run Step.exec staffedRun {} = .ok w ∧
    w.vaults payVault.vault = some vault ∧
    ∃ a c', Sdk.closeVault (fundedAt w (accountsOfVault payVault.vault)) payVault.vault vault.owner = .ok a ∧
      a.exec closingSigners (fundedAt w (accountsOfVault payVault.vault)) = .ok c' := by
  obtain ⟨w, vault, policy, hrun, hv, hp, howner, hagents, hgates, howns⟩ := staffedRun_ok
  have hsound := fundedAt_sound howns (by decide)
  refine ⟨w, vault, hrun, hv, (closeVault_succeeds_iff (c := fundedAt w (accountsOfVault payVault.vault)) hrun hsound hv
    hp hgates (by simp [closingSigners, howner]) (by simp [closingSigners, Pubkey.isKey])).mpr ?_⟩
  constructor
  · intro entry _ hpos
    simp [fundedAt, accountsOfVault, InitializeVault.vault] at hpos
  · intro hpos
    simp [fundedAt, accountsOfVault, InitializeVault.vault] at hpos
  · intro hpos
    simp [fundedAt, accountsOfVault, InitializeVault.vault] at hpos

/-- Somebody sends a lamport to the address of the pending permissions of key 3, for which nothing is queued. -/
theorem funded_perms_block_closing : ∃ w vault policy c, run Step.exec staffedRun {} = .ok w ∧ c.world = w ∧ c.Sound ∧
    w.vaults payVault.vault = some vault ∧ w.policies payVault.vault = some policy ∧ ClosingGates vault policy ∧
    vault.owner ∈ closingSigners.signers ∧
    ¬ ∃ a c', Sdk.closeVault c payVault.vault vault.owner = .ok a ∧ a.exec closingSigners c = .ok c' := by
  obtain ⟨w, vault, policy, hrun, hv, hp, howner, hagents, hgates, howns⟩ := staffedRun_ok
  let pda : Pubkey := .pendingAgentPerms payVault.vault (.key 3)
  let c := fundedAt w (pda :: accountsOfVault payVault.vault)
  have hsound : c.Sound := fundedAt_sound (fun x hx => List.mem_cons_of_mem _ (howns x hx)) (by decide)
  have hsigner : vault.owner ∈ closingSigners.signers := by simp [closingSigners, howner]
  have h : c.Live payVault.vault vault policy := live_run hrun hsound hv hp
  have hexec := exists_exec_iff h hgates hsigner (by simp [closingSigners, Pubkey.isKey])
  refine ⟨w, vault, policy, c, hrun, rfl, hsound, hv, hp, hgates, hsigner, ?_⟩
  rintro ⟨a, c', hread, hclosed⟩
  obtain ⟨-, rfl⟩ := (closeVault_eq_ok h).mp hread
  have hpda : pda ∈ CloseVaultAccounts.soughtPdas vault payVault.vault := by
    obtain ⟨entry, hentry, hkey⟩ : ∃ entry ∈ vault.agents, entry.pubkey = .key 3 := by
      rw [← List.mem_map, hagents]
      exact List.mem_singleton_self _
    exact List.mem_append_left _ (List.mem_map.mpr ⟨entry, hentry, by rw [hkey]⟩)
  have howned := hexec.mp ⟨c', hclosed⟩ pda hpda (by simp [c, fundedAt])
  have hmem := howns pda howned
  simp [pda, accountsOfVault, InitializeVault.vault] at hmem

end Sigil
