import Sigil.Library.Totals
import Sigil.Lemmas.EscrowInv
import Sigil.Lemmas.Signing
import Sigil.Theorems.Bookkeeping

/-!
# The program neither makes nor loses tokens

The accounts of a mint hold its supply together. An instruction of the program moves tokens between accounts, so it
leaves every supply and every total alone, and no balance outgrows its 64 bits. What lies in an account of a vault the
owner can take out, whatever the agents have done.
-/

namespace Sigil

open Library

def TokenAccount.heldIn (account : TokenAccount) (m : Pubkey) : Nat := if account.mint = m then account.amount else 0

namespace Ledger

variable {l l' l'' : Ledger} {x m : Pubkey} {account account' : TokenAccount}

/-- What an account holds in one mint. -/
def held (l : Ledger) (m x : Pubkey) : Nat := (l.accounts x).elim 0 fun account => account.heldIn m

noncomputable def circulating (l : Ledger) (m : Pubkey) : Nat := ∑ᶠ x, l.held m x

def FinitelyMany (l : Ledger) : Prop := {x | l.accounts x ≠ none}.Finite

/-- The accounts of each mint hold its supply, which fits its 64 bits. -/
structure Backed (l : Ledger) : Prop where
  finite : l.FinitelyMany
  supply : ∀ m, l.circulating m = (l.mints m).elim 0 Mint.supply
  fits : ∀ m mint, l.mints m = some mint → mint.supply ≤ uMax 64

/-- What a ledger becomes when tokens only move. -/
structure Conserves (l l' : Ledger) : Prop where
  mints : l'.mints = l.mints
  finite : l.FinitelyMany → l'.FinitelyMany
  circulating : l.FinitelyMany → ∀ m, l'.circulating m = l.circulating m

/-! ## One account -/

theorem held_of_some (hx : l.accounts x = some account) : l.held m x = account.heldIn m := by simp [held, hx]

theorem held_of_none (hx : l.accounts x = none) : l.held m x = 0 := by simp [held, hx]

theorem held_setAccount : (l.setAccount x account).held m = Function.update (l.held m) x (account.heldIn m) := by
  funext y
  rcases eq_or_ne y x with rfl | hne
  · simp [held, setAccount]
  · simp [held, setAccount, Function.update_of_ne hne]

theorem FinitelyMany.support (h : l.FinitelyMany) (m : Pubkey) : (Function.support (l.held m)).Finite :=
  h.subset fun _ hx hnone => hx (held_of_none hnone)

theorem FinitelyMany.update (h : l.FinitelyMany) (o : Option TokenAccount) :
    FinitelyMany { l with accounts := Function.update l.accounts x o } := by
  refine (h.insert x).subset fun y hy => ?_
  rcases eq_or_ne y x with rfl | hne
  · exact Set.mem_insert y _
  · have hbefore : l.accounts y ≠ none := by
      intro hnone
      exact hy ((Function.update_of_ne hne o l.accounts).trans hnone)
    exact Set.mem_insert_of_mem x hbefore

theorem circulating_setAccount (h : l.FinitelyMany) (x m : Pubkey) (account : TokenAccount) :
    (l.setAccount x account).circulating m + l.held m x = l.circulating m + account.heldIn m := by
  rw [circulating, held_setAccount]
  exact total_update (h.support m) x (account.heldIn m)

theorem held_le_circulating (h : l.FinitelyMany) : l.held m x ≤ l.circulating m := le_total (h.support m) x

theorem heldIn_add {account' : TokenAccount} {n : Nat} (hmint : account'.mint = account.mint)
    (hamount : account'.amount = account.amount + n) (m : Pubkey) :
    account'.heldIn m = account.heldIn m + if account.mint = m then n else 0 := by
  simp only [TokenAccount.heldIn, hmint, hamount]
  split <;> rfl

/-! ## Instructions that move tokens -/

namespace Conserves

theorem refl (l : Ledger) : Conserves l l := ⟨rfl, id, fun _ _ => rfl⟩

theorem trans (h : Conserves l l') (h' : Conserves l' l'') : Conserves l l'' where
  mints := h'.mints.trans h.mints
  finite hl := h'.finite (h.finite hl)
  circulating hl m := (h'.circulating (h.finite hl) m).trans (h.circulating hl m)

/-- An account that holds what it has held. -/
theorem setAccount (h : ∀ m, account.heldIn m = l.held m x) : Conserves l (l.setAccount x account) where
  mints := rfl
  finite hl := hl.update _
  circulating hl m := by
    have htotal := circulating_setAccount hl x m account
    rw [h m] at htotal
    exact Nat.add_right_cancel htotal

theorem setAccount_of_amount (hx : l.accounts x = some account) (hmint : account'.mint = account.mint)
    (hamount : account'.amount = account.amount) : Conserves l (l.setAccount x account') := by
  refine setAccount fun m => ?_
  rw [held_of_some hx, TokenAccount.heldIn, TokenAccount.heldIn, hmint, hamount]

theorem initializeAccount {mint owner : Pubkey} (h : l.initializeAccount x mint owner = .ok l') : Conserves l l' := by
  obtain ⟨hnone, -, rfl⟩ := initializeAccount_ok h
  refine setAccount fun m => ?_
  rw [held_of_none hnone, TokenAccount.heldIn]
  exact ite_self 0

theorem transfer {source destination authority : Pubkey} {n : Nat}
    (h : l.transfer source destination authority n = .ok l') : Conserves l l' := by
  obtain ⟨src, dst, src', hsrc, hdst, -, hn, hmint, hdebit, rfl⟩ := transfer_ok h
  obtain ⟨-, heq, -⟩ := debit_ok hdebit
  split
  · exact refl l
  · rename_i hne
    refine ⟨rfl, fun hl => (hl.update _).update _, fun hl m => ?_⟩
    -- the source loses what the destination gains, in the mint of both
    have hmid : (l.setAccount source src').FinitelyMany := hl.update _
    have hout := circulating_setAccount hl source m src'
    have hin := circulating_setAccount hmid destination m (credit dst n)
    have hdst' : (l.setAccount source src').accounts destination = some dst := by
      rw [setAccount_accounts, if_neg (Ne.symm hne), hdst]
    have hlost : src.heldIn m = src'.heldIn m + if src'.mint = m then n else 0 := by
      refine heldIn_add (by rw [heq]) ?_ m
      rw [heq]
      exact (Nat.sub_add_cancel hn).symm
    have hgained : (credit dst n).heldIn m = dst.heldIn m + if dst.mint = m then n else 0 :=
      heldIn_add (by rfl) (by rfl) m
    have hsame : src'.mint = dst.mint := by rw [heq, ← hmint]
    rw [held_of_some hsrc, hlost, hsame] at hout
    rw [held_of_some hdst', hgained] at hin
    omega

theorem approve {delegate authority : Pubkey} {n : Nat} (h : l.approve x delegate authority n = .ok l') :
    Conserves l l' := by
  obtain ⟨account, hx, -, -, rfl⟩ := approve_ok h
  exact setAccount_of_amount hx rfl rfl

theorem revoke {authority : Pubkey} (h : l.revoke x authority = .ok l') : Conserves l l' := by
  obtain ⟨account, hx, -, -, rfl⟩ := revoke_ok h
  exact setAccount_of_amount hx rfl rfl

theorem closeAccount {authority : Pubkey} (h : l.closeAccount x authority = .ok l') : Conserves l l' := by
  obtain ⟨account, hx, hzero, -, rfl⟩ := closeAccount_ok h
  refine ⟨rfl, fun hl => hl.update _, fun _ m => ?_⟩
  have hheld : held { l with accounts := Function.update l.accounts x none } m = l.held m := by
    funext y
    rcases eq_or_ne y x with rfl | hne
    · rw [held_of_some hx, TokenAccount.heldIn, hzero, ite_self]
      simp [held]
    · simp [held, Function.update_of_ne hne]
  rw [Ledger.circulating, hheld]
  rfl

theorem ensureAssociated {owner mint : Pubkey} (h : Sigil.ensureAssociated l owner mint = .ok l') : Conserves l l' := by
  unfold Sigil.ensureAssociated at h
  split at h
  · exact initializeAccount h
  · simp only [bind_eq_ok, require_eq_ok, exists_and_left, exists_const, pure_eq_ok] at h
    obtain ⟨-, -, rfl⟩ := h
    exact refl l

theorem collectFee {source a owner mint : Pubkey} {destination : Option Pubkey} {fee : Nat} {e : SigilError}
    (h : Sigil.collectFee l source a destination owner mint fee e = .ok l') : Conserves l l' := by
  unfold Sigil.collectFee at h
  split at h
  · simp only [bind_eq_ok, require_eq_ok, exists_and_left, exists_const] at h
    obtain ⟨_, -, _, -, -, -, h⟩ := h
    exact transfer h
  · obtain rfl := pure_eq_ok.mp h
    exact refl l

end Conserves

theorem Backed.conserves (h : l.Backed) (hmoves : l.Conserves l') : l'.Backed where
  finite := hmoves.finite h.finite
  supply m := by rw [hmoves.circulating h.finite, hmoves.mints, h.supply]
  fits m mint hm := h.fits m mint (hmoves.mints ▸ hm)

theorem Backed.amount_le (h : l.Backed) (hx : l.accounts x = some account) : account.amount ≤ uMax 64 := by
  have hle := held_le_circulating (m := account.mint) (x := x) h.finite
  rw [held_of_some hx, TokenAccount.heldIn, if_pos rfl, h.supply] at hle
  cases hm : l.mints account.mint with
  | none =>
      rw [hm, Option.elim_none] at hle
      omega
  | some mint =>
      rw [hm, Option.elim_some] at hle
      exact hle.trans (h.fits _ mint hm)

/-! ## The token program -/

theorem Backed.genesis : Backed {} where
  finite := by simp [FinitelyMany]
  supply m := by simp [circulating, held]
  fits m mint hm := by cases hm

theorem Backed.initializeMint {mint : Mint} (h : l.Backed) (hexec : l.initializeMint x mint = .ok l') : l'.Backed := by
  simp only [Ledger.initializeMint, bind_eq_ok, require_eq_ok, exists_and_left, exists_const, pure_eq_ok] at hexec
  obtain ⟨⟨hnone, -⟩, rfl⟩ := hexec
  refine ⟨h.finite, fun m => ?_, fun m mint' hm => ?_⟩
  · refine (h.supply m).trans ?_
    rcases eq_or_ne m x with rfl | hne
    · simp [setMint, hnone]
    · simp [setMint, Function.update_of_ne hne]
  · simp only [setMint, Function.update_apply] at hm
    split at hm
    · obtain rfl := Option.some.inj hm
      exact Nat.zero_le _
    · exact h.fits m mint' hm

theorem Backed.mintTo {authority : Pubkey} {n : Nat} (h : l.Backed) (hexec : l.mintTo x authority n = .ok l') :
    l'.Backed := by
  simp only [Ledger.mintTo, bind_eq_ok, okOr_eq_ok, checkedAdd_eq_some, require_eq_ok, exists_and_left, exists_const,
    pure_eq_ok, getAccount_eq_ok, getMint_eq_ok] at hexec
  obtain ⟨account, hx, -, mint, hm, -, _, ⟨hfits, rfl⟩, rfl⟩ := hexec
  have hfinite : (l.setMint account.mint { mint with supply := mint.supply + n }).FinitelyMany := h.finite
  refine ⟨hfinite.update _, fun m => ?_, fun m mint' hmint => ?_⟩
  · have htotal := circulating_setAccount hfinite x m (credit account n)
    have hheld : held (l.setMint account.mint { mint with supply := mint.supply + n }) m x = account.heldIn m :=
      held_of_some hx
    have hsupply : circulating (l.setMint account.mint { mint with supply := mint.supply + n }) m = _ := h.supply m
    have hgained : (credit account n).heldIn m = account.heldIn m + if account.mint = m then n else 0 :=
      heldIn_add (by rfl) (by rfl) m
    rw [hheld, hsupply, hgained] at htotal
    rcases eq_or_ne account.mint m with rfl | hne
    · rw [hm, Option.elim_some, if_pos rfl] at htotal
      simp only [setAccount, setMint, Function.update_self, Option.elim_some] at htotal ⊢
      omega
    · rw [if_neg hne] at htotal
      simp only [setAccount, setMint, Function.update_of_ne hne.symm] at htotal ⊢
      omega
  · simp only [setAccount, setMint, Function.update_apply] at hmint
    split at hmint
    · obtain rfl := Option.some.inj hmint
      exact hfits
    · exact h.fits m mint' hmint

theorem Backed.burn {authority : Pubkey} {n : Nat} (h : l.Backed) (hexec : l.burn x authority n = .ok l') :
    l'.Backed := by
  simp only [Ledger.burn, bind_eq_ok, require_eq_ok, exists_and_left, exists_const, pure_eq_ok, getAccount_eq_ok,
    getMint_eq_ok] at hexec
  obtain ⟨account, hx, -, mint, hm, hn, account', hdebit, rfl⟩ := hexec
  obtain ⟨-, heq, -⟩ := debit_ok hdebit
  have hfinite : (l.setMint account.mint { mint with supply := mint.supply - n }).FinitelyMany := h.finite
  have hle : account.amount ≤ mint.supply := by
    have hle := held_le_circulating (m := account.mint) (x := x) h.finite
    rwa [held_of_some hx, TokenAccount.heldIn, if_pos rfl, h.supply, hm, Option.elim_some] at hle
  refine ⟨hfinite.update _, fun m => ?_, fun m mint' hmint => ?_⟩
  · have htotal := circulating_setAccount hfinite x m account'
    have hheld : held (l.setMint account.mint { mint with supply := mint.supply - n }) m x = account.heldIn m :=
      held_of_some hx
    have hsupply : circulating (l.setMint account.mint { mint with supply := mint.supply - n }) m = _ := h.supply m
    have hlost : account.heldIn m = account'.heldIn m + if account'.mint = m then n else 0 := by
      refine heldIn_add (by rw [heq]) ?_ m
      rw [heq]
      exact (Nat.sub_add_cancel hn).symm
    have hsame : account'.mint = account.mint := by rw [heq]
    rw [hheld, hsupply, hlost, hsame] at htotal
    rcases eq_or_ne account.mint m with rfl | hne
    · rw [hm, Option.elim_some, if_pos rfl] at htotal
      simp only [setAccount, setMint, Function.update_self, Option.elim_some] at htotal ⊢
      omega
    · rw [if_neg hne] at htotal
      simp only [setAccount, setMint, Function.update_of_ne hne.symm] at htotal ⊢
      omega
  · simp only [setAccount, setMint, Function.update_apply] at hmint
    split at hmint
    · obtain rfl := Option.some.inj hmint
      exact (Nat.sub_le _ _).trans (h.fits _ mint hm)
    · exact h.fits m mint' hmint

theorem Backed.exec {op : TokenInstruction} (h : l.Backed) (hexec : op.exec l = .ok l') : l'.Backed := by
  cases op with
  | initializeMint address mint => exact h.initializeMint hexec
  | mintTo address authority amount => exact h.mintTo hexec
  | burn address authority amount => exact h.burn hexec
  | initializeAccount address mint owner => exact h.conserves (.initializeAccount hexec)
  | createAssociated owner mint => exact h.conserves (.initializeAccount hexec)
  | transfer source destination authority amount => exact h.conserves (.transfer hexec)
  | approve address delegate authority amount => exact h.conserves (.approve hexec)
  | revoke address authority => exact h.conserves (.revoke hexec)
  | closeAccount address authority => exact h.conserves (.closeAccount hexec)
  | setOwner address newOwner authority =>
      simp only [TokenInstruction.exec, setOwner, bind_eq_ok, require_eq_ok, exists_and_left, exists_const,
        getAccount_eq_ok, pure_eq_ok] at hexec
      obtain ⟨account, hx, -, -, rfl⟩ := hexec
      exact h.conserves (.setAccount_of_amount hx rfl rfl)
  | setCloseAuthority address new authority =>
      simp only [TokenInstruction.exec, setCloseAuthority, bind_eq_ok, require_eq_ok, exists_and_left, exists_const,
        getAccount_eq_ok, pure_eq_ok] at hexec
      obtain ⟨account, hx, -, -, rfl⟩ := hexec
      exact h.conserves (.setAccount_of_amount hx rfl rfl)
  | setFrozen address frozen authority =>
      simp only [TokenInstruction.exec, setFrozen, bind_eq_ok, require_eq_ok, exists_and_left, exists_const,
        getAccount_eq_ok, getMint_eq_ok, pure_eq_ok] at hexec
      obtain ⟨account, hx, _, -, -, rfl⟩ := hexec
      exact h.conserves (.setAccount_of_amount hx rfl rfl)

end Ledger

section
variable {w w' : World} {ctx : Ctx} {i : Instruction} {st : Step} {steps : List Step} {l l' : Ledger}

/-! ## Instructions of the program -/

open Ledger

theorem revokePairs_conserves {v : Pubkey} {pairs : List (Pubkey × Pubkey)}
    (h : revokePairs w v pairs l = .ok l') : l.Conserves l' := by
  induction pairs generalizing l with
  | nil =>
      obtain rfl := pure_eq_ok.mp h
      exact .refl l
  | cons pair pairs ih =>
      simp only [revokePairs] at h
      split at h
      · obtain ⟨l₁, hrevoke, h⟩ := bind_eq_ok.mp h
        exact (Conserves.revoke hrevoke).trans (ih h)
      · exact ih h

theorem collectFeesAndDelegate_conserves {a : ValidateAndAuthorize} {vault : AgentVault} {plan : SpendPlan}
    (h : collectFeesAndDelegate l a vault plan = .ok l') : l.Conserves l' := by
  unfold collectFeesAndDelegate at h
  split at h
  · simp only [bind_eq_ok] at h
    obtain ⟨_, -, l₁, hprotocol, l₂, hdeveloper, happrove⟩ := h
    exact (Conserves.collectFee hprotocol).trans ((Conserves.collectFee hdeveloper).trans (.approve happrove))
  · obtain rfl := pure_eq_ok.mp h
    exact .refl l

theorem revokeDelegation_conserves {a : FinalizeSession} {session : SessionAuthority}
    (h : revokeDelegation l a session = .ok l') : l.Conserves l' := by
  unfold revokeDelegation at h
  split at h
  · simp only [bind_eq_ok, require_eq_ok, exists_and_left, exists_const] at h
    obtain ⟨_, -, -, hrevoke⟩ := h
    exact .revoke hrevoke
  · obtain rfl := pure_eq_ok.mp h
    exact .refl l

theorem fundEscrow_conserves {a : CreateEscrow} {vault : AgentVault} {protocolFee developerFee net : Nat}
    (h : fundEscrow l a vault protocolFee developerFee net = .ok l') : l.Conserves l' := by
  simp only [fundEscrow, bind_eq_ok] at h
  obtain ⟨l₁, hprotocol, l₂, hdeveloper, h⟩ := h
  refine (Conserves.collectFee hprotocol).trans ((Conserves.collectFee hdeveloper).trans ?_)
  split at h
  · exact .transfer h
  · obtain rfl := pure_eq_ok.mp h
    exact .refl _

theorem PaysOut.conserves {p : Payout} {recipient : Pubkey} {amount : Nat} (h : PaysOut l l' p recipient amount) :
    l.Conserves l' := by
  obtain ⟨_, _, _, -, -, -, -, -, htransfer, hclose⟩ := h.intermediate
  exact (Conserves.transfer htransfer).trans (.closeAccount hclose)

/-- Deposits, payments, sessions and escrows move tokens; the others leave the ledger alone. -/
theorem Instruction.conserves (h : i.exec ctx w = .ok w') : w.ledger.Conserves w'.ledger := by
  cases i with
  | depositFunds a =>
      obtain ⟨_, _, _, _, -, hensure, htransfer, rfl⟩ := depositFunds_ok h
      exact (Conserves.ensureAssociated hensure).trans (.transfer htransfer)
  | withdrawFunds a =>
      obtain ⟨_, _, _, -, htransfer, rfl⟩ := withdrawFunds_ok h
      exact .transfer htransfer
  | freezeVault a =>
      obtain ⟨_, _, -, hrevoke, rfl⟩ := freezeVault_ok h
      exact revokePairs_conserves hrevoke
  | validateAndAuthorize a =>
      obtain ⟨_, _, _, _, _, _, _, -, -, -, -, -, -, -, -, hcollect, rfl⟩ := validateAndAuthorize_ok h
      exact collectFeesAndDelegate_conserves hcollect
  | finalizeSession a =>
      obtain ⟨_, _, _, _, _, _, _, -, -, -, hrevoke, -, -, -, rfl⟩ := finalizeSession_ok h
      exact revokeDelegation_conserves hrevoke
  | agentTransfer a =>
      obtain ⟨t⟩ := agentTransfer_trace h
      rw [t.result]
      have hfees := (Conserves.collectFee t.protocolPaid).trans (.collectFee t.developerPaid)
      exact (Conserves.transfer t.paid).trans hfees
  | createEscrow a =>
      obtain ⟨t⟩ := createEscrow_trace h
      rw [t.result]
      exact (Conserves.ensureAssociated t.ensured).trans (fundEscrow_conserves t.funded)
  | settleEscrow a =>
      obtain ⟨_, _, _, -, -, -, -, -, -, hpays, rfl⟩ := settleEscrow_ok h
      exact hpays.conserves
  | refundEscrow a =>
      obtain ⟨_, _, _, -, -, -, -, hpays, rfl⟩ := refundEscrow_ok h
      exact hpays.conserves
  | initializeVault a =>
      obtain ⟨-, -, rfl⟩ := initializeVault_ok h
      exact .refl _
  | closeVault a =>
      obtain ⟨_, _, -, rfl⟩ := closeVault_ok h
      exact .refl _
  | registerAgent a =>
      obtain ⟨_, _, _, -, -, -, -, -, -, rfl⟩ := registerAgent_ok h
      exact .refl _
  | revokeAgent a =>
      obtain ⟨_, _, -, -, -, rfl⟩ := revokeAgent_ok h
      exact .refl _
  | pauseAgent a =>
      obtain ⟨_, -, rfl⟩ := setPaused_ok h
      exact .refl _
  | unpauseAgent a =>
      obtain ⟨_, -, rfl⟩ := setPaused_ok h
      exact .refl _
  | reactivateVault a =>
      obtain ⟨_, _, -, -, rfl⟩ := reactivateVault_ok h
      exact .refl _
  | closeSettledEscrow a =>
      obtain ⟨_, _, -, -, rfl⟩ := closeSettledEscrow_ok h
      exact .refl _
  | queuePolicyUpdate a u =>
      obtain ⟨_, _, _, -, -, -, -, -, -, rfl⟩ := queuePolicyUpdate_ok h
      exact .refl _
  | applyPendingPolicy a =>
      obtain ⟨_, _, _, -, -, -, -, rfl⟩ := applyPendingPolicy_ok h
      exact .refl _
  | cancelPendingPolicy a =>
      obtain ⟨_, _, _, -, -, -, rfl⟩ := cancelPendingPolicy_ok h
      exact .refl _
  | queueConstraintsUpdate a entries strictMode =>
      obtain ⟨_, _, _, -, -, -, -, -, rfl⟩ := queueConstraintsUpdate_ok h
      exact .refl _
  | applyConstraintsUpdate a =>
      obtain ⟨_, _, _, _, -, -, -, -, -, rfl⟩ := applyConstraintsUpdate_ok h
      exact .refl _
  | cancelConstraintsUpdate a =>
      obtain rfl := cancelConstraintsUpdate_ok h
      exact .refl _
  | queueCloseConstraints a =>
      obtain ⟨_, _, -, -, -, -, rfl⟩ := queueCloseConstraints_ok h
      exact .refl _
  | applyCloseConstraints a closesPending =>
      obtain ⟨_, _, _, -, -, -, -, rfl | rfl⟩ := applyCloseConstraints_ok h
      · exact .refl _
      · exact .refl _
  | cancelCloseConstraints a =>
      obtain rfl := cancelCloseConstraints_ok h
      exact .refl _
  | queueAgentPermissionsUpdate a capability limit =>
      obtain ⟨_, _, -, -, -, -, rfl⟩ := queueAgentPermissionsUpdate_ok h
      exact .refl _
  | applyAgentPermissionsUpdate a address =>
      obtain ⟨_, _, _, _, _, _, -, -, -, -, -, -, -, rfl⟩ := applyAgentPermissionsUpdate_ok h
      exact .refl _
  | cancelAgentPermissionsUpdate a address =>
      obtain rfl := cancelAgentPermissionsUpdate_ok h
      exact .refl _
  | allocateConstraintsPda a =>
      obtain ⟨_, _, -, -, -, rfl⟩ := allocateConstraintsPda_ok h
      exact .refl _
  | allocatePendingConstraintsPda a =>
      obtain ⟨-, rfl⟩ := allocatePendingConstraintsPda_ok h
      exact .refl _
  | extendPda a pda target =>
      rcases extendPda_ok h with ⟨_, _, -, -, -, rfl⟩ | ⟨_, _, -, -, -, rfl⟩
      · exact .refl _
      · exact .refl _
  | createInstructionConstraints a entries strictMode =>
      obtain ⟨_, _, _, -, -, -, -, -, -, rfl⟩ := createInstructionConstraints_ok h
      exact .refl _
  | cleanupOrphanConstraintsPda a =>
      obtain ⟨_, _, _, -, -, -, -, rfl⟩ := cleanupOrphanConstraintsPda_ok h
      exact .refl _
  | createPostAssertions a entries =>
      obtain ⟨_, _, -, -, -, rfl⟩ := createPostAssertions_ok h
      exact .refl _
  | closePostAssertions a =>
      obtain ⟨_, _, -, -, rfl⟩ := closePostAssertions_ok h
      exact .refl _

/-! ## Runs -/

theorem Step.backed (hexec : st.exec w = .ok w') (h : w.ledger.Backed) : w'.ledger.Backed := by
  rcases Step.exec_cases hexec with ⟨i, -, -, -, hi⟩ | ⟨_, -, -, _, hrun, rfl, -⟩
  · exact h.conserves (i.conserves hi)
  · exact run_invariant (P := Ledger.Backed) h (fun _ _ _ _ hl hop => hl.exec hop) hrun

theorem backed_run (h : run Step.exec steps {} = .ok w) : w.ledger.Backed :=
  run_invariant (P := fun w => w.ledger.Backed) .genesis (fun _ _ _ _ hw hexec => Step.backed hexec hw) h

/-- After every run the accounts of each mint hold its supply, in 64 bits, and an instruction of the program changes
neither. -/
theorem tokens_conserved (h : run Step.exec steps {} = .ok w) :
    (∀ m, w.ledger.circulating m = (w.ledger.mints m).elim 0 Mint.supply) ∧
      (∀ x account, w.ledger.accounts x = some account → account.amount ≤ uMax 64) ∧
      ∀ (st : Step) (i : Instruction) (w' : World), st.exec w = .ok w' → st.instruction.call = .sigil i →
        w'.ledger.mints = w.ledger.mints ∧ ∀ m, w'.ledger.circulating m = w.ledger.circulating m := by
  have hbacked := backed_run h
  refine ⟨hbacked.supply, fun x account hx => hbacked.amount_le hx, fun st i w' hexec hcall => ?_⟩
  rcases Step.exec_cases hexec with ⟨j, hcall', -, -, hi⟩ | ⟨_, hcall', -⟩
  · have hconserves := j.conserves hi
    exact ⟨hconserves.mints, hconserves.circulating hbacked.finite⟩
  · cases hcall.symm.trans hcall'

/-- Of 1001 USDC in circulation the agent has paid one. -/
theorem tokens_conserved_pay : ∃ w, run Step.exec payRun {} = .ok w ∧ w.ledger.circulating usdcMint = 1001000000 := by
  obtain ⟨w, hrun, hsupply⟩ : ∃ w, run Step.exec payRun {} = .ok w ∧
      (w.ledger.mints usdcMint).elim 0 Mint.supply = 1001000000 := ⟨_, rfl, rfl⟩
  exact ⟨w, hrun, ((tokens_conserved hrun).1 usdcMint).trans hsupply⟩

/-! ## Accounts of a vault -/

/-- An associated account has the mint of its address, and a vault delegates to keys only. -/
structure ClearAt (x : Pubkey) (account : TokenAccount) : Prop where
  mint : ∀ o m, x = .ata o m → account.mint = m
  delegate : account.owner.isVault → ∀ d, account.delegate = some d → d.isKey

def Ledger.Clear (l : Ledger) : Prop := ∀ x account, l.accounts x = some account → ClearAt x account

theorem debit_delegate {account account' : TokenAccount} {authority d : Pubkey} {n : Nat}
    (h : debit account authority n = .ok account') (hd : account'.delegate = some d) : account.delegate = some d := by
  unfold debit at h
  split at h
  · simp only [bind_eq_ok, require_eq_ok, exists_and_left, exists_const, pure_eq_ok] at h
    obtain ⟨-, rfl⟩ := h
    dsimp only at hd
    split at hd
    · cases hd
    · exact hd
  · simp only [bind_eq_ok, require_eq_ok, exists_and_left, exists_const, pure_eq_ok] at h
    obtain ⟨-, rfl⟩ := h
    exact hd

theorem Ledger.Moves.clear {own : Pubkey → Prop} (h : l.Moves own l') (hl : l.Clear) : l'.Clear := by
  refine h.accounts_invariant ?_ hl
  intro op x o o' hop hchange hP account haccount
  cases hchange with
  | same => exact hP account haccount
  | opened hopen =>
      cases haccount
      refine ⟨fun o m hx => ?_, fun _ d hd => by cases hd⟩
      rcases hopen with rfl | ⟨rfl, heq⟩
      · have hsigned := hop x rfl
        simp [hx, Pubkey.signsOutside, Pubkey.isKey, Pubkey.isProgramDerived] at hsigned
      · cases hx.symm.trans heq
        rfl
  | credited n =>
      cases haccount
      obtain ⟨hmint, hdelegate⟩ := hP _ rfl
      exact ⟨hmint, hdelegate⟩
  | debited _ hdebit =>
      cases haccount
      obtain ⟨hmint, hdelegate⟩ := hP _ rfl
      obtain ⟨-, heq, -⟩ := debit_ok hdebit
      refine ⟨fun o m hx => ?_, fun hvault d hd => hdelegate ?_ d (debit_delegate hdebit hd)⟩
      · rw [heq]
        exact hmint o m hx
      · rw [heq] at hvault
        exact hvault
  | approved hop' howner =>
      cases haccount
      subst hop'
      refine ⟨(hP _ rfl).mint, fun hvault => ?_⟩
      exact absurd (hop _ rfl) (howner ▸ Pubkey.isVault_not_signsOutside hvault)
  | revoked =>
      cases haccount
      exact ⟨(hP _ rfl).mint, fun _ d hd => by cases hd⟩
  | reowned =>
      cases haccount
      exact ⟨(hP _ rfl).mint, fun _ d hd => by cases hd⟩
  | reclosed =>
      cases haccount
      exact ⟨(hP _ rfl).mint, (hP _ rfl).delegate⟩
  | refrozen b =>
      cases haccount
      exact ⟨(hP _ rfl).mint, (hP _ rfl).delegate⟩
  | closed => cases haccount

theorem approve_clear {x d v : Pubkey} {n : Nat} (hd : d.isKey) (h : l.approve x d v n = .ok l') (hl : l.Clear) :
    l'.Clear := by
  obtain ⟨account, hx, -, -, rfl⟩ := approve_ok h
  intro y account' hy
  rw [setAccount_accounts] at hy
  split at hy
  · rename_i heq
    subst heq
    cases hy
    exact ⟨(hl y account hx).mint, fun _ e he => Option.some.inj he ▸ hd⟩
  · exact hl y account' hy

/-- Without a signature of the program nothing happens but moves. -/
theorem Ledger.Signed.moves {own : Pubkey → Prop} (h : l.Signed own l') (hown : ∀ a, ¬ own a) : l.Moves own l' := by
  refine Relation.ReflTransGen.mono ?_ l l' h
  rintro l₁ l₂ ⟨op, hop, hexec⟩
  refine ⟨op, ?_, hexec⟩
  have hall : ∀ a, op.authority = some a → a.signsOutside := fun a ha => (hop a ha).resolve_right (hown a)
  cases op with
  | transfer _ _ a _ => exact .inl (hall a rfl)
  | revoke _ a => exact .inl (hall a rfl)
  | closeAccount _ a => exact .inl (hall a rfl)
  | _ => exact hall

theorem Instruction.clear (hkeys : ∀ k ∈ ctx.signers, k.isKey = true) (h : i.exec ctx w = .ok w')
    (hl : w.ledger.Clear) : w'.ledger.Clear := by
  cases i with
  | withdrawFunds a =>
      obtain ⟨_, _, _, howned, htransfer, rfl⟩ := withdrawFunds_ok h
      have hmoves : w.ledger.Moves (· = a.vault) _ := .transfer (.inr rfl) htransfer
      exact hmoves.clear hl
  | freezeVault a =>
      obtain ⟨_, _, -, hrevoke, rfl⟩ := freezeVault_ok h
      exact (revokePairs_moves (· = a.vault) rfl hrevoke).1.clear hl
  | validateAndAuthorize a =>
      obtain ⟨_, _, _, _, -, hrequested⟩ := validateAndAuthorize_requested h
      obtain ⟨_, _, _, _, _, _, _, -, -, -, -, -, -, -, -, hledger, rfl⟩ := validateAndAuthorize_ok h
      have hagent := hkeys a.agent hrequested.signer
      unfold collectFeesAndDelegate at hledger
      split at hledger
      · simp only [bind_eq_ok] at hledger
        obtain ⟨_, -, l₁, h₁, l₂, h₂, happrove⟩ := hledger
        have hmoves : w.ledger.Moves (· = a.vault) l₂ := .trans (.collectFee rfl h₁) (.collectFee rfl h₂)
        exact approve_clear hagent happrove (hmoves.clear hl)
      · obtain rfl := pure_eq_ok.mp hledger
        exact hl
  | finalizeSession a =>
      obtain ⟨_, _, _, _, _, _, _, ⟨-, hx⟩, -, -, hrevoke, -, -, -, rfl⟩ := finalizeSession_ok h
      exact (revokeDelegation_moves (isVault_of_address hx) hrevoke).clear hl
  | agentTransfer a =>
      obtain ⟨t⟩ := agentTransfer_trace h
      rw [t.result]
      exact t.moves.clear hl
  | createEscrow a =>
      obtain ⟨t⟩ := createEscrow_trace h
      have hmoves : w.ledger.Moves (some a.sourceVault = some ·) t.ledger₂ :=
        .trans (.ensureAssociated t.ensured) (fundEscrow_signed t.funded)
      rw [t.result]
      exact hmoves.clear hl
  | settleEscrow a =>
      obtain ⟨_, _, _, -, -, -, -, -, -, hpays, rfl⟩ := settleEscrow_ok h
      exact hpays.moves.clear hl
  | refundEscrow a =>
      obtain ⟨_, _, _, -, -, -, -, hpays, rfl⟩ := refundEscrow_ok h
      exact hpays.moves.clear hl
  | _ =>
      refine ((Instruction.signed hkeys h).moves fun a ha => ?_).clear hl
      cases ha

theorem clear_run (h : run Step.exec steps {} = .ok w) : w.ledger.Clear := by
  refine run_invariant (P := fun w => w.ledger.Clear) (by rintro _ _ ⟨⟩) (fun st _ w₁ w₂ hw₁ hexec => ?_) h
  rcases Step.exec_cases hexec with ⟨i, -, -, -, hi⟩ | ⟨_, -, -, _, -, rfl, hmoves⟩
  · exact i.clear st.signers_isKey hi hw₁
  · exact (hmoves fun _ => False).clear hw₁

/-! ## The owner takes tokens out -/

/-- What a withdrawal takes: the vault has the tokens, the owner an account for them, no account is frozen, and the
counter of withdrawals has room. -/
structure MoveFunds.Withdrawable (a : MoveFunds) (w : World) (vault : AgentVault) (held received : TokenAccount) :
    Prop where
  held_found : w.ledger.accounts (.ata a.vault a.mint) = some held
  received_found : w.ledger.accounts (.ata a.owner a.mint) = some received
  received_owner : received.owner = a.owner
  thawed : held.frozen = false ∧ received.frozen = false
  enough : a.amount.toNat ≤ held.amount
  counted : isStablecoinMint a.mint → vault.totalWithdrawnUsd + a.amount.toNat ≤ uMax 64

theorem status_run (h : run Step.exec steps {} = .ok w) {v : Pubkey} {vault : AgentVault}
    (hv : w.vaults v = some vault) : vault.status ≠ .closed := by
  suffices hroster : ∀ r, (w.staff v).roster = some r → r.status ≠ .closed from hroster _ (World.staff_roster hv)
  refine staff_invariant (P := fun s => ∀ r, s.roster = some r → r.status ≠ .closed) (by rintro _ ⟨⟩) ?_ h v
  intro ctx c s s' hs hchange r hr
  cases hchange with
  | same => exact hs r hr
  | opened =>
      cases hr
      simp
  | closed => cases hr
  | registered e hroster =>
      cases hr
      have hstatus := hs _ hroster
      exact hstatus
  | @revoked _ vault _ agent hroster =>
      cases hr
      have hstatus := hs _ hroster
      simp only [AgentVault.without, AgentVault.roster] at hstatus ⊢
      split
      · simp
      · exact hstatus
  | paused agent b hroster =>
      cases hr
      have hstatus := hs _ hroster
      exact hstatus
  | frozen =>
      cases hr
      simp
  | reactivated =>
      cases hr
      simp
  | permitted pending hroster =>
      cases hr
      have hstatus := hs _ hroster
      exact hstatus
  | charged => exact hs r hr

/-- A transfer that the owner of the tokens signs, whoever else may move them. -/
theorem transfer_undelegated {source destination authority : Pubkey} {n : Nat} {src dst : TokenAccount}
    (hsrc : l.accounts source = some src) (hdst : l.accounts destination = some dst)
    (hthawed : src.frozen = false ∧ dst.frozen = false) (henough : n ≤ src.amount) (hmint : src.mint = dst.mint)
    (howner : src.owner = authority) (hdelegate : src.delegate ≠ some authority) (hne : source ≠ destination) :
    l.transfer source destination authority n = .ok
      ((l.setAccount source { src with amount := src.amount - n }).setAccount destination (credit dst n)) := by
  have hdebit : debit src authority n = .ok { src with amount := src.amount - n } := by
    unfold debit
    rw [if_neg hdelegate]
    simp only [bind_eq_ok, require_eq_ok, exists_const, pure_eq_ok, and_true]
    exact howner.symm
  simp only [transfer, bind_eq_ok, require_eq_ok, exists_and_left, exists_const, getAccount_eq_ok]
  refine ⟨src, hsrc, dst, hdst, hthawed, henough, hmint, _, hdebit, ?_⟩
  rw [if_neg hne]
  rfl

/-- The ledger after a withdrawal. -/
def MoveFunds.withdrawnLedger (a : MoveFunds) (l : Ledger) (held received : TokenAccount) : Ledger :=
  (l.setAccount (.ata a.vault a.mint) { held with amount := held.amount - a.amount.toNat }).setAccount
    (.ata a.owner a.mint) (credit received a.amount.toNat)

/-- In every reachable state the owner can take tokens out of a vault, unless the ledger itself stands in the way:
what the agents did and whether the vault is frozen has no part in it. -/
theorem owner_can_withdraw {a : MoveFunds} {vault : AgentVault} (h : run Step.exec steps {} = .ok w)
    (hv : w.vaults a.vault = some vault) (howner : vault.owner = a.owner) (hsigned : a.owner ∈ st.ctx.signers)
    (hst : st.instruction = (Instruction.withdrawFunds a).toTopLevel) :
    ((∃ w', st.exec w = .ok w') ↔ ∃ held received, a.Withdrawable w vault held received) ∧
      ∀ held received, a.Withdrawable w vault held received → ∃ w', st.exec w = .ok w' ∧
        w'.ledger = a.withdrawnLedger w.ledger held received := by
  have hexec : st.exec w = withdrawFunds st.ctx a w := by
    rw [Step.exec, hst]
    rfl
  have hvault := run_vaults_address (by rintro _ _ ⟨⟩) h a.vault vault hv
  have hisVault := isVault_of_address hvault
  have hpays : ∀ held received, a.Withdrawable w vault held received → ∃ w', st.exec w = .ok w' ∧
      w'.ledger = a.withdrawnLedger w.ledger held received := by
    intro held received hpay
    -- the vault is not its own delegate, since it delegates to keys only
    obtain ⟨hheld, hmint, -, -⟩ :=
      (escrowInv_run h).sound _ held hpay.held_found a.vault a.mint rfl (.inl hisVault)
    have hdelegate : held.delegate ≠ some a.vault := by
      intro hself
      have hkey := (clear_run h _ held hpay.held_found).delegate (hheld.symm ▸ hisVault) a.vault hself
      cases hv : a.vault <;> simp [hv, Pubkey.isKey, Pubkey.isVault] at hkey hisVault
    have hreceived := (clear_run h _ received hpay.received_found).mint a.owner a.mint rfl
    have hne : a.vault ≠ a.owner := by
      intro heq
      have hkey := st.signers_isKey a.owner hsigned
      cases hv : a.vault <;> simp [← heq, hv, Pubkey.isKey, Pubkey.isVault] at hkey hisVault
    have htransfer := transfer_undelegated hpay.held_found hpay.received_found hpay.thawed hpay.enough
      (hmint.trans hreceived.symm) hheld hdelegate (by simp [hne])
    have hcounted : vault.totalWithdrawnUsd + a.usd ≤ uMax 64 := by
      unfold MoveFunds.usd
      split
      · rename_i hstable
        exact hpay.counted hstable
      · obtain ⟨hbooks, hfits⟩ := books_run h vault hv
        exact (hbooks ▸ hfits).withdrawn
    obtain ⟨mint, hm⟩ := Option.isSome_iff_exists.mp ((escrowInv_run h).hasMints _ held hpay.held_found)
    rw [hexec]
    simp only [withdrawFunds, bind_eq_ok, require_eq_ok, exists_and_left, exists_const, pure_eq_ok, okOr_eq_ok,
      checkedAdd_eq_some, World.loadOwnedVault_eq_ok, World.loadToken_eq_ok, World.loadMint_eq_ok]
    exact ⟨_, ⟨vault, ⟨hsigned, hv, hvault, howner⟩, mint, hmint ▸ hm, held, hpay.held_found, hheld, received,
      hpay.received_found, hpay.received_owner, status_run h hv, hpay.enough, _, htransfer, _, ⟨hcounted, rfl⟩, rfl⟩,
      rfl⟩
  refine ⟨⟨?_, ?_⟩, hpays⟩
  · rw [hexec]
    simp only [withdrawFunds, bind_eq_ok, require_eq_ok, exists_and_left, exists_const, pure_eq_ok, okOr_eq_ok,
      checkedAdd_eq_some, World.loadOwnedVault_eq_ok, World.loadToken_eq_ok]
    rintro ⟨w', vault', howned, _, -, held, hheld, -, received, hreceived, hmine, -, henough, l, htransfer, n,
      ⟨hcounted, -⟩, -⟩
    cases hv.symm.trans howned.found
    obtain ⟨src, dst, _, hsrc, hdst, hthawed, -⟩ := Ledger.transfer_ok htransfer
    cases hheld.symm.trans hsrc
    cases hreceived.symm.trans hdst
    refine ⟨held, received, hheld, hreceived, hmine, hthawed, henough, fun hstable => ?_⟩
    rwa [if_pos hstable] at hcounted
  · rintro ⟨held, received, hpay⟩
    obtain ⟨w', hw', -⟩ := hpays held received hpay
    exact ⟨w', hw'⟩

/-! ### Owner 1 freezes the vault after the agent's payment, and takes the rest out -/

def exitAccount : TopLevel :=
  { raw := { programId := .key 9, accounts := [], data := [] }
    call := .foreign [.createAssociated (.key 1) usdcMint] }

def exitRun : List Step :=
  payRun ++ [.ofKey payClock 1 exitAccount,
    .ofKey payClock 1 (Instruction.freezeVault { owner := .key 1, vault := payVault.vault }).toTopLevel]

def exitFunds : MoveFunds := { owner := .key 1, vault := payVault.vault, mint := usdcMint, amount := 999000000 }

theorem owner_can_withdraw_exit : ∃ w w', run Step.exec exitRun {} = .ok w ∧
    (Step.ofKey payClock 1 (Instruction.withdrawFunds exitFunds).toTopLevel).exec w = .ok w' ∧
    (w'.ledger.accounts (.ata (.key 1) usdcMint)).map TokenAccount.amount = some 999000000 := by
  obtain ⟨w, vault, held, received, hrun, hv, howner, hpay, hzero⟩ : ∃ w vault held received,
      run Step.exec exitRun {} = .ok w ∧ w.vaults payVault.vault = some vault ∧ vault.owner = .key 1 ∧
        exitFunds.Withdrawable w vault held received ∧ received.amount = 0 :=
    ⟨_, _, _, _, rfl, rfl, rfl, ⟨rfl, rfl, rfl, by decide, by decide, by decide⟩, rfl⟩
  have hst : (Step.ofKey payClock 1 (Instruction.withdrawFunds exitFunds).toTopLevel).instruction =
      (Instruction.withdrawFunds exitFunds).toTopLevel := rfl
  obtain ⟨w', hexec, hledger⟩ := (owner_can_withdraw hrun hv howner (by decide) hst).2 _ _ hpay
  refine ⟨w, w', hrun, hexec, ?_⟩
  simp [hledger, MoveFunds.withdrawnLedger, setAccount_accounts, exitFunds, credit, hzero]

end

end Sigil
