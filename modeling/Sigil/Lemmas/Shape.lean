import Sigil.Lemmas.Custody

/-!
# Which accounts and mints there are

Owner and mint of the token accounts, and the decimals of the mints. This program opens and closes associated
accounts of vaults and escrows only.
-/

namespace Sigil

open Library

/-- Associated accounts of the program. -/
def Pubkey.isOwnAta : Pubkey → Bool
  | .ata o _ => o.isVault || o.isEscrow
  | _ => false

def TokenAccount.shape (account : TokenAccount) : Pubkey × Pubkey := (account.owner, account.mint)

structure Ledger.SameShape (l l' : Ledger) : Prop where
  accounts : ∀ x, x.isOwnAta = false → (l'.accounts x).map TokenAccount.shape = (l.accounts x).map TokenAccount.shape
  decimals : ∀ m, (l'.mints m).map Mint.decimals = (l.mints m).map Mint.decimals

/-- Instructions that create or close an account or a mint, or change an owner. -/
def TokenInstruction.reshapes : TokenInstruction → Bool
  | .initializeMint _ _ | .initializeAccount _ _ _ | .createAssociated _ _ | .setOwner _ _ _ | .closeAccount _ _ => true
  | _ => false

namespace Ledger.SameShape

variable {l l' l'' l₁ l₂ l₁' l₂' : Ledger} {x : Pubkey} {account account' : TokenAccount} {op : TokenInstruction}

theorem refl (l : Ledger) : SameShape l l := ⟨fun _ _ => rfl, fun _ => rfl⟩

theorem symm (h : SameShape l l') : SameShape l' l :=
  ⟨fun x hx => (h.accounts x hx).symm, fun m => (h.decimals m).symm⟩

theorem trans (h : SameShape l l') (h' : SameShape l' l'') : SameShape l l'' :=
  ⟨fun x hx => (h'.accounts x hx).trans (h.accounts x hx), fun m => (h'.decimals m).trans (h.decimals m)⟩

theorem setAccount (hx : l.accounts x = some account) (hshape : account'.shape = account.shape) :
    SameShape l (l.setAccount x account') := by
  refine ⟨fun y _ => ?_, fun _ => rfl⟩
  rw [setAccount_accounts]
  split
  · rename_i heq
    rw [heq, hx, Option.map_some, Option.map_some, hshape]
  · rfl

theorem setMint {mint mint' : Mint} (hx : l.mints x = some mint) (hdecimals : mint'.decimals = mint.decimals) :
    SameShape l (l.setMint x mint') := by
  refine ⟨fun _ _ => rfl, fun m => ?_⟩
  rcases eq_or_ne m x with rfl | hne
  · simp [Ledger.setMint, hx, hdecimals]
  · simp [Ledger.setMint, Function.update_of_ne hne]

theorem transfer {source destination authority : Pubkey} {n : Nat}
    (h : l.transfer source destination authority n = .ok l') : SameShape l l' := by
  obtain ⟨src, dst, src', hsrc, hdst, -, -, -, hdebit, rfl⟩ := transfer_ok h
  obtain ⟨-, heq, -⟩ := debit_ok hdebit
  split
  · exact refl l
  · rename_i hne
    have hdst' : (l.setAccount source src').accounts destination = some dst := by
      rw [setAccount_accounts, if_neg (Ne.symm hne), hdst]
    exact (setAccount hsrc (by rw [heq]; rfl)).trans (setAccount hdst' rfl)

theorem approve {delegate authority : Pubkey} {n : Nat} (h : l.approve x delegate authority n = .ok l') :
    SameShape l l' := by
  obtain ⟨account, hx, -, -, rfl⟩ := approve_ok h
  exact setAccount hx rfl

theorem revoke {authority : Pubkey} (h : l.revoke x authority = .ok l') : SameShape l l' := by
  obtain ⟨account, hx, -, -, rfl⟩ := revoke_ok h
  exact setAccount hx rfl

theorem collectFee {source a owner mint : Pubkey} {destination : Option Pubkey} {fee : Nat} {e : SigilError}
    (h : Sigil.collectFee l source a destination owner mint fee e = .ok l') : SameShape l l' := by
  unfold Sigil.collectFee at h
  split at h
  · simp only [bind_eq_ok] at h
    obtain ⟨_, -, _, -, _, -, _, -, h⟩ := h
    exact transfer h
  · obtain rfl := pure_eq_ok.mp h
    exact refl l

/-- One of the program's associated accounts changes. -/
theorem of_update {o : Option TokenAccount} (hx : x.isOwnAta)
    (h : l' = { l with accounts := Function.update l.accounts x o }) : SameShape l l' := by
  subst h
  refine ⟨fun y hy => ?_, fun _ => rfl⟩
  have hne : y ≠ x := by
    rintro rfl
    rw [hx] at hy
    cases hy
  simp [Function.update_of_ne hne]

theorem ensureAssociated {owner mint : Pubkey} (howner : owner.isVault ∨ owner.isEscrow)
    (h : Sigil.ensureAssociated l owner mint = .ok l') : SameShape l l' := by
  unfold Sigil.ensureAssociated at h
  split at h
  · obtain ⟨-, -, rfl⟩ := initializeAccount_ok h
    exact of_update (x := .ata owner mint) (by simpa [Pubkey.isOwnAta] using howner) rfl
  · simp only [bind_eq_ok, pure_eq_ok] at h
    obtain ⟨_, -, _, -, rfl⟩ := h
    exact refl l

theorem closeAccount {authority : Pubkey} (hx : x.isOwnAta) (h : l.closeAccount x authority = .ok l') :
    SameShape l l' := by
  obtain ⟨account, -, -, -, heq⟩ := closeAccount_ok h
  exact of_update hx heq

/-! ## The same token instructions on two ledgers -/

theorem of_exec (hop : op.reshapes = false) (h : op.exec l = .ok l') : SameShape l l' := by
  cases op with
  | transfer source destination authority amount => exact transfer h
  | approve address delegate authority amount => exact approve h
  | revoke address authority => exact revoke h
  | setCloseAuthority address new authority =>
      simp only [TokenInstruction.exec, setCloseAuthority, bind_eq_ok, getAccount_eq_ok, pure_eq_ok] at h
      obtain ⟨account, hx, _, -, _, -, rfl⟩ := h
      exact setAccount hx rfl
  | setFrozen address frozen authority =>
      simp only [TokenInstruction.exec, setFrozen, bind_eq_ok, getAccount_eq_ok, pure_eq_ok] at h
      obtain ⟨account, hx, _, -, _, -, rfl⟩ := h
      exact setAccount hx rfl
  | mintTo address authority amount =>
      simp only [TokenInstruction.exec, mintTo, bind_eq_ok, getAccount_eq_ok, getMint_eq_ok, pure_eq_ok] at h
      obtain ⟨account, hx, _, -, mint, hm, _, -, supply, -, rfl⟩ := h
      have hminted : SameShape l (l.setMint account.mint { mint with supply := supply }) := setMint hm rfl
      exact hminted.trans (setAccount hx rfl)
  | burn address authority amount =>
      simp only [TokenInstruction.exec, burn, bind_eq_ok, getAccount_eq_ok, getMint_eq_ok, pure_eq_ok] at h
      obtain ⟨account, hx, _, -, mint, hm, _, -, account', hdebit, rfl⟩ := h
      obtain ⟨-, heq, -⟩ := debit_ok hdebit
      have hburned : SameShape l (l.setMint account.mint { mint with supply := mint.supply - amount }) := setMint hm rfl
      exact hburned.trans (setAccount hx (by rw [heq]; rfl))
  | _ => cases hop

/-- The same new account on both. -/
theorem both_setAccount (h : SameShape l₁ l₂) (hshape : x.isOwnAta = false → account'.shape = account.shape) :
    SameShape (l₁.setAccount x account) (l₂.setAccount x account') := by
  refine ⟨fun y hy => ?_, h.decimals⟩
  rw [setAccount_accounts, setAccount_accounts]
  split
  · rename_i heq
    rw [Option.map_some, Option.map_some, hshape (heq ▸ hy)]
  · exact h.accounts y hy

theorem exec (h : SameShape l₁ l₂) (h₁ : op.exec l₁ = .ok l₁') (h₂ : op.exec l₂ = .ok l₂') : SameShape l₁' l₂' := by
  cases hop : op.reshapes with
  | false => exact ((of_exec hop h₁).symm.trans h).trans (of_exec hop h₂)
  | true =>
      cases op with
      | initializeMint address mint =>
          simp only [TokenInstruction.exec, initializeMint, bind_eq_ok, pure_eq_ok] at h₁ h₂
          obtain ⟨_, -, rfl⟩ := h₁
          obtain ⟨_, -, rfl⟩ := h₂
          refine ⟨h.accounts, fun m => ?_⟩
          rcases eq_or_ne m address with rfl | hne
          · simp [Ledger.setMint]
          · simpa [Ledger.setMint, Function.update_of_ne hne] using h.decimals m
      | initializeAccount address mint owner =>
          obtain ⟨-, -, rfl⟩ := initializeAccount_ok h₁
          obtain ⟨-, -, rfl⟩ := initializeAccount_ok h₂
          exact h.both_setAccount fun _ => rfl
      | createAssociated owner mint =>
          obtain ⟨-, -, rfl⟩ := initializeAccount_ok h₁
          obtain ⟨-, -, rfl⟩ := initializeAccount_ok h₂
          exact h.both_setAccount fun _ => rfl
      | setOwner address newOwner authority =>
          simp only [TokenInstruction.exec, setOwner, bind_eq_ok, getAccount_eq_ok, pure_eq_ok] at h₁ h₂
          obtain ⟨account₁, hx₁, _, -, _, -, rfl⟩ := h₁
          obtain ⟨account₂, hx₂, _, -, _, -, rfl⟩ := h₂
          refine h.both_setAccount fun hown => ?_
          have hshape := h.accounts address hown
          rw [hx₁, hx₂, Option.map_some, Option.map_some, Option.some.injEq] at hshape
          simp only [TokenAccount.shape, Prod.mk.injEq] at hshape ⊢
          exact ⟨trivial, hshape.2⟩
      | closeAccount address authority =>
          obtain ⟨_, -, -, -, rfl⟩ := closeAccount_ok h₁
          obtain ⟨_, -, -, -, rfl⟩ := closeAccount_ok h₂
          refine ⟨fun y hy => ?_, h.decimals⟩
          rcases eq_or_ne y address with rfl | hne
          · simp
          · simpa [Function.update_of_ne hne] using h.accounts y hy
      | _ => cases hop

theorem run {ops : List TokenInstruction} (h : SameShape l₁ l₂)
    (h₁ : Library.run (fun op l => TokenInstruction.exec l op) ops l₁ = .ok l₁')
    (h₂ : Library.run (fun op l => TokenInstruction.exec l op) ops l₂ = .ok l₂') : SameShape l₁' l₂' := by
  induction ops generalizing l₁ l₂ with
  | nil =>
      obtain rfl := run_nil_eq_ok.mp h₁
      obtain rfl := run_nil_eq_ok.mp h₂
      exact h
  | cons op ops ih =>
      obtain ⟨_, hop₁, h₁⟩ := run_cons_eq_ok.mp h₁
      obtain ⟨_, hop₂, h₂⟩ := run_cons_eq_ok.mp h₂
      exact ih (h.exec hop₁ hop₂) h₁ h₂

end Ledger.SameShape

end Sigil
