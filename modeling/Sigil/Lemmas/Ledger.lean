import Mathlib.Logic.Relation
import Sigil.Runtime.Token

/-!
# What a token instruction does

Each account after a token instruction is what it was, or has changed in one of the ways of `AccountChange`,
each with the authority it takes. Everything about the ledger follows from these cases.
-/

namespace Sigil

open Library

variable {l l' : Ledger} {op : TokenInstruction} {x : Pubkey}

inductive AccountChange (op : TokenInstruction) (x : Pubkey) :
    Option TokenAccount → Option TokenAccount → Prop where
  | same {o} : AccountChange op x o o
  | opened {mint owner} (h : op = .initializeAccount x mint owner ∨
      op = .createAssociated owner mint ∧ x = .ata owner mint) :
      AccountChange op x none (some { mint := mint, owner := owner })
  | credited {account} (n : Nat) : AccountChange op x (some account) (some (Ledger.credit account n))
  | debited {account account' authority amount} (h : op.authority = some authority)
      (hdebit : Ledger.debit account authority amount = .ok account') :
      AccountChange op x (some account) (some account')
  | approved {account delegate authority amount} (h : op = .approve x delegate authority amount)
      (howner : authority = account.owner) : AccountChange op x (some account)
        (some { account with delegate := some delegate, delegatedAmount := amount })
  | revoked {account} : AccountChange op x (some account)
      (some { account with delegate := none, delegatedAmount := 0 })
  | reowned {account newOwner authority} (h : op = .setOwner x newOwner authority)
      (howner : authority = account.owner) : AccountChange op x (some account)
        (some { account with owner := newOwner, delegate := none, delegatedAmount := 0 })
  | reclosed {account new authority} (h : op = .setCloseAuthority x new authority)
      (howner : authority = account.closeAuthority.getD account.owner) :
      AccountChange op x (some account) (some { account with closeAuthority := new })
  | refrozen {account} (frozen : Bool) :
      AccountChange op x (some account) (some { account with frozen := frozen })
  | closed {account authority} (h : op = .closeAccount x authority)
      (howner : authority = account.closeAuthority.getD account.owner) (hzero : account.amount = 0) :
      AccountChange op x (some account) none

namespace Ledger

@[simp] theorem getAccount_eq_ok {account : TokenAccount} :
    l.getAccount x = .ok account ↔ l.accounts x = some account := by simp [getAccount]

@[simp] theorem getMint_eq_ok {mint : Mint} : l.getMint x = .ok mint ↔ l.mints x = some mint := by
  simp [getMint]

theorem setAccount_accounts (account : TokenAccount) (y : Pubkey) :
    (l.setAccount x account).accounts y = if y = x then some account else l.accounts y := by
  simp [setAccount, Function.update_apply]

/-! ## Accepted instructions -/

theorem initializeAccount_ok {mint owner : Pubkey} (h : l.initializeAccount x mint owner = .ok l') :
    l.accounts x = none ∧ (∃ m, l.mints mint = some m) ∧
      l' = l.setAccount x { mint := mint, owner := owner } := by
  simp only [initializeAccount, bind_eq_ok, require_eq_ok, exists_and_left, exists_const, getMint_eq_ok,
    pure_eq_ok] at h
  obtain ⟨⟨-, hnone⟩, m, hm, rfl⟩ := h
  exact ⟨hnone, ⟨m, hm⟩, rfl⟩

theorem debit_ok {account account' : TokenAccount} {authority : Pubkey} {amount : Nat}
    (h : debit account authority amount = .ok account') :
    (account.delegate = some authority ∨ authority = account.owner) ∧
      account' = { account with
        amount := account.amount - amount
        delegate := account'.delegate
        delegatedAmount := account'.delegatedAmount } ∧
      (account.delegate = none → account'.delegate = none) := by
  unfold debit at h
  split at h
  · rename_i hdelegate
    simp only [bind_eq_ok, require_eq_ok, exists_and_left, exists_const, pure_eq_ok] at h
    obtain ⟨-, rfl⟩ := h
    exact ⟨.inl hdelegate, rfl, by simp [hdelegate]⟩
  · simp only [bind_eq_ok, require_eq_ok, exists_and_left, exists_const, pure_eq_ok] at h
    obtain ⟨howner, rfl⟩ := h
    exact ⟨.inr howner, rfl, id⟩

theorem transfer_ok {source destination authority : Pubkey} {amount : Nat}
    (h : l.transfer source destination authority amount = .ok l') :
    ∃ src dst src', l.accounts source = some src ∧ l.accounts destination = some dst ∧
      (src.frozen = false ∧ dst.frozen = false) ∧ amount ≤ src.amount ∧ src.mint = dst.mint ∧
      debit src authority amount = .ok src' ∧
      l' = if source = destination then l
        else (l.setAccount source src').setAccount destination (credit dst amount) := by
  simp only [transfer, bind_eq_ok, require_eq_ok, exists_and_left, exists_const, getAccount_eq_ok] at h
  obtain ⟨src, hsrc, dst, hdst, hfrozen, hamount, hmint, src', hdebit, h⟩ := h
  refine ⟨src, dst, src', hsrc, hdst, hfrozen, hamount, hmint, hdebit, ?_⟩
  split at h
  · rename_i heq
    rw [if_pos heq]
    exact (pure_eq_ok.mp h).symm
  · rename_i hne
    rw [if_neg hne]
    exact (pure_eq_ok.mp h).symm

theorem approve_ok {delegate authority : Pubkey} {amount : Nat}
    (h : l.approve x delegate authority amount = .ok l') :
    ∃ account, l.accounts x = some account ∧ account.frozen = false ∧ authority = account.owner ∧
      l' = l.setAccount x { account with delegate := some delegate, delegatedAmount := amount } := by
  simp only [approve, bind_eq_ok, require_eq_ok, exists_and_left, exists_const, getAccount_eq_ok, pure_eq_ok] at h
  obtain ⟨account, hx, hfrozen, howner, rfl⟩ := h
  exact ⟨account, hx, hfrozen, howner, rfl⟩

theorem revoke_ok {authority : Pubkey} (h : l.revoke x authority = .ok l') :
    ∃ account, l.accounts x = some account ∧ account.frozen = false ∧ authority = account.owner ∧
      l' = l.setAccount x { account with delegate := none, delegatedAmount := 0 } := by
  simp only [revoke, bind_eq_ok, require_eq_ok, exists_and_left, exists_const, getAccount_eq_ok, pure_eq_ok] at h
  obtain ⟨account, hx, hfrozen, howner, rfl⟩ := h
  exact ⟨account, hx, hfrozen, howner, rfl⟩

theorem closeAccount_ok {authority : Pubkey} (h : l.closeAccount x authority = .ok l') :
    ∃ account, l.accounts x = some account ∧ account.amount = 0 ∧
      authority = account.closeAuthority.getD account.owner ∧
      l' = { l with accounts := Function.update l.accounts x none } := by
  simp only [closeAccount, bind_eq_ok, require_eq_ok, exists_and_left, exists_const, getAccount_eq_ok, pure_eq_ok] at h
  obtain ⟨account, hx, hzero, howner, rfl⟩ := h
  exact ⟨account, hx, hzero, howner, rfl⟩

end Ledger

/-- An instruction that sets one account changes no other. -/
theorem AccountChange.setAccount {y : Pubkey} {account : TokenAccount}
    (h : AccountChange op y (l.accounts y) (some account)) :
    AccountChange op x (l.accounts x) ((l.setAccount y account).accounts x) := by
  rw [Ledger.setAccount_accounts]
  split
  · rename_i heq
    subst heq
    exact h
  · exact .same

namespace TokenInstruction

theorem exec_change (h : op.exec l = .ok l') (x : Pubkey) :
    AccountChange op x (l.accounts x) (l'.accounts x) := by
  cases op with
  | initializeMint address mint =>
      simp only [exec, Ledger.initializeMint, bind_eq_ok, require_eq_ok, exists_and_left, exists_const, pure_eq_ok] at h
      obtain ⟨-, rfl⟩ := h
      exact .same
  | initializeAccount address mint owner =>
      obtain ⟨hnone, -, rfl⟩ := Ledger.initializeAccount_ok h
      exact .setAccount (hnone ▸ .opened (.inl rfl))
  | createAssociated owner mint =>
      obtain ⟨hnone, -, rfl⟩ := Ledger.initializeAccount_ok h
      exact .setAccount (hnone ▸ .opened (.inr ⟨rfl, rfl⟩))
  | transfer source destination authority amount =>
      obtain ⟨src, dst, src', hsrc, hdst, -, -, -, hdebit, rfl⟩ := Ledger.transfer_ok h
      split
      · exact .same
      · rename_i hne
        rw [Ledger.setAccount_accounts]
        split
        · rename_i heq
          subst heq
          rw [hdst]
          exact .credited amount
        · exact .setAccount (hsrc ▸ .debited rfl hdebit)
  | approve address delegate authority amount =>
      obtain ⟨account, hx, -, howner, rfl⟩ := Ledger.approve_ok h
      exact .setAccount (hx ▸ .approved rfl howner)
  | revoke address authority =>
      obtain ⟨account, hx, -, -, rfl⟩ := Ledger.revoke_ok h
      exact .setAccount (hx ▸ .revoked)
  | setOwner address newOwner authority =>
      simp only [exec, Ledger.setOwner, bind_eq_ok, require_eq_ok, exists_and_left, exists_const,
        Ledger.getAccount_eq_ok, pure_eq_ok] at h
      obtain ⟨account, hx, -, howner, rfl⟩ := h
      exact .setAccount (hx ▸ .reowned rfl howner)
  | setCloseAuthority address new authority =>
      simp only [exec, Ledger.setCloseAuthority, bind_eq_ok, require_eq_ok, exists_and_left, exists_const,
        Ledger.getAccount_eq_ok, pure_eq_ok] at h
      obtain ⟨account, hx, -, howner, rfl⟩ := h
      exact .setAccount (hx ▸ .reclosed rfl howner)
  | setFrozen address frozen authority =>
      simp only [exec, Ledger.setFrozen, bind_eq_ok, require_eq_ok, exists_and_left, exists_const,
        Ledger.getAccount_eq_ok, Ledger.getMint_eq_ok, pure_eq_ok] at h
      obtain ⟨account, hx, mint, -, -, rfl⟩ := h
      exact .setAccount (hx ▸ .refrozen frozen)
  | mintTo address authority amount =>
      simp only [exec, Ledger.mintTo, bind_eq_ok, require_eq_ok, exists_and_left, exists_const, Ledger.getAccount_eq_ok,
        Ledger.getMint_eq_ok, pure_eq_ok] at h
      obtain ⟨account, hx, -, mint, -, -, supply, -, rfl⟩ := h
      exact .setAccount (hx ▸ .credited amount)
  | burn address authority amount =>
      simp only [exec, Ledger.burn, bind_eq_ok, require_eq_ok, exists_and_left, exists_const, Ledger.getAccount_eq_ok,
        Ledger.getMint_eq_ok, pure_eq_ok] at h
      obtain ⟨account, hx, -, mint, -, -, account', hdebit, rfl⟩ := h
      exact .setAccount (hx ▸ .debited rfl hdebit)
  | closeAccount address authority =>
      obtain ⟨account, hx, hzero, howner, rfl⟩ := Ledger.closeAccount_ok h
      simp only [Function.update_apply]
      split
      · rename_i heq
        subst heq
        rw [hx]
        exact .closed rfl howner hzero
      · exact .same

/-- A mint is never removed. -/
theorem exec_mints (h : op.exec l = .ok l') {m : Pubkey} (hm : (l.mints m).isSome) : (l'.mints m).isSome := by
  have hset : ∀ (l : Ledger) x mint, (l.mints m).isSome → ((l.setMint x mint).mints m).isSome := by
    intro l x mint hl
    simp only [Ledger.setMint, Function.update_apply]
    split
    · rfl
    · exact hl
  cases op with
  | initializeMint address mint =>
      simp only [exec, Ledger.initializeMint, bind_eq_ok, pure_eq_ok] at h
      obtain ⟨_, -, rfl⟩ := h
      exact hset _ _ _ hm
  | initializeAccount address mint owner => obtain ⟨-, -, rfl⟩ := Ledger.initializeAccount_ok h; exact hm
  | createAssociated owner mint => obtain ⟨-, -, rfl⟩ := Ledger.initializeAccount_ok h; exact hm
  | transfer source destination authority amount =>
      obtain ⟨_, _, _, -, -, -, -, -, -, rfl⟩ := Ledger.transfer_ok h
      split
      · exact hm
      · exact hm
  | approve address delegate authority amount => obtain ⟨_, -, -, -, rfl⟩ := Ledger.approve_ok h; exact hm
  | revoke address authority => obtain ⟨_, -, -, -, rfl⟩ := Ledger.revoke_ok h; exact hm
  | setOwner address newOwner authority =>
      simp only [exec, Ledger.setOwner, bind_eq_ok, pure_eq_ok] at h
      obtain ⟨_, -, _, -, _, -, rfl⟩ := h
      exact hm
  | setCloseAuthority address new authority =>
      simp only [exec, Ledger.setCloseAuthority, bind_eq_ok, pure_eq_ok] at h
      obtain ⟨_, -, _, -, _, -, rfl⟩ := h
      exact hm
  | setFrozen address frozen authority =>
      simp only [exec, Ledger.setFrozen, bind_eq_ok, pure_eq_ok] at h
      obtain ⟨_, -, _, -, _, -, rfl⟩ := h
      exact hm
  | mintTo address authority amount =>
      simp only [exec, Ledger.mintTo, bind_eq_ok, pure_eq_ok] at h
      obtain ⟨_, -, _, -, _, -, _, -, _, -, rfl⟩ := h
      exact hset _ _ _ hm
  | burn address authority amount =>
      simp only [exec, Ledger.burn, bind_eq_ok, pure_eq_ok] at h
      obtain ⟨_, -, _, -, _, -, _, -, _, -, rfl⟩ := h
      exact hset _ _ _ hm
  | closeAccount address authority => obtain ⟨_, -, -, -, rfl⟩ := Ledger.closeAccount_ok h; exact hm

/-- The mint of an account is its mint from before, or one that an initialization has found. -/
theorem exec_account_mint (h : op.exec l = .ok l') {x : Pubkey} {account' : TokenAccount}
    (hx : l'.accounts x = some account') :
    (∃ account, l.accounts x = some account ∧ account'.mint = account.mint) ∨ (l.mints account'.mint).isSome := by
  have hchange := exec_change h x
  rw [hx] at hchange
  generalize ho : l.accounts x = o at hchange
  cases hchange with
  | same => exact .inl ⟨account', rfl, rfl⟩
  | opened hopen =>
      right
      rcases hopen with rfl | ⟨rfl, rfl⟩ <;>
      · obtain ⟨-, ⟨m, hm⟩, -⟩ := Ledger.initializeAccount_ok h
        simp [hm]
  | debited _ hdebit =>
      obtain ⟨-, heq, -⟩ := Ledger.debit_ok hdebit
      exact .inl ⟨_, rfl, by rw [heq]⟩
  | _ => exact .inl ⟨_, rfl, rfl⟩

end TokenInstruction

end Sigil
