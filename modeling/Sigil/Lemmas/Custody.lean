import Sigil.Lemmas.Ledger
import Sigil.Program.Transaction

/-!
# Custody of the program's token accounts

Nobody but the program signs for a vault or an escrow. So whatever else happens on the ledger, an associated
account of theirs stays theirs, and nothing is approved on an account of a vault.
-/

namespace Sigil

open Library

namespace Pubkey

/-- An address that can sign without this program. -/
def signsOutside (a : Pubkey) : Bool := a.isKey || a.isProgramDerived

theorem isVault_not_signsOutside {a : Pubkey} (h : a.isVault) : ¬ a.signsOutside := by
  cases a <;> simp_all [isVault, signsOutside, isKey, isProgramDerived]

theorem isEscrow_not_signsOutside {a : Pubkey} (h : a.isEscrow) : ¬ a.signsOutside := by
  cases a <;> simp_all [isEscrow, signsOutside, isKey, isProgramDerived]

end Pubkey

/-- What happens on the ledger while this program signs for the addresses in `own`: these transfer, revoke
and close, and everybody else does anything. -/
def TokenInstruction.Allowed (own : Pubkey → Prop) : TokenInstruction → Prop
  | .transfer _ _ a _ | .revoke _ a | .closeAccount _ a => a.signsOutside ∨ own a
  | op => ∀ a, op.authority = some a → a.signsOutside

def Ledger.Moves (own : Pubkey → Prop) : Ledger → Ledger → Prop :=
  Relation.ReflTransGen fun l l' => ∃ op : TokenInstruction, op.Allowed own ∧ op.exec l = .ok l'

section
variable {own : Pubkey → Prop} {l l' l'' : Ledger} {op : TokenInstruction}

theorem TokenInstruction.Allowed.authority (h : op.Allowed own) {a : Pubkey} (ha : op.authority = some a) :
    a.signsOutside ∨ own a := by
  cases op with
  | transfer _ _ b _ => obtain rfl := Option.some.inj ha; exact h
  | revoke _ b => obtain rfl := Option.some.inj ha; exact h
  | closeAccount _ b => obtain rfl := Option.some.inj ha; exact h
  | _ => exact .inl (h _ ha)

theorem allowed_of_signedBy {signers : List Pubkey} (hkeys : ∀ k ∈ signers, k.isKey = true)
    (h : signedBy signers op) : op.Allowed own := by
  have hall : ∀ a, op.authority = some a → a.signsOutside := by
    intro a ha
    simp only [signedBy, ha, Bool.or_eq_true, decide_eq_true_eq] at h
    rcases h with h | h
    · simp [Pubkey.signsOutside, hkeys a h]
    · simp [Pubkey.signsOutside, h]
  cases op with
  | transfer _ _ b _ => exact .inl (hall b rfl)
  | revoke _ b => exact .inl (hall b rfl)
  | closeAccount _ b => exact .inl (hall b rfl)
  | _ => exact hall

namespace Ledger.Moves

theorem refl (l : Ledger) : Moves own l l := Relation.ReflTransGen.refl

theorem trans (h : Moves own l l') (h' : Moves own l' l'') : Moves own l l'' :=
  Relation.ReflTransGen.trans h h'

theorem single (op : TokenInstruction) (hop : op.Allowed own) (h : op.exec l = .ok l') : Moves own l l' :=
  Relation.ReflTransGen.single ⟨op, hop, h⟩

theorem mono {own' : Pubkey → Prop} (hown : ∀ a, own a → own' a) (h : Moves own l l') : Moves own' l l' := by
  refine Relation.ReflTransGen.mono ?_ l l' h
  rintro l₁ l₂ ⟨op, hop, hexec⟩
  refine ⟨op, ?_, hexec⟩
  cases op with
  | transfer => exact hop.imp_right (hown _)
  | revoke => exact hop.imp_right (hown _)
  | closeAccount => exact hop.imp_right (hown _)
  | _ => exact hop

theorem transfer {source destination a : Pubkey} {n : Nat} (ha : a.signsOutside ∨ own a)
    (h : l.transfer source destination a n = .ok l') : Moves own l l' :=
  single (.transfer source destination a n) ha h

theorem revoke {x a : Pubkey} (ha : own a) (h : l.revoke x a = .ok l') : Moves own l l' :=
  single (.revoke x a) (.inr ha) h

theorem closeAccount {x a : Pubkey} (ha : own a) (h : l.closeAccount x a = .ok l') : Moves own l l' :=
  single (.closeAccount x a) (.inr ha) h

theorem ensureAssociated {owner mint : Pubkey} (h : Sigil.ensureAssociated l owner mint = .ok l') :
    Moves own l l' := by
  unfold Sigil.ensureAssociated at h
  split at h
  · exact single (.createAssociated owner mint) (by simp [TokenInstruction.Allowed,
      TokenInstruction.authority]) h
  · simp only [bind_eq_ok, require_eq_ok, exists_and_left, exists_const, pure_eq_ok] at h
    obtain ⟨-, -, rfl⟩ := h
    exact refl l

theorem collectFee {source a owner mint : Pubkey} {destination : Option Pubkey} {fee : Nat} {e : SigilError}
    (ha : own a) (h : Sigil.collectFee l source a destination owner mint fee e = .ok l') :
    Moves own l l' := by
  unfold Sigil.collectFee at h
  split at h
  · simp only [bind_eq_ok, require_eq_ok, exists_and_left, exists_const] at h
    obtain ⟨x, -, account, -, -, -, h⟩ := h
    exact transfer (.inr ha) h
  · obtain rfl := pure_eq_ok.mp h
    exact refl l

theorem foreign {signers : List Pubkey} {ops : List TokenInstruction} (hkeys : ∀ k ∈ signers, k.isKey = true)
    (hsigned : ∀ op ∈ ops, signedBy signers op)
    (h : run (fun op l => TokenInstruction.exec l op) ops l = .ok l') : Moves own l l' := by
  refine run_invariant (P := Moves own l) (refl l) ?_ h
  intro op hop l₁ l₂ hl₁ hexec
  exact hl₁.trans (single op (allowed_of_signedBy hkeys (hsigned op hop)) hexec)

/-- A property of single accounts that every allowed change keeps is kept. -/
theorem accounts_invariant {P : Pubkey → TokenAccount → Prop}
    (hchange : ∀ (op : TokenInstruction) x o o', op.Allowed own → AccountChange op x o o' →
      (∀ account, o = some account → P x account) → ∀ account, o' = some account → P x account)
    (h : Moves own l l') (hl : ∀ x account, l.accounts x = some account → P x account) :
    ∀ x account, l'.accounts x = some account → P x account := by
  induction h with
  | refl => exact hl
  | tail _ hstep ih =>
      obtain ⟨op, hop, hexec⟩ := hstep
      intro x
      exact hchange op x _ _ hop (TokenInstruction.exec_change hexec x) (ih x)

end Ledger.Moves

end

/-- Every account has a mint. -/
def Ledger.HasMints (l : Ledger) : Prop := ∀ x account, l.accounts x = some account → (l.mints account.mint).isSome

theorem Ledger.Moves.hasMints {own : Pubkey → Prop} {l l' : Ledger} (h : Moves own l l') (hl : l.HasMints) :
    l'.HasMints := by
  induction h with
  | refl => exact hl
  | tail _ hstep ih =>
      obtain ⟨op, -, hexec⟩ := hstep
      intro x account' hx
      rcases TokenInstruction.exec_account_mint hexec hx with ⟨account, haccount, heq⟩ | hm
      · exact heq ▸ TokenInstruction.exec_mints hexec (ih x account haccount)
      · exact TokenInstruction.exec_mints hexec hm

/-! ## Associated accounts of vaults and escrows -/

/-- Owner, mint and authorities of an associated account. Only a vault's account can have a delegate. -/
def SoundAt (x : Pubkey) (account : TokenAccount) : Prop :=
  ∀ o m, x = .ata o m → o.isVault ∨ o.isEscrow →
    account.owner = o ∧ account.mint = m ∧ account.closeAuthority = none ∧
      (o.isEscrow → account.delegate = none)

def Ledger.Sound (l : Ledger) : Prop := ∀ x account, l.accounts x = some account → SoundAt x account

/-- Accounts of vaults have no delegate, except possibly at addresses with `P`. -/
def Ledger.DelegatedOnlyAt (P : Pubkey → Prop) (l : Ledger) : Prop :=
  ∀ x account, l.accounts x = some account → account.owner.isVault → account.delegate ≠ none → P x

section
variable {own : Pubkey → Prop} {l l' : Ledger} {P : Pubkey → Prop}

theorem own_not_signsOutside {o : Pubkey} (h : o.isVault ∨ o.isEscrow) : ¬ o.signsOutside := by
  rcases h with h | h
  · exact Pubkey.isVault_not_signsOutside h
  · exact Pubkey.isEscrow_not_signsOutside h

theorem Ledger.Moves.sound (h : Moves own l l') (hl : l.Sound) : l'.Sound := by
  refine h.accounts_invariant ?_ hl
  intro op x o o' hop hchange hP account haccount owner m hx howner
  cases hchange with
  | same => exact hP account haccount owner m hx howner
  | opened hopen =>
      cases haccount
      rcases hopen with rfl | ⟨rfl, heq⟩
      · have := hop x rfl
        simp [hx, Pubkey.signsOutside, Pubkey.isKey, Pubkey.isProgramDerived] at this
      · cases hx.symm.trans heq
        exact ⟨rfl, rfl, rfl, fun _ => rfl⟩
  | credited n => cases haccount; exact hP _ rfl owner m hx howner
  | debited _ hdebit =>
      cases haccount
      obtain ⟨-, heq, hnone⟩ := debit_ok hdebit
      obtain ⟨h₁, h₂, h₃, h₄⟩ := hP _ rfl owner m hx howner
      rw [heq]
      exact ⟨h₁, h₂, h₃, fun he => hnone (h₄ he)⟩
  | approved hop' ha =>
      subst hop'
      exact absurd (hop _ rfl) (ha ▸ (hP _ rfl owner m hx howner).1 ▸ own_not_signsOutside howner)
  | revoked =>
      cases haccount
      obtain ⟨h₁, h₂, h₃, -⟩ := hP _ rfl owner m hx howner
      exact ⟨h₁, h₂, h₃, fun _ => rfl⟩
  | reowned hop' ha =>
      subst hop'
      exact absurd (hop _ rfl) (ha ▸ (hP _ rfl owner m hx howner).1 ▸ own_not_signsOutside howner)
  | @reclosed account _ _ hop' ha =>
      subst hop'
      obtain ⟨h₁, -, h₃, -⟩ := hP _ rfl owner m hx howner
      rw [h₃, Option.getD_none, h₁] at ha
      exact absurd (hop _ rfl) (ha ▸ own_not_signsOutside howner)
  | refrozen b => cases haccount; exact hP _ rfl owner m hx howner
  | closed => cases haccount

theorem Ledger.Moves.delegatedOnlyAt (h : Moves own l l') (hl : l.DelegatedOnlyAt P) :
    l'.DelegatedOnlyAt P := by
  refine h.accounts_invariant (P := fun x account => account.owner.isVault → account.delegate ≠ none → P x) ?_ hl
  intro op x o o' hop hchange hP account haccount hvault hdelegate
  cases hchange with
  | same => exact hP account haccount hvault hdelegate
  | opened => cases haccount; exact absurd rfl hdelegate
  | credited n => cases haccount; exact hP _ rfl hvault hdelegate
  | debited _ hdebit =>
      cases haccount
      obtain ⟨-, heq, hnone⟩ := debit_ok hdebit
      rw [heq] at hvault
      exact hP _ rfl hvault fun h => hdelegate (hnone h)
  | approved hop' ha =>
      cases haccount
      subst hop'
      exact absurd (hop _ rfl) (ha ▸ Pubkey.isVault_not_signsOutside hvault)
  | revoked => cases haccount; exact absurd rfl hdelegate
  | reowned => cases haccount; exact absurd rfl hdelegate
  | reclosed => cases haccount; exact hP _ rfl hvault hdelegate
  | refrozen b => cases haccount; exact hP _ rfl hvault hdelegate
  | closed => cases haccount

/-- While an escrow does not sign, its associated account stays and loses nothing. -/
theorem Ledger.Moves.escrow_ata {e m : Pubkey} (h : Moves own l l') (hl : l.Sound) (he : e.isEscrow)
    (hown : ¬ own e) {account : TokenAccount} (hx : l.accounts (.ata e m) = some account) :
    ∃ account', l'.accounts (.ata e m) = some account' ∧ account.amount ≤ account'.amount := by
  induction h with
  | refl => exact ⟨account, hx, le_rfl⟩
  | @tail l₁ l₂ hl₁ hstep ih =>
      obtain ⟨op, hop, hexec⟩ := hstep
      obtain ⟨account₁, hx₁, hle⟩ := ih
      have hsound := Ledger.Moves.sound hl₁ hl _ _ hx₁ e m rfl (.inr he)
      have hnot : ∀ a, op.authority = some a → a ≠ e := by
        rintro a ha rfl
        rcases hop.authority ha with h | h
        · exact Pubkey.isEscrow_not_signsOutside he h
        · exact hown h
      have hchange := TokenInstruction.exec_change hexec (.ata e m)
      rw [hx₁] at hchange
      generalize l₂.accounts (.ata e m) = o at hchange
      cases hchange with
      | same => exact ⟨_, rfl, hle⟩
      | credited n => exact ⟨_, rfl, Nat.le_add_right_of_le hle⟩
      | debited ha hdebit =>
          obtain ⟨h₁ | h₁, -⟩ := debit_ok hdebit
          · rw [hsound.2.2.2 he] at h₁
            cases h₁
          · exact absurd (h₁.trans hsound.1) (hnot _ ha)
      | approved => exact ⟨_, rfl, hle⟩
      | revoked => exact ⟨_, rfl, hle⟩
      | reowned => exact ⟨_, rfl, hle⟩
      | reclosed => exact ⟨_, rfl, hle⟩
      | refrozen b => exact ⟨_, rfl, hle⟩
      | closed hop' ha _ =>
          subst hop'
          rw [hsound.2.2.1, Option.getD_none, hsound.1] at ha
          exact absurd ha (hnot _ rfl)

end

end Sigil
