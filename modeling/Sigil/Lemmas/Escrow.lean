import Mathlib.Data.Finset.Card
import Sigil.Lemmas.Core

/-!
# Escrows

Every step leaves the escrows alone, opens one, releases one or removes one that is no longer active. While an
escrow is active its tokens lie in its associated account, and its source vault counts it.
-/

namespace Sigil

open Library

/-! ## Payouts -/

section
variable {l l' : Ledger} {p : Payout} {recipient : Pubkey} {amount : Nat}

theorem PaysOut.moves (h : PaysOut l l' p recipient amount) : l.Moves (· = p.escrow) l' := by
  obtain ⟨_, _, l₁, -, -, -, -, -, htransfer, hclose⟩ := h.intermediate
  exact Ledger.Moves.trans (.transfer (.inr rfl) htransfer) (.closeAccount rfl hclose)

/-- The account that pays held exactly the amount, since an account is closed empty. -/
theorem PaysOut.accounts (h : PaysOut l l' p recipient amount) (hne : p.escrow ≠ recipient) :
    ∃ escrowAta vaultAta, l.accounts (.ata p.escrow p.tokenMint) = some escrowAta ∧ escrowAta.amount = amount ∧
      escrowAta.frozen = false ∧ l.accounts p.vaultAta = some vaultAta ∧ vaultAta.mint = p.tokenMint ∧
      vaultAta.owner = recipient ∧ vaultAta.frozen = false ∧ p.vaultAta ≠ .ata p.escrow p.tokenMint ∧
      l'.accounts = Function.update (Function.update l.accounts p.vaultAta (some (Ledger.credit vaultAta amount)))
        (.ata p.escrow p.tokenMint) none := by
  obtain ⟨escrowAta, vaultAta, l₁, hescrow, howner, hvault, hmint, hrecipient, htransfer, hclose⟩ := h.intermediate
  have hdiff : Pubkey.ata p.escrow p.tokenMint ≠ p.vaultAta := by
    intro heq
    rw [← heq, hescrow] at hvault
    cases hvault
    exact hne (howner.symm.trans hrecipient)
  obtain ⟨src, dst, src', hsrc, hdst, hfrozen, hle, -, hdebit, rfl⟩ := Ledger.transfer_ok htransfer
  cases hescrow.symm.trans hsrc
  cases hvault.symm.trans hdst
  obtain ⟨-, hsrc', -⟩ := Ledger.debit_ok hdebit
  rw [if_neg hdiff] at hclose
  obtain ⟨account, haccount, hzero, -, rfl⟩ := Ledger.closeAccount_ok hclose
  have hpaid : escrowAta.amount = amount := by
    rw [Ledger.setAccount_accounts, if_neg hdiff, Ledger.setAccount_accounts, if_pos rfl] at haccount
    obtain rfl := Option.some.inj haccount
    rw [hsrc'] at hzero
    dsimp only at hzero
    omega
  refine ⟨escrowAta, vaultAta, hescrow, hpaid, hfrozen.1, hvault, hmint, hrecipient, hfrozen.2, hdiff.symm, ?_⟩
  -- the debited account is the one that is closed
  have hcomm := Function.update_comm hdiff (some src') (some (Ledger.credit vaultAta amount)) l.accounts
  simp only [Ledger.setAccount, hcomm, Function.update_idem]

end

/-! ## What a step does to escrows -/

/-- Tokens move with the signature of vaults at most, and last a vault may approve a delegate. -/
def LedgerKept (l l' : Ledger) : Prop :=
  l.Moves (·.isVault) l' ∨ ∃ l₁ x delegate v n, l.Moves (·.isVault) l₁ ∧ v.isVault ∧
    l₁.approve x delegate v n = .ok l'

section
variable {l l' : Ledger}

theorem approve_sound {x delegate v : Pubkey} {n : Nat} (hv : v.isVault) (hl : l.Sound)
    (h : l.approve x delegate v n = .ok l') : l'.Sound := by
  obtain ⟨account, hx, -, howner, rfl⟩ := Ledger.approve_ok h
  intro y account' hy o m hata ho
  rw [Ledger.setAccount_accounts] at hy
  split at hy
  · rename_i heq
    subst heq
    cases hy
    obtain ⟨h₁, h₂, h₃, -⟩ := hl y account hx o m hata ho
    refine ⟨h₁, h₂, h₃, fun he => ?_⟩
    rw [howner, h₁] at hv
    cases o <;> simp [Pubkey.isVault, Pubkey.isEscrow] at hv he
  · exact hl y account' hy o m hata ho

theorem LedgerKept.sound (h : LedgerKept l l') (hl : l.Sound) : l'.Sound := by
  rcases h with h | ⟨l₁, x, delegate, v, n, h, hv, happrove⟩
  · exact h.sound hl
  · exact approve_sound hv (h.sound hl) happrove

theorem LedgerKept.escrow_ata (h : LedgerKept l l') (hl : l.Sound) {e m : Pubkey} (he : e.isEscrow)
    {account : TokenAccount} (hx : l.accounts (.ata e m) = some account) :
    ∃ account', l'.accounts (.ata e m) = some account' ∧ account.amount ≤ account'.amount := by
  have hown : ¬ e.isVault := by cases e <;> simp_all [Pubkey.isVault, Pubkey.isEscrow]
  rcases h with h | ⟨l₁, x, delegate, v, n, h, hv, happrove⟩
  · exact h.escrow_ata hl he hown hx
  · obtain ⟨account', hx', hle⟩ := h.escrow_ata hl he hown hx
    obtain ⟨account₁, hx₁, -, -, rfl⟩ := Ledger.approve_ok happrove
    rw [Ledger.setAccount_accounts]
    split
    · rename_i heq
      subst heq
      cases hx'.symm.trans hx₁
      exact ⟨_, rfl, hle⟩
    · exact ⟨account', hx', hle⟩

end

/-- Active escrows that a vault counts. A vault that is not there counts none. -/
def activeCount (w : World) (v : Pubkey) : Nat := (w.vaults v).elim 0 AgentVault.activeEscrowCount

/-- The accounts that a settlement or a refund is given. -/
def Step.payout (st : Step) : Option Payout :=
  match st.instruction.call with
  | .sigil (.settleEscrow a) => some a.toPayout
  | .sigil (.refundEscrow a) => some a.toPayout
  | _ => none

/-- Who is paid when an escrow takes a status, and when that is possible. -/
def PaysAtTime (clock : Clock) (d : EscrowDeposit) (status : EscrowStatus) (recipient : Pubkey) : Prop :=
  status = .settled ∧ recipient = d.destinationVault ∧ clock.unixTimestamp < d.expiresAt ∨
  status = .refunded ∧ recipient = d.sourceVault ∧ d.expiresAt ≤ clock.unixTimestamp

inductive EscrowChange (st : Step) (w w' : World) : Prop where
  | kept (hpayout : st.payout = none) (hescrows : w'.escrows = w.escrows)
      (hcount : ∀ v, activeCount w' v = activeCount w v) (hledger : LedgerKept w.ledger w'.ledger)
  | created (e : Pubkey) (d : EscrowDeposit) (hpayout : st.payout = none)
      (haddress : e = .escrow d.sourceVault d.destinationVault d.escrowId) (hnone : w.escrows e = none)
      (hactive : d.status = .active)
      (hescrows : w'.escrows = Function.update w.escrows e (some d))
      (hcount : ∀ v, activeCount w' v = activeCount w v + if v = d.sourceVault then 1 else 0)
      (hledger : w.ledger.Moves (·.isVault) w'.ledger)
      (hfunded : w.ledger.Sound →
        ∃ account, w'.ledger.accounts (.ata e d.tokenMint) = some account ∧ d.amount ≤ account.amount)
  | released (p : Payout) (d : EscrowDeposit) (status : EscrowStatus) (recipient : Pubkey)
      (hpayout : st.payout = some p) (hescrow : w.escrows p.escrow = some d) (hactive : d.status = .active)
      (htime : PaysAtTime st.ctx.clock d status recipient) (hrecipient : recipient.isVault)
      (hescrows : w'.escrows = Function.update w.escrows p.escrow (some { d with status := status }))
      (hcount : ∀ v, activeCount w' v = activeCount w v - if v = d.sourceVault then 1 else 0)
      (hpays : PaysOut w.ledger w'.ledger p recipient d.amount)
  | removed (e : Pubkey) (d : EscrowDeposit) (hpayout : st.payout = none) (hescrow : w.escrows e = some d)
      (hstatus : d.status ≠ .active) (hescrows : w'.escrows = Function.update w.escrows e none)
      (hcount : ∀ v, activeCount w' v = activeCount w v) (hledger : w'.ledger = w.ledger)

section
variable {w w' : World} {st : Step} {v : Pubkey}

theorem activeCount_update {o : Option AgentVault} (h : w'.vaults = Function.update w.vaults v o) (x : Pubkey) :
    activeCount w' x = if x = v then o.elim 0 AgentVault.activeEscrowCount else activeCount w x := by
  unfold activeCount
  rw [h, Function.update_apply]
  split <;> rfl

/-- A vault that keeps its count keeps the counts of all. -/
theorem activeCount_same {o : Option AgentVault} (h : w'.vaults = Function.update w.vaults v o)
    (ho : o.elim 0 AgentVault.activeEscrowCount = activeCount w v) (x : Pubkey) :
    activeCount w' x = activeCount w x := by
  rw [activeCount_update h]
  split
  · rename_i heq
    rw [heq, ho]
  · rfl

theorem CoreFrame.activeCount (h : CoreFrame w w') (v : Pubkey) :
    Sigil.activeCount w' v = Sigil.activeCount w v := by
  have hmap : ∀ o : Option AgentVault, o.elim 0 AgentVault.activeEscrowCount =
      (o.map AgentVault.counters).elim 0 fun c => c.2.2.2 := by
    intro o
    cases o <;> rfl
  unfold Sigil.activeCount
  rw [hmap, h.vaults v, ← hmap]

theorem collectFeesAndDelegate_kept {l l' : Ledger} {a : ValidateAndAuthorize} {vault : AgentVault}
    {plan : SpendPlan} (ha : a.vault.isVault) (h : collectFeesAndDelegate l a vault plan = .ok l') :
    LedgerKept l l' := by
  unfold collectFeesAndDelegate at h
  split at h
  · simp only [bind_eq_ok] at h
    obtain ⟨_, -, l₁, h₁, l₂, h₂, happrove⟩ := h
    exact .inr ⟨l₂, _, _, _, _, Ledger.Moves.trans (.collectFee ha h₁) (.collectFee ha h₂), ha, happrove⟩
  · obtain rfl := pure_eq_ok.mp h
    exact .inl (.refl l)

theorem revokeDelegation_moves {l l' : Ledger} {a : FinalizeSession} {session : SessionAuthority}
    (ha : a.vault.isVault) (h : revokeDelegation l a session = .ok l') : l.Moves (·.isVault) l' := by
  unfold revokeDelegation at h
  split at h
  · simp only [bind_eq_ok] at h
    obtain ⟨_, -, _, -, hrevoke⟩ := h
    exact .revoke ha hrevoke
  · obtain rfl := pure_eq_ok.mp h
    exact .refl l

theorem ensureAssociated_exists {l l' : Ledger} {owner mint : Pubkey} (h : ensureAssociated l owner mint = .ok l') :
    ∃ account, l'.accounts (.ata owner mint) = some account := by
  unfold ensureAssociated at h
  split at h
  · obtain ⟨-, -, rfl⟩ := Ledger.initializeAccount_ok h
    exact ⟨_, by rw [Ledger.setAccount_accounts, if_pos rfl]⟩
  · rename_i account haccount
    simp only [bind_eq_ok, pure_eq_ok] at h
    obtain ⟨_, -, _, -, rfl⟩ := h
    exact ⟨account, haccount⟩

theorem fundEscrow_moves {l l' : Ledger} {a : CreateEscrow} {vault : AgentVault} {protocolFee developerFee net : Nat}
    (ha : a.sourceVault.isVault) (h : fundEscrow l a vault protocolFee developerFee net = .ok l') :
    l.Moves (·.isVault) l' := by
  simp only [fundEscrow, bind_eq_ok] at h
  obtain ⟨l₁, h₁, l₂, h₂, h⟩ := h
  refine Ledger.Moves.trans (.collectFee ha h₁) (.trans (.collectFee ha h₂) ?_)
  split at h
  · exact .transfer (.inr ha) h
  · obtain rfl := pure_eq_ok.mp h
    exact .refl l₂

/-- The net amount arrives in the account of the escrow. -/
theorem fundEscrow_funded {l l' : Ledger} {a : CreateEscrow} {vault : AgentVault}
    {protocolFee developerFee net : Nat} (ha : a.sourceVault.isVault) (hl : l.Sound)
    (hexists : ∃ account, l.accounts (.ata a.escrow a.tokenMint) = some account)
    (h : fundEscrow l a vault protocolFee developerFee net = .ok l') :
    ∃ account, l'.accounts (.ata a.escrow a.tokenMint) = some account ∧ net ≤ account.amount := by
  simp only [fundEscrow, bind_eq_ok] at h
  obtain ⟨l₁, h₁, l₂, h₂, h⟩ := h
  have hmoves : l.Moves (·.isVault) l₂ := .trans (.collectFee ha h₁) (.collectFee ha h₂)
  obtain ⟨account, haccount⟩ := hexists
  obtain ⟨account₂, haccount₂, -⟩ := hmoves.escrow_ata hl rfl (by simp [CreateEscrow.escrow, Pubkey.isVault]) haccount
  split at h
  · obtain ⟨src, dst, src', hsrc, hdst, -, -, -, hdebit, rfl⟩ := Ledger.transfer_ok h
    have hdiff : a.sourceVaultAta ≠ .ata a.escrow a.tokenMint := by
      -- the vault could not debit an account of the escrow
      intro heq
      rw [heq, haccount₂] at hsrc
      cases hsrc
      obtain ⟨howner, -, -, hnone⟩ := hmoves.sound hl _ _ haccount₂ _ _ rfl (.inr rfl)
      rcases (Ledger.debit_ok hdebit).1 with h | h
      · rw [hnone rfl] at h
        cases h
      · rw [h, howner] at ha
        cases ha
    rw [if_neg hdiff]
    refine ⟨_, by rw [Ledger.setAccount_accounts, if_pos rfl], ?_⟩
    simp [Ledger.credit]
  · obtain rfl := pure_eq_ok.mp h
    exact ⟨account₂, haccount₂, by omega⟩

theorem Step.payout_eq_none (h : ∀ i, st.instruction.call = .sigil i → i.isCore = false) : st.payout = none := by
  unfold payout
  split
  · rename_i a hcall
    cases h _ hcall
  · rename_i a hcall
    cases h _ hcall
  · rfl

theorem Step.escrowChange (h : st.exec w = .ok w') : EscrowChange st w w' := by
  rcases Step.core_cases h with ⟨hframe, hnot⟩ | ⟨i, hcall, hcore, hi⟩
  · exact .kept (Step.payout_eq_none hnot) hframe.escrows hframe.activeCount (.inl hframe.ledger)
  · cases i with
    | initializeVault a =>
        obtain ⟨⟨hnone, -⟩, -, rfl⟩ := initializeVault_ok hi
        refine .kept (by simp [Step.payout, hcall]) rfl (activeCount_same rfl ?_) (.inl (.refl _))
        simp [activeCount, hnone, InitializeVault.newVault]
    | closeVault a =>
        obtain ⟨vault, _, hclosable, rfl⟩ := closeVault_ok hi
        refine .kept (by simp [Step.payout, hcall]) rfl (activeCount_same rfl ?_) (.inl (.refl _))
        simp [activeCount, hclosable.owned.found, hclosable.escrows]
    | validateAndAuthorize a =>
        obtain ⟨vault, _, _, _, _, _, _, ⟨hv, hx⟩, -, -, -, -, -, -, -, hledger, rfl⟩ := validateAndAuthorize_ok hi
        refine .kept (by simp [Step.payout, hcall]) rfl (activeCount_same rfl ?_)
          (collectFeesAndDelegate_kept (isVault_of_address hx) hledger)
        simp [activeCount, hv]
    | finalizeSession a =>
        obtain ⟨vault, _, _, _, _, charged, _, ⟨hv, hx⟩, -, -, hrevoke, -, hcharge, hstats, rfl⟩ :=
          finalizeSession_ok hi
        have hcharged : charged.escrows = w.escrows ∧ charged.vaults = w.vaults := by
          rcases chargeSession_ok hcharge with ⟨-, rfl⟩ | ⟨-, _, _, _, -, -, rfl⟩
          · exact ⟨rfl, rfl⟩
          · exact ⟨rfl, rfl⟩
        refine .kept (by simp [Step.payout, hcall]) hcharged.1
          (activeCount_same (v := a.vault) (by rw [← hcharged.2]; rfl) ?_)
          (.inl (revokeDelegation_moves (isVault_of_address hx) hrevoke))
        simp [activeCount, hv, (finalizeStats_ok hstats).2.2.1]
    | agentTransfer a =>
        obtain ⟨vault, vault', _, _, _, _, _, _, ⟨hv, -⟩, -, -, -, hmoves, hcounters, rfl⟩ := agentTransfer_ok hi
        refine .kept (by simp [Step.payout, hcall]) rfl (activeCount_same rfl ?_) (.inl hmoves)
        simp only [AgentVault.counters, Prod.mk.injEq] at hcounters
        simp [activeCount, hv, hcounters.2.2.2]
    | createEscrow a =>
        obtain ⟨vault, vault', _, _, _, _, _, _, _, net, l, ledger, ⟨hv, hx⟩, -, -, hnone, -, hensure, hfund,
          hcounters, rfl⟩ := createEscrow_ok hi
        have ha := isVault_of_address hx
        refine .created a.escrow (a.deposit st.ctx.clock net) (by simp [Step.payout, hcall]) rfl hnone rfl rfl
          (fun x => ?_) (.trans (.ensureAssociated hensure) (fundEscrow_moves ha hfund)) (fun hsound => ?_)
        · rw [activeCount_update (v := a.sourceVault) rfl]
          split
          · rename_i heq
            subst heq
            simp [activeCount, hv, CreateEscrow.deposit]
          · rename_i hne
            rw [if_neg (by exact hne)]
            rfl
        · have hmoves : w.ledger.Moves (·.isVault) l := .ensureAssociated hensure
          exact fundEscrow_funded ha (hmoves.sound hsound) (ensureAssociated_exists hensure) hfund
    | settleEscrow a =>
        obtain ⟨vault, d, ledger, ⟨hv, -⟩, ⟨he, hsource, -⟩, hdest, hvault, hactive, htime, hpays, rfl⟩ :=
          settleEscrow_ok hi
        refine .released a.toPayout d .settled a.destinationVault (by simp [Step.payout, hcall]) he hactive
          (.inl ⟨rfl, hdest.symm, htime⟩) hvault rfl (fun x => ?_) hpays
        rw [activeCount_update (v := a.sourceVault) rfl, hsource]
        split
        · rename_i heq
          subst heq
          simp [activeCount, hv]
        · rfl
    | refundEscrow a =>
        obtain ⟨vault, d, ledger, ⟨hv, hx⟩, ⟨he, hsource, -⟩, hactive, htime, hpays, rfl⟩ := refundEscrow_ok hi
        refine .released a.toPayout d .refunded a.sourceVault (by simp [Step.payout, hcall]) he hactive
          (.inr ⟨rfl, hsource.symm, htime⟩) (isVault_of_address hx) rfl (fun x => ?_) hpays
        rw [activeCount_update (v := a.sourceVault) rfl, hsource]
        split
        · rename_i heq
          subst heq
          simp [activeCount, hv]
        · rfl
    | closeSettledEscrow a =>
        obtain ⟨e, d, he, hstatus, rfl⟩ := closeSettledEscrow_ok hi
        exact .removed e d (by simp [Step.payout, hcall]) he hstatus rfl (fun _ => rfl) rfl
    | _ => cases hcore

end

end Sigil
