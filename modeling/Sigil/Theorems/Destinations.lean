import Sigil.Theorems.Washing

/-!
# Whom a vault pays

Outside of sessions an agent pays with `agent_transfer` or through an escrow. The destinations of the policy bind
the transfer. An escrow is bound by its address instead: it names the vault that may settle it.
-/

namespace Sigil

open Library

/-- Accounts stay with their owners, and only accounts of owners with `P` gain something. -/
structure Ledger.PaysTo (P : Pubkey → Prop) (l l' : Ledger) : Prop where
  owners : ∀ x account, l.accounts x = some account →
    ∃ account', l'.accounts x = some account' ∧ account'.owner = account.owner
  gains : ∀ x, l.balance x < l'.balance x → ∃ account, l'.accounts x = some account ∧ P account.owner

theorem Ledger.balance_setAccount (l : Ledger) (x y : Pubkey) (account : TokenAccount) :
    (l.setAccount y account).balance x = if x = y then account.amount else l.balance x := by
  rw [balance, setAccount_accounts]
  split_ifs <;> rfl

theorem Ledger.balance_of_some {l : Ledger} {x : Pubkey} {account : TokenAccount} (h : l.accounts x = some account) :
    l.balance x = account.amount := by rw [balance, h]

namespace Ledger.PaysTo

variable {P : Pubkey → Prop} {l l' l'' : Ledger}

theorem refl (l : Ledger) : PaysTo P l l :=
  ⟨fun _ account hx => ⟨account, hx, rfl⟩, fun _ h => absurd h (lt_irrefl _)⟩

theorem trans (h : PaysTo P l l') (h' : PaysTo P l' l'') : PaysTo P l l'' where
  owners x account hx := by
    obtain ⟨account', hx', howner⟩ := h.owners x account hx
    obtain ⟨account'', hx'', howner'⟩ := h'.owners x account' hx'
    exact ⟨account'', hx'', howner'.trans howner⟩
  gains x hlt := by
    rcases lt_or_ge (l'.balance x) (l''.balance x) with hsecond | hle
    · exact h'.gains x hsecond
    · obtain ⟨account', hx', hP⟩ := h.gains x (lt_of_lt_of_le hlt hle)
      obtain ⟨account'', hx'', howner⟩ := h'.owners x account' hx'
      exact ⟨account'', hx'', howner ▸ hP⟩

theorem transfer {source destination authority : Pubkey} {n : Nat}
    (h : l.transfer source destination authority n = .ok l')
    (hP : ∀ account, l.accounts destination = some account → P account.owner) : PaysTo P l l' := by
  obtain ⟨src, dst, src', hsrc, hdst, -, -, -, hdebit, rfl⟩ := Ledger.transfer_ok h
  obtain ⟨-, hsrc', -⟩ := Ledger.debit_ok hdebit
  split
  · exact refl l
  · refine ⟨fun x account hx => ?_, fun x hlt => ?_⟩
    · rw [setAccount_accounts]
      split
      · rename_i heq
        cases hdst.symm.trans (heq ▸ hx)
        exact ⟨_, rfl, rfl⟩
      · rw [setAccount_accounts]
        split
        · rename_i heq
          cases hsrc.symm.trans (heq ▸ hx)
          exact ⟨src', rfl, by rw [hsrc']⟩
        · exact ⟨account, hx, rfl⟩
    · -- only the destination gains
      by_cases hx : x = destination
      · exact ⟨Ledger.credit dst n, by rw [setAccount_accounts, if_pos hx], hP dst hdst⟩
      · rw [balance_setAccount, if_neg hx, balance_setAccount] at hlt
        split at hlt
        · rename_i hsource
          rw [hsource, balance_of_some hsrc, hsrc'] at hlt
          dsimp only at hlt
          omega
        · exact absurd hlt (lt_irrefl _)

theorem collectFee {source a owner mint : Pubkey} {destination : Option Pubkey} {fee : Nat} {e : SigilError}
    (h : Sigil.collectFee l source a destination owner mint fee e = .ok l') (hP : P owner) : PaysTo P l l' := by
  unfold Sigil.collectFee at h
  split at h
  · simp only [bind_eq_ok, require_eq_ok, exists_and_left, exists_const, getAccount_eq_ok] at h
    obtain ⟨x, -, account, hx, howner, -, h⟩ := h
    refine transfer h fun account' hx' => ?_
    cases hx.symm.trans hx'
    exact howner ▸ hP
  · obtain rfl := pure_eq_ok.mp h
    exact refl l

/-- An associated account is opened without tokens. -/
theorem ensureAssociated {owner mint : Pubkey} (h : Sigil.ensureAssociated l owner mint = .ok l') :
    PaysTo P l l' ∧ ∃ account, l'.accounts (.ata owner mint) = some account ∧ account.owner = owner := by
  unfold Sigil.ensureAssociated at h
  split at h
  · obtain ⟨hnone, -, rfl⟩ := Ledger.initializeAccount_ok h
    refine ⟨⟨fun x account hx => ⟨account, ?_, rfl⟩, fun x hlt => ?_⟩, _, Function.update_self .., rfl⟩
    · have hne : x ≠ .ata owner mint := by
        rintro rfl
        cases hnone.symm.trans hx
      rwa [setAccount_accounts, if_neg hne]
    · rw [balance_setAccount] at hlt
      split at hlt
      · exact absurd hlt (Nat.not_lt_zero _)
      · exact absurd hlt (lt_irrefl _)
  · rename_i account haccount
    simp only [bind_eq_ok, require_eq_ok, exists_and_left, exists_const, pure_eq_ok] at h
    obtain ⟨-, howner, rfl⟩ := h
    exact ⟨refl l, account, haccount, howner⟩

end Ledger.PaysTo

section
variable {w w' : World} {st : Step} {ctx : Ctx}

/-- Whom a payment may reach: for a transfer the fee accounts and, in the restricted mode, the listed destinations;
for an escrow the fee accounts and the escrow itself; for its settlement the vault that its address names. -/
def PaymentRule (st : Step) (w w' : World) : Prop :=
  match st.instruction.call with
  | .sigil (.agentTransfer a) => ∃ vault policy, w.vaults a.vault = some vault ∧ w.policies a.vault = some policy ∧
      (policy.destinationMode = destinationModeRestricted → w.ledger.PaysTo
        (fun o => o = protocolTreasury ∨ o = vault.feeDestination ∨ o ∈ policy.allowedDestinations) w'.ledger)
  | .sigil (.createEscrow a) => ∃ vault d, w.vaults a.sourceVault = some vault ∧ w'.escrows a.escrow = some d ∧
      a.escrow = .escrow a.sourceVault d.destinationVault d.escrowId ∧
      w.ledger.PaysTo (fun o => o = protocolTreasury ∨ o = vault.feeDestination ∨ o = a.escrow) w'.ledger
  | .sigil (.settleEscrow a) => ∃ d, w.escrows a.escrow = some d ∧ d.status = .active ∧
      a.escrow = .escrow a.sourceVault d.destinationVault d.escrowId ∧
      ∀ x, w.ledger.balance x < w'.ledger.balance x →
        ∃ account, w'.ledger.accounts x = some account ∧ account.owner = d.destinationVault
  | _ => True

theorem agentTransfer_paysTo {a : AgentTransfer} (t : TransferTrace ctx a w w')
    (hmode : t.policy.destinationMode = destinationModeRestricted) : w.ledger.PaysTo
      (fun o => o = protocolTreasury ∨ o = t.vault.feeDestination ∨ o ∈ t.policy.allowedDestinations) t.ledger₃ := by
  have hallowed : t.destination.owner ∈ t.policy.allowedDestinations := by
    have h := (checkTransfer_ok t.checked).destination
    simpa [PolicyConfig.isDestinationAllowed, hmode, destinationModeRestricted, destinationModeOpenWithCap] using h
  have hpaid : ∀ account, w.ledger.accounts a.destinationTokenAccount = some account →
      account.owner = protocolTreasury ∨ account.owner = t.vault.feeDestination ∨
        account.owner ∈ t.policy.allowedDestinations := by
    intro account haccount
    cases t.destination_found.symm.trans haccount
    exact .inr (.inr hallowed)
  exact (Ledger.PaysTo.transfer t.paid hpaid).trans
    ((Ledger.PaysTo.collectFee t.protocolPaid (.inl rfl)).trans
      (Ledger.PaysTo.collectFee t.developerPaid (.inr (.inl rfl))))

theorem createEscrow_paysTo {a : CreateEscrow} (t : EscrowTrace ctx a w w') : w.ledger.PaysTo
    (fun o => o = protocolTreasury ∨ o = t.vault.feeDestination ∨ o = a.escrow) t.ledger₂ := by
  obtain ⟨hopened, account, haccount, howner⟩ := Ledger.PaysTo.ensureAssociated t.ensured
  have hfunded := t.funded
  simp only [fundEscrow, bind_eq_ok] at hfunded
  obtain ⟨l₁, h₁, l₂, h₂, h⟩ := hfunded
  have hfees : t.ledger₁.PaysTo (fun o => o = protocolTreasury ∨ o = t.vault.feeDestination ∨ o = a.escrow) l₂ :=
    (Ledger.PaysTo.collectFee h₁ (.inl rfl)).trans (.collectFee h₂ (.inr (.inl rfl)))
  refine hopened.trans (hfees.trans ?_)
  split at h
  · refine .transfer h fun account' haccount' => ?_
    obtain ⟨account₂, haccount₂, howner₂⟩ := hfees.owners _ _ haccount
    cases haccount₂.symm.trans haccount'
    exact .inr (.inr (howner₂.trans howner))
  · rw [pure_eq_ok.mp h]
    exact .refl _

/-- The escrow's account loses everything, so the only account that gains is the vault's. -/
theorem PaysOut.gains {l l' : Ledger} {p : Payout} {recipient x : Pubkey} {amount : Nat}
    (h : PaysOut l l' p recipient amount) (hne : p.escrow ≠ recipient) (hlt : l.balance x < l'.balance x) :
    ∃ account, l'.accounts x = some account ∧ account.owner = recipient := by
  obtain ⟨_, vaultAta, -, -, -, -, -, howner, -, hdiff, heq⟩ := h.accounts hne
  have hescrow : x ≠ .ata p.escrow p.tokenMint := by
    rintro rfl
    simp [Ledger.balance, heq] at hlt
  have hx : l'.accounts x = Function.update l.accounts p.vaultAta (some (Ledger.credit vaultAta amount)) x := by
    rw [heq]
    exact Function.update_of_ne hescrow ..
  rcases eq_or_ne x p.vaultAta with rfl | hvault
  · exact ⟨_, hx.trans (Function.update_self ..), howner⟩
  · rw [Function.update_of_ne hvault] at hx
    simp [Ledger.balance, hx] at hlt

theorem Step.paymentRule (h : st.exec w = .ok w') : PaymentRule st w w' := by
  unfold PaymentRule
  rcases Step.exec_cases h with ⟨i, hcall, -, -, hi⟩ | ⟨_, hcall, -⟩
  · rw [hcall]
    cases i with
    | agentTransfer a =>
        obtain ⟨t⟩ := agentTransfer_trace hi
        refine ⟨t.vault, t.policy, t.vault_found, t.policy_found, fun hmode => ?_⟩
        have hledger : w'.ledger = t.ledger₃ := congrArg World.ledger t.result
        rw [hledger]
        exact agentTransfer_paysTo t hmode
    | createEscrow a =>
        obtain ⟨t⟩ := createEscrow_trace hi
        refine ⟨t.vault, a.deposit st.ctx.clock t.net, t.vault_found, ?_, rfl, ?_⟩
        · exact (congrArg (World.escrows · a.escrow) t.result).trans (Function.update_self ..)
        · have hledger : w'.ledger = t.ledger₂ := congrArg World.ledger t.result
          rw [hledger]
          exact createEscrow_paysTo t
    | settleEscrow a =>
        obtain ⟨_, d, _, -, ⟨he, -, hx⟩, hdest, hvault, hactive, -, hpays, rfl⟩ := settleEscrow_ok hi
        refine ⟨d, he, hactive, hx, fun x hlt => ?_⟩
        rw [hdest]
        exact hpays.gains (ne_of_isVault_isEscrow (hx ▸ rfl) hvault) hlt
    | _ => trivial
  · rw [hcall]
    trivial

/-- In every run from the start, whatever else happens in it. -/
theorem payments_follow_rule (steps : List Step) : Always Step.exec PaymentRule steps {} :=
  always_iff.mpr fun _ _ _ _ _ _ _ hexec => Step.paymentRule hexec

end

/-! ### An escrow to a vault that is not listed -/

def payeeAccount : TopLevel :=
  { raw := { programId := .key 9, accounts := [], data := [] }
    call := .foreign [.createAssociated payeeVault.vault usdcMint] }

def payeeSetup : List Step :=
  payRun.take 3 ++
  [.ofKey payClock 6 (Instruction.initializeVault payeeVault).toTopLevel,
   .ofKey payClock 6 (Instruction.registerAgent payeeAgent).toTopLevel,
   .ofKey payClock 6 payeeAccount]

def escrowPayment : List Step :=
  [.ofKey payClock 3 (Instruction.createEscrow payEscrow).toTopLevel,
   .ofKey payClock 7 washSettle]

/-- The policy lists key 5 only, and the vault of owner 6 receives 999800. -/
theorem escrow_pays_unlisted : ∃ w w' policy account, run Step.exec payeeSetup {} = .ok w ∧
    w.policies payVault.vault = some policy ∧ policy.destinationMode = destinationModeRestricted ∧
    policy.allowedDestinations = [.key 5] ∧ run Step.exec escrowPayment w = .ok w' ∧
    w.ledger.balance (.ata payeeVault.vault usdcMint) = 0 ∧
    w'.ledger.accounts (.ata payeeVault.vault usdcMint) = some account ∧ account.amount = 999800 ∧
    account.owner = payeeVault.vault ∧
    payeeVault.vault ∉ [.key 5, protocolTreasury, payVault.feeDestination, payVault.vault] ∧
    payeeVault.owner ≠ .key 5 :=
  ⟨_, _, _, _, rfl, rfl, rfl, rfl, rfl, rfl, rfl, rfl, rfl, by decide, by decide⟩

end Sigil
