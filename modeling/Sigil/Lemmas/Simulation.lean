import Sigil.Lemmas.SessionTrace

/-!
# The same instructions in two states

What an instruction charges depends on the amount it is given and on the decimals of a mint, not on balances,
escrows or policies. So in two states with accounts and mints of the same shape it charges the same.
-/

namespace Sigil

open Library

variable {w w' w₁ w₂ w₁' w₂' : World} {ctx : Ctx} {i : Instruction} {st st₁ st₂ : Step} {v : Pubkey}

theorem fundEscrow_sameShape {l l' : Ledger} {a : CreateEscrow} {vault : AgentVault}
    {protocolFee developerFee net : Nat} (h : fundEscrow l a vault protocolFee developerFee net = .ok l') :
    l.SameShape l' := by
  simp only [fundEscrow, bind_eq_ok] at h
  obtain ⟨l₁, h₁, l₂, h₂, h⟩ := h
  refine Ledger.SameShape.trans (.collectFee h₁) (.trans (.collectFee h₂) ?_)
  split at h
  · exact .transfer h
  · obtain rfl := pure_eq_ok.mp h
    exact .refl l₂

theorem collectFeesAndDelegate_sameShape {l l' : Ledger} {a : ValidateAndAuthorize} {vault : AgentVault}
    {plan : SpendPlan} (h : collectFeesAndDelegate l a vault plan = .ok l') : l.SameShape l' := by
  unfold collectFeesAndDelegate at h
  split at h
  · simp only [bind_eq_ok] at h
    obtain ⟨_, -, l₁, h₁, l₂, h₂, happrove⟩ := h
    exact Ledger.SameShape.trans (.collectFee h₁) (.trans (.collectFee h₂) (.approve happrove))
  · obtain rfl := pure_eq_ok.mp h
    exact .refl l

theorem revokeDelegation_sameShape {l l' : Ledger} {a : FinalizeSession} {session : SessionAuthority}
    (h : revokeDelegation l a session = .ok l') : l.SameShape l' := by
  unfold revokeDelegation at h
  split at h
  · simp only [bind_eq_ok] at h
    obtain ⟨_, -, _, -, hrevoke⟩ := h
    exact .revoke hrevoke
  · obtain rfl := pure_eq_ok.mp h
    exact .refl l

theorem PaysOut.sameShape {l l' : Ledger} {p : Payout} {recipient : Pubkey} {amount : Nat}
    (he : p.escrow.isEscrow) (h : PaysOut l l' p recipient amount) : l.SameShape l' := by
  obtain ⟨_, _, l₁, -, -, -, -, -, htransfer, hclose⟩ := h.intermediate
  exact Ledger.SameShape.trans (.transfer htransfer) (.closeAccount (by simp [Pubkey.isOwnAta, he]) hclose)

/-! ## Transfers -/

/-- What a transfer is charged, and for which account. -/
theorem agentTransfer_amount {a : AgentTransfer} (h : agentTransfer ctx a w = .ok w') :
    ∃ source mint x, w.ledger.accounts a.vaultTokenAccount = some source ∧
      w.ledger.mints source.mint = some mint ∧ stablecoinToUsd a.amount.toNat mint.decimals = .ok x ∧
      w'.spendLog = Function.update w.spendLog a.vault ((epochOf ctx.clock, x) :: w.spendLog a.vault) ∧
      w.ledger.SameShape w'.ledger := by
  obtain ⟨t⟩ := agentTransfer_trace h
  have hlog := congrArg World.spendLog t.result
  have hledger : w'.ledger = t.ledger₃ := congrArg World.ledger t.result
  refine ⟨t.source, t.mint, t.usdAmount, t.source_found, t.mint_found, t.usd, hlog, ?_⟩
  rw [hledger]
  exact Ledger.SameShape.trans (.transfer t.paid) (.trans (.collectFee t.protocolPaid) (.collectFee t.developerPaid))

theorem createEscrow_amount {a : CreateEscrow} (h : createEscrow ctx a w = .ok w') :
    ∃ mint x, w.ledger.mints a.tokenMint = some mint ∧ stablecoinToUsd a.amount.toNat mint.decimals = .ok x ∧
      w'.spendLog = Function.update w.spendLog a.sourceVault ((epochOf ctx.clock, x) :: w.spendLog a.sourceVault) ∧
      w.ledger.SameShape w'.ledger := by
  obtain ⟨t⟩ := createEscrow_trace h
  have hlog := congrArg World.spendLog t.result
  have hledger : w'.ledger = t.ledger₂ := congrArg World.ledger t.result
  refine ⟨t.mint, t.usdAmount, t.mint_found, t.usd, hlog, ?_⟩
  rw [hledger]
  exact Ledger.SameShape.trans (.ensureAssociated (.inr rfl) t.ensured) (fundEscrow_sameShape t.funded)

/-! ## Shape -/

/-- No instruction of this program changes the shape. -/
theorem Instruction.sameShape (hkeys : ∀ k ∈ ctx.signers, k.isKey = true) (h : i.exec ctx w = .ok w') :
    w.ledger.SameShape w'.ledger := by
  cases hadmin : i.isAdministrative with
  | true => exact (i.frame hadmin hkeys h).shape
  | false =>
      cases i with
      | queuePolicyUpdate a update => obtain ⟨_, _, _, -, -, -, -, -, -, rfl⟩ := queuePolicyUpdate_ok h; exact .refl _
      | applyPendingPolicy a => obtain ⟨_, _, _, -, -, -, -, rfl⟩ := applyPendingPolicy_ok h; exact .refl _
      | queueConstraintsUpdate a entries strictMode =>
          obtain ⟨_, _, _, -, -, -, -, -, rfl⟩ := queueConstraintsUpdate_ok h
          exact .refl _
      | queueCloseConstraints a => obtain ⟨_, _, -, -, -, -, rfl⟩ := queueCloseConstraints_ok h; exact .refl _
      | queueAgentPermissionsUpdate a capability limit =>
          obtain ⟨_, _, -, -, -, -, rfl⟩ := queueAgentPermissionsUpdate_ok h
          exact .refl _
      | initializeVault a => obtain ⟨-, -, rfl⟩ := initializeVault_ok h; exact .refl _
      | closeVault a =>
          obtain ⟨_, _, -, rfl⟩ := closeVault_ok h
          exact .refl _
      | validateAndAuthorize a =>
          obtain ⟨_, _, _, _, _, _, _, -, -, -, -, -, -, -, -, hledger, rfl⟩ := validateAndAuthorize_ok h
          exact collectFeesAndDelegate_sameShape hledger
      | finalizeSession a =>
          obtain ⟨_, _, _, _, _, _, _, -, -, -, hrevoke, -, -, -, rfl⟩ := finalizeSession_ok h
          exact revokeDelegation_sameShape hrevoke
      | agentTransfer a =>
          obtain ⟨_, _, _, -, -, -, -, hshape⟩ := agentTransfer_amount h
          exact hshape
      | createEscrow a =>
          obtain ⟨_, _, -, -, -, hshape⟩ := createEscrow_amount h
          exact hshape
      | settleEscrow a =>
          obtain ⟨_, d, _, -, ⟨-, -, he⟩, -, -, -, -, hpays, rfl⟩ := settleEscrow_ok h
          exact hpays.sameShape (by rw [he]; rfl)
      | refundEscrow a =>
          obtain ⟨_, d, _, -, ⟨-, -, he⟩, -, -, hpays, rfl⟩ := refundEscrow_ok h
          exact hpays.sameShape (by rw [he]; rfl)
      | closeSettledEscrow a => obtain ⟨_, _, -, -, rfl⟩ := closeSettledEscrow_ok h; exact .refl _
      | _ => simp [isAdministrative] at hadmin

/-- The same instruction keeps two states of the same shape so. -/
theorem Step.sameShape (hcall : st₁.instruction.call = st₂.instruction.call)
    (h₁ : st₁.exec w₁ = .ok w₁') (h₂ : st₂.exec w₂ = .ok w₂') (h : w₁.ledger.SameShape w₂.ledger) :
    w₁'.ledger.SameShape w₂'.ledger := by
  rcases Step.exec_cases h₁ with ⟨i, hcall₁, -, -, hi₁⟩ | ⟨ops, hcall₁, -, l₁, hrun₁, rfl, -⟩
  · rcases Step.exec_cases h₂ with ⟨j, hcall₂, -, -, hi₂⟩ | ⟨ops, hcall₂, -⟩
    · exact ((Instruction.sameShape st₁.signers_isKey hi₁).symm.trans h).trans
        (Instruction.sameShape st₂.signers_isKey hi₂)
    · rw [hcall₁, hcall₂] at hcall
      cases hcall
  · rcases Step.exec_cases h₂ with ⟨j, hcall₂, -⟩ | ⟨ops', hcall₂, -, l₂, hrun₂, rfl, -⟩
    · rw [hcall₁, hcall₂] at hcall
      cases hcall
    · rw [hcall₁, hcall₂] at hcall
      cases hcall
      exact h.run hrun₁ hrun₂

theorem Step.sound (h : st.exec w = .ok w') (hw : w.ledger.Sound) : w'.ledger.Sound := by
  cases Step.escrowChange h with
  | kept _ _ _ hledger => exact hledger.sound hw
  | created _ _ _ _ _ _ _ _ hledger _ => exact hledger.sound hw
  | released _ _ _ _ _ _ _ _ _ _ _ hpays => exact hpays.moves.sound hw
  | removed _ _ _ _ _ _ _ hledger => rw [hledger]; exact hw

/-! ## Charges -/

/-- An associated account of the program has the mint of its address, any other the mint of its shape. -/
theorem mint_eq_of_sameShape {l₁ l₂ : Ledger} {x : Pubkey} {account₁ account₂ : TokenAccount}
    (h : l₁.SameShape l₂) (hs₁ : l₁.Sound) (hs₂ : l₂.Sound) (hx₁ : l₁.accounts x = some account₁)
    (hx₂ : l₂.accounts x = some account₂) : account₂.mint = account₁.mint := by
  cases hown : x.isOwnAta with
  | true =>
      cases x with
      | ata o m =>
          have ho : o.isVault ∨ o.isEscrow := by simpa [Pubkey.isOwnAta] using hown
          rw [(hs₁ _ _ hx₁ o m rfl ho).2.1, (hs₂ _ _ hx₂ o m rfl ho).2.1]
      | _ => cases hown
  | false =>
      have hshape := h.accounts x hown
      rw [hx₁, hx₂, Option.map_some, Option.map_some, Option.some.injEq] at hshape
      exact (Prod.ext_iff.mp hshape).2

theorem decimals_eq_of_sameShape {l₁ l₂ : Ledger} {m : Pubkey} {mint₁ mint₂ : Mint} (h : l₁.SameShape l₂)
    (h₁ : l₁.mints m = some mint₁) (h₂ : l₂.mints m = some mint₂) : mint₂.decimals = mint₁.decimals := by
  have := h.decimals m
  rwa [h₁, h₂, Option.map_some, Option.map_some, Option.some.injEq] at this

/-- Both logs of a vault grow by the same records. -/
def SameRecords (v : Pubkey) (w₁ w₁' w₂ w₂' : World) : Prop :=
  ∃ records, w₁'.spendLog v = records ++ w₁.spendLog v ∧ w₂'.spendLog v = records ++ w₂.spendLog v

theorem SameRecords.none (h₁ : w₁'.spendLog v = w₁.spendLog v) (h₂ : w₂'.spendLog v = w₂.spendLog v) :
    SameRecords v w₁ w₁' w₂ w₂' := ⟨[], h₁, h₂⟩

theorem SameRecords.one {y : Pubkey} {r : Int × Nat}
    (h₁ : w₁'.spendLog = Function.update w₁.spendLog y (r :: w₁.spendLog y))
    (h₂ : w₂'.spendLog = Function.update w₂.spendLog y (r :: w₂.spendLog y)) : SameRecords v w₁ w₁' w₂ w₂' := by
  rcases eq_or_ne v y with rfl | hne
  · exact ⟨[r], by simp [h₁], by simp [h₂]⟩
  · exact .none (by simp [h₁, Function.update_of_ne hne]) (by simp [h₂, Function.update_of_ne hne])

/-- Within a session the same instruction charges the same. -/
theorem Step.sameRecords (hcall : st₁.instruction.call = st₂.instruction.call)
    (hclock : st₁.ctx.clock = st₂.ctx.clock) (hraw : isFinalizeSession st₁.instruction.raw = false)
    (h₁ : st₁.exec w₁ = .ok w₁') (h₂ : st₂.exec w₂ = .ok w₂') (h : w₁.ledger.SameShape w₂.ledger)
    (hs₁ : w₁.ledger.Sound) (hs₂ : w₂.ledger.Sound) (hv : (w₁.vaults v).isSome) : SameRecords v w₁ w₁' w₂ w₂' := by
  rcases Step.core_cases h₁ with ⟨hframe₁, hnot₁⟩ | ⟨i, hcall₁, hcore, hi₁⟩
  · rcases Step.core_cases h₂ with ⟨hframe₂, -⟩ | ⟨j, hcall₂, hcore, -⟩
    · exact .none (by rw [hframe₁.spendLog]) (by rw [hframe₂.spendLog])
    · rw [hnot₁ j (hcall.trans hcall₂)] at hcore
      cases hcore
  rcases Step.core_cases h₂ with ⟨-, hnot₂⟩ | ⟨j, hcall₂, -, hi₂⟩
  · rw [hnot₂ i (hcall.symm.trans hcall₁)] at hcore
    cases hcore
  cases (hcall₁.symm.trans hcall).trans hcall₂
  cases i with
  | initializeVault a =>
      obtain ⟨⟨hnone, -⟩, -, rfl⟩ := initializeVault_ok hi₁
      obtain ⟨-, -, rfl⟩ := initializeVault_ok hi₂
      have hne : v ≠ a.vault := by
        rintro rfl
        rw [hnone] at hv
        cases hv
      exact .none (Function.update_of_ne hne ..) (Function.update_of_ne hne ..)
  | closeVault a =>
      obtain ⟨_, _, -, rfl⟩ := closeVault_ok hi₁
      obtain ⟨_, _, -, rfl⟩ := closeVault_ok hi₂
      exact .none rfl rfl
  | validateAndAuthorize a =>
      obtain ⟨_, _, _, _, _, _, _, -, -, -, -, -, -, -, -, -, rfl⟩ := validateAndAuthorize_ok hi₁
      obtain ⟨_, _, _, _, _, _, _, -, -, -, -, -, -, -, -, -, rfl⟩ := validateAndAuthorize_ok hi₂
      exact .none rfl rfl
  | finalizeSession a =>
      rw [Step.finalize_raw hcall₁ h₁] at hraw
      cases hraw
  | agentTransfer a =>
      obtain ⟨source₁, mint₁, x₁, hsource₁, hmint₁, hx₁, hlog₁, -⟩ := agentTransfer_amount hi₁
      obtain ⟨source₂, mint₂, x₂, hsource₂, hmint₂, hx₂, hlog₂, -⟩ := agentTransfer_amount hi₂
      rw [mint_eq_of_sameShape h hs₁ hs₂ hsource₁ hsource₂] at hmint₂
      rw [decimals_eq_of_sameShape h hmint₁ hmint₂] at hx₂
      cases hx₁.symm.trans hx₂
      rw [hclock] at hlog₁
      exact .one hlog₁ hlog₂
  | createEscrow a =>
      obtain ⟨mint₁, x₁, hmint₁, hx₁, hlog₁, -⟩ := createEscrow_amount hi₁
      obtain ⟨mint₂, x₂, hmint₂, hx₂, hlog₂, -⟩ := createEscrow_amount hi₂
      rw [decimals_eq_of_sameShape h hmint₁ hmint₂] at hx₂
      cases hx₁.symm.trans hx₂
      rw [hclock] at hlog₁
      exact .one hlog₁ hlog₂
  | settleEscrow a =>
      obtain ⟨_, _, _, -, -, -, -, -, -, -, rfl⟩ := settleEscrow_ok hi₁
      obtain ⟨_, _, _, -, -, -, -, -, -, -, rfl⟩ := settleEscrow_ok hi₂
      exact .none rfl rfl
  | refundEscrow a =>
      obtain ⟨_, _, _, -, -, -, -, -, rfl⟩ := refundEscrow_ok hi₁
      obtain ⟨_, _, _, -, -, -, -, -, rfl⟩ := refundEscrow_ok hi₂
      exact .none rfl rfl
  | closeSettledEscrow a =>
      obtain ⟨_, _, -, -, rfl⟩ := closeSettledEscrow_ok hi₁
      obtain ⟨_, _, -, -, rfl⟩ := closeSettledEscrow_ok hi₂
      exact .none rfl rfl
  | _ => cases hcore

theorem SameRecords.trans {w₁'' w₂'' : World} (h : SameRecords v w₁ w₁' w₂ w₂')
    (h' : SameRecords v w₁' w₁'' w₂' w₂'') : SameRecords v w₁ w₁'' w₂ w₂'' := by
  obtain ⟨records, h₁, h₂⟩ := h
  obtain ⟨records', h₁', h₂'⟩ := h'
  exact ⟨records' ++ records, by simp [h₁', h₁], by simp [h₂', h₂]⟩

/-- An instruction without the bytes and lamports it finds. -/
def TopLevel.form (ix : TopLevel) : RawInstruction × Call := (ix.raw, ix.call)

/-- A settlement or a refund into the account `x`. -/
def TopLevel.paysInto (x : Pubkey) (ix : TopLevel) : Bool :=
  match ix.call with
  | .sigil (.settleEscrow a) => a.vaultAta = x
  | .sigil (.refundEscrow a) => a.vaultAta = x
  | _ => false

theorem Step.payout_spendLog {x : Pubkey} (hpays : st.instruction.paysInto x) (h : st.exec w = .ok w') :
    w'.spendLog = w.spendLog ∧ w.ledger.SameShape w'.ledger := by
  rcases Step.exec_cases h with ⟨i, hcall, -, -, hi⟩ | ⟨ops, hcall, -⟩
  · refine ⟨?_, Instruction.sameShape st.signers_isKey hi⟩
    unfold TopLevel.paysInto at hpays
    rw [hcall] at hpays
    cases i with
    | settleEscrow a => obtain ⟨_, _, _, -, -, -, -, -, -, -, rfl⟩ := settleEscrow_ok hi; rfl
    | refundEscrow a => obtain ⟨_, _, _, -, -, -, -, -, rfl⟩ := refundEscrow_ok hi; rfl
    | _ => cases hpays
  · rw [TopLevel.paysInto, hcall] at hpays
    cases hpays

/-- Two runs of a session, the second without the payouts into one account, charge the same. The induction is
on the instructions of the first. -/
theorem sameRecords_run {tx₁ tx₂ : Transaction} {l l' : List TopLevel} {i j : Nat} {x y : Pubkey}
    {s : SessionAuthority} (hclock : tx₁.clock = tx₂.clock) (hvault : s.vault = v)
    (hl : l'.map TopLevel.form = (l.filter fun ix => !ix.paysInto x).map TopLevel.form)
    (hraw : ∀ ix ∈ l, isFinalizeSession ix.raw = false)
    (hcan : ∀ st ∈ tx₁.stepsFrom l i, st.CannotOpen)
    (hopen : Open y s w₁) (hs₁ : w₁.ledger.Sound) (hs₂ : w₂.ledger.Sound)
    (h : w₁.ledger.SameShape w₂.ledger) (h₁ : run Step.exec (tx₁.stepsFrom l i) w₁ = .ok w₁')
    (h₂ : run Step.exec (tx₂.stepsFrom l' j) w₂ = .ok w₂') : SameRecords v w₁ w₁' w₂ w₂' := by
  induction l generalizing w₁ w₂ i j l' with
  | nil =>
      obtain rfl := List.map_eq_nil_iff.mp hl
      obtain rfl := run_nil_eq_ok.mp h₁
      obtain rfl := run_nil_eq_ok.mp h₂
      exact .none rfl rfl
  | cons ix l ih =>
      obtain ⟨u₁, hix₁, h₁⟩ := run_cons_eq_ok.mp h₁
      have hopen' := hopen.step (hcan _ (by simp [Transaction.stepsFrom])) (hraw ix (by simp)) hix₁
      have hraw' : ∀ ix ∈ l, isFinalizeSession ix.raw = false := fun ix hix => hraw ix (by simp [hix])
      have hcan' : ∀ st ∈ tx₁.stepsFrom l (i + 1), st.CannotOpen :=
        fun st hst => hcan st (by simp [Transaction.stepsFrom, hst])
      cases hpays : ix.paysInto x with
      | true =>
          rw [List.filter_cons_of_neg (by simp [hpays])] at hl
          obtain ⟨hlog, hshape⟩ := Step.payout_spendLog (by exact hpays) hix₁
          obtain ⟨records, hr₁, hr₂⟩ :=
            ih hl hraw' hcan' hopen' (Step.sound hix₁ hs₁) hs₂ (hshape.symm.trans h) h₁ h₂
          exact ⟨records, by rw [hr₁, hlog], hr₂⟩
      | false =>
          rw [List.filter_cons_of_pos (by simp [hpays]), List.map_cons] at hl
          obtain ⟨ix', l'', rfl, hform, hl⟩ := List.map_eq_cons_iff.mp hl
          obtain ⟨u₂, hix₂, h₂⟩ := run_cons_eq_ok.mp h₂
          have hcall : (tx₁.step ix i).instruction.call = (tx₂.step ix' j).instruction.call :=
            (Prod.ext_iff.mp hform).2.symm
          have hclock' : (tx₁.step ix i).ctx.clock = (tx₂.step ix' j).ctx.clock := hclock
          obtain ⟨vault, hv, -⟩ := hopen.vault
          have hexists : (w₁.vaults v).isSome := by rw [← hvault, hv]; rfl
          have hstep := Step.sameRecords hcall hclock' (hraw ix (by simp)) hix₁ hix₂ h hs₁ hs₂ hexists
          exact hstep.trans (ih hl hraw' hcan' hopen' (Step.sound hix₁ hs₁) (Step.sound hix₂ hs₂)
            (Step.sameShape hcall hix₁ hix₂ h) h₁ h₂)

end Sigil
