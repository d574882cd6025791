import Sigil.Lemmas.Escrow

/-!
# Invariant of the escrows
-/

namespace Sigil

open Library

/-- An escrow that a vault pays. -/
def ActiveFrom (w : World) (v e : Pubkey) : Prop :=
  ∃ d, w.escrows e = some d ∧ d.status = .active ∧ d.sourceVault = v

/-- The tokens of an active escrow lie in its associated account. -/
def Backed (w : World) (e : Pubkey) (d : EscrowDeposit) : Prop :=
  ∃ account, w.ledger.accounts (.ata e d.tokenMint) = some account ∧ d.amount ≤ account.amount

structure EscrowInv (w : World) : Prop where
  sound : w.ledger.Sound
  hasMints : w.ledger.HasMints
  vaults : ∀ v vault, w.vaults v = some vault → v = vault.address
  address : ∀ e d, w.escrows e = some d → e = .escrow d.sourceVault d.destinationVault d.escrowId
  backed : ∀ e d, w.escrows e = some d → d.status = .active → Backed w e d
  counted : ∀ v, ∃ s : Finset Pubkey, (∀ e, e ∈ s ↔ ActiveFrom w v e) ∧ s.card = activeCount w v

variable {w w' : World} {st : Step} {v e : Pubkey} {d : EscrowDeposit}

/-! ## Addresses of vaults -/

theorem address_of_counters {vault vault' : AgentVault} (h : vault'.counters = vault.counters) :
    vault'.address = vault.address := by
  simp only [AgentVault.counters, Prod.mk.injEq] at h
  simp [AgentVault.address, h.1, h.2.1]

/-- A vault that is set at the address it had. -/
theorem vaults_update {o : Option AgentVault} {y : Pubkey}
    (h : ∀ v vault, w.vaults v = some vault → v = vault.address)
    (ho : ∀ vault, o = some vault → y = vault.address) :
    ∀ v vault, Function.update w.vaults y o v = some vault → v = vault.address := by
  intro v vault hv
  rcases update_cases hv with ⟨rfl, heq⟩ | ⟨-, hv⟩
  · exact ho vault heq
  · exact h v vault hv

theorem Step.vaults_address (h : ∀ v vault, w.vaults v = some vault → v = vault.address)
    (hexec : st.exec w = .ok w') : ∀ v vault, w'.vaults v = some vault → v = vault.address := by
  rcases Step.core_cases hexec with ⟨hframe, -⟩ | ⟨i, -, hcore, hi⟩
  · intro v vault' hv
    obtain ⟨vault, hvault, hcounters⟩ := hframe.vault hv
    rw [address_of_counters hcounters]
    exact h v vault hvault
  · cases i with
    | initializeVault a =>
        obtain ⟨-, -, rfl⟩ := initializeVault_ok hi
        refine vaults_update h fun vault hvault => ?_
        cases hvault
        rfl
    | closeVault a =>
        obtain ⟨_, _, -, rfl⟩ := closeVault_ok hi
        exact vaults_update h (by simp)
    | validateAndAuthorize a =>
        obtain ⟨vault, _, _, _, _, _, _, ⟨hv, hx⟩, -, -, -, -, -, -, -, -, rfl⟩ := validateAndAuthorize_ok hi
        refine vaults_update h fun vault' hvault => ?_
        cases hvault
        exact hx
    | finalizeSession a =>
        obtain ⟨vault, _, _, _, _, charged, vault', ⟨hv, hx⟩, -, -, -, -, hcharge, hstats, rfl⟩ :=
          finalizeSession_ok hi
        have hcharged : charged.vaults = w.vaults := by
          rcases chargeSession_ok hcharge with ⟨-, rfl⟩ | ⟨-, _, _, _, -, -, rfl⟩ <;> rfl
        obtain ⟨howner, hid, -⟩ := finalizeStats_ok hstats
        refine vaults_update (w := charged) (hcharged ▸ h) fun _ hvault => ?_
        cases hvault
        rw [hx, AgentVault.address, AgentVault.address, howner, hid]
    | agentTransfer a =>
        obtain ⟨vault, vault', _, _, _, _, _, _, ⟨hv, hx⟩, -, -, -, -, hcounters, rfl⟩ := agentTransfer_ok hi
        refine vaults_update h fun _ hvault => ?_
        cases hvault
        rw [address_of_counters hcounters, ← hx]
    | createEscrow a =>
        obtain ⟨vault, vault', _, _, _, _, _, _, _, _, _, _, ⟨hv, hx⟩, -, -, -, -, -, -, hcounters, rfl⟩ :=
          createEscrow_ok hi
        refine vaults_update h fun _ hvault => ?_
        cases hvault
        exact hx.trans (address_of_counters hcounters).symm
    | settleEscrow a =>
        obtain ⟨vault, _, _, ⟨hv, hx⟩, -, -, -, -, -, -, rfl⟩ := settleEscrow_ok hi
        refine vaults_update h fun _ hvault => ?_
        cases hvault
        exact hx
    | refundEscrow a =>
        obtain ⟨vault, _, _, ⟨hv, hx⟩, -, -, -, -, rfl⟩ := refundEscrow_ok hi
        refine vaults_update h fun _ hvault => ?_
        cases hvault
        exact hx
    | closeSettledEscrow a =>
        obtain ⟨_, _, -, -, rfl⟩ := closeSettledEscrow_ok hi
        exact h
    | _ => cases hcore

theorem run_vaults_address {steps : List Step} (hw : ∀ v vault, w.vaults v = some vault → v = vault.address)
    (h : run Step.exec steps w = .ok w') : ∀ v vault, w'.vaults v = some vault → v = vault.address :=
  run_invariant (P := fun w => ∀ v vault, w.vaults v = some vault → v = vault.address) hw
    (fun _ _ _ _ hw₁ hexec => Step.vaults_address hw₁ hexec) h

/-! ## Steps -/

theorem LedgerKept.hasMints {l l' : Ledger} (h : LedgerKept l l') (hl : l.HasMints) : l'.HasMints := by
  rcases h with h | ⟨l₁, x, delegate, v, n, h, -, happrove⟩
  · exact h.hasMints hl
  · have hl₁ := h.hasMints hl
    obtain ⟨account, hx, -, -, rfl⟩ := Ledger.approve_ok happrove
    intro y account' hy
    rw [Ledger.setAccount_accounts] at hy
    split at hy
    · cases hy
      exact hl₁ x account hx
    · exact hl₁ y account' hy

theorem PaysAtTime.not_active {clock : Clock} {status : EscrowStatus} {recipient : Pubkey}
    (h : PaysAtTime clock d status recipient) : status ≠ .active := by
  rcases h with ⟨rfl, -⟩ | ⟨rfl, -⟩ <;> simp

theorem isEscrow_of_address (h : e = .escrow d.sourceVault d.destinationVault d.escrowId) : e.isEscrow := by
  rw [h]; rfl

/-- An active escrow is backed as long as its account keeps what it has. -/
theorem Backed.of_kept (h : Backed w e d)
    (hata : ∀ account, w.ledger.accounts (.ata e d.tokenMint) = some account →
      ∃ account', w'.ledger.accounts (.ata e d.tokenMint) = some account' ∧ account.amount ≤ account'.amount) :
    Backed w' e d := by
  obtain ⟨account, haccount, hle⟩ := h
  obtain ⟨account', haccount', hle'⟩ := hata account haccount
  exact ⟨account', haccount', hle.trans hle'⟩

/-- Active escrows are counted anew after one entry changed. -/
theorem activeFrom_update {x : Pubkey} {o : Option EscrowDeposit}
    (h : w'.escrows = Function.update w.escrows x o) :
    ActiveFrom w' v e ↔
      if e = x then ∃ d, o = some d ∧ d.status = .active ∧ d.sourceVault = v else ActiveFrom w v e := by
  unfold ActiveFrom
  rw [h, Function.update_apply]
  split <;> rfl

theorem counted_created {s : Finset Pubkey} (hs : ∀ x, x ∈ s ↔ ActiveFrom w v x) (hcard : s.card = activeCount w v)
    (hnone : w.escrows e = none) (hactive : d.status = .active)
    (hescrows : w'.escrows = Function.update w.escrows e (some d))
    (hcount : activeCount w' v = activeCount w v + if v = d.sourceVault then 1 else 0) :
    ∃ s' : Finset Pubkey, (∀ x, x ∈ s' ↔ ActiveFrom w' v x) ∧ s'.card = activeCount w' v := by
  have hnot : e ∉ s := by
    rw [hs]
    rintro ⟨d', hd', -⟩
    rw [hnone] at hd'
    cases hd'
  by_cases hv : v = d.sourceVault
  · refine ⟨insert e s, fun x => ?_, by rw [Finset.card_insert_of_notMem hnot, hcard, hcount, if_pos hv]⟩
    rw [activeFrom_update hescrows, Finset.mem_insert]
    split
    · rename_i heq
      simp [heq, hactive, hv]
    · rename_i hne
      simp [hne, hs]
  · refine ⟨s, fun x => ?_, by rw [hcard, hcount, if_neg hv, add_zero]⟩
    rw [activeFrom_update hescrows]
    split
    · rename_i heq
      subst heq
      constructor
      · exact fun h => absurd h hnot
      · rintro ⟨_, heq, -, hsource⟩
        cases heq
        exact absurd hsource.symm hv
    · exact hs x

theorem counted_released {s : Finset Pubkey} {d' : EscrowDeposit} (hs : ∀ x, x ∈ s ↔ ActiveFrom w v x)
    (hcard : s.card = activeCount w v) (hescrow : w.escrows e = some d) (hactive : d.status = .active)
    (hstatus : d'.status ≠ .active) (hescrows : w'.escrows = Function.update w.escrows e (some d'))
    (hcount : activeCount w' v = activeCount w v - if v = d.sourceVault then 1 else 0) :
    ∃ s' : Finset Pubkey, (∀ x, x ∈ s' ↔ ActiveFrom w' v x) ∧ s'.card = activeCount w' v := by
  have hmem : e ∈ s ↔ v = d.sourceVault := by
    rw [hs]
    constructor
    · rintro ⟨_, heq, -, hsource⟩
      rw [hescrow] at heq
      cases heq
      exact hsource.symm
    · exact fun h => ⟨d, hescrow, hactive, h.symm⟩
  refine ⟨s.erase e, fun x => ?_, ?_⟩
  · rw [activeFrom_update hescrows, Finset.mem_erase]
    split
    · rename_i heq
      simp [heq, hstatus]
    · rename_i hne
      simp [hne, hs]
  · rw [hcount, ← hcard]
    split
    · rename_i hv
      exact Finset.card_erase_of_mem (hmem.mpr hv)
    · rename_i hv
      rw [Finset.erase_eq_of_notMem fun h => hv (hmem.mp h), Nat.sub_zero]

theorem counted_removed {s : Finset Pubkey} (hs : ∀ x, x ∈ s ↔ ActiveFrom w v x)
    (hescrow : w.escrows e = some d) (hstatus : d.status ≠ .active)
    (hescrows : w'.escrows = Function.update w.escrows e none) : ∀ x, x ∈ s ↔ ActiveFrom w' v x := by
  intro x
  rw [activeFrom_update hescrows, hs]
  split
  · rename_i heq
    subst heq
    constructor
    · rintro ⟨_, heq, hactive, -⟩
      cases hescrow.symm.trans heq
      exact absurd hactive hstatus
    · rintro ⟨_, h, -⟩
      cases h
  · rfl

theorem EscrowInv.step (h : EscrowInv w) (hexec : st.exec w = .ok w') : EscrowInv w' := by
  have hvaults := Step.vaults_address h.vaults hexec
  cases Step.escrowChange hexec with
  | kept _ hescrows hcount hledger =>
      refine ⟨hledger.sound h.sound, hledger.hasMints h.hasMints, hvaults, hescrows ▸ h.address, ?_, fun v => ?_⟩
      · intro e d he hactive
        rw [hescrows] at he
        exact (h.backed e d he hactive).of_kept fun _ =>
          hledger.escrow_ata h.sound (isEscrow_of_address (h.address e d he))
      · simp only [ActiveFrom, hescrows, hcount]
        exact h.counted v
  | created e d _ haddress hnone hactive hescrows hcount hledger hfunded =>
      refine ⟨hledger.sound h.sound, hledger.hasMints h.hasMints, hvaults, ?_, ?_, fun v => ?_⟩
      · intro x d' hx
        rw [hescrows] at hx
        rcases update_cases hx with ⟨rfl, heq⟩ | ⟨-, hx⟩
        · cases heq
          exact haddress
        · exact h.address x d' hx
      · intro x d' hx hactive'
        rw [hescrows] at hx
        rcases update_cases hx with ⟨rfl, heq⟩ | ⟨-, hx⟩
        · cases heq
          exact hfunded h.sound
        · exact (h.backed x d' hx hactive').of_kept fun _ =>
            LedgerKept.escrow_ata (.inl hledger) h.sound (isEscrow_of_address (h.address x d' hx))
      · obtain ⟨s, hs, hcard⟩ := h.counted v
        exact counted_created hs hcard hnone hactive hescrows (hcount v)
  | released p d status recipient _ hescrow hactive htime _ hescrows hcount hpays =>
      have hmoves := hpays.moves
      refine ⟨hmoves.sound h.sound, hmoves.hasMints h.hasMints, hvaults, ?_, ?_, fun v => ?_⟩
      · intro x d' hx
        rw [hescrows] at hx
        rcases update_cases hx with ⟨rfl, heq⟩ | ⟨-, hx⟩
        · cases heq
          exact h.address _ d hescrow
        · exact h.address x d' hx
      · intro x d' hx hactive'
        rw [hescrows] at hx
        rcases update_cases hx with ⟨rfl, heq⟩ | ⟨hne, hx⟩
        · cases heq
          exact absurd hactive' htime.not_active
        · exact (h.backed x d' hx hactive').of_kept fun _ =>
            hmoves.escrow_ata h.sound (isEscrow_of_address (h.address x d' hx)) hne
      · obtain ⟨s, hs, hcard⟩ := h.counted v
        exact counted_released hs hcard hescrow hactive htime.not_active hescrows (hcount v)
  | removed e d _ hescrow hstatus hescrows hcount hledger =>
      have hsub : ∀ x d', w'.escrows x = some d' → w.escrows x = some d' := by
        rw [hescrows]
        exact update_none_subset
      refine ⟨hledger ▸ h.sound, hledger ▸ h.hasMints, hvaults, fun x d' hx => h.address x d' (hsub x d' hx), ?_,
        fun v => ?_⟩
      · intro x d' hx hactive
        unfold Backed
        rw [hledger]
        exact h.backed x d' (hsub x d' hx) hactive
      · obtain ⟨s, hs, hcard⟩ := h.counted v
        exact ⟨s, counted_removed hs hescrow hstatus hescrows, by rw [hcard, hcount]⟩

theorem escrowInv_genesis : EscrowInv {} where
  sound := by simp [Ledger.Sound]
  hasMints := by simp [Ledger.HasMints]
  vaults := by simp
  address := by simp
  backed := by simp
  counted v := ⟨∅, by simp [ActiveFrom], rfl⟩

theorem escrowInv_run {steps : List Step} (h : run Step.exec steps {} = .ok w) : EscrowInv w :=
  run_invariant escrowInv_genesis (fun _ _ _ _ hinv hexec => hinv.step hexec) h

end Sigil
