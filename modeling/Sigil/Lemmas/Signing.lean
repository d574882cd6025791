import Sigil.Lemmas.Core
import Sigil.Lemmas.Escrow

/-!
# For whom the program signs

An instruction signs for at most one address, so a vault that it does not sign for keeps what it holds and has not
delegated.
-/

namespace Sigil

open Library

/-- The address this program signs for in an instruction. -/
def Instruction.signsFor : Instruction → Option Pubkey
  | .withdrawFunds a => some a.vault
  | .freezeVault a => some a.vault
  | .validateAndAuthorize a => some a.vault
  | .finalizeSession a => some a.vault
  | .agentTransfer a => some a.vault
  | .createEscrow a => some a.sourceVault
  | .settleEscrow a => some a.escrow
  | .refundEscrow a => some a.escrow
  | _ => none

def Step.signsFor (st : Step) : Option Pubkey :=
  match st.instruction.call with
  | .sigil i => i.signsFor
  | .foreign _ => none

/-- Any token instructions, signed outside of this program or for an address in `own`. -/
def Ledger.Signed (own : Pubkey → Prop) : Ledger → Ledger → Prop :=
  Relation.ReflTransGen fun l l' =>
    ∃ op : TokenInstruction, (∀ a, op.authority = some a → a.signsOutside ∨ own a) ∧ op.exec l = .ok l'

section
variable {own : Pubkey → Prop} {l l' l'' : Ledger}

theorem Ledger.Signed.refl (l : Ledger) : l.Signed own l := Relation.ReflTransGen.refl

theorem Ledger.Moves.signed (h : l.Moves own l') : l.Signed own l' := by
  refine Relation.ReflTransGen.mono ?_ l l' h
  rintro l₁ l₂ ⟨op, hop, hexec⟩
  exact ⟨op, fun a ha => hop.authority ha, hexec⟩

theorem collectFeesAndDelegate_signed {a : ValidateAndAuthorize} {vault : AgentVault} {plan : SpendPlan}
    (h : collectFeesAndDelegate l a vault plan = .ok l') : l.Signed (some a.vault = some ·) l' := by
  unfold collectFeesAndDelegate at h
  split at h
  · simp only [bind_eq_ok] at h
    obtain ⟨n, -, l₁, h₁, l₂, h₂, happrove⟩ := h
    have hmoves : l.Moves (some a.vault = some ·) l₂ := .trans (.collectFee rfl h₁) (.collectFee rfl h₂)
    refine Relation.ReflTransGen.tail hmoves.signed
      ⟨.approve a.vaultTokenAccount a.agent a.vault n, fun b hb => .inr ?_, happrove⟩
    exact hb
  · obtain rfl := pure_eq_ok.mp h
    exact .refl l

theorem revokeDelegation_signed {a : FinalizeSession} {session : SessionAuthority}
    (h : revokeDelegation l a session = .ok l') : l.Signed (some a.vault = some ·) l' := by
  unfold revokeDelegation at h
  split at h
  · simp only [bind_eq_ok] at h
    obtain ⟨_, -, _, -, hrevoke⟩ := h
    exact Ledger.Moves.signed (.revoke rfl hrevoke)
  · obtain rfl := pure_eq_ok.mp h
    exact .refl l

theorem fundEscrow_signed {a : CreateEscrow} {vault : AgentVault} {protocolFee developerFee net : Nat}
    (h : fundEscrow l a vault protocolFee developerFee net = .ok l') : l.Moves (some a.sourceVault = some ·) l' := by
  simp only [fundEscrow, bind_eq_ok] at h
  obtain ⟨l₁, h₁, l₂, h₂, h⟩ := h
  refine Ledger.Moves.trans (.collectFee rfl h₁) (.trans (.collectFee rfl h₂) ?_)
  split at h
  · exact .transfer (.inr rfl) h
  · obtain rfl := pure_eq_ok.mp h
    exact .refl l₂

end

variable {w w' : World} {ctx : Ctx} {i : Instruction} {st : Step}

theorem Instruction.signed (hkeys : ∀ k ∈ ctx.signers, k.isKey = true) (h : i.exec ctx w = .ok w') :
    w.ledger.Signed (i.signsFor = some ·) w'.ledger := by
  cases i with
  | initializeVault a =>
      obtain ⟨-, -, rfl⟩ := initializeVault_ok h
      exact .refl _
  | closeVault a =>
      obtain ⟨_, _, -, rfl⟩ := closeVault_ok h
      exact .refl _
  | depositFunds a =>
      obtain ⟨_, _, _, _, howned, hensure, htransfer, rfl⟩ := depositFunds_ok h
      exact Ledger.Moves.signed (.trans (.ensureAssociated hensure)
        (.transfer (.inl (signsOutside_of_signer hkeys howned.signer)) htransfer))
  | withdrawFunds a =>
      obtain ⟨_, _, _, -, htransfer, rfl⟩ := withdrawFunds_ok h
      exact Ledger.Moves.signed (.transfer (.inr rfl) htransfer)
  | registerAgent a =>
      obtain ⟨_, _, _, -, -, -, -, -, -, rfl⟩ := registerAgent_ok h
      exact .refl _
  | revokeAgent a =>
      obtain ⟨_, _, -, -, -, rfl⟩ := revokeAgent_ok h
      exact .refl _
  | pauseAgent a =>
      obtain ⟨_, -, rfl⟩ := setPaused_ok h
      exact .refl _
  | unpauseAgent a =>
      obtain ⟨_, -, rfl⟩ := setPaused_ok h
      exact .refl _
  | freezeVault a =>
      obtain ⟨_, _, -, hrevoke, rfl⟩ := freezeVault_ok h
      exact (revokePairs_moves (some a.vault = some ·) rfl hrevoke).1.signed
  | reactivateVault a =>
      obtain ⟨_, _, -, -, rfl⟩ := reactivateVault_ok h
      exact .refl _
  | validateAndAuthorize a =>
      obtain ⟨_, _, _, _, _, _, _, -, -, -, -, -, -, -, -, hledger, rfl⟩ := validateAndAuthorize_ok h
      exact collectFeesAndDelegate_signed hledger
  | finalizeSession a =>
      obtain ⟨_, _, _, _, _, _, _, -, -, -, hrevoke, -, -, -, rfl⟩ := finalizeSession_ok h
      exact revokeDelegation_signed hrevoke
  | agentTransfer a =>
      obtain ⟨t⟩ := agentTransfer_trace h
      have hmoves : w.ledger.Moves (some a.vault = some ·) t.ledger₃ :=
        t.moves.mono fun _ heq => congrArg some heq.symm
      exact t.result ▸ hmoves.signed
  | createEscrow a =>
      obtain ⟨t⟩ := createEscrow_trace h
      have hmoves : w.ledger.Moves (some a.sourceVault = some ·) t.ledger₂ :=
        .trans (.ensureAssociated t.ensured) (fundEscrow_signed t.funded)
      exact t.result ▸ hmoves.signed
  | settleEscrow a =>
      obtain ⟨_, _, _, -, -, -, -, -, -, hpays, rfl⟩ := settleEscrow_ok h
      exact (hpays.moves.mono fun _ heq => congrArg some heq.symm).signed
  | refundEscrow a =>
      obtain ⟨_, _, _, -, -, -, -, hpays, rfl⟩ := refundEscrow_ok h
      exact (hpays.moves.mono fun _ heq => congrArg some heq.symm).signed
  | closeSettledEscrow a =>
      obtain ⟨_, _, -, -, rfl⟩ := closeSettledEscrow_ok h
      exact .refl _
  | queuePolicyUpdate a u =>
      obtain ⟨_, _, _, -, -, -, -, -, -, rfl⟩ := queuePolicyUpdate_ok h
      exact .refl _
  | applyPendingPolicy a =>
      obtain ⟨_, _, _, -, -, -, -, rfl⟩ := applyPendingPolicy_ok h
      exact .refl _
  | cancelPendingPolicy a =>
      obtain ⟨_, _, _, -, -, -, rfl⟩ := cancelPendingPolicy_ok h
      exact .refl _
  | queueConstraintsUpdate a entries strictMode =>
      obtain ⟨_, _, _, -, -, -, -, -, rfl⟩ := queueConstraintsUpdate_ok h
      exact .refl _
  | applyConstraintsUpdate a =>
      obtain ⟨_, _, _, _, -, -, -, -, -, rfl⟩ := applyConstraintsUpdate_ok h
      exact .refl _
  | cancelConstraintsUpdate a =>
      rw [cancelConstraintsUpdate_ok h]
      exact .refl _
  | queueCloseConstraints a =>
      obtain ⟨_, _, -, -, -, -, rfl⟩ := queueCloseConstraints_ok h
      exact .refl _
  | applyCloseConstraints a closesPending =>
      obtain ⟨_, _, _, -, -, -, -, rfl | rfl⟩ := applyCloseConstraints_ok h
      · exact .refl _
      · exact .refl _
  | cancelCloseConstraints a =>
      rw [cancelCloseConstraints_ok h]
      exact .refl _
  | queueAgentPermissionsUpdate a capability limit =>
      obtain ⟨_, _, -, -, -, -, rfl⟩ := queueAgentPermissionsUpdate_ok h
      exact .refl _
  | applyAgentPermissionsUpdate a address =>
      obtain ⟨_, _, _, _, _, _, -, -, -, -, -, -, -, rfl⟩ := applyAgentPermissionsUpdate_ok h
      exact .refl _
  | cancelAgentPermissionsUpdate a address =>
      rw [cancelAgentPermissionsUpdate_ok h]
      exact .refl _
  | allocateConstraintsPda a =>
      obtain ⟨_, _, -, -, -, rfl⟩ := allocateConstraintsPda_ok h
      exact .refl _
  | allocatePendingConstraintsPda a =>
      rw [(allocatePendingConstraintsPda_ok h).2]
      exact .refl _
  | extendPda a pda target =>
      rcases extendPda_ok h with ⟨_, _, -, -, -, rfl⟩ | ⟨_, _, -, -, -, rfl⟩
      · exact .refl _
      · exact .refl _
  | createInstructionConstraints a entries strictMode =>
      obtain ⟨_, _, _, -, -, -, -, -, -, rfl⟩ := createInstructionConstraints_ok h
      exact .refl _
  | cleanupOrphanConstraintsPda a =>
      obtain ⟨_, _, _, -, -, -, -, rfl⟩ := cleanupOrphanConstraintsPda_ok h
      exact .refl _
  | createPostAssertions a entries =>
      obtain ⟨_, _, -, -, -, rfl⟩ := createPostAssertions_ok h
      exact .refl _
  | closePostAssertions a =>
      obtain ⟨_, _, -, -, rfl⟩ := closePostAssertions_ok h
      exact .refl _

theorem Step.signed (h : st.exec w = .ok w') : w.ledger.Signed (st.signsFor = some ·) w'.ledger := by
  rcases Step.exec_cases h with ⟨i, hcall, -, -, hi⟩ | ⟨_, hcall, -, _, -, rfl, hmoves⟩
  · simp only [signsFor, hcall]
    exact i.signed st.signers_isKey hi
  · exact (hmoves _).signed

/-! ## What is held -/

/-- A vault has at least `n` tokens at an address, and no delegate there. -/
def Ledger.Holds (l : Ledger) (v x : Pubkey) (n : Nat) : Prop :=
  ∃ account, l.accounts x = some account ∧ account.owner = v ∧ account.delegate = none ∧ n ≤ account.amount

/-- One token instruction that the vault does not sign. An account that holds something cannot be closed. -/
theorem AccountChange.holds {op : TokenInstruction} {v x : Pubkey} {n : Nat} {account : TokenAccount}
    {o : Option TokenAccount} (h : AccountChange op x (some account) o) (hnot : op.authority ≠ some v) (hn : 0 < n)
    (howner : account.owner = v) (hdelegate : account.delegate = none) (hle : n ≤ account.amount) :
    ∃ account', o = some account' ∧ account'.owner = v ∧ account'.delegate = none ∧ n ≤ account'.amount := by
  cases h with
  | same => exact ⟨_, rfl, howner, hdelegate, hle⟩
  | credited m => exact ⟨_, rfl, howner, hdelegate, Nat.le_add_right_of_le hle⟩
  | debited ha hdebit =>
      obtain ⟨h | h, -⟩ := Ledger.debit_ok hdebit
      · rw [hdelegate] at h
        cases h
      · exact absurd (ha.trans (congrArg some (h.trans howner))) hnot
  | approved hop ha =>
      subst hop
      exact absurd (congrArg some (ha.trans howner)) hnot
  | revoked => exact ⟨_, rfl, howner, rfl, hle⟩
  | reowned hop ha =>
      subst hop
      exact absurd (congrArg some (ha.trans howner)) hnot
  | reclosed => exact ⟨_, rfl, howner, hdelegate, hle⟩
  | refrozen b => exact ⟨_, rfl, howner, hdelegate, hle⟩
  | closed _ _ hzero => omega

theorem Ledger.Signed.holds {own : Pubkey → Prop} {l l' : Ledger} {v x : Pubkey} {n : Nat} (h : l.Signed own l')
    (hv : v.isVault) (hown : ¬ own v) (hn : 0 < n) (hl : l.Holds v x n) : l'.Holds v x n := by
  induction h with
  | refl => exact hl
  | tail _ hstep ih =>
      obtain ⟨op, hop, hexec⟩ := hstep
      obtain ⟨account, hx, howner, hdelegate, hle⟩ := ih
      have hnot : op.authority ≠ some v := fun ha =>
        (hop v ha).elim (Pubkey.isVault_not_signsOutside hv) hown
      have hchange := TokenInstruction.exec_change hexec x
      rw [hx] at hchange
      exact hchange.holds hnot hn howner hdelegate hle

end Sigil
