import Sigil.Theorems.DeltaAssertions
import Sigil.Theorems.SealScan

/-!
# Sealed transactions and the remaining accounts

What the program looks up among the remaining accounts of a session, and whether sealing has put it there. Constraints
are; post-assertions and their targets are not.
-/

namespace Sigil

open Library

/-! ## What is looked up -/

/-- Entries of the post-assertions of a vault. -/
def World.assertionEntries (w : World) (v : Pubkey) : List PostAssertionEntry :=
  (w.postAssertions v).elim [] PostExecutionAssertions.entries

/-- The accounts that `validate_and_authorize` looks up: snapshots are taken of the targets that are compared. -/
def requiredByValidate (w : World) (v : Pubkey) (policy : PolicyConfig) : List Pubkey :=
  (if policy.hasConstraints then [.constraints v] else []) ++
    if policy.hasPostAssertions ≠ 0 then
      .postAssertions v ::
        ((w.assertionEntries v).filter fun entry => entry.assertionMode ≠ 0).map PostAssertionEntry.targetAccount
    else []

/-- The accounts that `finalize_session` looks up. -/
def requiredByFinalize (w : World) (v : Pubkey) (policy : PolicyConfig) : List Pubkey :=
  if policy.hasPostAssertions ≠ 0 then
    .postAssertions v :: (w.assertionEntries v).map PostAssertionEntry.targetAccount
  else []

variable {w w' : World} {ctx : Ctx} {policy : PolicyConfig} {constraints : Option InstructionConstraints}
  {ix : RawInstruction} {l : List RawInstruction}

/-! ## Fewer constraints -/

theorem scanInstructionShared_unconstrained {action : ScanAction}
    (h : scanInstructionShared ix policy constraints = .ok action) :
    scanInstructionShared ix policy none = .ok action := by
  cases constraints with
  | none => exact h
  | some c =>
      unfold scanInstructionShared at h ⊢
      by_cases hfin : isFinalizeSession ix
      · rw [if_pos hfin] at h ⊢
        exact h
      · rw [if_neg hfin] at h ⊢
        cases hopcode : blockedTokenOpcode ix with
        | some e =>
            rw [hopcode] at h
            cases h
        | none =>
            rw [hopcode] at h
            dsimp only at h ⊢
            by_cases hinfra : isInfrastructure ix.programId
            · rw [if_pos hinfra] at h ⊢
              exact h
            · rw [if_neg hinfra] at h ⊢
              simp only [bind_eq_ok, require_eq_ok, exists_and_left, exists_const, pure_eq_ok] at h ⊢
              obtain ⟨hasync, hallowed, _, -, -, rfl⟩ := h
              exact ⟨hasync, hallowed, rfl⟩

theorem scanSpending_unconstrained {target : Pubkey} {n k : Nat} {result : Nat × Bool}
    (h : scanSpending policy constraints target l n k = .ok result) :
    scanSpending policy none target l n k = .ok result := by
  induction l generalizing n k with
  | nil => exact h
  | cons ix l ih =>
      simp only [scanSpending, bind_eq_ok, require_eq_ok, exists_and_left, exists_const] at h ⊢
      obtain ⟨hbound, action, hscan, h⟩ := h
      refine ⟨hbound, action, scanInstructionShared_unconstrained hscan, ?_⟩
      cases action with
      | foundFinalize => exact h
      | infrastructure => exact ih h
      | passedSharedChecks =>
          simp only [bind_eq_ok, require_eq_ok, exists_and_left, exists_const] at h ⊢
          obtain ⟨hdeclared, _, hslippage, h⟩ := h
          exact ⟨hdeclared, _, hslippage, ih h⟩

theorem scanNonSpending_unconstrained {n : Nat} {found : Bool}
    (h : scanNonSpending policy constraints l n = .ok found) : scanNonSpending policy none l n = .ok found := by
  induction l generalizing n with
  | nil => exact h
  | cons ix l ih =>
      simp only [scanNonSpending, bind_eq_ok, require_eq_ok, exists_and_left, exists_const] at h ⊢
      obtain ⟨hbound, action, hscan, h⟩ := h
      refine ⟨hbound, action, scanInstructionShared_unconstrained hscan, ?_⟩
      cases action with
      | foundFinalize => exact h
      | infrastructure => exact ih h
      | passedSharedChecks =>
          simp only [bind_eq_ok] at h ⊢
          obtain ⟨_, hslippage, h⟩ := h
          exact ⟨_, hslippage, ih h⟩

theorem checkScans_unconstrained {a : ValidateAndAuthorize} (h : checkScans ctx a policy constraints = .ok ()) :
    checkScans ctx a policy none = .ok () := by
  simp only [checkScans, bind_eq_ok] at h ⊢
  obtain ⟨_, hbefore, h⟩ := h
  refine ⟨_, hbefore, ?_⟩
  by_cases hspending : a.amount.toNat > 0
  · rw [if_pos hspending, bind_eq_ok] at h ⊢
    obtain ⟨scan, hscan, h⟩ := h
    exact ⟨scan, scanSpending_unconstrained hscan, h⟩
  · rw [if_neg hspending, bind_eq_ok] at h ⊢
    obtain ⟨found, hscan, h⟩ := h
    exact ⟨found, scanNonSpending_unconstrained hscan, h⟩

/-! ## Other remaining accounts -/

theorem finalizeSession_of_remaining {a : FinalizeSession} {remaining : List Pubkey}
    (hp : w.policies a.vault = some policy) (hflag : policy.hasPostAssertions = 0)
    (h : finalizeSession ctx { a with remainingAccounts := remaining } w = .ok w') :
    finalizeSession ctx a w = .ok w' := by
  simp only [finalizeSession, bind_eq_ok, World.loadPolicy_eq_ok] at h ⊢
  obtain ⟨_, hsigner, vault, hv, session, hs, policy', hp', _, htoken, _, houtput, _, hrent, _, hpayer, _,
    hauthorized, ledger, hledger, spend, hspend, charged, hcharged, vault', hstats, _, -, _, hafter, hw'⟩ := h
  obtain rfl := Option.some.inj (hp'.symm.trans hp)
  have hassertions : checkAssertions w ctx a policy' session (session.isExpired ctx.clock.unixTimestamp) = .ok () := by
    rw [checkAssertions, if_neg (by simp [hflag])]
    rfl
  exact ⟨_, hsigner, vault, hv, session, hs, policy', hp', _, htoken, _, houtput, _, hrent, _, hpayer, _,
    hauthorized, ledger, hledger, spend, hspend, charged, hcharged, vault', hstats, _, hassertions, _, hafter, hw'⟩

/-- With post-assertions that are not passed, a session cannot be closed before it expires. -/
theorem finalizeSession_unasserted {a : FinalizeSession} {session : SessionAuthority}
    (hp : w.policies a.vault = some policy) (hflag : policy.hasPostAssertions ≠ 0)
    (hs : w.sessions a.session = some session) (hlive : session.isExpired ctx.clock.unixTimestamp = false)
    (hmissing : .postAssertions a.vault ∉ a.remainingAccounts) : finalizeSession ctx a w ≠ .ok w' := by
  intro h
  obtain ⟨session', policy', hs', -, hp', hassertions⟩ := finalizeSession_assertions h
  obtain rfl := Option.some.inj (hp'.symm.trans hp)
  obtain rfl := Option.some.inj (hs'.symm.trans hs)
  rw [checkAssertions, if_pos ⟨hlive, hflag⟩] at hassertions
  exact hmissing (require_bind_eq_ok.mp hassertions).1

/-- The constraints account, if the policy has one, is as good as any list of remaining accounts. -/
theorem loadConstraints_of_remaining {v : Pubkey} {remaining : List Pubkey}
    (h : loadConstraints w v policy remaining = .ok constraints) :
    ∃ constraints', loadConstraints w v policy (if policy.hasConstraints then [.constraints v] else []) =
      .ok constraints' ∧ (constraints' = constraints ∨ constraints' = none) := by
  cases hflag : policy.hasConstraints with
  | false => exact ⟨none, by simp [loadConstraints, hflag, require, bind, Except.bind, pure, Except.pure], .inr rfl⟩
  | true =>
      refine ⟨constraints, ?_, .inl rfl⟩
      cases remaining with
      | nil =>
          rw [loadConstraints] at h
          simp [hflag, require, bind, Except.bind] at h
      | cons address rest =>
          have haddress : address = .constraints v := (require_bind_eq_ok.mp h).1
          rw [haddress] at h
          exact h

namespace Sdk

variable {env : SealEnv} {p : SealParams} {state : ResolvedVaultState} {r : SealResult} {tx : SealedTransaction}

/-- What is looked up in a state is among the remaining accounts. -/
structure SealedTransaction.Supplied (tx : SealedTransaction) (w : World) : Prop where
  validate : ∀ policy, w.policies tx.validateIx.vault = some policy →
    requiredByValidate w tx.validateIx.vault policy ⊆ tx.validateIx.remainingAccounts
  finalize : ∀ policy, w.policies tx.finalizeIx.vault = some policy →
    requiredByFinalize w tx.finalizeIx.vault policy ⊆ tx.finalizeIx.remainingAccounts

/-- Other remaining accounts do not help. -/
structure SealedTransaction.Complete (tx : SealedTransaction) (policy : PolicyConfig) : Prop where
  validate : ∀ ctx w w' remaining, w.policies tx.validateIx.vault = some policy →
    validateAndAuthorize ctx { tx.validateIx with remainingAccounts := remaining } w = .ok w' →
    ∃ w'', validateAndAuthorize ctx tx.validateIx w = .ok w''
  finalize : ∀ ctx w w' remaining policy', w.policies tx.finalizeIx.vault = some policy' →
    policy'.hasPostAssertions = policy.hasPostAssertions →
    finalizeSession ctx { tx.finalizeIx with remainingAccounts := remaining } w = .ok w' →
    finalizeSession ctx tx.finalizeIx w = .ok w'

theorem SealParams.Sealed.accounts (h : p.Sealed state tx) :
    tx.validateIx.vault = p.vault ∧
      tx.validateIx.remainingAccounts = (if state.policy.hasConstraints then [.constraints p.vault] else []) ∧
      tx.finalizeIx.vault = p.vault ∧ tx.finalizeIx.remainingAccounts = [] := by
  obtain ⟨_, -, -, hvalidate⟩ := h.validate
  obtain ⟨-, hvalidate⟩ := require_bind_eq_ok.mp hvalidate
  have hix := pure_eq_ok.mp hvalidate
  rw [← hix, h.finalize]
  exact ⟨rfl, rfl, rfl, rfl⟩

theorem SealParams.Sealed.supplied (h : p.Sealed state tx) (hpolicy : w.policies p.vault = some state.policy)
    (hflag : state.policy.hasPostAssertions = 0) : tx.Supplied w := by
  obtain ⟨hv, hremaining, hv', -⟩ := h.accounts
  constructor
  · intro policy hp
    rw [hv] at hp ⊢
    obtain rfl := Option.some.inj (hp.symm.trans hpolicy)
    simp [requiredByValidate, hflag, hremaining]
  · intro policy hp
    rw [hv'] at hp ⊢
    obtain rfl := Option.some.inj (hp.symm.trans hpolicy)
    simp [requiredByFinalize, hflag]

theorem SealParams.Sealed.complete (h : p.Sealed state tx) (hflag : state.policy.hasPostAssertions = 0) :
    tx.Complete state.policy := by
  obtain ⟨hv, hremaining, -, -⟩ := h.accounts
  constructor
  · intro ctx w w' remaining hp hvalidate
    refine validateAndAuthorize_remaining hvalidate (fun policy c hp' hc => ?_) fun policy hp' => ?_
    · obtain rfl := Option.some.inj (hp'.symm.trans hp)
      rw [hremaining, ← hv]
      obtain ⟨c', hc', rfl | rfl⟩ := loadConstraints_of_remaining hc
      · exact ⟨_, hc', id⟩
      · exact ⟨none, hc', checkScans_unconstrained⟩
    · obtain rfl := Option.some.inj (hp'.symm.trans hp)
      exact ⟨_, captureSnapshots_unsupplied (.inl hflag)⟩
  · intro ctx w w' remaining policy' hp hsame hfinalize
    exact finalizeSession_of_remaining hp (hsame.trans hflag) hfinalize

/-- A sealed transaction carries what the program looks up, and other accounts would not help it, exactly if the
policy has no post-assertions. With post-assertions its session cannot be closed before it expires. -/
theorem seal_supplies_iff (hstate : p.resolvedState env = .ok state) (hpolicy : w.policies p.vault = some state.policy)
    (hseal : p.seal env = .ok r) :
    (r.transaction.Supplied w ∧ r.transaction.Complete state.policy ↔ state.policy.hasPostAssertions = 0) ∧
      (state.policy.hasPostAssertions ≠ 0 → ∀ ctx w₁ w₂ policy session, w₁.policies p.vault = some policy →
        policy.hasPostAssertions = state.policy.hasPostAssertions →
        w₁.sessions r.transaction.finalizeIx.session = some session →
        session.isExpired ctx.clock.unixTimestamp = false →
        finalizeSession ctx r.transaction.finalizeIx w₁ ≠ .ok w₂) := by
  have hsealed := SealParams.sealed hstate hseal
  obtain ⟨-, -, hv, hremaining⟩ := hsealed.accounts
  have hmissing : .postAssertions r.transaction.finalizeIx.vault ∉ r.transaction.finalizeIx.remainingAccounts := by
    simp [hremaining]
  refine ⟨⟨fun ⟨hsupplied, _⟩ => ?_, fun hflag => ⟨hsealed.supplied hpolicy hflag, hsealed.complete hflag⟩⟩, ?_⟩
  · by_contra hflag
    refine hmissing (hsupplied.finalize _ (hv ▸ hpolicy) ?_)
    simp [requiredByFinalize, hflag]
  · intro hflag ctx w₁ w₂ policy session hp hsame hs hlive
    exact finalizeSession_unasserted (hv ▸ hp) (hsame ▸ hflag) hs hlive hmissing

/-! ### The same vault with an account that must not change -/

theorem seal_supplies_iff_call : ∃ w r, run Step.exec callRun {} = .ok w ∧ (callParams (.key 8)).seal callEnv = .ok r ∧
    r.transaction.Supplied w ∧ r.transaction.Complete callState.policy := by
  obtain ⟨w, r, hrun, hseal, hpolicy⟩ : ∃ w r, run Step.exec callRun {} = .ok w ∧
      (callParams (.key 8)).seal callEnv = .ok r ∧ w.policies payVault.vault = some callState.policy :=
    ⟨_, _, rfl, rfl, rfl⟩
  exact ⟨w, r, hrun, hseal, (seal_supplies_iff rfl hpolicy hseal).1.mpr rfl⟩

def assertedState : ResolvedVaultState :=
  { callState with policy := { callState.policy with hasPostAssertions := 1 } }

/-- The post-assertions are not among the accounts of the `finalize_session`. -/
theorem asserted_call_unsupplied : ¬ ∀ env p state r steps w, run Step.exec steps {} = .ok w →
    SealParams.resolvedState env p = .ok state → w.vaults p.vault = some state.vault →
    w.policies p.vault = some state.policy → p.seal env = .ok r → r.transaction.Supplied w := by
  intro h
  obtain ⟨w, r, hrun, hvault, hpolicy, hseal, hvault', hremaining⟩ : ∃ w r,
      run Step.exec (callRun ++ [steadyStep]) {} = .ok w ∧ w.vaults payVault.vault = some assertedState.vault ∧
      w.policies payVault.vault = some assertedState.policy ∧
      (callParams (.key 8)).seal { callEnv with resolveVaultState := some assertedState } = .ok r ∧
      r.transaction.finalizeIx.vault = payVault.vault ∧ r.transaction.finalizeIx.remainingAccounts = [] :=
    ⟨_, _, rfl, rfl, rfl, rfl, rfl, rfl⟩
  have hsupplied := (h _ _ assertedState r _ w hrun rfl hvault hpolicy hseal).finalize _ (hvault' ▸ hpolicy)
  rw [hremaining] at hsupplied
  exact nomatch List.subset_nil.mp hsupplied

end Sdk

end Sigil
