import Sigil.Lemmas.Escrow
import Sigil.Lemmas.Scan

/-!
# One session at a time

Between transactions no session is open. `validate_and_authorize` opens one, nothing else can be opened in the
same transaction, and the `finalize_session` that its scan has found closes it.
-/

namespace Sigil

open Library

/-- No session is open, no vault counts one, and nothing of a vault is delegated. -/
structure Quiescent (w : World) : Prop where
  sessions : ∀ x, w.sessions x = none
  activeSessions : ∀ v vault, w.vaults v = some vault → vault.activeSessions = 0
  delegations : w.ledger.DelegatedOnlyAt fun _ => False

/-- Only the session `s` is open, at address `x`. -/
structure Open (x : Pubkey) (s : SessionAuthority) (w : World) : Prop where
  session : w.sessions x = some s
  others : ∀ y, y ≠ x → w.sessions y = none
  vault : ∃ vault, w.vaults s.vault = some vault ∧ vault.activeSessions = 1
  activeSessions : ∀ v vault, v ≠ s.vault → w.vaults v = some vault → vault.activeSessions = 0
  delegations : w.ledger.DelegatedOnlyAt fun y => s.delegated ∧ y = s.delegationTokenAccount

/-- Sessions stay. Vaults may come and go while they count no session. -/
structure SessionFrame (w w' : World) : Prop where
  sessions : w'.sessions = w.sessions
  vaults : ∀ v vault', w'.vaults v = some vault' →
    (∃ vault, w.vaults v = some vault ∧ vault'.activeSessions = vault.activeSessions) ∨
      w.vaults v = none ∧ vault'.activeSessions = 0
  kept : ∀ v vault, w.vaults v = some vault → vault.activeSessions ≠ 0 → (w'.vaults v).isSome
  ledger : ∃ own, w.ledger.Moves own w'.ledger

section
variable {w w' : World} {st : Step} {x : Pubkey} {s : SessionAuthority} {ctx : Ctx}

theorem Quiescent.frame (hw : Quiescent w) (h : SessionFrame w w') : Quiescent w' where
  sessions := by rw [h.sessions]; exact hw.sessions
  activeSessions v vault' hv := by
    rcases h.vaults v vault' hv with ⟨vault, hvault, heq⟩ | ⟨-, hzero⟩
    · exact heq.trans (hw.activeSessions v vault hvault)
    · exact hzero
  delegations := by
    obtain ⟨own, hmoves⟩ := h.ledger
    exact hmoves.delegatedOnlyAt hw.delegations

theorem Open.frame (hw : Open x s w) (h : SessionFrame w w') : Open x s w' where
  session := by rw [h.sessions]; exact hw.session
  others := by rw [h.sessions]; exact hw.others
  vault := by
    obtain ⟨vault, hvault, hone⟩ := hw.vault
    obtain ⟨vault', hvault'⟩ := Option.isSome_iff_exists.mp (h.kept s.vault vault hvault (by omega))
    refine ⟨vault', hvault', ?_⟩
    rcases h.vaults s.vault vault' hvault' with ⟨vault₁, hvault₁, heq⟩ | ⟨hnone, -⟩
    · cases hvault.symm.trans hvault₁
      exact heq.trans hone
    · cases hnone.symm.trans hvault
  activeSessions v vault' hne hv := by
    rcases h.vaults v vault' hv with ⟨vault, hvault, heq⟩ | ⟨-, hzero⟩
    · exact heq.trans (hw.activeSessions v vault hne hvault)
    · exact hzero
  delegations := by
    obtain ⟨own, hmoves⟩ := h.ledger
    exact hmoves.delegatedOnlyAt hw.delegations

/-! ## What a step does to sessions -/

theorem CoreFrame.sessionFrame (h : CoreFrame w w') : SessionFrame w w' where
  sessions := h.sessions
  vaults v vault' hv := by
    obtain ⟨vault, hvault, heq⟩ := h.vault hv
    simp only [AgentVault.counters, Prod.mk.injEq] at heq
    exact .inl ⟨vault, hvault, heq.2.2.1⟩
  kept v vault hv _ := by
    have hmap := h.vaults v
    rw [hv, Option.map_some] at hmap
    obtain ⟨vault', hvault', -⟩ := Option.map_eq_some_iff.mp hmap
    simp [hvault']
  ledger := ⟨_, h.ledger⟩

/-- A vault that keeps its number of sessions is replaced. -/
theorem SessionFrame.of_update {v : Pubkey} {vault vault' : AgentVault} {own : Pubkey → Prop}
    (hsessions : w'.sessions = w.sessions) (hv : w.vaults v = some vault)
    (hvaults : w'.vaults = Function.update w.vaults v (some vault'))
    (hcount : vault'.activeSessions = vault.activeSessions) (hmoves : w.ledger.Moves own w'.ledger) :
    SessionFrame w w' where
  sessions := hsessions
  vaults y vault'' hy := by
    rw [hvaults] at hy
    rcases update_cases hy with ⟨rfl, heq⟩ | ⟨-, hy⟩
    · cases heq
      exact .inl ⟨vault, hv, hcount⟩
    · exact .inl ⟨vault'', hy, rfl⟩
  kept y vault'' hy _ := by
    rw [hvaults, Function.update_apply]
    split <;> simp [hy]
  ledger := ⟨own, hmoves⟩

inductive SessionChange (st : Step) (w w' : World) : Prop where
  | kept (hframe : SessionFrame w w')
  | opened (a : ValidateAndAuthorize) (hcall : st.instruction.call = .sigil (.validateAndAuthorize a))
      (h : validateAndAuthorize st.ctx a w = .ok w')
  | closed (a : FinalizeSession) (hcall : st.instruction.call = .sigil (.finalizeSession a))
      (h : finalizeSession st.ctx a w = .ok w')

theorem Step.sessionChange (h : st.exec w = .ok w') : SessionChange st w w' := by
  rcases Step.core_cases h with ⟨hframe, -⟩ | ⟨i, hcall, hcore, hi⟩
  · exact .kept hframe.sessionFrame
  · cases i with
    | initializeVault a =>
        obtain ⟨⟨hnone, -⟩, -, rfl⟩ := initializeVault_ok hi
        refine .kept ⟨rfl, fun v vault' hv => ?_, fun v vault hv _ => ?_, (·.isVault), .refl _⟩
        · rcases update_cases hv with ⟨rfl, heq⟩ | ⟨-, hv⟩
          · cases heq
            exact .inr ⟨hnone, rfl⟩
          · exact .inl ⟨vault', hv, rfl⟩
        · dsimp only
          rw [Function.update_apply]
          split <;> simp [hv]
    | closeVault a =>
        obtain ⟨closed, _, hclosable, rfl⟩ := closeVault_ok hi
        refine .kept ⟨rfl, fun v vault' hv => ?_, fun v vault hv hne => ?_, (·.isVault), .refl _⟩
        · exact .inl ⟨vault', update_none_subset v vault' hv, rfl⟩
        · simp only [World.withoutVault, Function.update_apply]
          split
          · rename_i heq
            rw [heq, hclosable.owned.found] at hv
            cases hv
            exact absurd hclosable.sessions hne
          · simp [hv]
    | validateAndAuthorize a => exact .opened a hcall hi
    | finalizeSession a => exact .closed a hcall hi
    | agentTransfer a =>
        obtain ⟨vault, vault', _, _, _, _, _, _, ⟨hv, -⟩, -, -, -, hmoves, hcounters, rfl⟩ := agentTransfer_ok hi
        simp only [AgentVault.counters, Prod.mk.injEq] at hcounters
        exact .kept (.of_update rfl hv rfl hcounters.2.2.1 hmoves)
    | createEscrow a =>
        obtain ⟨vault, vault', _, _, _, _, _, _, _, _, l, ledger, ⟨hv, hx⟩, -, -, -, -, hensure, hfund,
          hcounters, rfl⟩ := createEscrow_ok hi
        simp only [AgentVault.counters, Prod.mk.injEq] at hcounters
        exact .kept (.of_update rfl hv rfl hcounters.2.2.1
          (.trans (.ensureAssociated hensure) (fundEscrow_moves (isVault_of_address hx) hfund)))
    | settleEscrow a =>
        obtain ⟨vault, d, ledger, ⟨hv, -⟩, -, -, -, -, -, hpays, rfl⟩ := settleEscrow_ok hi
        exact .kept (.of_update rfl hv rfl rfl hpays.moves)
    | refundEscrow a =>
        obtain ⟨vault, d, ledger, ⟨hv, -⟩, -, -, -, hpays, rfl⟩ := refundEscrow_ok hi
        exact .kept (.of_update rfl hv rfl rfl hpays.moves)
    | closeSettledEscrow a =>
        obtain ⟨e, d, -, -, rfl⟩ := closeSettledEscrow_ok hi
        exact .kept ⟨rfl, fun v vault' hv => .inl ⟨vault', hv, rfl⟩, fun v vault hv _ => by
          simp [World.setEscrow, hv], (·.isVault), .refl _⟩
    | _ => cases hcore

/-! ## Opening and closing -/

theorem approve_delegatedOnlyAt {l l' : Ledger} {y delegate v : Pubkey} {n : Nat}
    (hl : l.DelegatedOnlyAt fun _ => False) (h : l.approve y delegate v n = .ok l') :
    l'.DelegatedOnlyAt fun z => z = y := by
  obtain ⟨account, -, -, -, rfl⟩ := Ledger.approve_ok h
  intro z account' hz hvault hdelegate
  rw [Ledger.setAccount_accounts] at hz
  split at hz
  · assumption
  · exact (hl z account' hz hvault hdelegate).elim

theorem collectFeesAndDelegate_delegations {l l' : Ledger} {a : ValidateAndAuthorize} {vault : AgentVault}
    {plan : SpendPlan} (ha : a.vault.isVault) (hl : l.DelegatedOnlyAt fun _ => False)
    (h : collectFeesAndDelegate l a vault plan = .ok l') :
    l'.DelegatedOnlyAt fun y => a.amount.toNat > 0 ∧ y = a.vaultTokenAccount := by
  unfold collectFeesAndDelegate at h
  split at h
  · rename_i hamount
    simp only [bind_eq_ok] at h
    obtain ⟨_, -, l₁, h₁, l₂, h₂, happrove⟩ := h
    have hmoves : l.Moves (·.isVault) l₂ := .trans (.collectFee ha h₁) (.collectFee ha h₂)
    intro y account hy hvault hdelegate
    exact ⟨hamount, approve_delegatedOnlyAt (hmoves.delegatedOnlyAt hl) happrove y account hy hvault hdelegate⟩
  · obtain rfl := pure_eq_ok.mp h
    intro y account hy hvault hdelegate
    exact (hl y account hy hvault hdelegate).elim

theorem validateAndAuthorize_open {a : ValidateAndAuthorize} (hw : Quiescent w)
    (h : validateAndAuthorize ctx a w = .ok w') :
    ∃ policy tokenAccount plan snapshots, w.policies a.vault = some policy ∧
      w.ledger.accounts a.vaultTokenAccount = some tokenAccount ∧
      planSpend w a policy tokenAccount = .ok plan ∧
      Open a.session (newSession ctx a policy plan snapshots) w' := by
  obtain ⟨vault, policy, tokenAccount, _, plan, ledger, snapshots, ⟨hv, hx⟩, hp, -, htoken, -, -, hplan, -,
    hledger, rfl⟩ := validateAndAuthorize_ok h
  refine ⟨policy, tokenAccount, plan, snapshots, hp, htoken, hplan, ?_⟩
  refine ⟨Function.update_self .., fun y hy => ?_, ⟨_, Function.update_self .., ?_⟩, fun v vault' hne hv' => ?_, ?_⟩
  · exact (Function.update_of_ne hy ..).trans (hw.sessions y)
  · simp [hw.activeSessions a.vault vault hv]
  · exact hw.activeSessions v vault' ((Function.update_of_ne hne ..).symm.trans hv')
  · intro y account hy hvault hdelegate
    have :=
      collectFeesAndDelegate_delegations (isVault_of_address hx) hw.delegations hledger y account hy hvault hdelegate
    simpa [newSession] using this

/-- A session is valid for as long as the clock does not move. -/
theorem newSession_isExpired {a : ValidateAndAuthorize} {policy : PolicyConfig} {plan : SpendPlan}
    {snapshots : Fin 4 → List UInt8} :
    (newSession ctx a policy plan snapshots).isExpired ctx.clock.unixTimestamp = false := by
  have hrange := ctx.clock.timestamp_range
  refine decide_eq_false ?_
  simp only [newSession, SessionAuthority.calculateExpiry, saturatingAddI64, clampI64]
  omega

theorem revokeDelegation_delegations {l l' : Ledger} {a : FinalizeSession}
    (hl : l.DelegatedOnlyAt fun y => s.delegated ∧ y = s.delegationTokenAccount)
    (h : revokeDelegation l a s = .ok l') : l'.DelegatedOnlyAt fun _ => False := by
  unfold revokeDelegation at h
  split at h
  · simp only [bind_eq_ok, okOr_eq_ok, require_eq_ok, exists_and_left, exists_const] at h
    obtain ⟨address, -, rfl, hrevoke⟩ := h
    obtain ⟨account, -, -, -, rfl⟩ := Ledger.revoke_ok hrevoke
    intro y account' hy hvault hdelegate
    rw [Ledger.setAccount_accounts] at hy
    split at hy
    · cases hy
      exact hdelegate rfl
    · rename_i hne
      exact hne (hl y account' hy hvault hdelegate).2
  · rename_i hnot
    obtain rfl := pure_eq_ok.mp h
    intro y account hy hvault hdelegate
    exact hnot (hl y account hy hvault hdelegate).1

theorem chargeSession_frame {clock : Clock} {v : Pubkey} {vault : AgentVault} {policy : PolicyConfig}
    {spend : Nat} (h : chargeSession w clock v vault policy s spend = .ok w') :
    w'.sessions = w.sessions ∧ w'.vaults = w.vaults := by
  rcases chargeSession_ok h with ⟨-, rfl⟩ | ⟨-, _, _, _, -, -, rfl⟩
  · exact ⟨rfl, rfl⟩
  · exact ⟨rfl, rfl⟩

/-- Whichever accounts it is given, an accepted `finalize_session` closes the one session that is open. -/
theorem finalizeSession_close {a : FinalizeSession} (hw : Open x s w) (h : finalizeSession ctx a w = .ok w') :
    a.session = x ∧ Quiescent w' := by
  obtain ⟨vault, session, _, ledger, spend, charged, vault', ⟨hv, -⟩, ⟨hs, hvault, -⟩, -, hrevoke, -, hcharge, hstats,
    rfl⟩ := finalizeSession_ok h
  have hx : a.session = x := by
    by_contra hne
    rw [hw.others _ hne] at hs
    cases hs
  cases hx
  cases hw.session.symm.trans hs
  obtain ⟨hsessions, hvaults⟩ := chargeSession_frame hcharge
  refine ⟨rfl, fun y => ?_, fun v vault'' hv' => ?_, revokeDelegation_delegations hw.delegations hrevoke⟩
  · simp only [World.setLedger, World.setVault, World.setSession, hsessions]
    rcases eq_or_ne y a.session with rfl | hne
    · exact Function.update_self ..
    · exact (Function.update_of_ne hne ..).trans (hw.others y hne)
  · simp only [World.setLedger, World.setVault, World.setSession, hvaults] at hv'
    rcases update_cases hv' with ⟨rfl, heq⟩ | ⟨hne, hv'⟩
    · cases heq
      obtain ⟨vault₁, hvault₁, hone⟩ := hw.vault
      rw [hvault] at hvault₁
      cases hv.symm.trans hvault₁
      rw [(finalizeStats_ok hstats).2.2.2, hone]
    · exact hw.activeSessions v vault'' (hvault ▸ hne) hv'

theorem Quiescent.not_finalize {a : FinalizeSession} (hw : Quiescent w) : finalizeSession ctx a w ≠ .ok w' := by
  intro h
  obtain ⟨_, session, _, _, _, _, _, -, ⟨hs, -⟩, -⟩ := finalizeSession_ok h
  cases (hw.sessions a.session).symm.trans hs

end

end Sigil
