import Sigil.Lemmas.SessionTrace
import Sigil.Theorems.SpendingCap

/-!
# No session outlives its transaction

The scan of `validate_and_authorize` looks at nothing but the program and the discriminator of the
`finalize_session` it finds. Still that instruction closes the very session, before it expires: nothing else is
open that it could close.
-/

namespace Sigil

open Library

section
variable {tx : Transaction} {w w' : World}

namespace SessionTrace

/-- The `finalize_session` that the scan has found closes the session that was opened, before it expires. -/
structure ClosesOwnSession (t : SessionTrace tx w) : Prop where
  address : t.finalize.session = t.validate.session
  fresh : t.start.sessions t.validate.session = none
  session : ∃ s, t.opened.sessions t.validate.session = some s ∧ t.used.sessions t.validate.session = some s ∧
    s.isExpired tx.clock.unixTimestamp = false
  closed : t.closed.sessions t.validate.session = none

theorem closesOwnSession (t : SessionTrace tx w) (hw : Quiescent w) :
    t.ClosesOwnSession ∧ Quiescent t.closed := by
  obtain ⟨policy, tokenAccount, plan, snapshots, -, -, -, hopened, hused⟩ := t.exists_session hw
  obtain ⟨haddress, hclosed⟩ := finalizeSession_close hused t.finalize_ok
  refine ⟨⟨haddress, ?_, ?_, hclosed.sessions _⟩, hclosed⟩
  · rw [t.start_eq]
    exact hw.sessions _
  · exact ⟨_, hopened.session, hused.session, newSession_isExpired⟩

end SessionTrace

theorem Transaction.quiescent (hw : Quiescent w) (h : tx.run w = .ok w') : Quiescent w' := by
  -- either nothing is opened, or everything after the trace of the session opens nothing
  by_cases hvalidate : ∃ ix ∈ tx.instructions, ∃ a, ix.call = .sigil (.validateAndAuthorize a)
  · obtain ⟨opening, hmem, a, hcall⟩ := hvalidate
    obtain ⟨before, after, hsplit⟩ := List.append_of_mem hmem
    obtain ⟨t, -, -, -, -, hrest⟩ := SessionTrace.exists_of_run hsplit hcall h
    exact (t.closesOwnSession hw).2.run t.cannotOpen_after.2 hrest
  · refine hw.run (fun st hst a w₁ w₂ hcall _ => hvalidate ?_) h
    obtain ⟨l₁, ix, l₂, heq, rfl⟩ := mem_stepsFrom hst
    exact ⟨ix, by simp [heq], a, hcall⟩

theorem chain_quiescent (hw : Quiescent w) (txs : List Transaction) : Quiescent (chain txs w) :=
  chain_invariant (fun _ _ _ => Transaction.quiescent) hw txs

/-- Between transactions nothing is open, and each session is closed by the `finalize_session` of its own
transaction. -/
theorem session_within_transaction (hw : Quiescent w) (txs : List Transaction) :
    Quiescent (chain txs w) ∧
    ∀ (tx : Transaction) (w' : World), tx.run (chain txs w) = .ok w' →
      ∀ before opening after a, tx.instructions = before ++ opening :: after →
        opening.call = .sigil (.validateAndAuthorize a) →
        ∃ t : SessionTrace tx (chain txs w), t.before = before ∧ t.opening = opening ∧ t.validate = a ∧
          t.ClosesOwnSession := by
  refine ⟨chain_quiescent hw txs, ?_⟩
  intro tx w' h before opening after a hsplit hcall
  obtain ⟨t, hbefore, hopening, ha, -, -⟩ := SessionTrace.exists_of_run hsplit hcall h
  exact ⟨t, hbefore, hopening, ha, (t.closesOwnSession (chain_quiescent hw txs)).1⟩

end

/-! ### Agent 3 spends half a USDC of a session of one USDC -/

theorem genesis_quiescent : Quiescent {} where
  sessions _ := rfl
  activeSessions _ _ h := nomatch h
  delegations _ _ h := nomatch h

def paySetup : List Transaction :=
  [{ clock := payClock, signers := [usdcMint, .key 4], instructions := [payLaunch],
     signers_isKey := launchers_isKey },
   .ofKey payClock 1
    [(Instruction.initializeVault payVault).toTopLevel, (Instruction.registerAgent payAgent).toTopLevel]]

def payValidate : ValidateAndAuthorize :=
  { agent := .key 3, vault := payVault.vault, vaultTokenAccount := .ata payVault.vault usdcMint,
    protocolTreasuryTokenAccount := some (.ata protocolTreasury usdcMint), tokenMint := usdcMint, amount := 1000000,
    targetProtocol := flashTradeProgram, expectedPolicyVersion := 0 }

def payTrade (amount : Nat) : TopLevel :=
  { raw := { programId := flashTradeProgram, accounts := [], data := [] }
    call := .foreign [.transfer (.ata payVault.vault usdcMint) (.ata (.key 5) usdcMint) (.key 3) amount] }

def payFinalize : FinalizeSession :=
  { payer := .key 3, vault := payVault.vault, session := payValidate.session, sessionRentRecipient := .key 3,
    vaultTokenAccount := some (.ata payVault.vault usdcMint) }

def paySession (between : List TopLevel) : Transaction :=
  .ofKey payClock 3 ((Instruction.validateAndAuthorize payValidate).toTopLevel ::
    (between ++ [(Instruction.finalizeSession payFinalize).toTopLevel]))

theorem session_within_transaction_trade : Quiescent (chain paySetup {}) ∧
    ∃ t : SessionTrace (paySession [payTrade 500000]) (chain paySetup {}), t.validate = payValidate ∧
      t.ClosesOwnSession := by
  obtain ⟨w', h⟩ : ∃ w', (paySession [payTrade 500000]).run (chain paySetup {}) = .ok w' := ⟨_, rfl⟩
  obtain ⟨hquiescent, hsessions⟩ := session_within_transaction genesis_quiescent paySetup
  obtain ⟨t, -, -, ha, hcloses⟩ := hsessions _ w' h [] _ _ payValidate rfl rfl
  exact ⟨hquiescent, t, ha, hcloses⟩

end Sigil
