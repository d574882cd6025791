import Sigil.Lemmas.Simulation
import Sigil.Theorems.SessionCharge
import Sigil.Theorems.Escrow

/-!
# Payouts of escrows within a session

A session is charged with the decrease of its token account. A settlement or a refund that arrives in the
account within the session makes up for what was spent.
-/

namespace Sigil

open Library

section
variable {tx tx₁ tx₂ : Transaction} {w : World}

/-- All that a log holds. -/
def EpochLog.sum (l : EpochLog) : Nat := (l.map Prod.snd).sum

/-- What a transaction has recorded on the vault of its session when `finalize_session` is done. -/
def SessionTrace.recorded (t : SessionTrace tx w) : Nat :=
  EpochLog.sum (t.closed.spendLog t.validate.vault) - EpochLog.sum (w.spendLog t.validate.vault)

/-- The second transaction is the first without the settlements and refunds into the session's account. -/
structure WithoutPayouts (t₁ : SessionTrace tx₁ w) (t₂ : SessionTrace tx₂ w) : Prop where
  clock : tx₁.clock = tx₂.clock
  signers : tx₁.signers = tx₂.signers
  opening : t₂.opening.form = t₁.opening.form
  between : t₂.between.map TopLevel.form =
    (t₁.between.filter fun ix => !ix.paysInto t₁.validate.vaultTokenAccount).map TopLevel.form
  closing : t₂.closing.form = t₁.closing.form

/-- A decrease of `d₁` over fees of `fees` is charged with as much as a decrease of `d₂`. -/
def NotWashed (fees d₁ d₂ : Nat) : Prop :=
  d₂ ≤ fees ∧ (d₁ ≤ fees ∨ 2 * fees ≤ d₁) ∨ fees < d₂ ∧ (d₂ ≤ d₁ ∨ d₁ ≤ fees ∧ d₂ ≤ 2 * fees)

theorem chargedAmount_le_iff {fees d₁ d₂ : Nat} (hfees : 0 < fees) :
    chargedAmount (d₂ - fees) fees ≤ chargedAmount (d₁ - fees) fees ↔ NotWashed fees d₁ d₂ := by
  unfold chargedAmount NotWashed
  split <;> split <;> omega

theorem WithoutPayouts.validate_eq {t₁ : SessionTrace tx₁ w} {t₂ : SessionTrace tx₂ w} (h : WithoutPayouts t₁ t₂) :
    t₂.validate = t₁.validate := by
  have hcall : t₂.opening.call = t₁.opening.call := (Prod.ext_iff.mp h.opening).2
  rw [t₁.opening_call, t₂.opening_call] at hcall
  exact Instruction.validateAndAuthorize.inj (Call.sigil.inj hcall)

/-- The same request from the same state costs the same fees. -/
theorem SessionTrace.fees_eq {t₁ : SessionTrace tx₁ w} {t₂ : SessionTrace tx₂ w} (hw : Quiescent w)
    (h : t₂.validate = t₁.validate) : t₂.fees = t₁.fees := by
  obtain ⟨policy₁, account₁, plan₁, _, hp₁, haccount₁, hplan₁, hopened₁, -⟩ := t₁.exists_session hw
  obtain ⟨policy₂, account₂, plan₂, _, hp₂, haccount₂, hplan₂, hopened₂, -⟩ := t₂.exists_session hw
  rw [fees, fees, hopened₁.session, hopened₂.session]
  rw [h] at hp₂ haccount₂ hplan₂
  cases hp₁.symm.trans hp₂
  cases haccount₁.symm.trans haccount₂
  cases hplan₁.symm.trans hplan₂
  rfl

/-- Opening a session records nothing and leaves the shape of the accounts. -/
theorem SessionTrace.opened_same (t : SessionTrace tx w) :
    t.opened.spendLog = w.spendLog ∧ w.ledger.SameShape t.opened.ledger := by
  obtain ⟨_, _, _, _, _, _, _, -, -, -, -, -, -, -, -, hledger, heq⟩ := validateAndAuthorize_ok t.validate_ok
  rw [t.start_eq] at heq hledger
  rw [heq]
  exact ⟨rfl, collectFeesAndDelegate_sameShape hledger⟩

/-- Up to `finalize_session` both transactions record the same. -/
theorem WithoutPayouts.sameRecords {t₁ : SessionTrace tx₁ w} {t₂ : SessionTrace tx₂ w} (h : WithoutPayouts t₁ t₂)
    (hw : Quiescent w) (hsound : w.ledger.Sound) :
    SameRecords t₁.validate.vault w t₁.used w t₂.used := by
  obtain ⟨_, _, _, _, -, -, -, hopened, -⟩ := t₁.exists_session hw
  obtain ⟨hlog₁, hshape₁⟩ := t₁.opened_same
  obtain ⟨hlog₂, hshape₂⟩ := t₂.opened_same
  have hs₁ : t₁.opened.ledger.Sound := Step.sound t₁.run_opening (by rw [t₁.start_eq]; exact hsound)
  have hs₂ : t₂.opened.ledger.Sound := Step.sound t₂.run_opening (by rw [t₂.start_eq]; exact hsound)
  obtain ⟨records, h₁, h₂⟩ := sameRecords_run (v := t₁.validate.vault) h.clock rfl h.between t₁.between_raw
    t₁.cannotOpen_after.1 hopened hs₁ hs₂ (hshape₁.symm.trans hshape₂) t₁.run_between t₂.run_between
  exact ⟨records, by rw [h₁, hlog₁], by rw [h₂, hlog₂]⟩

/-- A policy that does not allow this program lets none of its instructions into a session. -/
theorem SessionTrace.no_payout {policy : PolicyConfig} (t : SessionTrace tx w)
    (hp : w.policies t.validate.vault = some policy) (hallowed : policy.isProtocolAllowed crateId = false)
    {x : Pubkey} : ∀ ix ∈ t.between, ix.paysInto x = false := by
  intro ix hix
  obtain ⟨policy', constraints, hp', hpasses⟩ := t.between_passes
  rw [t.start_eq] at hp'
  cases hp.symm.trans hp'
  obtain ⟨j, w₁, w₂, hexec⟩ := Transaction.exec_of_mem hix t.run_between
  rcases Step.exec_cases hexec with ⟨i, -, hprogram, -, -⟩ | ⟨ops, hcall, -⟩
  · have hprogram : ix.raw.programId = crateId := hprogram
    rcases (hpasses ix hix).allowed with hinfra | hprotocol
    · rw [hprogram, crateId_not_infrastructure] at hinfra
      cases hinfra
    · rw [hprogram, hallowed] at hprotocol
      cases hprotocol
  · have hcall : ix.call = .foreign ops := hcall
    rw [TopLevel.paysInto, hcall]

theorem chain_sound (hw : w.ledger.Sound) (txs : List Transaction) : (chain txs w).ledger.Sound := by
  refine chain_invariant (P := fun w => w.ledger.Sound) (fun tx w w' hw h => ?_) hw txs
  exact run_invariant (P := fun w => w.ledger.Sound) hw (fun st _ w₁ w₂ hw₁ hexec => Step.sound hexec hw₁) h

theorem SessionTrace.recorded_eq {records : EpochLog} {x : Nat} (t : SessionTrace tx w)
    (hused : t.used.spendLog t.validate.vault = records ++ w.spendLog t.validate.vault) (hx : t.Records x) :
    t.recorded = x + EpochLog.sum records := by
  unfold recorded
  rw [hx, hused]
  simp only [EpochLog.sum, List.map_cons, List.map_append, List.sum_cons, List.sum_append]
  omega

end

/-- Two accepted transactions from the same state, the second without the payouts into the session's account:
when the first records as much as the second. A policy that does not allow this program rules payouts out. -/
theorem not_washed_iff {txs : List Transaction} {tx₁ tx₂ : Transaction} (t₁ : SessionTrace tx₁ (chain txs {}))
    (t₂ : SessionTrace tx₂ (chain txs {})) (h : WithoutPayouts t₁ t₂) (hamount : 0 < t₁.validate.amount.toNat)
    (hstable : isStablecoinMint t₁.validate.tokenMint) :
    (t₂.recorded ≤ t₁.recorded ↔ NotWashed t₁.fees t₁.decrease t₂.decrease) ∧
    ∀ policy, (chain txs {}).policies t₁.validate.vault = some policy → policy.isProtocolAllowed crateId = false →
      ∀ ix ∈ t₁.between, ix.paysInto t₁.validate.vaultTokenAccount = false := by
  refine ⟨?_, fun policy hp hallowed => t₁.no_payout hp hallowed⟩
  have hw : Quiescent (chain txs {}) := chain_quiescent genesis_quiescent txs
  have hvalidate := h.validate_eq
  obtain ⟨hfees, hrecords₁⟩ := t₁.stablecoin_charge hw hamount hstable
  obtain ⟨-, hrecords₂⟩ := t₂.stablecoin_charge hw (by rwa [hvalidate]) (by rwa [hvalidate])
  obtain ⟨records, hused₁, hused₂⟩ := h.sameRecords hw (chain_sound (by simp [Ledger.Sound]) txs)
  rw [t₁.recorded_eq hused₁ hrecords₁, t₂.recorded_eq (by rwa [hvalidate]) hrecords₂,
    SessionTrace.fees_eq hw hvalidate, Nat.add_le_add_iff_right]
  exact chargedAmount_le_iff hfees

/-! ### Agent 7 of the vault of owner 6 settles the escrow of 999800 within a session of one USDC -/

def payeeAgent : RegisterAgent :=
  { owner := .key 6, vault := payeeVault.vault, agent := .key 7, capability := 2, spendingLimitUsd := 0 }

def payeeLaunch : TopLevel :=
  { raw := { programId := .key 9, accounts := [], data := [] }
    call := .foreign
      [.createAssociated payeeVault.vault usdcMint, .mintTo (.ata payeeVault.vault usdcMint) (.key 4) 1000000000] }

def washSetup : List Transaction :=
  [{ clock := payClock, signers := [usdcMint, .key 4], instructions := [payLaunch, payeeLaunch],
     signers_isKey := launchers_isKey },
   .ofKey payClock 1
    [(Instruction.initializeVault payVault).toTopLevel, (Instruction.registerAgent payAgent).toTopLevel],
   .ofKey payClock 6
    [(Instruction.initializeVault payeeVault).toTopLevel, (Instruction.registerAgent payeeAgent).toTopLevel],
   .ofKey payClock 3 [(Instruction.createEscrow payEscrow).toTopLevel]]

def washValidate : ValidateAndAuthorize :=
  { payValidate with
    agent := .key 7
    vault := payeeVault.vault
    vaultTokenAccount := .ata payeeVault.vault usdcMint }

def washSettle : TopLevel :=
  (Instruction.settleEscrow
    { escrow := payEscrow.escrow, vaultAta := .ata payeeVault.vault usdcMint, tokenMint := usdcMint,
      rentDestination := .key 1, destinationAgent := .key 7, destinationVault := payeeVault.vault,
      sourceVault := payVault.vault, proof := [] }).toTopLevel

def washTrade (amount : Nat) : TopLevel :=
  { raw := { programId := flashTradeProgram, accounts := [], data := [] }
    call := .foreign [.transfer (.ata payeeVault.vault usdcMint) (.ata (.key 5) usdcMint) (.key 7) amount] }

def washFinalize : FinalizeSession :=
  { payer := .key 7, vault := payeeVault.vault, session := washValidate.session, sessionRentRecipient := .key 7,
    vaultTokenAccount := some (.ata payeeVault.vault usdcMint) }

def washSession (between : List TopLevel) : Transaction :=
  .ofKey payClock 7 ((Instruction.validateAndAuthorize washValidate).toTopLevel ::
    (between ++ [(Instruction.finalizeSession washFinalize).toTopLevel]))

abbrev WashTrace (between : List TopLevel) : Type := SessionTrace (washSession between) (chain washSetup {})

/-- The session is accepted with these instructions, at a fee of 200, and `charge` is recorded. -/
structure WashAccepted {between : List TopLevel} (t : WashTrace between) (charge : Nat) : Prop where
  validate : t.validate = washValidate
  opening : t.opening = (Instruction.validateAndAuthorize washValidate).toTopLevel
  between : t.between = between
  closing : t.closing = (Instruction.finalizeSession washFinalize).toTopLevel
  fees : t.fees = 200
  recorded : t.recorded = charge

theorem WashAccepted.withoutPayouts {amount charge₁ charge₂ : Nat} {t₁ : WashTrace [washSettle, washTrade amount]}
    {t₂ : WashTrace [washTrade amount]} (h₁ : WashAccepted t₁ charge₁) (h₂ : WashAccepted t₂ charge₂) :
    WithoutPayouts t₁ t₂ where
  clock := rfl
  signers := rfl
  opening := by rw [h₁.opening, h₂.opening]
  between := by rw [h₁.validate, h₁.between, h₂.between]; rfl
  closing := by rw [h₁.closing, h₂.closing]

/-- A small trade costs less than the fees, so the payout does not lower the charge. -/
theorem not_washed_small_trade :
    ∃ (t₁ : WashTrace [washSettle, washTrade 100]) (t₂ : WashTrace [washTrade 100]),
      WithoutPayouts t₁ t₂ ∧ t₁.recorded = 200 ∧ t₂.recorded = 100 ∧ NotWashed 200 t₁.decrease t₂.decrease := by
  obtain ⟨t₁, h₁⟩ : ∃ t : WashTrace [washSettle, washTrade 100], WashAccepted t 200 :=
    ⟨.whole rfl (by decide) rfl rfl rfl, rfl, rfl, rfl, rfl, rfl, rfl⟩
  obtain ⟨t₂, h₂⟩ : ∃ t : WashTrace [washTrade 100], WashAccepted t 100 :=
    ⟨.whole rfl (by decide) rfl rfl rfl, rfl, rfl, rfl, rfl, rfl, rfl⟩
  have hwithout := h₁.withoutPayouts h₂
  have hiff := (not_washed_iff t₁ t₂ hwithout (by rw [h₁.validate]; decide) (by rw [h₁.validate]; decide)).1
  rw [h₁.fees, h₁.recorded, h₂.recorded] at hiff
  exact ⟨t₁, t₂, hwithout, h₁.recorded, h₂.recorded, hiff.mp (by decide)⟩

/-- The payout makes up for the trade: 200 are recorded in the place of 999800. -/
theorem washed : ¬ ∀ (txs : List Transaction) (tx₁ tx₂ : Transaction) (t₁ : SessionTrace tx₁ (chain txs {}))
    (t₂ : SessionTrace tx₂ (chain txs {})), WithoutPayouts t₁ t₂ → 0 < t₁.validate.amount.toNat →
    isStablecoinMint t₁.validate.tokenMint → t₂.recorded ≤ t₁.recorded := by
  intro h
  obtain ⟨t₁, h₁⟩ : ∃ t : WashTrace [washSettle, washTrade 999800], WashAccepted t 200 :=
    ⟨.whole rfl (by decide) rfl rfl rfl, rfl, rfl, rfl, rfl, rfl, rfl⟩
  obtain ⟨t₂, h₂⟩ : ∃ t : WashTrace [washTrade 999800], WashAccepted t 999800 :=
    ⟨.whole rfl (by decide) rfl rfl rfl, rfl, rfl, rfl, rfl, rfl, rfl⟩
  have := h _ _ _ t₁ t₂ (h₁.withoutPayouts h₂) (by rw [h₁.validate]; decide) (by rw [h₁.validate]; decide)
  rw [h₁.recorded, h₂.recorded] at this
  omega

end Sigil
