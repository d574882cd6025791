import Sigil.Lemmas.SessionTrace
import Sigil.Theorems.Session

/-!
# Where a session's charge comes from
-/

namespace Sigil

open Library

/-! ## What a session is charged -/

def SessionAuthority.fees (s : SessionAuthority) : Nat := s.protocolFee + s.developerFee

section
variable {w : World} {a : ValidateAndAuthorize} {policy : PolicyConfig} {tokenAccount : TokenAccount} {plan : SpendPlan}

theorem isStablecoinMint_ne_default {m : Pubkey} (h : isStablecoinMint m) : m ≠ .default := by
  rintro rfl
  revert h
  decide

theorem ceilFee_pos {amount rate fee : Nat} (hamount : 0 < amount) (hrate : 0 < rate)
    (h : ceilFee amount rate = .ok fee) : 0 < fee := by
  simp only [ceilFee, bind_eq_ok, okOr_eq_ok, checkedMul_eq_some, checkedAdd_eq_some, pure_eq_ok] at h
  obtain ⟨_, ⟨-, rfl⟩, _, ⟨-, rfl⟩, rfl⟩ := h
  have := Nat.mul_pos hamount hrate
  exact Nat.div_pos (by unfold feeRateDenominator; omega) (by decide)

theorem planSpend_stablecoin (hamount : 0 < a.amount.toNat) (hstable : isStablecoinMint a.tokenMint)
    (h : planSpend w a policy tokenAccount = .ok plan) :
    plan.outputMint = a.tokenMint ∧ plan.stablecoinBalanceBefore = tokenAccount.amount ∧
      0 < plan.protocolFee + plan.developerFee := by
  rw [planSpend, if_neg (by omega), if_pos hstable] at h
  simp only [bind_eq_ok, pure_eq_ok] at h
  obtain ⟨protocolFee, hfee, _, -, rfl⟩ := h
  exact ⟨rfl, rfl, Nat.add_pos_left (ceilFee_pos hamount (by decide) hfee) _⟩

theorem planSpend_other (hamount : 0 < a.amount.toNat) (hstable : isStablecoinMint a.tokenMint = false)
    (h : planSpend w a policy tokenAccount = .ok plan) :
    ∃ address account, a.outputStablecoinAccount = some address ∧ w.ledger.accounts address = some account ∧
      plan.outputMint ≠ .default ∧ plan.stablecoinBalanceBefore = account.amount ∧
      plan.protocolFee + plan.developerFee = 0 := by
  rw [planSpend, if_neg (by omega), if_neg (by simp [hstable])] at h
  simp only [bind_eq_ok, okOr_eq_ok, require_eq_ok, exists_and_left, exists_const, pure_eq_ok,
    World.loadToken_eq_ok] at h
  obtain ⟨address, haddress, account, haccount, -, hmint, rfl⟩ := h
  exact ⟨address, account, haddress, haccount, isStablecoinMint_ne_default hmint, rfl, rfl⟩

variable {b : FinalizeSession} {s : SessionAuthority} {spend : Nat}

/-- A delegated account has to be passed to `finalize_session`. -/
theorem revokeDelegation_account {l l' : Ledger} (hdelegated : s.delegated)
    (h : revokeDelegation l b s = .ok l') : b.vaultTokenAccount = some s.delegationTokenAccount := by
  simp only [revokeDelegation, hdelegated, if_true, bind_eq_ok, okOr_eq_ok, require_eq_ok, exists_and_left,
    exists_const] at h
  obtain ⟨address, haddress, rfl, -⟩ := h
  exact haddress

theorem measureDecrease_ok (h : measureDecrease w b s = .ok spend) :
    ∃ address account, b.vaultTokenAccount = some address ∧ w.ledger.accounts address = some account ∧
      spend = s.stablecoinBalanceBefore - account.amount - s.fees := by
  simp only [measureDecrease, bind_eq_ok, okOr_eq_ok, checkedAdd_eq_some, pure_eq_ok, World.loadToken_eq_ok] at h
  obtain ⟨address, haddress, account, haccount, _, -, _, ⟨-, rfl⟩, rfl⟩ := h
  exact ⟨address, account, haddress, haccount, rfl⟩

theorem measureIncrease_ok (h : measureIncrease w b s = .ok spend) :
    ∃ address account, b.outputStablecoinAccount = some address ∧ w.ledger.accounts address = some account ∧
      s.stablecoinBalanceBefore < account.amount ∧ spend = account.amount - s.stablecoinBalanceBefore := by
  simp only [measureIncrease, bind_eq_ok, okOr_eq_ok, require_eq_ok, exists_and_left, exists_const, pure_eq_ok,
    World.loadToken_eq_ok] at h
  obtain ⟨address, haddress, account, haccount, -, -, hlt, rfl⟩ := h
  exact ⟨address, account, haddress, haccount, hlt, rfl⟩

theorem measureSpend_ok (hmint : s.outputMint ≠ .default) (h : measureSpend w b s false = .ok spend) :
    if isStablecoinMint s.authorizedToken then measureDecrease w b s = .ok spend
    else measureIncrease w b s = .ok spend := by
  rw [measureSpend, if_neg (by simp [hmint])] at h
  split at h
  · rwa [if_pos ‹_›]
  · rwa [if_neg ‹_›]

end

namespace SessionTrace

section
variable {tx : Transaction} {w : World} (t : SessionTrace tx w)

/-- Fees that `validate_and_authorize` collects. -/
def fees : Nat := (t.opened.sessions t.validate.session).elim 0 SessionAuthority.fees

/-- How far the session's token account is below its snapshot when `finalize_session` starts. -/
def decrease : Nat :=
  t.start.ledger.balance t.validate.vaultTokenAccount - t.used.ledger.balance t.validate.vaultTokenAccount

/-- `finalize_session` records `x` in the tracker of the vault. -/
def Records (x : Nat) : Prop :=
  t.closed.spendLog t.validate.vault = (epochOf tx.clock, x) :: t.used.spendLog t.validate.vault

theorem Records.unique {t : SessionTrace tx w} {x y : Nat} (hx : t.Records x) (hy : t.Records y) : x = y := by
  have := hx.symm.trans hy
  simpa using this

/-- The record of a session with a stablecoin. -/
theorem stablecoin_session (hw : Quiescent w) (hamount : 0 < t.validate.amount.toNat)
    (hstable : isStablecoinMint t.validate.tokenMint) :
    ∃ s, Open t.validate.session s t.used ∧ s.vault = t.validate.vault ∧
      s.isExpired tx.clock.unixTimestamp = false ∧ s.isSpending ∧ s.delegated ∧
      s.delegationTokenAccount = t.validate.vaultTokenAccount ∧ s.authorizedToken = t.validate.tokenMint ∧
      s.outputMint = t.validate.tokenMint ∧
      s.stablecoinBalanceBefore = t.start.ledger.balance t.validate.vaultTokenAccount ∧
      s.fees = t.fees ∧ 0 < t.fees := by
  obtain ⟨policy, tokenAccount, plan, snapshots, -, htoken, hplan, hopened, hused⟩ := t.exists_session hw
  obtain ⟨hmint, hbefore, hpos⟩ := planSpend_stablecoin hamount hstable hplan
  have hfees : t.fees = plan.protocolFee + plan.developerFee := by rw [fees, hopened.session]; rfl
  have hbalance : t.start.ledger.balance t.validate.vaultTokenAccount = tokenAccount.amount := by
    rw [Ledger.balance, t.start_eq, htoken]
  exact ⟨_, hused, rfl, newSession_isExpired, decide_eq_true hamount, decide_eq_true hamount, rfl, rfl, hmint,
    hbefore.trans hbalance.symm, hfees.symm, by omega⟩

theorem fees_eq_zero (hw : Quiescent w)
    (hother : t.validate.amount.toNat = 0 ∨ isStablecoinMint t.validate.tokenMint = false) : t.fees = 0 := by
  obtain ⟨policy, tokenAccount, plan, snapshots, -, -, hplan, hopened, -⟩ := t.exists_session hw
  rw [fees, hopened.session]
  show plan.protocolFee + plan.developerFee = 0
  rcases Nat.eq_zero_or_pos t.validate.amount.toNat with hzero | hpos
  · rw [planSpend, if_pos hzero] at hplan
    obtain rfl := pure_eq_ok.mp hplan
    rfl
  · obtain ⟨-, -, -, -, -, -, hfees⟩ := planSpend_other hpos (hother.resolve_left (by omega)) hplan
    exact hfees

/-- The measured account is the delegated one, so the spend is its decrease beyond the fees. -/
theorem stablecoin_spend (hw : Quiescent w) (hamount : 0 < t.validate.amount.toNat)
    (hstable : isStablecoinMint t.validate.tokenMint) {s : SessionAuthority} {l : Ledger} {spend : Nat}
    (hopen : Open t.validate.session s t.used) (hrevoke : revokeDelegation t.used.ledger t.finalize s = .ok l)
    (hspend : measureSpend t.used t.finalize s false = .ok spend) :
    spend = t.decrease - t.fees ∧ s.fees = t.fees := by
  obtain ⟨s', hused, -, -, -, hdelegated, hdelegation, htoken, hmint, hbefore, hfees, -⟩ :=
    t.stablecoin_session hw hamount hstable
  cases hopen.session.symm.trans hused.session
  have hmeasure := measureSpend_ok (hmint ▸ isStablecoinMint_ne_default hstable) hspend
  rw [htoken, if_pos hstable] at hmeasure
  obtain ⟨address, account, haddress, haccount, hspend⟩ := measureDecrease_ok hmeasure
  have hsame : address = t.validate.vaultTokenAccount :=
    hdelegation ▸ Option.some.inj (haddress.symm.trans (revokeDelegation_account hdelegated hrevoke))
  have hbalance : t.used.ledger.balance t.validate.vaultTokenAccount = account.amount := by
    rw [Ledger.balance, ← hsame, haccount]
  exact ⟨by rw [hspend, hbefore, hfees, decrease, hbalance], hfees⟩

theorem stablecoin_charge (hw : Quiescent w) (hamount : 0 < t.validate.amount.toNat)
    (hstable : isStablecoinMint t.validate.tokenMint) :
    0 < t.fees ∧ t.Records (chargedAmount (t.decrease - t.fees) t.fees) := by
  obtain ⟨s, hused, hvault, hexpired, -, -, -, -, -, -, -, hpos⟩ := t.stablecoin_session hw hamount hstable
  obtain ⟨-, -, spend, hspend, ⟨l, hrevoke⟩, hlog⟩ := t.charged hused hexpired
  obtain ⟨hspend, hfees⟩ := t.stablecoin_spend hw hamount hstable hused hrevoke hspend
  have hcharged : 0 < chargedAmount spend t.fees := by
    unfold chargedAmount
    split <;> omega
  refine ⟨hpos, ?_⟩
  unfold Records
  rw [← hspend, ← hvault]
  rw [show s.protocolFee + s.developerFee = t.fees from hfees] at hlog
  exact hlog hcharged

/-- What came into the account that `finalize_session` is given, over the snapshot of the account that
`validate_and_authorize` was given. -/
theorem other_charge (hw : Quiescent w) (hamount : 0 < t.validate.amount.toNat)
    (hstable : isStablecoinMint t.validate.tokenMint = false) :
    ∃ snapshotted given, t.validate.outputStablecoinAccount = some snapshotted ∧
      t.finalize.outputStablecoinAccount = some given ∧
      t.start.ledger.balance snapshotted < t.used.ledger.balance given ∧
      t.Records (t.used.ledger.balance given - t.start.ledger.balance snapshotted) := by
  obtain ⟨policy, tokenAccount, plan, snapshots, -, -, hplan, hopened, hused⟩ := t.exists_session hw
  obtain ⟨snapshotted, account₁, hsnapshotted, haccount₁, hmint, hbefore, hzero⟩ :=
    planSpend_other hamount hstable hplan
  obtain ⟨-, -, spend, hspend, -, hlog⟩ := t.charged hused newSession_isExpired
  have hmeasure := measureSpend_ok hmint hspend
  rw [if_neg (by simp [newSession, hstable])] at hmeasure
  obtain ⟨given, account₂, hgiven, haccount₂, hlt, hspend⟩ := measureIncrease_ok hmeasure
  have hstart : t.start.ledger.balance snapshotted = plan.stablecoinBalanceBefore := by
    rw [Ledger.balance, t.start_eq, haccount₁, hbefore]
  have hend : t.used.ledger.balance given = account₂.amount := by
    rw [Ledger.balance, haccount₂]
  have hlt : plan.stablecoinBalanceBefore < account₂.amount := hlt
  have hspend : spend = account₂.amount - plan.stablecoinBalanceBefore := hspend
  refine ⟨snapshotted, given, hsnapshotted, hgiven, by omega, ?_⟩
  unfold Records
  rw [hstart, hend, ← hspend]
  have hcharged : chargedAmount spend (plan.protocolFee + plan.developerFee) = spend := if_pos (by omega)
  dsimp only [newSession] at hlog
  rw [hcharged] at hlog
  exact hlog (by omega)

end

/-! ## What reaches the account -/

variable {tx : Transaction} {w : World}

/-- The account of the snapshot holds more than before, and its increase is what is charged. -/
def ProceedsLand (t : SessionTrace tx w) : Prop :=
  ∃ account, t.validate.outputStablecoinAccount = some account ∧
    t.start.ledger.balance account < t.used.ledger.balance account ∧
    t.Records (t.used.ledger.balance account - t.start.ledger.balance account)

/-- The session remembers the mint of the account and not the account. So the proceeds are measured right
when both instructions are given the same account, or else by chance. -/
theorem proceeds_land_iff (t : SessionTrace tx w) (hw : Quiescent w) (hamount : 0 < t.validate.amount.toNat)
    (hstable : isStablecoinMint t.validate.tokenMint = false) :
    t.ProceedsLand ↔ ∃ snapshotted given, t.validate.outputStablecoinAccount = some snapshotted ∧
      t.finalize.outputStablecoinAccount = some given ∧
      (given = snapshotted ∨ t.used.ledger.balance given = t.used.ledger.balance snapshotted) := by
  obtain ⟨snapshotted, given, hsnapshotted, hgiven, hlt, hrecords⟩ := t.other_charge hw hamount hstable
  constructor
  · rintro ⟨account, haccount, hmore, hincrease⟩
    cases hsnapshotted.symm.trans haccount
    have := hrecords.unique hincrease
    exact ⟨snapshotted, given, hsnapshotted, hgiven, .inr (by omega)⟩
  · rintro ⟨snapshotted', given', hsnapshotted', hgiven', hbalance⟩
    cases hsnapshotted.symm.trans hsnapshotted'
    cases hgiven.symm.trans hgiven'
    have hbalance : t.used.ledger.balance given = t.used.ledger.balance snapshotted := by
      rcases hbalance with rfl | hbalance
      · rfl
      · exact hbalance
    rw [hbalance] at hlt hrecords
    exact ⟨snapshotted, hsnapshotted, hlt, hrecords⟩

end SessionTrace

/-! ### Agent 3 sells a token of the vault to key 5 -/

/-- Key 4 mints 1000 of the token of key 60 to the vault, 1 USDC to the account at key 61, which the vault owns
as well, and 1 USDC to key 5. -/
def swapLaunch : TopLevel :=
  { raw := { programId := .key 9, accounts := [], data := [] }
    call := .foreign
      [.initializeMint usdcMint { decimals := 6, mintAuthority := some (.key 4) },
       .initializeMint (.key 60) { decimals := 6, mintAuthority := some (.key 4) },
       .createAssociated payVault.vault usdcMint, .initializeAccount (.key 61) usdcMint payVault.vault,
       .createAssociated (.key 5) usdcMint, .createAssociated payVault.vault (.key 60),
       .createAssociated (.key 5) (.key 60), .mintTo (.key 61) (.key 4) 1000000,
       .mintTo (.ata (.key 5) usdcMint) (.key 4) 1000000, .mintTo (.ata payVault.vault (.key 60)) (.key 4) 1000] }

def swapSetup : List Transaction :=
  [{ clock := payClock, signers := [usdcMint, .key 60, .key 61, .key 4], instructions := [swapLaunch] },
   .ofKey payClock 1
    [(Instruction.initializeVault payVault).toTopLevel, (Instruction.registerAgent payAgent).toTopLevel]]

def swapValidate : ValidateAndAuthorize :=
  { agent := .key 3, vault := payVault.vault, vaultTokenAccount := .ata payVault.vault (.key 60),
    outputStablecoinAccount := some (.ata payVault.vault usdcMint), tokenMint := .key 60, amount := 1000,
    targetProtocol := flashTradeProgram, expectedPolicyVersion := 0 }

/-- The whole token for a price, paid to the vault's associated account. -/
def swapTrade (price : Nat) : TopLevel :=
  { raw := { programId := flashTradeProgram, accounts := [], data := [] }
    call := .foreign
      [.transfer (.ata payVault.vault (.key 60)) (.ata (.key 5) (.key 60)) (.key 3) 1000,
       .transfer (.ata (.key 5) usdcMint) (.ata payVault.vault usdcMint) (.key 5) price] }

def swapFinalize (output : Pubkey) : FinalizeSession :=
  { payer := .key 3, vault := payVault.vault, session := swapValidate.session, sessionRentRecipient := .key 3,
    vaultTokenAccount := some (.ata payVault.vault (.key 60)), outputStablecoinAccount := some output }

def swapSession (price : Nat) (output : Pubkey) : Transaction :=
  { clock := payClock, signers := [.key 3, .key 5],
    instructions := (Instruction.validateAndAuthorize swapValidate).toTopLevel ::
      ([swapTrade price] ++ [(Instruction.finalizeSession (swapFinalize output)).toTopLevel]) }

theorem swapSetup_quiescent : Quiescent (chain swapSetup {}) := chain_quiescent genesis_quiescent swapSetup

/-- Sold for its price, which is paid to the account of the snapshot. -/
theorem proceeds_land_sold :
    ∃ t : SessionTrace (swapSession 1000000 (.ata payVault.vault usdcMint)) (chain swapSetup {}),
      t.Records 1000000 ∧ t.ProceedsLand := by
  obtain ⟨t, hvalidate, hfinalize, hrecords⟩ :
      ∃ t : SessionTrace (swapSession 1000000 (.ata payVault.vault usdcMint)) (chain swapSetup {}),
        t.validate = swapValidate ∧ t.finalize = swapFinalize (.ata payVault.vault usdcMint) ∧ t.Records 1000000 :=
    ⟨.whole rfl (by decide) rfl rfl rfl, rfl, rfl, by unfold SessionTrace.Records; rfl⟩
  refine ⟨t, hrecords, (t.proceeds_land_iff swapSetup_quiescent ?_ ?_).mpr ?_⟩
  · rw [hvalidate]
    decide
  · rw [hvalidate]
    decide
  · exact ⟨.ata payVault.vault usdcMint, .ata payVault.vault usdcMint, by rw [hvalidate]; rfl, by rw [hfinalize]; rfl,
      .inl rfl⟩

/-- Sold for nothing: the account that was full before is taken for the proceeds. -/
theorem proceeds_stray : ¬ ∀ (tx : Transaction) (w : World) (t : SessionTrace tx w), Quiescent w →
    0 < t.validate.amount.toNat → isStablecoinMint t.validate.tokenMint = false → t.ProceedsLand := by
  intro h
  obtain ⟨t, hvalidate, hbalance⟩ : ∃ t : SessionTrace (swapSession 0 (.key 61)) (chain swapSetup {}),
      t.validate = swapValidate ∧ t.used.ledger.balance (.ata payVault.vault usdcMint) = 0 :=
    ⟨.whole rfl (by decide) rfl rfl rfl, rfl, rfl⟩
  obtain ⟨account, haccount, hlt, -⟩ :=
    h _ _ t swapSetup_quiescent (by rw [hvalidate]; decide) (by rw [hvalidate]; decide)
  rw [hvalidate] at haccount
  cases haccount
  omega

end Sigil
