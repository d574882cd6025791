import Sigil.Theorems.SessionCharge

/-!
# Fees and the cap

Fees leave the vault when a session is opened. They are charged when it is closed, unless something else is:
then only that is charged.
-/

namespace Sigil

open Library

/-! ## The charge of one session -/

/-- A decrease of `decrease` over fees of `fees` is charged with the fees at least. -/
def FeesCovered (decrease fees : Nat) : Prop := decrease ≤ fees ∨ 2 * fees ≤ decrease

instance {decrease fees : Nat} : Decidable (FeesCovered decrease fees) := inferInstanceAs (Decidable (_ ∨ _))

theorem fees_le_chargedAmount_iff {decrease fees : Nat} :
    fees ≤ chargedAmount (decrease - fees) fees ↔ FeesCovered decrease fees := by
  unfold chargedAmount FeesCovered
  split <;> omega

/-! ## Fees over a run -/

/-- Log of the fees collected from the sessions of a vault. It starts with the vault, as the tracker does. -/
def Step.collectFees (v : Pubkey) (st : Step) (w' : World) (log : EpochLog) : EpochLog :=
  match st.instruction.call with
  | .sigil (.initializeVault a) => if a.vault = v then [] else log
  | .sigil (.validateAndAuthorize a) =>
      if a.vault = v then (epochOf st.ctx.clock, (w'.sessions a.session).elim 0 SessionAuthority.fees) :: log
      else log
  | _ => log

/-- A step, with the log of the fees. -/
def Step.execFees (v : Pubkey) (st : Step) (p : World × EpochLog) : Result (World × EpochLog) := do
  let w' ← st.exec p.1
  pure (w', st.collectFees v w' p.2)

/-- The session that a step closes. -/
def Step.closedSession (st : Step) (w : World) : Option SessionAuthority :=
  match st.instruction.call with
  | .sigil (.finalizeSession a) => w.sessions a.session
  | _ => none

/-- A session with a stablecoin is closed with a decrease that covers its fees. -/
def Step.ClosesCovered (st : Step) (w : World) : Prop :=
  ∀ s ∈ st.closedSession w, isStablecoinMint s.authorizedToken → s.isSpending →
    FeesCovered (s.stablecoinBalanceBefore - w.ledger.balance s.delegationTokenAccount) s.fees

instance {st : Step} {w : World} : Decidable (st.ClosesCovered w) :=
  inferInstanceAs (Decidable (∀ s ∈ st.closedSession w, _))

/-- Up to `pending`, no window holds more fees than recorded spend. -/
def Covered (v : Pubkey) (pending : EpochLog) (p : World × EpochLog) : Prop :=
  ∀ a b, p.2.windowTotal a b ≤ (p.1.spendLog v).windowTotal a b + pending.windowTotal a b

section
variable {v : Pubkey} {st : Step} {w w' : World} {p p' : World × EpochLog} {pending : EpochLog} {steps : List Step}

theorem Step.execFees_eq_ok : st.execFees v p = .ok p' ↔
    st.exec p.1 = .ok p'.1 ∧ p'.2 = st.collectFees v p'.1 p.2 := by
  simp only [execFees, bind_eq_ok, pure_eq_ok]
  constructor
  · rintro ⟨w', h, rfl⟩
    exact ⟨h, rfl⟩
  · rintro ⟨h, heq⟩
    exact ⟨p'.1, h, by rw [← heq]⟩

theorem run_execFees (h : run (Step.execFees v) steps p = .ok p') : run Step.exec steps p.1 = .ok p'.1 :=
  run_map (fun _ _ _ hst => (Step.execFees_eq_ok.mp hst).1) h

/-- A step that opens no session adds nothing to the log. -/
theorem Step.collectFees_le (hcan : st.CannotOpen) (h : st.exec w = .ok w') (log : EpochLog) (a b : Int) :
    (st.collectFees v w' log).windowTotal a b ≤ log.windowTotal a b := by
  unfold collectFees
  split
  · split
    · rw [EpochLog.windowTotal_nil]
      exact Nat.zero_le _
    · exact le_rfl
  · rename_i a hcall
    exact absurd h (hcan a w w' hcall)
  · exact le_rfl

/-- Recorded spend only grows, unless the vault is new; then its log of fees is new as well. -/
theorem Covered.step (hp : Covered v pending p) (hcan : st.CannotOpen) (h : st.execFees v p = .ok p') :
    Covered v pending p' := by
  obtain ⟨hexec, hlog⟩ := Step.execFees_eq_ok.mp h
  intro a b
  have hle := Step.collectFees_le (v := v) hcan hexec p.2 a b
  have hp := hp a b
  rw [hlog]
  cases Step.trackerChange hexec v with
  | same _ hspend => rw [hspend]; omega
  | opened i hcall hv =>
      rw [Step.collectFees, hcall]
      simp only [hv, if_true, EpochLog.windowTotal_nil]
      exact Nat.zero_le _
  | closed _ hspend => rw [hspend]; omega
  | charged _ _ _ x _ _ _ _ hspend => rw [hspend, EpochLog.windowTotal_cons]; omega

theorem Covered.run (hp : Covered v pending p) (hcan : ∀ st ∈ steps, st.CannotOpen)
    (h : run (Step.execFees v) steps p = .ok p') : Covered v pending p' := by
  refine run_invariant (P := Covered v pending) hp ?_ h
  intro st hst p₁ p₂ hp₁ hexec
  exact hp₁.step (hcan st hst) hexec

/-- What the opening of a session leaves to be covered. -/
def SessionTrace.pendingFees {tx : Transaction} (v : Pubkey) (t : SessionTrace tx w) : EpochLog :=
  if t.validate.vault = v then [(epochOf tx.clock, t.fees)] else []

variable {tx : Transaction}

theorem SessionTrace.covered_opened (t : SessionTrace tx w) (hp : Covered v [] p) (hstart : p.1 = t.start)
    (h : t.openingStep.execFees v p = .ok p') : Covered v (t.pendingFees v) p' := by
  obtain ⟨hexec, hlog⟩ := Step.execFees_eq_ok.mp h
  have hopened : p'.1 = t.opened := by
    rw [hstart, openingStep, t.run_opening] at hexec
    exact (Except.ok.inj hexec).symm
  have hspend : t.opened.spendLog = t.start.spendLog := by
    obtain ⟨_, _, _, _, _, _, _, -, -, -, -, -, -, -, -, -, heq⟩ := validateAndAuthorize_ok t.validate_ok
    rw [heq]
    rfl
  intro a b
  have hp := hp a b
  rw [hlog, Step.collectFees, show t.openingStep.instruction.call = _ from t.opening_call,
    hopened, hspend]
  rw [hstart] at hp
  unfold pendingFees
  dsimp only
  split
  · rw [EpochLog.windowTotal_cons, EpochLog.windowTotal_cons]
    simp only [EpochLog.windowTotal_nil] at hp ⊢
    show (if a ≤ epochOf tx.clock ∧ epochOf tx.clock ≤ b then t.fees else 0) + _ ≤ _
    omega
  · exact hp

theorem SessionTrace.closingStep_cannotOpen (t : SessionTrace tx w) : t.closingStep.CannotOpen := by
  intro a w₁ w₂ hcall
  cases t.closingStep_call.symm.trans hcall

theorem SessionTrace.feesCovered (t : SessionTrace tx w) (hw : Quiescent w) (hamount : 0 < t.validate.amount.toNat)
    (hstable : isStablecoinMint t.validate.tokenMint) (h : t.closingStep.ClosesCovered t.used) :
    FeesCovered t.decrease t.fees := by
  obtain ⟨s, hused, -, -, hspending, -, hdelegation, htoken, -, hbefore, hfees, -⟩ :=
    t.stablecoin_session hw hamount hstable
  have haddress := (finalizeSession_close hused t.finalize_ok).1
  have hclosed : s ∈ t.closingStep.closedSession t.used := by
    rw [Step.closedSession, t.closingStep_call]
    dsimp only
    rw [haddress]
    exact hused.session
  have := h s hclosed (htoken ▸ hstable) hspending
  rwa [hbefore, hdelegation, hfees] at this

/-- The charge of `finalize_session` covers the fees of its session. -/
theorem SessionTrace.covered_closed (t : SessionTrace tx w) (hw : Quiescent w) (hp : Covered v (t.pendingFees v) p)
    (hused : p.1 = t.used) (hcovered : t.closingStep.ClosesCovered t.used)
    (h : t.closingStep.execFees v p = .ok p') : Covered v [] p' := by
  by_cases hcase : t.validate.vault = v ∧ 0 < t.validate.amount.toNat ∧ isStablecoinMint t.validate.tokenMint
  · obtain ⟨rfl, hamount, hstable⟩ := hcase
    obtain ⟨hexec, hlog⟩ := Step.execFees_eq_ok.mp h
    have hclosed : p'.1 = t.closed := by
      rw [hused, closingStep, t.run_closing] at hexec
      exact (Except.ok.inj hexec).symm
    have hsame : p'.2 = p.2 := by rw [hlog, Step.collectFees, t.closingStep_call]
    have hrecords := (t.stablecoin_charge hw hamount hstable).2
    have hle := fees_le_chargedAmount_iff.mpr (t.feesCovered hw hamount hstable hcovered)
    intro a b
    have hp := hp a b
    rw [hused, pendingFees, if_pos rfl, EpochLog.windowTotal_cons, EpochLog.windowTotal_nil] at hp
    rw [hsame, hclosed, hrecords, EpochLog.windowTotal_cons, EpochLog.windowTotal_nil]
    dsimp only at hp ⊢
    split at hp
    · rename_i hin
      rw [if_pos hin]
      omega
    · omega
  · -- nothing was left to be covered
    have hpending : ∀ a b, (t.pendingFees v).windowTotal a b = 0 := by
      intro a b
      unfold pendingFees
      split
      · rename_i hv
        have hzero : t.fees = 0 := t.fees_eq_zero hw (by
          by_contra hne
          simp only [not_or, Bool.not_eq_false] at hne
          exact hcase ⟨hv, Nat.pos_of_ne_zero hne.1, hne.2⟩)
        simp [EpochLog.windowTotal_cons, hzero]
      · exact EpochLog.windowTotal_nil a b
    intro a b
    have := hp.step t.closingStep_cannotOpen h a b
    rw [hpending] at this
    rwa [EpochLog.windowTotal_nil]

/-- Transactions keep the fees covered. -/
theorem Transaction.covered (hw : Quiescent p.1) (hp : Covered v [] p)
    (hcovered : Always Step.exec (fun st w _ => st.ClosesCovered w) tx.steps p.1)
    (h : Library.run (Step.execFees v) tx.steps p = .ok p') : Covered v [] p' := by
  by_cases hvalidate : ∃ ix ∈ tx.instructions, ∃ a, ix.call = .sigil (.validateAndAuthorize a)
  · obtain ⟨opening, hmem, a, hcall⟩ := hvalidate
    obtain ⟨before, after, hsplit⟩ := List.append_of_mem hmem
    obtain ⟨t, -, -, -, -, -⟩ := SessionTrace.exists_of_run hsplit hcall (run_execFees h)
    rw [t.steps_eq] at h hcovered
    obtain ⟨p₁, h₁, h⟩ := run_append_eq_ok.mp h
    obtain ⟨p₂, h₂, h⟩ := run_cons_eq_ok.mp h
    obtain ⟨p₃, h₃, h⟩ := run_append_eq_ok.mp h
    obtain ⟨p₄, h₄, h₅⟩ := run_cons_eq_ok.mp h
    have hstart : p₁.1 = t.start := Except.ok.inj ((run_execFees h₁).symm.trans t.run_before)
    have hopened : p₂.1 = t.opened :=
      Except.ok.inj ((Step.execFees_eq_ok.mp h₂).1.symm.trans (hstart ▸ t.run_opening))
    have hused : p₃.1 = t.used :=
      Except.ok.inj ((run_execFees h₃).symm.trans (hopened ▸ t.run_between))
    have hclosing : t.closingStep.ClosesCovered t.used := by
      have hafter := (always_append_iff.mp hcovered).2 t.start t.run_before
      have hbetween := (hafter t.opened t.run_opening).2
      exact ((always_append_iff.mp hbetween).2 t.used t.run_between t.closed t.run_closing).1
    have hp₂ := t.covered_opened (hp.run t.cannotOpen_before h₁) hstart h₂
    have hp₃ := hp₂.run t.cannotOpen_after.1 h₃
    exact (t.covered_closed hw hp₃ hused hclosing h₄).run t.cannotOpen_after.2 h₅
  · refine hp.run (fun st hst a w₁ w₂ hcall _ => hvalidate ?_) h
    obtain ⟨l₁, ix, l₂, heq, rfl⟩ := mem_stepsFrom hst
    exact ⟨ix, by simp [heq], a, hcall⟩

theorem covered_chain {txs : List Transaction} (hw : Quiescent p.1) (hp : Covered v [] p)
    (hcovered : Always Step.exec (fun st w _ => st.ClosesCovered w) (txs.flatMap Transaction.steps) p.1)
    (h : run (Step.execFees v) (txs.flatMap Transaction.steps) p = .ok p') : Covered v [] p' := by
  induction txs generalizing p with
  | nil =>
      obtain rfl := run_nil_eq_ok.mp h
      exact hp
  | cons tx txs ih =>
      rw [List.flatMap_cons] at h hcovered
      obtain ⟨p₁, h₁, h⟩ := run_append_eq_ok.mp h
      obtain ⟨hfirst, hrest⟩ := always_append_iff.mp hcovered
      have hrun := run_execFees h₁
      exact ih (Transaction.quiescent hw hrun) (Transaction.covered hw hp hfirst h₁) (hrest p₁.1 hrun) h

end

/-- The charge of a session reaches its fees exactly when the decrease covers them; and while every session
does that, no 144 consecutive epochs hold more fees than the cap. -/
theorem fees_within_cap (txs : List Transaction) (v : Pubkey) (cap : Nat) :
    (∀ (tx : Transaction) (t : SessionTrace tx (chain txs {})), 0 < t.validate.amount.toNat →
      isStablecoinMint t.validate.tokenMint →
      ((∃ x, t.Records x ∧ t.fees ≤ x) ↔ FeesCovered t.decrease t.fees)) ∧
    ∀ (w : World) (fees : EpochLog),
      run (Step.execFees v) (txs.flatMap Transaction.steps) ({}, []) = .ok (w, fees) →
      Nondecreasing (txs.flatMap Transaction.steps) → CapIs cap v (txs.flatMap Transaction.steps) →
      Always Step.exec (fun st w _ => st.ClosesCovered w) (txs.flatMap Transaction.steps) {} →
      ∀ e, fees.windowTotal (e - 143) e ≤ cap := by
  constructor
  · intro tx t hamount hstable
    have hrecords := (t.stablecoin_charge (chain_quiescent genesis_quiescent txs) hamount hstable).2
    rw [← fees_le_chargedAmount_iff]
    constructor
    · rintro ⟨x, hx, hle⟩
      rwa [hrecords.unique hx]
    · exact fun hle => ⟨_, hrecords, hle⟩
  · intro w fees hrun hclocks hcap hcovered e
    have hbound := (capInv_run (run_execFees hrun) hclocks hcap).1.window e
    have hfees := covered_chain genesis_quiescent (fun a b => by simp) hcovered hrun (e - 143) e
    rw [EpochLog.windowTotal_nil] at hfees
    exact hfees.trans hbound

/-! ### The session of one USDC costs a fee of 200 -/

def feeRun : List Step := (paySetup ++ [paySession [payTrade 500000]]).flatMap Transaction.steps

abbrev FeeTrace (amount : Nat) : Type := SessionTrace (paySession [payTrade amount]) (chain paySetup {})

theorem fees_within_cap_trade :
    (∃ t : FeeTrace 500000, FeesCovered t.decrease t.fees ∧ ∃ x, t.Records x ∧ t.fees ≤ x) ∧
    ∃ w fees, run (Step.execFees payVault.vault) feeRun ({}, []) = .ok (w, fees) ∧
      fees = [(1000, 200)] ∧ w.spendLog payVault.vault = [(1000, 500000)] ∧
      fees.windowTotal (1000 - 143) 1000 ≤ 5000000 := by
  constructor
  · obtain ⟨t, hvalidate, hdecrease, hfees⟩ : ∃ t : FeeTrace 500000,
        t.validate = payValidate ∧ t.decrease = 500200 ∧ t.fees = 200 :=
      ⟨.whole rfl (by decide) rfl rfl rfl, rfl, rfl, rfl⟩
    have hcovered : FeesCovered t.decrease t.fees := by
      rw [hdecrease, hfees]
      decide
    refine ⟨t, hcovered, ((fees_within_cap paySetup payVault.vault 0).1 _ t ?_ ?_).mpr hcovered⟩
    · rw [hvalidate]
      decide
    · rw [hvalidate]
      decide
  · obtain ⟨w, fees, hrun, hfees, hlog⟩ : ∃ w fees,
        run (Step.execFees payVault.vault) feeRun ({}, []) = .ok (w, fees) ∧ fees = [(1000, 200)] ∧
          w.spendLog payVault.vault = [(1000, 500000)] := ⟨_, _, rfl, rfl, rfl⟩
    refine ⟨w, fees, hrun, hfees, hlog,
      (fees_within_cap _ payVault.vault 5000000).2 w fees hrun ?_ ?_ ?_ 1000⟩
    · simp [Nondecreasing, paySetup, paySession, Transaction.ofKey, Transaction.steps, Transaction.stepsFrom,
        Transaction.step]
    · unfold CapIs
      decide +kernel
    · decide +kernel

/-- One unit beyond the fee is charged in the place of the fee. -/
theorem fees_not_charged : ¬ ∀ (txs : List Transaction) (tx : Transaction) (t : SessionTrace tx (chain txs {})),
    0 < t.validate.amount.toNat → isStablecoinMint t.validate.tokenMint → ∃ x, t.Records x ∧ t.fees ≤ x := by
  intro h
  obtain ⟨t, hvalidate, hrecords, hfees⟩ : ∃ t : FeeTrace 1,
      t.validate = payValidate ∧ t.Records 1 ∧ t.fees = 200 :=
    ⟨.whole rfl (by decide) rfl rfl rfl, rfl, by unfold SessionTrace.Records; rfl, rfl⟩
  obtain ⟨x, hx, hle⟩ := h paySetup _ t (by rw [hvalidate]; decide) (by rw [hvalidate]; decide)
  cases hx.unique hrecords
  omega

end Sigil
