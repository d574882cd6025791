import Sigil.Lemmas.Session

/-!
# Sessions within a transaction

A trace follows an accepted transaction through the states around its session.
-/

namespace Sigil

open Library

namespace Transaction

variable {tx : Transaction} {w w' : World} {before after l l' : List TopLevel} {ix : TopLevel} {i : Nat}

theorem stepsFrom_append : tx.stepsFrom (l ++ l') i = tx.stepsFrom l i ++ tx.stepsFrom l' (i + l.length) := by
  induction l generalizing i with
  | nil => simp [stepsFrom]
  | cons ix l ih =>
      simp only [List.cons_append, stepsFrom, ih, List.length_cons]
      congr 3
      omega

theorem mem_stepsFrom {st : Step} (h : st ∈ tx.stepsFrom l i) :
    ∃ l₁ ix l₂, l = l₁ ++ ix :: l₂ ∧ st = tx.step ix (i + l₁.length) := by
  induction l generalizing i with
  | nil => cases h
  | cons ix l ih =>
      rcases List.mem_cons.mp h with rfl | h
      · exact ⟨[], ix, l, rfl, rfl⟩
      · obtain ⟨l₁, ix', l₂, rfl, rfl⟩ := ih h
        refine ⟨ix :: l₁, ix', l₂, rfl, ?_⟩
        congr 1
        simp only [List.length_cons]
        omega

/-- The run of a transaction stops before and after each of its instructions. -/
theorem run_split (hsplit : tx.instructions = before ++ ix :: after) (h : tx.run w = .ok w') :
    ∃ w₁ w₂, Library.run Step.exec (tx.stepsFrom before 0) w = .ok w₁ ∧
      (tx.step ix before.length).exec w₁ = .ok w₂ ∧
      Library.run Step.exec (tx.stepsFrom after (before.length + 1)) w₂ = .ok w' := by
  rw [run, steps, hsplit, stepsFrom_append, run_append_eq_ok] at h
  obtain ⟨w₁, h₁, h⟩ := h
  simp only [stepsFrom, zero_add, run_cons_eq_ok] at h
  obtain ⟨w₂, h₂, h⟩ := h
  exact ⟨w₁, w₂, h₁, h₂, h⟩

/-- What the instructions sysvar shows before and after an instruction. -/
theorem step_sysvar (hsplit : tx.instructions = before ++ ix :: after) :
    (tx.step ix before.length).ctx.instructions.take (tx.step ix before.length).ctx.index =
        before.map TopLevel.raw ∧
      (tx.step ix before.length).ctx.instructions.drop ((tx.step ix before.length).ctx.index + 1) =
        after.map TopLevel.raw := by
  simp only [step, hsplit, List.map_append, List.map_cons]
  constructor
  · exact List.take_left' (by simp)
  · rw [← List.singleton_append, ← List.append_assoc]
    exact List.drop_left' (by simp)

/-- An instruction of an accepted transaction was accepted. -/
theorem exec_of_mem (hix : ix ∈ l) (h : Library.run Step.exec (tx.stepsFrom l i) w = .ok w') :
    ∃ j w₁ w₂, (tx.step ix j).exec w₁ = .ok w₂ := by
  obtain ⟨l₁, l₂, rfl⟩ := List.append_of_mem hix
  rw [stepsFrom_append, run_append_eq_ok] at h
  obtain ⟨w₁, -, h⟩ := h
  obtain ⟨w₂, h, -⟩ := run_cons_eq_ok.mp h
  exact ⟨_, w₁, w₂, h⟩

end Transaction

/-- What every accepted transaction keeps holds along the chain. -/
theorem chain_invariant {P : World → Prop} {w : World}
    (hP : ∀ (tx : Transaction) w w', P w → tx.run w = .ok w' → P w') (hw : P w) (txs : List Transaction) :
    P (chain txs w) := by
  induction txs generalizing w with
  | nil => exact hw
  | cons tx txs ih =>
      refine ih (w := tx.commit w) ?_
      unfold Transaction.commit
      split
      · rename_i w' h
        exact hP tx w w' hw h
      · exact hw

section
variable {tx : Transaction} {w w' w₁ w₂ : World} {st : Step} {before after l : List TopLevel} {ix : TopLevel} {i : Nat}

/-- Instructions of the compute budget and system programs do nothing to tokens and accounts. -/
theorem Step.infrastructure_eq (hinfra : isInfrastructure st.instruction.raw.programId) (h : st.exec w = .ok w') :
    w' = w := by
  rcases Step.exec_cases h with ⟨i, -, hprogram, -, -⟩ | ⟨ops, -, hallowed, l, hrun, rfl, -⟩
  · rw [hprogram, crateId_not_infrastructure] at hinfra
    cases hinfra
  · simp only [foreignAllowed, hinfra, if_true, Bool.and_eq_true, decide_eq_true_eq] at hallowed
    rw [hallowed.2, run_nil_eq_ok] at hrun
    rw [← hrun]
    rfl

theorem Transaction.infrastructure_eq (hinfra : ∀ ix ∈ l, isInfrastructure ix.raw.programId)
    (h : Library.run Step.exec (tx.stepsFrom l i) w = .ok w') : w' = w := by
  refine run_invariant (P := fun w₁ => w₁ = w) rfl ?_ h
  rintro st hst w₁ w₂ rfl hexec
  obtain ⟨l₁, ix, l₂, rfl, rfl⟩ := mem_stepsFrom hst
  exact Step.infrastructure_eq (hinfra ix (by simp)) hexec

/-- In front of an accepted `validate_and_authorize` nothing has happened. -/
theorem Transaction.validate_first {a : ValidateAndAuthorize} (hsplit : tx.instructions = before ++ ix :: after)
    (hcall : ix.call = .sigil (.validateAndAuthorize a)) (h : (tx.step ix before.length).exec w₁ = .ok w₂) :
    (∀ y ∈ before, isInfrastructure y.raw.programId) ∧ ix.raw.programId = crateId ∧
      validateAndAuthorize (tx.step ix before.length).ctx a w₁ = .ok w₂ ∧
      ∃ policy constraints, w₁.policies a.vault = some policy ∧
        FindsFinalize policy constraints (after.map TopLevel.raw) := by
  rcases Step.exec_cases h with ⟨i, hcall', hprogram, -, hi⟩ | ⟨ops, hcall', -⟩
  · cases hcall.symm.trans hcall'
    obtain ⟨_, policy, _, constraints, _, _, _, -, hp, -, -, -, -, -, hscans, -⟩ := validateAndAuthorize_ok hi
    obtain ⟨hbefore, hafter⟩ := checkScans_ok hscans
    rw [(step_sysvar hsplit).1] at hbefore
    rw [(step_sysvar hsplit).2] at hafter
    refine ⟨fun y hy => hbefore y.raw (List.mem_map_of_mem hy), hprogram, hi, policy, constraints, hp, hafter⟩
  · cases hcall.symm.trans hcall'

/-- A session cannot be opened by this step. -/
def Step.CannotOpen (st : Step) : Prop :=
  ∀ a w w', st.instruction.call = .sigil (.validateAndAuthorize a) → st.exec w ≠ .ok w'

theorem Step.cannotOpen_of_infrastructure (hinfra : isInfrastructure st.instruction.raw.programId) :
    st.CannotOpen := by
  intro a w w' hcall h
  rcases Step.exec_cases h with ⟨i, -, hprogram, -, -⟩ | ⟨ops, hcall', -⟩
  · rw [hprogram, crateId_not_infrastructure] at hinfra
    cases hinfra
  · cases hcall.symm.trans hcall'

/-- Behind an instruction of this program no session can be opened. -/
theorem Transaction.cannotOpen_after (hsplit : tx.instructions = before ++ ix :: after)
    (hprogram : ix.raw.programId = crateId) :
    ∀ st ∈ tx.stepsFrom after (before.length + 1), st.CannotOpen := by
  intro st hst a w w' hcall h
  obtain ⟨l₁, ix', l₂, rfl, rfl⟩ := mem_stepsFrom hst
  have hsplit' : tx.instructions = (before ++ ix :: l₁) ++ ix' :: l₂ := by simp [hsplit]
  have hlength : before.length + 1 + l₁.length = (before ++ ix :: l₁).length := by
    simp only [List.length_append, List.length_cons]
    omega
  rw [hlength] at h
  have := (validate_first hsplit' hcall h).1 ix (by simp)
  rw [hprogram, crateId_not_infrastructure] at this
  cases this

theorem Quiescent.run {steps : List Step} (hw : Quiescent w) (hopen : ∀ st ∈ steps, st.CannotOpen)
    (h : run Step.exec steps w = .ok w') : Quiescent w' := by
  refine run_invariant (P := Quiescent) hw ?_ h
  intro st hst w₁ w₂ hw₁ hexec
  cases Step.sessionChange hexec with
  | kept hframe => exact hw₁.frame hframe
  | opened a hcall hi => exact absurd hexec (hopen st hst a w₁ w₂ hcall)
  | closed a hcall hi => exact absurd hi hw₁.not_finalize

/-- A call of `finalize_session` shows its discriminator. -/
theorem Step.finalize_raw {a : FinalizeSession} (hcall : st.instruction.call = .sigil (.finalizeSession a))
    (h : st.exec w = .ok w') : isFinalizeSession st.instruction.raw := by
  rcases Step.exec_cases h with ⟨i, hcall', hprogram, hdisc, -⟩ | ⟨ops, hcall', -⟩
  · cases hcall.symm.trans hcall'
    simp [isFinalizeSession, hprogram, hdisc, Instruction.discriminator, finalizeSessionDiscriminator]
  · cases hcall.symm.trans hcall'

theorem Open.step {x : Pubkey} {s : SessionAuthority} (hw : Open x s w) (hopen : st.CannotOpen)
    (hclose : isFinalizeSession st.instruction.raw = false) (h : st.exec w = .ok w') : Open x s w' := by
  cases Step.sessionChange h with
  | kept hframe => exact hw.frame hframe
  | opened a hcall hi => exact absurd h (hopen a w w' hcall)
  | closed a hcall hi =>
      have := Step.finalize_raw hcall h
      rw [hclose] at this
      cases this

theorem Open.run {steps : List Step} {x : Pubkey} {s : SessionAuthority} (hw : Open x s w)
    (hopen : ∀ st ∈ steps, st.CannotOpen)
    (hclose : ∀ st ∈ steps, isFinalizeSession st.instruction.raw = false)
    (h : run Step.exec steps w = .ok w') : Open x s w' := by
  refine run_invariant (P := Open x s) hw ?_ h
  intro st hst w₁ w₂ hw₁ hexec
  exact hw₁.step (hopen st hst) (hclose st hst) hexec

end

/-- An accepted transaction, up to the `finalize_session` that follows a `validate_and_authorize` of it: the
instructions, and the states between them. -/
structure SessionTrace (tx : Transaction) (w : World) where
  before : List TopLevel
  opening : TopLevel
  between : List TopLevel
  closing : TopLevel
  rest : List TopLevel
  validate : ValidateAndAuthorize
  finalize : FinalizeSession
  start : World
  opened : World
  used : World
  closed : World
  split : tx.instructions = before ++ opening :: (between ++ closing :: rest)
  opening_call : opening.call = .sigil (.validateAndAuthorize validate)
  closing_call : closing.call = .sigil (.finalizeSession finalize)
  between_raw : ∀ ix ∈ between, isFinalizeSession ix.raw = false
  run_before : run Step.exec (tx.stepsFrom before 0) w = .ok start
  run_opening : (tx.step opening before.length).exec start = .ok opened
  run_between : run Step.exec (tx.stepsFrom between (before.length + 1)) opened = .ok used
  run_closing : (tx.step closing (before.length + 1 + between.length)).exec used = .ok closed
  run_rest : (run Step.exec (tx.stepsFrom rest (before.length + 1 + between.length + 1)) closed).isOk

namespace SessionTrace

variable {tx : Transaction} {w w' : World}

/-- Every accepted transaction with a `validate_and_authorize` has a trace. -/
theorem exists_of_run {before after : List TopLevel} {opening : TopLevel} {a : ValidateAndAuthorize}
    (hsplit : tx.instructions = before ++ opening :: after)
    (hcall : opening.call = .sigil (.validateAndAuthorize a)) (h : tx.run w = .ok w') :
    ∃ t : SessionTrace tx w, t.before = before ∧ t.opening = opening ∧ t.validate = a ∧
      after = t.between ++ t.closing :: t.rest ∧
      run Step.exec (tx.stepsFrom t.rest (t.before.length + 1 + t.between.length + 1)) t.closed = .ok w' := by
  obtain ⟨start, opened, hbefore, hopening, hafter⟩ := Transaction.run_split hsplit h
  obtain ⟨-, -, -, policy, constraints, -, raws, fin, rest', hraw, hfin, hpasses⟩ :=
    Transaction.validate_first hsplit hcall hopening
  obtain ⟨between, tail, rfl, rfl, htail⟩ := List.map_eq_append_iff.mp hraw
  obtain ⟨closing, rest, rfl, rfl, rfl⟩ := List.map_eq_cons_iff.mp htail
  rw [Transaction.stepsFrom_append, run_append_eq_ok] at hafter
  obtain ⟨used, hbetween, hafter⟩ := hafter
  simp only [Transaction.stepsFrom, run_cons_eq_ok] at hafter
  obtain ⟨closed, hclosing, hrest⟩ := hafter
  obtain ⟨b, hb, -⟩ := Step.finalize_of_raw (by exact hfin) hclosing
  let t : SessionTrace tx w :=
    { before := before
      opening := opening
      between := between
      closing := closing
      rest := rest
      validate := a
      finalize := b
      start := start
      opened := opened
      used := used
      closed := closed
      split := hsplit
      opening_call := hcall
      closing_call := hb
      between_raw := fun ix hix => (hpasses ix.raw (List.mem_map_of_mem hix)).not_finalize
      run_before := hbefore
      run_opening := hopening
      run_between := hbetween
      run_closing := hclosing
      run_rest := by rw [hrest]; rfl }
  exact ⟨t, rfl, rfl, rfl, rfl, hrest⟩

section
variable (t : SessionTrace tx w)

def openingStep : Step := tx.step t.opening t.before.length

def closingStep : Step := tx.step t.closing (t.before.length + 1 + t.between.length)

theorem steps_eq : tx.steps = tx.stepsFrom t.before 0 ++ t.openingStep ::
    (tx.stepsFrom t.between (t.before.length + 1) ++
      t.closingStep :: tx.stepsFrom t.rest (t.before.length + 1 + t.between.length + 1)) := by
  simp [Transaction.steps, t.split, Transaction.stepsFrom_append, Transaction.stepsFrom, openingStep, closingStep]

theorem closingStep_call : t.closingStep.instruction.call = .sigil (.finalizeSession t.finalize) := t.closing_call

theorem validate_ok : validateAndAuthorize t.openingStep.ctx t.validate t.start = .ok t.opened :=
  (Transaction.validate_first t.split t.opening_call t.run_opening).2.2.1

theorem start_eq : t.start = w :=
  Transaction.infrastructure_eq (Transaction.validate_first t.split t.opening_call t.run_opening).1 t.run_before

theorem cannotOpen_before : ∀ st ∈ tx.stepsFrom t.before 0, st.CannotOpen := by
  intro st hst
  obtain ⟨l₁, ix, l₂, heq, rfl⟩ := Transaction.mem_stepsFrom hst
  exact Step.cannotOpen_of_infrastructure
    ((Transaction.validate_first t.split t.opening_call t.run_opening).1 ix (by simp [heq]))

theorem finalize_ok : finalizeSession t.closingStep.ctx t.finalize t.used = .ok t.closed := by
  rcases Step.exec_cases t.run_closing with ⟨i, hcall, -, -, hi⟩ | ⟨ops, hcall, -⟩
  · cases t.closing_call.symm.trans hcall
    exact hi
  · cases t.closing_call.symm.trans hcall

/-- Between the two the scan has passed over everything. -/
theorem between_passes : ∃ policy constraints, t.start.policies t.validate.vault = some policy ∧
    ∀ ix ∈ t.between, ScanPasses policy constraints ix.raw := by
  obtain ⟨-, -, -, policy, constraints, hp, hfinds⟩ :=
    Transaction.validate_first t.split t.opening_call t.run_opening
  rw [List.map_append, List.map_cons] at hfinds
  have hpasses := hfinds.passes (fun raw hraw => by
    obtain ⟨ix, hix, rfl⟩ := List.mem_map.mp hraw
    exact t.between_raw ix hix)
  exact ⟨policy, constraints, hp, fun ix hix => hpasses ix.raw (List.mem_map_of_mem hix)⟩

theorem cannotOpen_after :
    (∀ st ∈ tx.stepsFrom t.between (t.before.length + 1), st.CannotOpen) ∧
      ∀ st ∈ tx.stepsFrom t.rest (t.before.length + 1 + t.between.length + 1), st.CannotOpen := by
  have hcannot := Transaction.cannotOpen_after t.split
    (Transaction.validate_first t.split t.opening_call t.run_opening).2.1
  rw [Transaction.stepsFrom_append] at hcannot
  refine ⟨fun st hst => hcannot st (List.mem_append_left _ hst), fun st hst => hcannot st ?_⟩
  exact List.mem_append_right _ (List.mem_cons_of_mem _ hst)

theorem open_used {x : Pubkey} {s : SessionAuthority} (h : Open x s t.opened) : Open x s t.used := by
  refine h.run t.cannotOpen_after.1 (fun st hst => ?_) t.run_between
  obtain ⟨l₁, ix, l₂, heq, rfl⟩ := Transaction.mem_stepsFrom hst
  exact t.between_raw ix (by simp [heq])

/-- The session that is opened from the request and is still open when `finalize_session` starts. -/
theorem exists_session (hw : Quiescent w) :
    ∃ policy tokenAccount plan snapshots, w.policies t.validate.vault = some policy ∧
      w.ledger.accounts t.validate.vaultTokenAccount = some tokenAccount ∧
      planSpend w t.validate policy tokenAccount = .ok plan ∧
      Open t.validate.session (newSession t.openingStep.ctx t.validate policy plan snapshots) t.opened ∧
      Open t.validate.session (newSession t.openingStep.ctx t.validate policy plan snapshots) t.used := by
  have hvalidate := t.validate_ok
  rw [t.start_eq] at hvalidate
  obtain ⟨policy, tokenAccount, plan, snapshots, hp, htoken, hplan, hopen⟩ := validateAndAuthorize_open hw hvalidate
  exact ⟨policy, tokenAccount, plan, snapshots, hp, htoken, hplan, hopen, t.open_used hopen⟩

/-- What `finalize_session` measures and records of the one open session. -/
theorem charged {s : SessionAuthority} (hopen : Open t.validate.session s t.used)
    (hexpired : s.isExpired tx.clock.unixTimestamp = false) :
    t.finalize.session = t.validate.session ∧ t.finalize.vault = s.vault ∧
      ∃ spend, measureSpend t.used t.finalize s false = .ok spend ∧
        (∃ l, revokeDelegation t.used.ledger t.finalize s = .ok l) ∧
        (0 < chargedAmount spend (s.protocolFee + s.developerFee) → t.closed.spendLog s.vault =
          (epochOf tx.clock, chargedAmount spend (s.protocolFee + s.developerFee)) :: t.used.spendLog s.vault) := by
  have hx := (finalizeSession_close hopen t.finalize_ok).1
  obtain ⟨_, session, _, l, spend, charged, _, -, ⟨hs, hvault, -⟩, -, hrevoke, hspend, hcharge, -, hclosed⟩ :=
    finalizeSession_ok t.finalize_ok
  rw [hx, hopen.session] at hs
  cases hs
  rw [show t.closingStep.ctx.clock.unixTimestamp = tx.clock.unixTimestamp from rfl, hexpired] at hspend
  refine ⟨hx, hvault.symm, spend, hspend, ⟨l, hrevoke⟩, fun hpos => ?_⟩
  rw [hclosed, hvault]
  rcases chargeSession_ok hcharge with ⟨hzero, -⟩ | ⟨-, _, _, _, -, -, rfl⟩
  · omega
  · exact Function.update_self ..

end

/-- A transaction that is nothing but a session. -/
def whole {between : List TopLevel} {a : ValidateAndAuthorize} {b : FinalizeSession} {opened used closed : World}
    (hsplit : tx.instructions = (Instruction.validateAndAuthorize a).toTopLevel ::
      (between ++ [(Instruction.finalizeSession b).toTopLevel]))
    (hraw : ∀ ix ∈ between, isFinalizeSession ix.raw = false)
    (hopening : (tx.step (Instruction.validateAndAuthorize a).toTopLevel 0).exec w = .ok opened)
    (hbetween : run Step.exec (tx.stepsFrom between 1) opened = .ok used)
    (hclosing : (tx.step (Instruction.finalizeSession b).toTopLevel (1 + between.length)).exec used = .ok closed) :
    SessionTrace tx w :=
  { before := []
    opening := (Instruction.validateAndAuthorize a).toTopLevel
    between := between
    closing := (Instruction.finalizeSession b).toTopLevel
    rest := []
    validate := a
    finalize := b
    start := w
    opened := opened
    used := used
    closed := closed
    split := hsplit
    opening_call := rfl
    closing_call := rfl
    between_raw := hraw
    run_before := rfl
    run_opening := hopening
    run_between := hbetween
    run_closing := by simpa using hclosing
    run_rest := rfl }

end SessionTrace

end Sigil
