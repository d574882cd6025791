import Sigil.Lemmas.Vaults
import Sigil.Library.Totals
import Sigil.Theorems.Counters
import Sigil.Theorems.Session

/-!
# What a vault counts

The counters of a vault are sums over its life: of what was deposited and withdrawn, of the payments, and of the
sessions that were finalized. Developer fees are paid when a session opens and counted when it is finalized, so the
open sessions hold the difference.
-/

namespace Sigil

open Library

structure Books where
  transactions : Nat := 0
  volume : Nat := 0
  fees : Nat := 0
  deposited : Nat := 0
  withdrawn : Nat := 0
  failed : Nat := 0
  deriving DecidableEq, Repr

namespace Books

def add (b c : Books) : Books :=
  { transactions := b.transactions + c.transactions
    volume := b.volume + c.volume
    fees := b.fees + c.fees
    deposited := b.deposited + c.deposited
    withdrawn := b.withdrawn + c.withdrawn
    failed := b.failed + c.failed }

/-- Every counter is a `u64`. -/
structure Fits (b : Books) : Prop where
  transactions : b.transactions ≤ uMax 64
  volume : b.volume ≤ uMax 64
  fees : b.fees ≤ uMax 64
  deposited : b.deposited ≤ uMax 64
  withdrawn : b.withdrawn ≤ uMax 64
  failed : b.failed ≤ uMax 64

@[simp] theorem add_empty (b : Books) : b.add {} = b := rfl

end Books

def AgentVault.books (vault : AgentVault) : Books :=
  { transactions := vault.totalTransactions
    volume := vault.totalVolume
    fees := vault.totalFeesCollected
    deposited := vault.totalDepositedUsd
    withdrawn := vault.totalWithdrawnUsd
    failed := vault.totalFailedTransactions }

/-! ## Postings -/

/-- The fee of a payment, at the rate of the policy. -/
def World.developerFee (w : World) (v : Pubkey) (amount : Nat) : Nat :=
  (w.policies v).elim 0 fun policy => (ceilFee amount policy.developerFeeRate).toOption.getD 0

/-- What a session that is finalized adds: an expired one has failed, and only spending counts as volume. -/
def FinalizeSession.posting (ctx : Ctx) (a : FinalizeSession) (w : World) : Books :=
  (w.sessions a.session).elim {} fun session =>
    let isExpired := session.isExpired ctx.clock.unixTimestamp
    { transactions := if isExpired then 0 else 1
      volume :=
        if isExpired = false ∧ session.isSpending then (measureSpend w a session isExpired).toOption.getD 0 else 0
      fees := session.developerFee
      failed := if isExpired then 1 else 0 }

def World.payment (w : World) (v : Pubkey) (amount : UInt64) : Books :=
  { transactions := 1, volume := amount.toNat, fees := w.developerFee v amount.toNat }

def Instruction.posting (ctx : Ctx) (w : World) : Instruction → Books
  | .depositFunds a => { deposited := a.usd }
  | .withdrawFunds a => { withdrawn := a.usd }
  | .agentTransfer a => w.payment a.vault a.amount
  | .createEscrow a => w.payment a.sourceVault a.amount
  | .finalizeSession a => a.posting ctx w
  | _ => {}

/-- The instruction of a step, if it writes a vault. -/
def Step.writing (st : Step) (v : Pubkey) : Option Instruction :=
  match st.instruction.call with
  | .sigil i => if i.written = some v then some i else none
  | .foreign _ => none

/-- The counters of a vault, summed up since it was created. -/
def booked (v : Pubkey) (steps : List Step) : Books :=
  collect Step.exec (fun st w books =>
    if st.creates v then {} else (st.writing v).elim books fun i => books.add (i.posting st.ctx w)) steps {} {}

/-- Developer fees that an instruction pays. -/
def Instruction.feePaid (w : World) : Instruction → Nat
  | .agentTransfer a => w.developerFee a.vault a.amount.toNat
  | .createEscrow a => w.developerFee a.sourceVault a.amount.toNat
  | .validateAndAuthorize a => if isStablecoinMint a.tokenMint then w.developerFee a.vault a.amount.toNat else 0
  | _ => 0

/-- The developer fees that a vault has paid since it was created. -/
def feesPaid (v : Pubkey) (steps : List Step) : Nat :=
  collect Step.exec (fun st w paid =>
    if st.creates v then 0 else (st.writing v).elim paid fun i => paid + i.feePaid w) steps {} 0

/-- A total over the open sessions of a vault. -/
noncomputable def World.overSessions (w : World) (v : Pubkey) (f : SessionAuthority → Nat) : Nat :=
  ∑ᶠ x, (w.sessions x).elim 0 fun s => if s.vault = v then f s else 0

section
variable {ctx : Ctx} {w w' : World} {v : Pubkey} {i : Instruction} {st : Step} {steps : List Step}
  {vault vault' : AgentVault}

/-! ## One step -/

theorem World.developerFee_eq {policy : PolicyConfig} {amount fee : Nat} (hp : w.policies v = some policy)
    (hfee : ceilFee amount policy.developerFeeRate = .ok fee) : w.developerFee v amount = fee := by
  simp [developerFee, hp, hfee, Except.toOption]

theorem addPayment_books {amount fee : Nat} (h : addPayment vault amount fee = .ok vault') :
    vault'.books = vault.books.add { transactions := 1, volume := amount, fees := fee } ∧
      (vault.books.Fits → vault'.books.Fits) := by
  simp only [addPayment, bind_eq_ok, okOr_eq_ok, checkedAdd_eq_some, pure_eq_ok] at h
  obtain ⟨_, ⟨htransactions, rfl⟩, _, ⟨hvolume, rfl⟩, _, ⟨hfees, rfl⟩, rfl⟩ := h
  exact ⟨rfl, fun hfits => { hfits with transactions := htransactions, volume := hvolume, fees := hfees }⟩

theorem finalizeStats_books {a : FinalizeSession} {session : SessionAuthority} {spend : Nat}
    (hs : w.sessions a.session = some session)
    (hspend : measureSpend w a session (session.isExpired ctx.clock.unixTimestamp) = .ok spend)
    (h : finalizeStats vault session (session.isExpired ctx.clock.unixTimestamp) spend = .ok vault') :
    vault'.books = vault.books.add (a.posting ctx w) ∧ (vault.books.Fits → vault'.books.Fits) := by
  simp only [finalizeStats, bind_eq_ok, okOr_eq_ok, checkedAdd_eq_some, pure_eq_ok] at h
  obtain ⟨_, ⟨hfees, rfl⟩, _, ⟨htransactions, rfl⟩, _, ⟨hvolume, rfl⟩, _, ⟨hfailed, rfl⟩, rfl⟩ := h
  refine ⟨?_, fun hfits =>
    { hfits with transactions := htransactions, volume := hvolume, fees := hfees, failed := hfailed }⟩
  simp [AgentVault.books, Books.add, FinalizeSession.posting, hs, hspend, Except.toOption]

/-- An instruction adds its posting to the vault that it writes. -/
theorem VaultChange.books (h : VaultChange ctx w v i (some vault) (some vault')) (hwritten : i.written = some v) :
    vault'.books = vault.books.add (i.posting ctx w) ∧ (vault.books.Fits → vault'.books.Fits) := by
  cases h with
  | same hne => exact absurd hwritten hne
  | deposited a hv hfits => exact ⟨rfl, fun h => { h with deposited := hfits }⟩
  | withdrawn a hv hfits => exact ⟨rfl, fun h => { h with withdrawn := hfits }⟩
  | registered => exact ⟨rfl, id⟩
  | revoked => exact ⟨rfl, id⟩
  | paused a b hv hi => rcases hi with rfl | rfl <;> exact ⟨rfl, id⟩
  | frozen => exact ⟨rfl, id⟩
  | reactivated => exact ⟨rfl, id⟩
  | permitted => exact ⟨rfl, id⟩
  | authorized => exact ⟨rfl, id⟩
  | finalized a hv hsession hspend hstats => exact finalizeStats_books hsession hspend hstats
  | paid a hv hpolicy hfee hpaid =>
      subst hv
      obtain ⟨hbooks, hfits⟩ := addPayment_books hpaid
      refine ⟨?_, hfits⟩
      rw [hbooks, Instruction.posting, World.payment, World.developerFee_eq hpolicy hfee]
  | escrowed a hv hpolicy hfee hpaid =>
      subst hv
      obtain ⟨hbooks, hfits⟩ := addPayment_books hpaid
      refine ⟨?_, hfits⟩
      rw [Instruction.posting, World.payment, World.developerFee_eq hpolicy hfee, ← hbooks]
      rfl
  | settled => exact ⟨rfl, id⟩
  | refunded => exact ⟨rfl, id⟩

/-- A step writes a vault as one of its instructions does, or leaves it alone. -/
theorem Step.vault_cases (h : st.exec w = .ok w') (v : Pubkey) :
    (st.writing v = none ∧ st.creates v = false ∧ w'.vaults v = w.vaults v) ∨
      ∃ i, st.instruction.call = .sigil i ∧ st.writing v = some i ∧ i.written = some v ∧
        VaultChange st.ctx w v i (w.vaults v) (w'.vaults v) := by
  rcases Step.exec_cases h with ⟨i, hcall, -, -, hi⟩ | ⟨_, hcall, -, _, -, rfl, -⟩
  · by_cases hwritten : i.written = some v
    · exact .inr ⟨i, hcall, by simp [writing, hcall, hwritten], hwritten, i.vaultStep hi v⟩
    · refine .inl ⟨by simp [writing, hcall, hwritten], ?_, (i.vaultStep hi v).eq_of_ne hwritten⟩
      unfold creates
      rw [hcall]
      cases i with
      | initializeVault a => exact decide_eq_false fun hv => hwritten (congrArg some hv)
      | _ => rfl
  · exact .inl ⟨by simp [writing, hcall], by simp [creates, hcall], rfl⟩

/-- The counters after a step that has left a vault. -/
theorem Step.books_eq (h : st.exec w = .ok w') {books : Books} (hv' : w'.vaults v = some vault')
    (hbooks : ∀ vault, w.vaults v = some vault → vault.books = books ∧ books.Fits) :
    vault'.books = (if st.creates v then {} else
        (st.writing v).elim books fun i => books.add (i.posting st.ctx w)) ∧ vault'.books.Fits := by
  rcases Step.vault_cases h v with ⟨hwriting, hcreates, hvaults⟩ | ⟨i, hcall, hwriting, hwritten, hchange⟩
  · obtain ⟨rfl, hfits⟩ := hbooks vault' (hvaults ▸ hv')
    simp [hwriting, hcreates, hfits]
  · rw [hwriting, Option.elim_some]
    rw [hv'] at hchange
    cases hv : w.vaults v with
    | none =>
        -- only the creation makes a vault out of nothing
        rw [hv] at hchange
        cases hchange with
        | opened a ha =>
            have hcreates : st.creates v = true := by simp [creates, hcall, ha]
            rw [if_pos hcreates]
            exact ⟨rfl, ⟨Nat.zero_le _, Nat.zero_le _, Nat.zero_le _, Nat.zero_le _, Nat.zero_le _, Nat.zero_le _⟩⟩
    | some vault =>
        rw [hv] at hchange
        obtain ⟨rfl, hfits⟩ := hbooks vault hv
        obtain ⟨hadd, hstays⟩ := hchange.books hwritten
        have hcreates : st.creates v = false := by
          unfold creates
          rw [hcall]
          cases hchange with
          | same hne => exact absurd hwritten hne
          | paused a b _ hi => rcases hi with rfl | rfl <;> rfl
          | _ => rfl
        rw [if_neg (by simp [hcreates])]
        exact ⟨hadd, hstays hfits⟩

theorem books_run (h : run Step.exec steps {} = .ok w) :
    ∀ vault, w.vaults v = some vault → vault.books = booked v steps ∧ (booked v steps).Fits := by
  refine collect_run (P := fun (books : Books) w => ∀ vault, w.vaults v = some vault →
    vault.books = books ∧ books.Fits) (by rintro _ ⟨⟩) ?_ h
  intro before st after w₁ w₂ books _ _ hbooks hexec vault' hv'
  obtain ⟨heq, hfits⟩ := Step.books_eq hexec hv' hbooks
  exact ⟨heq, heq ▸ hfits⟩

/-- After every run the counters of a vault are the sums of what was posted since its creation, and fit their words. -/
theorem books_balance (h : run Step.exec steps {} = .ok w) (hv : w.vaults v = some vault) :
    vault.books = booked v steps ∧ vault.books.Fits := by
  obtain ⟨hbooks, hfits⟩ := books_run h vault hv
  exact ⟨hbooks, hbooks ▸ hfits⟩

/-! ## Open sessions -/

/-- What a step does to the sessions: it opens one, closes one or leaves them. -/
inductive SessionsChange (st : Step) (w w' : World) : Prop
  | same (hopens : ∀ a, st.instruction.call ≠ .sigil (.validateAndAuthorize a))
      (hcloses : ∀ a, st.instruction.call ≠ .sigil (.finalizeSession a)) (h : w'.sessions = w.sessions)
  | opened (a : ValidateAndAuthorize) (s : SessionAuthority)
      (hcall : st.instruction.call = .sigil (.validateAndAuthorize a)) (hnone : w.sessions a.session = none)
      (hvault : s.vault = a.vault) (hfee : s.developerFee = (Instruction.validateAndAuthorize a).feePaid w)
      (h : w'.sessions = Function.update w.sessions a.session (some s))
  | closed (a : FinalizeSession) (s : SessionAuthority) (hcall : st.instruction.call = .sigil (.finalizeSession a))
      (hsome : w.sessions a.session = some s) (hvault : s.vault = a.vault)
      (h : w'.sessions = Function.update w.sessions a.session none)

theorem ceilFee_zero (rate : Nat) : ceilFee 0 rate = .ok 0 := by
  simp only [ceilFee, bind_eq_ok, okOr_eq_ok, checkedMul, Nat.zero_mul]
  exact ⟨0, rfl, _, rfl, rfl⟩

theorem planSpend_developerFee {a : ValidateAndAuthorize} {policy : PolicyConfig} {tokenAccount : TokenAccount}
    {plan : SpendPlan} (hp : w.policies a.vault = some policy) (h : planSpend w a policy tokenAccount = .ok plan) :
    plan.developerFee = (Instruction.validateAndAuthorize a).feePaid w := by
  unfold planSpend at h
  rw [Instruction.feePaid]
  split at h
  · rename_i hzero
    obtain rfl := pure_eq_ok.mp h
    rw [hzero, World.developerFee_eq hp (ceilFee_zero _), ite_self]
  · split at h
    · rename_i hstable
      simp only [bind_eq_ok, pure_eq_ok] at h
      obtain ⟨_, -, developerFee, hfee, rfl⟩ := h
      rw [if_pos hstable, World.developerFee_eq hp hfee]
    · rename_i hstable
      simp only [bind_eq_ok, pure_eq_ok] at h
      obtain ⟨_, -, _, -, _, -, _, -, rfl⟩ := h
      rw [if_neg hstable]

theorem Step.sessionsChange (h : st.exec w = .ok w') : SessionsChange st w w' := by
  have hsame : (∀ a, st.instruction.call ≠ .sigil (.validateAndAuthorize a)) →
      (∀ a, st.instruction.call ≠ .sigil (.finalizeSession a)) → SessionsChange st w w' := by
    intro hopens hcloses
    cases Step.sessionChange h with
    | kept hframe => exact .same hopens hcloses hframe.sessions
    | opened a hcall => exact absurd hcall (hopens a)
    | closed a hcall => exact absurd hcall (hcloses a)
  rcases Step.exec_cases h with ⟨i, hcall, -, -, hi⟩ | ⟨_, hcall, -⟩
  · cases i with
    | validateAndAuthorize a =>
        obtain ⟨_, policy, _, _, plan, _, snapshots, -, hp, hnone, -, -, -, hplan, -, -, rfl⟩ :=
          validateAndAuthorize_ok hi
        have hfee := planSpend_developerFee hp hplan
        exact .opened a (newSession st.ctx a policy plan snapshots) hcall hnone rfl hfee rfl
    | finalizeSession a =>
        obtain ⟨_, s, _, _, _, charged, _, -, ⟨hsome, hvault, -⟩, -, -, -, hcharge, -, rfl⟩ := finalizeSession_ok hi
        have hsessions : charged.sessions = w.sessions := (chargeSession_frame hcharge).1
        refine .closed a s hcall hsome hvault ?_
        rw [← hsessions]
        rfl
    | _ => exact hsame (by simp [hcall]) (by simp [hcall])
  · exact hsame (by simp [hcall]) (by simp [hcall])

/-- Only finitely many sessions are open. -/
def World.FinitelyOpen (w : World) : Prop := {x | w.sessions x ≠ none}.Finite

/-- The share of one address in a total over the sessions of a vault. -/
def World.shareOf (w : World) (v : Pubkey) (f : SessionAuthority → Nat) (x : Pubkey) : Nat :=
  (w.sessions x).elim 0 fun s => if s.vault = v then f s else 0

theorem World.FinitelyOpen.support (h : w.FinitelyOpen) (f : SessionAuthority → Nat) :
    (Function.support (w.shareOf v f)).Finite := by
  refine h.subset fun x hx hnone => hx ?_
  simp [shareOf, hnone]

theorem World.FinitelyOpen.step (h : w.FinitelyOpen) (hchange : SessionsChange st w w') : w'.FinitelyOpen := by
  have hupdate : ∀ x o, w'.sessions = Function.update w.sessions x o → w'.FinitelyOpen := by
    intro x o heq
    refine (h.insert x).subset fun y hy => ?_
    rcases eq_or_ne y x with rfl | hne
    · exact Set.mem_insert y _
    · have hbefore : w.sessions y ≠ none := by
        intro hnone
        exact hy (by rw [heq, Function.update_of_ne hne, hnone])
      exact Set.mem_insert_of_mem x hbefore
  cases hchange with
  | same _ _ heq =>
      unfold FinitelyOpen
      rw [heq]
      exact h
  | opened a s _ _ _ _ heq => exact hupdate _ _ heq
  | closed a s _ _ _ heq => exact hupdate _ _ heq

/-- A total after one session has changed. -/
theorem World.overSessions_update {x : Pubkey} {o : Option SessionAuthority} (h : w.FinitelyOpen)
    (heq : w'.sessions = Function.update w.sessions x o) (f : SessionAuthority → Nat) :
    w'.overSessions v f + w.shareOf v f x = w.overSessions v f + o.elim 0 fun s => if s.vault = v then f s else 0 := by
  have hshare : w'.shareOf v f =
      Function.update (w.shareOf v f) x (o.elim 0 fun s => if s.vault = v then f s else 0) := by
    funext y
    unfold shareOf
    rw [heq]
    rcases eq_or_ne y x with rfl | hne
    · simp
    · simp [Function.update_of_ne hne]
  show (∑ᶠ y, w'.shareOf v f y) + w.shareOf v f x = (∑ᶠ y, w.shareOf v f y) + _
  rw [hshare]
  exact total_update (h.support f) x _

/-- The sessions of a vault and their fees, with what it has paid. Without a vault there are no sessions. -/
structure FeesInv (v : Pubkey) (paid : Nat) (w : World) : Prop where
  finite : w.FinitelyOpen
  dead : w.vaults v = none → ∀ f, w.overSessions v f = 0
  live : ∀ vault, w.vaults v = some vault → w.overSessions v (fun _ => 1) = vault.activeSessions ∧
    vault.totalFeesCollected + w.overSessions v SessionAuthority.developerFee = paid

/-- Where no session is counted there is none. -/
theorem World.overSessions_eq_zero (h : w.FinitelyOpen) (hzero : w.overSessions v (fun _ => 1) = 0)
    (f : SessionAuthority → Nat) : w.overSessions v f = 0 := by
  refine finsum_eq_zero_of_forall_eq_zero fun x => ?_
  have hone : w.shareOf v (fun _ => 1) x ≤ 0 := hzero ▸ le_total (h.support fun _ => 1) x
  unfold shareOf at hone
  cases hs : w.sessions x with
  | none => rfl
  | some s =>
      rw [hs, Option.elim_some] at hone
      rw [Option.elim_some]
      split at hone
      · exact absurd hone (Nat.not_succ_le_zero 0)
      · rename_i hne
        exact if_neg hne

/-- Sessions of other vaults do not count. -/
theorem SessionsChange.overSessions_eq (h : SessionsChange st w w') (hfinite : w.FinitelyOpen)
    (hopens : ∀ a, st.instruction.call = .sigil (.validateAndAuthorize a) → a.vault ≠ v)
    (hcloses : ∀ a, st.instruction.call = .sigil (.finalizeSession a) → a.vault ≠ v) (f : SessionAuthority → Nat) :
    w'.overSessions v f = w.overSessions v f := by
  cases h with
  | same _ _ heq => simp only [World.overSessions, heq]
  | opened a s hcall hnone hvault _ heq =>
      have htotal := World.overSessions_update (v := v) hfinite heq f
      have hne : s.vault ≠ v := hvault ▸ hopens a hcall
      simpa [World.shareOf, hnone, hne] using htotal
  | closed a s hcall hsome hvault heq =>
      have htotal := World.overSessions_update (v := v) hfinite heq f
      have hne : s.vault ≠ v := hvault ▸ hcloses a hcall
      simpa [World.shareOf, hsome, hne] using htotal

namespace FeesInv

variable {paid n : Nat}

theorem of_totals (h : FeesInv v paid w) (hfinite : w'.FinitelyOpen) (hv : w.vaults v = some vault)
    (hv' : w'.vaults v = some vault')
    (hopen : w'.overSessions v (fun _ => 1) + vault.activeSessions =
      w.overSessions v (fun _ => 1) + vault'.activeSessions)
    (hfees : vault'.totalFeesCollected + w'.overSessions v SessionAuthority.developerFee =
      vault.totalFeesCollected + w.overSessions v SessionAuthority.developerFee + n) : FeesInv v (paid + n) w' where
  finite := hfinite
  dead hnone := by
    rw [hv'] at hnone
    cases hnone
  live x hx := by
    obtain rfl := Option.some.inj (hv'.symm.trans hx)
    obtain ⟨hcount, hpaid⟩ := h.live vault hv
    exact ⟨by omega, by omega⟩

/-- A vault whose sessions stay. -/
theorem of_kept (h : FeesInv v paid w) (hfinite : w'.FinitelyOpen) (hv : w.vaults v = some vault)
    (hv' : w'.vaults v = some vault') (htotal : ∀ f, w'.overSessions v f = w.overSessions v f)
    (hcount : vault'.activeSessions = vault.activeSessions)
    (hfees : vault'.totalFeesCollected = vault.totalFeesCollected + n) : FeesInv v (paid + n) w' := by
  refine h.of_totals hfinite hv hv' ?_ ?_
  · rw [htotal, hcount]
  · rw [htotal, hfees]
    omega

theorem authorize {a : ValidateAndAuthorize} (h : FeesInv v paid w) (hchange : SessionsChange st w w')
    (hcall : st.instruction.call = .sigil (.validateAndAuthorize a)) (ha : a.vault = v) (hv : w.vaults v = some vault)
    (hv' : w'.vaults v = some { vault with activeSessions := vault.activeSessions + 1 }) :
    FeesInv v (paid + (Instruction.validateAndAuthorize a).feePaid w) w' := by
  have hfinite := h.finite.step hchange
  cases hchange with
  | same hopens => exact absurd hcall (hopens a)
  | closed _ _ hother => cases hcall.symm.trans hother
  | opened b s hother hnone hvault hfee heq =>
      cases hcall.symm.trans hother
      have hmine : s.vault = v := hvault.trans ha
      have hcount := World.overSessions_update (v := v) h.finite heq fun _ => 1
      have hfees := World.overSessions_update (v := v) h.finite heq SessionAuthority.developerFee
      simp only [World.shareOf, hnone, Option.elim_none, Option.elim_some, if_pos hmine, Nat.add_zero] at hcount hfees
      refine h.of_totals hfinite hv hv' ?_ ?_
      · dsimp only
        omega
      · rw [hfees, hfee]
        dsimp only
        omega

theorem finalize {a : FinalizeSession} {session : SessionAuthority} {isExpired : Bool} {spend : Nat}
    (h : FeesInv v paid w) (hchange : SessionsChange st w w')
    (hcall : st.instruction.call = .sigil (.finalizeSession a)) (ha : a.vault = v)
    (hs : w.sessions a.session = some session) (hstats : finalizeStats vault session isExpired spend = .ok vault')
    (hv : w.vaults v = some vault) (hv' : w'.vaults v = some vault') : FeesInv v paid w' := by
  have hfinite := h.finite.step hchange
  cases hchange with
  | same _ hcloses => exact absurd hcall (hcloses a)
  | opened _ _ hother => cases hcall.symm.trans hother
  | closed b s hother hsome hvault heq =>
      cases hcall.symm.trans hother
      obtain rfl := Option.some.inj (hs.symm.trans hsome)
      have hmine : session.vault = v := hvault.trans ha
      have hcount := World.overSessions_update (v := v) h.finite heq fun _ => 1
      have hfees := World.overSessions_update (v := v) h.finite heq SessionAuthority.developerFee
      simp only [World.shareOf, hsome, Option.elim_none, Option.elim_some, if_pos hmine, Nat.add_zero] at hcount hfees
      have hopen := (h.live vault hv).1
      simp only [finalizeStats, bind_eq_ok, okOr_eq_ok, checkedAdd_eq_some, pure_eq_ok] at hstats
      obtain ⟨_, ⟨-, rfl⟩, _, -, _, -, _, -, rfl⟩ := hstats
      refine h.of_totals (n := 0) hfinite hv hv' ?_ ?_
      · dsimp only
        omega
      · dsimp only
        omega

theorem step (h : FeesInv v paid w) (hexec : st.exec w = .ok w') :
    FeesInv v (if st.creates v then 0 else (st.writing v).elim paid fun i => paid + i.feePaid w) w' := by
  have hsessions := Step.sessionsChange hexec
  have hfinite := h.finite.step hsessions
  rcases Step.vault_cases hexec v with ⟨hwriting, hcreates, hvaults⟩ | ⟨i, hcall, hwriting, hwritten, hchange⟩
  · have htotal : ∀ f, w'.overSessions v f = w.overSessions v f := by
      refine hsessions.overSessions_eq h.finite (fun a hcall => ?_) fun a hcall => ?_
      · rintro rfl
        simp [Step.writing, hcall, Instruction.written] at hwriting
      · rintro rfl
        simp [Step.writing, hcall, Instruction.written] at hwriting
    rw [hwriting, hcreates, if_neg Bool.false_ne_true, Option.elim_none]
    exact ⟨hfinite, fun hnone f => (htotal f).trans (h.dead (hvaults ▸ hnone) f), fun x hx => by
      rw [htotal, htotal]
      exact h.live x (hvaults ▸ hx)⟩
  · have htotal : (∀ a, i ≠ .validateAndAuthorize a) → (∀ a, i ≠ .finalizeSession a) →
        ∀ f, w'.overSessions v f = w.overSessions v f := by
      intro hopens hcloses
      refine hsessions.overSessions_eq h.finite (fun a hother => ?_) fun a hother => ?_
      · cases hcall.symm.trans hother
        exact absurd rfl (hopens a)
      · cases hcall.symm.trans hother
        exact absurd rfl (hcloses a)
    rw [hwriting, Option.elim_some, Step.creates, hcall]
    generalize hv : w.vaults v = o at hchange
    generalize hv' : w'.vaults v = o' at hchange
    cases hchange with
    | same hne => exact absurd hwritten hne
    | opened a ha =>
        have hzero := h.dead hv
        refine ⟨hfinite, fun hnone => by simp [hv'] at hnone, fun x hx => ?_⟩
        obtain rfl := Option.some.inj (hv'.symm.trans hx)
        rw [htotal (by simp) (by simp), htotal (by simp) (by simp), hzero, hzero, if_pos (decide_eq_true ha)]
        exact ⟨rfl, rfl⟩
    | closed a ha hzero =>
        have hnone := World.overSessions_eq_zero h.finite ((h.live _ hv).1.trans hzero)
        refine ⟨hfinite, fun _ f => (htotal (by simp) (by simp) f).trans (hnone f), fun x hx => ?_⟩
        cases hv'.symm.trans hx
    | deposited a => exact h.of_kept hfinite hv hv' (htotal (by simp) (by simp)) rfl rfl
    | withdrawn a => exact h.of_kept hfinite hv hv' (htotal (by simp) (by simp)) rfl rfl
    | registered a => exact h.of_kept hfinite hv hv' (htotal (by simp) (by simp)) rfl rfl
    | revoked a => exact h.of_kept hfinite hv hv' (htotal (by simp) (by simp)) rfl rfl
    | paused a b _ hi =>
        rcases hi with rfl | rfl
        · exact h.of_kept hfinite hv hv' (htotal (by simp) (by simp)) rfl rfl
        · exact h.of_kept hfinite hv hv' (htotal (by simp) (by simp)) rfl rfl
    | frozen a => exact h.of_kept hfinite hv hv' (htotal (by simp) (by simp)) rfl rfl
    | reactivated a => exact h.of_kept hfinite hv hv' (htotal (by simp) (by simp)) rfl rfl
    | permitted a => exact h.of_kept hfinite hv hv' (htotal (by simp) (by simp)) rfl rfl
    | authorized a ha => exact h.authorize hsessions hcall ha hv hv'
    | finalized a ha hs _ hstats => exact h.finalize hsessions hcall ha hs hstats hv hv'
    | paid a ha hp hfee hpaid =>
        subst ha
        simp only [addPayment, bind_eq_ok, okOr_eq_ok, checkedAdd_eq_some, pure_eq_ok] at hpaid
        obtain ⟨_, -, _, -, _, ⟨-, rfl⟩, rfl⟩ := hpaid
        refine h.of_kept hfinite hv hv' (htotal (by simp) (by simp)) rfl ?_
        rw [Instruction.feePaid, World.developerFee_eq hp hfee]
    | escrowed a ha hp hfee hpaid =>
        subst ha
        simp only [addPayment, bind_eq_ok, okOr_eq_ok, checkedAdd_eq_some, pure_eq_ok] at hpaid
        obtain ⟨_, -, _, -, _, ⟨-, rfl⟩, rfl⟩ := hpaid
        refine h.of_kept hfinite hv hv' (htotal (by simp) (by simp)) rfl ?_
        rw [Instruction.feePaid, World.developerFee_eq hp hfee]
    | settled a => exact h.of_kept hfinite hv hv' (htotal (by simp) (by simp)) rfl rfl
    | refunded a => exact h.of_kept hfinite hv hv' (htotal (by simp) (by simp)) rfl rfl

end FeesInv

theorem feesInv_run (h : run Step.exec steps {} = .ok w) (v : Pubkey) : FeesInv v (feesPaid v steps) w := by
  refine collect_run (P := FeesInv v) ?_ (fun before st after w₁ w₂ paid _ _ hw₁ hexec => hw₁.step hexec) h
  have hnone : ∀ f, World.overSessions {} v f = 0 := fun f => finsum_eq_zero_of_forall_eq_zero fun _ => rfl
  refine ⟨?_, fun _ => hnone, by rintro _ ⟨⟩⟩
  simp [World.FinitelyOpen]

/-- After every run a vault counts its open sessions, and the developer fees it has paid are those that it has counted
together with those of the open sessions. -/
theorem fees_balance (h : run Step.exec steps {} = .ok w) (hv : w.vaults v = some vault) :
    vault.activeSessions = w.overSessions v (fun _ => 1) ∧
      vault.totalFeesCollected + w.overSessions v SessionAuthority.developerFee = feesPaid v steps := by
  obtain ⟨hcount, hfees⟩ := (feesInv_run h v).live vault hv
  exact ⟨hcount.symm, hfees⟩

end

/-! ### A session of a vault with a developer fee of 0.05 % -/

def earningSetup : List Step :=
  [.alone payClock [usdcMint, .key 4] payLaunch launchers_isKey,
   .ofKey payClock 2
    { raw := { programId := .key 9, accounts := [], data := [] }
      call := .foreign [.createAssociated (.key 2) usdcMint] },
   .ofKey payClock 1 (Instruction.initializeVault { payVault with developerFeeRate := 500 }).toTopLevel,
   .ofKey payClock 1 (Instruction.registerAgent payAgent).toTopLevel]

def earningSession : Transaction :=
  .ofKey payClock 3
    [(Instruction.validateAndAuthorize
        { payValidate with feeDestinationTokenAccount := some (.ata (.key 2) usdcMint) }).toTopLevel,
     payTrade 500000, (Instruction.finalizeSession payFinalize).toTopLevel]

/-- The fee is that of the whole USDC of the session, the volume the half that was traded. -/
theorem books_balance_session : ∃ w vault, run Step.exec (earningSetup ++ earningSession.steps) {} = .ok w ∧
    w.vaults payVault.vault = some vault ∧ vault.books = { transactions := 1, volume := 500000, fees := 500 } := by
  obtain ⟨w, vault, hrun, hv⟩ : ∃ w vault, run Step.exec (earningSetup ++ earningSession.steps) {} = .ok w ∧
      w.vaults payVault.vault = some vault := ⟨_, _, rfl, rfl⟩
  exact ⟨w, vault, hrun, hv, (books_balance hrun hv).1⟩

theorem fees_balance_session : ∃ w vault, run Step.exec (earningSetup ++ earningSession.steps.take 1) {} = .ok w ∧
    w.vaults payVault.vault = some vault ∧ vault.totalFeesCollected = 0 ∧
    w.overSessions payVault.vault SessionAuthority.developerFee = 500 := by
  obtain ⟨w, vault, hrun, hv, hfees⟩ : ∃ w vault,
      run Step.exec (earningSetup ++ earningSession.steps.take 1) {} = .ok w ∧
        w.vaults payVault.vault = some vault ∧ vault.totalFeesCollected = 0 := ⟨_, _, rfl, rfl, rfl⟩
  refine ⟨w, vault, hrun, hv, hfees, ?_⟩
  have hpaid := (fees_balance hrun hv).2
  rwa [hfees, Nat.zero_add] at hpaid

end Sigil
