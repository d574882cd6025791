import Mathlib.Algebra.Order.BigOperators.Group.Finset
import Sigil.Lemmas.ShieldState
import Sigil.Theorems.Replay

/-!
# The cap on what is paid

The policies see what is recorded as spent. Between the check and the record other calls may be checked, and a payment
that the server does not acknowledge, or for which it names another transaction, is not recorded. Where neither
happens, the payments handed out within the window stay below the cap.
-/

namespace Sigil.Sdk

open Library

/-- The sum over the transactions that were handed over, each counted once. -/
def totalAmount (handed : List Handover) : Int :=
  ∑ transaction ∈ (handed.map Handover.transaction).toFinset, transaction.amount

/-- The payments of context `c` within the window, but for those known to have failed. -/
def Process.outstanding (c : Nat) (windowMs : Int) (s : Process) : List Handover :=
  s.handed.filter fun h => h.shieldCtx = some c ∧ s.now - windowMs ≤ h.time ∧ h.transaction.signature ∉ s.failed

def Process.WithinCap (c : Nat) (cap windowMs : Int) (s : Process) : Prop :=
  totalAmount (s.outstanding c windowMs) ≤ cap

instance {c : Nat} {cap windowMs : Int} : DecidablePred (Process.WithinCap c cap windowMs) := fun s =>
  inferInstanceAs (Decidable (totalAmount (s.outstanding c windowMs) ≤ cap))

/-- The calls of context `c` are configured alike. -/
def FetchRequest.CappedBy (c : Nat) (cap windowMs : Int) (request : FetchRequest) : Prop :=
  request.shieldCtx = some c →
    request.config.maxCumulativeSpend = some cap ∧ request.config.cumulativeWindowMs.getD dayMs = windowMs

instance {c : Nat} {cap windowMs : Int} : DecidablePred (FetchRequest.CappedBy c cap windowMs) := fun request =>
  inferInstanceAs (Decidable (request.shieldCtx = some c →
    request.config.maxCumulativeSpend = some cap ∧ request.config.cumulativeWindowMs.getD dayMs = windowMs))

/-- No call of the context is on its way, and each payment of the window was recorded as spent or has failed. -/
def Process.Covered (c : Nat) (windowMs now : Int) (s : Process) : Prop :=
  (∀ call ∈ s.calls, call.request.shieldCtx = some c → call.phase.uncharged = none) ∧
    ∀ h ∈ s.handed, h.shieldCtx = some c → now - windowMs ≤ h.time →
      h.call ∈ s.charged ∨ h.transaction.signature ∈ s.failed

instance {c : Nat} {windowMs now : Int} : DecidablePred (Process.Covered c windowMs now) := fun s =>
  inferInstanceAs (Decidable ((∀ call ∈ s.calls, call.request.shieldCtx = some c → call.phase.uncharged = none) ∧
    ∀ h ∈ s.handed, h.shieldCtx = some c → now - windowMs ≤ h.time →
      h.call ∈ s.charged ∨ h.transaction.signature ∈ s.failed))

/-- The recorded spend lets a payment of the context pass only when it covers what was handed out. -/
def Turn.ChecksCovered (c : Nat) (cap windowMs : Int) (t : Turn) (s : Process) : Prop :=
  ∀ found ∈ t.finds FetchRequest.authorizes s, found.1.shieldCtx = some c → ∀ amount ∈ bigInt found.2.amount,
    (s.contexts c).getTotalSpendInWindow t.now windowMs + amount ≤ cap → s.Covered c windowMs t.now

instance {c : Nat} {cap windowMs : Int} {t : Turn} : DecidablePred (Turn.ChecksCovered c cap windowMs t) := fun s =>
  inferInstanceAs (Decidable (∀ found ∈ t.finds FetchRequest.authorizes s, found.1.shieldCtx = some c →
    ∀ amount ∈ bigInt found.2.amount,
      (s.contexts c).getTotalSpendInWindow t.now windowMs + amount ≤ cap → s.Covered c windowMs t.now))

/-- A record would not drop a spend of the window. -/
def Turn.KeepsWindow (c : Nat) (windowMs : Int) (t : Turn) (s : Process) : Prop :=
  (s.contexts c).spendEntries.length < pruneThreshold ∨
    ∀ e ∈ (s.contexts c).spendEntries, t.now - windowMs ≤ e.timestamp → t.now - dayMs ≤ e.timestamp

instance {c : Nat} {windowMs : Int} {t : Turn} : DecidablePred (Turn.KeepsWindow c windowMs t) := fun s =>
  inferInstanceAs (Decidable ((s.contexts c).spendEntries.length < pruneThreshold ∨
    ∀ e ∈ (s.contexts c).spendEntries, t.now - windowMs ≤ e.timestamp → t.now - dayMs ≤ e.timestamp))

/-! ## Sums over transactions -/

section
variable {handed handed' : List Handover} {transaction : SignedTransaction}

theorem totalAmount_mono (hsub : ∀ h ∈ handed, h ∈ handed') (hpos : ∀ h ∈ handed', 0 < h.transaction.amount) :
    totalAmount handed ≤ totalAmount handed' := by
  refine Finset.sum_le_sum_of_subset_of_nonneg (fun tx htx => ?_) fun tx htx _ => ?_
  · obtain ⟨h, hh, rfl⟩ := List.mem_map.mp (List.mem_toFinset.mp htx)
    exact List.mem_toFinset.mpr (List.mem_map_of_mem (hsub h hh))
  · obtain ⟨h, hh, rfl⟩ := List.mem_map.mp (List.mem_toFinset.mp htx)
    exact (hpos h hh).le

/-- One transaction more adds its amount at most. -/
theorem totalAmount_le_add (hsub : ∀ h ∈ handed', h ∈ handed ∨ h.transaction = transaction)
    (hpos : ∀ h ∈ handed, 0 < h.transaction.amount) (hamount : 0 < transaction.amount) :
    totalAmount handed' ≤ totalAmount handed + transaction.amount := by
  have hinsert : (handed'.map Handover.transaction).toFinset ⊆
      insert transaction (handed.map Handover.transaction).toFinset := by
    intro tx htx
    obtain ⟨h, hh, rfl⟩ := List.mem_map.mp (List.mem_toFinset.mp htx)
    rcases hsub h hh with hmem | heq
    · exact Finset.mem_insert_of_mem (List.mem_toFinset.mpr (List.mem_map_of_mem hmem))
    · exact heq ▸ Finset.mem_insert_self ..
  have hnonneg : ∀ tx ∈ insert transaction (handed.map Handover.transaction).toFinset, 0 ≤ tx.amount := by
    intro tx htx
    rcases Finset.mem_insert.mp htx with rfl | htx
    · exact hamount.le
    · obtain ⟨h, hh, rfl⟩ := List.mem_map.mp (List.mem_toFinset.mp htx)
      exact (hpos h hh).le
  have hsum := Finset.sum_le_sum_of_subset_of_nonneg hinsert fun tx htx _ => hnonneg tx htx
  by_cases hmem : transaction ∈ (handed.map Handover.transaction).toFinset
  · rw [Finset.insert_eq_of_mem hmem] at hsum
    exact hsum.trans (by unfold totalAmount; omega)
  · rw [Finset.sum_insert hmem] at hsum
    exact hsum.trans (by unfold totalAmount; omega)

end

/-! ## The invariant -/

/-- The payments of context `c` since some time that were recorded as spent. -/
def Process.chargedSince (c : Nat) (since : Int) (s : Process) : List Handover :=
  s.handed.filter fun h => h.shieldCtx = some c ∧ since ≤ h.time ∧ h.call ∈ s.charged

def Process.outstandingOthers (c : Nat) (windowMs : Int) (i : Nat) (s : Process) : List Handover :=
  (s.outstanding c windowMs).filter fun h => h.call ≠ i

/-- The amount with which a call of the context is on its way. -/
def FetchCall.unchargedIn (c : Nat) (call : FetchCall) : Option Int :=
  if call.request.shieldCtx = some c then call.phase.uncharged else none

structure Capped (parseUrl : String → Option String) (c : Nat) (cap windowMs : Int) (s : Process) : Prop where
  coherent : Coherent parseUrl s
  configured : ∀ call ∈ s.calls, call.request.CappedBy c cap windowMs
  underway : ∀ call ∈ s.calls, ∀ amount ∈ call.phase.uncharged, 0 < amount
  positive : ∀ h ∈ s.handed, 0 < h.transaction.amount
  entries : ∀ e ∈ (s.contexts c).spendEntries, 0 ≤ e.amount
  /-- what was recorded is found in the sums of the shield -/
  booked : ∀ since, s.now - windowMs ≤ since →
    totalAmount (s.chargedSince c since) ≤ (s.contexts c).totalSince since
  alone : ∀ i j a b, (s.CallAt i fun call => call.unchargedIn c = some a) →
    (s.CallAt j fun call => call.unchargedIn c = some b) → i = j
  /-- there is room for the amount that is on its way -/
  room : ∀ i a, (s.CallAt i fun call => call.unchargedIn c = some a) →
    totalAmount (s.outstandingOthers c windowMs i) + a ≤ cap
  capped : s.WithinCap c cap windowMs

section
variable {parseUrl : String → Option String} {c : Nat} {cap windowMs since : Int} {around : Surroundings} {i j : Nat}
  {request : FetchRequest} {s s' : Process} {phase phase' : Phase} {answer : Answer} {payment : Payment}
  {call : FetchCall} {tracker : NonceTracker} {recent : List Int} {failed : List String} {h : Handover}

theorem mem_outstanding : h ∈ s.outstanding c windowMs ↔
    h ∈ s.handed ∧ h.shieldCtx = some c ∧ s.now - windowMs ≤ h.time ∧ h.transaction.signature ∉ s.failed := by
  simp [Process.outstanding]

theorem mem_outstandingOthers : h ∈ s.outstandingOthers c windowMs i ↔
    h ∈ s.outstanding c windowMs ∧ h.call ≠ i := by
  simp [Process.outstandingOthers]

theorem mem_chargedSince : h ∈ s.chargedSince c since ↔
    h ∈ s.handed ∧ h.shieldCtx = some c ∧ since ≤ h.time ∧ h.call ∈ s.charged := by
  simp [Process.chargedSince]

/-- With the clock and the failures the outstanding payments become fewer. -/
theorem outstanding_later {now : Int} {calls : List FetchCall} (hnow : s.now ≤ now) (hfailed : s.failed ⊆ failed) :
    ∀ h ∈ Process.outstanding c windowMs
      { s with now, globalNonceTracker := tracker, recentPayments := recent, calls, failed },
      h ∈ s.outstanding c windowMs := by
  intro h hh
  obtain ⟨hmem, hctx, htime, hlive⟩ := mem_outstanding.mp hh
  dsimp only at htime
  exact mem_outstanding.mpr ⟨hmem, hctx, by omega, fun hdead => hlive (hfailed hdead)⟩

theorem Capped.pos_outstanding (hs : Capped parseUrl c cap windowMs s) :
    ∀ h ∈ s.outstanding c windowMs, 0 < h.transaction.amount :=
  fun h hh => hs.positive h (mem_outstanding.mp hh).1

theorem Capped.pos_others (hs : Capped parseUrl c cap windowMs s) :
    ∀ h ∈ s.outstandingOthers c windowMs i, 0 < h.transaction.amount :=
  fun h hh => hs.pos_outstanding h (mem_outstandingOthers.mp hh).1

/-- Time passes, and what the policies do not look at may change. -/
theorem Capped.later {now : Int} (hs : Capped parseUrl c cap windowMs s) (hnow : s.now ≤ now)
    (hfailed : s.failed ⊆ failed) :
    Capped parseUrl c cap windowMs
      { s with now, globalNonceTracker := tracker, recentPayments := recent, failed } where
  coherent := hs.coherent.later hnow
  configured := hs.configured
  underway := hs.underway
  positive := hs.positive
  entries := hs.entries
  booked since hsince := hs.booked since (by dsimp only at hsince; omega)
  alone := hs.alone
  room i a hi := by
    refine le_trans (Int.add_le_add_right (totalAmount_mono (fun h hh => ?_) hs.pos_others) a) (hs.room i a hi)
    obtain ⟨hout, hother⟩ := mem_outstandingOthers.mp hh
    exact mem_outstandingOthers.mpr ⟨outstanding_later hnow hfailed h hout, hother⟩
  capped := (totalAmount_mono (outstanding_later hnow hfailed) hs.pos_outstanding).trans hs.capped

theorem unchargedIn_eq_some {a : Int} :
    call.unchargedIn c = some a ↔ call.request.shieldCtx = some c ∧ call.phase.uncharged = some a := by
  unfold FetchCall.unchargedIn
  split <;> simp_all

theorem unchargedIn_of_leads {a : Int} (h : phase'.uncharged = none ∨ phase'.uncharged = call.phase.uncharged) :
    FetchCall.unchargedIn c ⟨call.request, phase'⟩ = some a → call.unchargedIn c = some a := by
  rcases h with h | h <;> simp [FetchCall.unchargedIn, h]

theorem Capped.goto (hs : Capped parseUrl c cap windowMs s) (hcall : s.calls[i]? = some call)
    (hkeeps : call.phase.Keeps phase')
    (huncharged : phase'.uncharged = none ∨ phase'.uncharged = call.phase.uncharged) :
    Capped parseUrl c cap windowMs (s.goto i call.request phase') where
  coherent := hs.coherent.goto hcall hkeeps
  configured := forall_goto hs.configured (hs.configured call (List.mem_of_getElem? hcall))
  underway := by
    refine forall_goto hs.underway fun amount hamount => ?_
    rcases huncharged with hnone | hsame
    · simp [hnone] at hamount
    · exact hs.underway call (List.mem_of_getElem? hcall) amount (hsame ▸ hamount)
  positive := hs.positive
  entries := hs.entries
  booked := hs.booked
  alone j k a b hj hk :=
    hs.alone j k a b (hj.of_goto hcall (unchargedIn_of_leads huncharged))
      (hk.of_goto hcall (unchargedIn_of_leads huncharged))
  room j a hj := hs.room j a (hj.of_goto hcall (unchargedIn_of_leads huncharged))
  capped := hs.capped

theorem approve_fits (c : Nat) (cap windowMs : Int) {selected : PaymentRequirements} {amount : Int}
    (h : s.approve around request selected = .ok (some amount)) :
    bigInt selected.amount = some amount ∧ 0 < amount ∧
      (request.shieldCtx = some c → request.CappedBy c cap windowMs →
        (s.contexts c).getTotalSpendInWindow s.now windowMs + amount ≤ cap) := by
  obtain ⟨parsed, hparsed, h⟩ := bind_eq_ok.mp h
  obtain ⟨hbigInt, hpos⟩ := validatePaymentAmount_eq_ok hparsed
  obtain ⟨_, _, h⟩ := bind_eq_ok.mp h
  obtain ⟨_, hpolicies, h⟩ := bind_eq_ok.mp h
  have hamount : parsed = amount := by
    split at h
    · cases h
    · obtain ⟨_, _, h⟩ := bind_eq_ok.mp h
      exact Option.some.inj (pure_eq_ok.mp h)
  subst hamount
  refine ⟨hbigInt, hpos, fun hctx hcapped => ?_⟩
  obtain ⟨hlimit, hwindow⟩ := hcapped hctx
  unfold Process.checkPolicies at hpolicies
  rw [hctx] at hpolicies
  obtain ⟨violations, hviolations, hpolicies⟩ := bind_eq_ok.mp hpolicies
  obtain ⟨_, _, hpolicies⟩ := bind_eq_ok.mp hpolicies
  rw [require_eq_ok.mp hpolicies] at hviolations
  exact hwindow ▸ evaluateX402Payment_fits hviolations hlimit hbigInt

/-- What is outstanding was recorded, so the sum of the shield covers it. -/
theorem Capped.outstanding_le (hs : Capped parseUrl c cap windowMs s) (hcovered : s.Covered c windowMs s.now) :
    totalAmount (s.outstanding c windowMs) ≤ (s.contexts c).getTotalSpendInWindow s.now windowMs := by
  refine (totalAmount_mono (fun h hh => ?_) fun h hh => hs.positive h (mem_chargedSince.mp hh).1).trans
    (hs.booked (s.now - windowMs) (le_refl _))
  obtain ⟨hmem, hctx, htime, hlive⟩ := mem_outstanding.mp hh
  exact mem_chargedSince.mpr ⟨hmem, hctx, htime, (hcovered.2 h hmem hctx htime).resolve_right hlive⟩

theorem Capped.approve {selected : PaymentRequirements} {amount : Int} (hs : Capped parseUrl c cap windowMs s)
    (hcall : s.calls[i]? = some call) (hauthorizes : call.request.authorizes call.phase answer = some selected)
    (happrove : s.approve around call.request selected = .ok (some amount))
    (hcovered : call.request.shieldCtx = some c →
      (s.contexts c).getTotalSpendInWindow s.now windowMs + amount ≤ cap → s.Covered c windowMs s.now) :
    Capped parseUrl c cap windowMs (s.goto i call.request (.building selected amount)) := by
  have hmem := List.mem_of_getElem? hcall
  obtain ⟨_, hpos, hfits⟩ := approve_fits c cap windowMs happrove
  -- a call that is on its way after the turn was so before, or is the approved one
  have hcases (j : Nat) (a : Int)
      (hj : (s.goto i call.request (.building selected amount)).CallAt j fun call => call.unchargedIn c = some a) :
      i = j ∧ call.request.shieldCtx = some c ∧ amount = a ∨ s.CallAt j fun call => call.unchargedIn c = some a :=
    (hj.goto_cases hcall).imp_left
      (And.imp_right fun hunits => (unchargedIn_eq_some.mp hunits).imp_right Option.some.inj)
  have hnobody (hctx : call.request.shieldCtx = some c) (j : Nat) (a : Int)
      (hj : s.CallAt j fun call => call.unchargedIn c = some a) : False := by
    obtain ⟨other, hother, hunits⟩ := hj
    obtain ⟨hother', hunits⟩ := unchargedIn_eq_some.mp hunits
    have hidle := (hcovered hctx (hfits hctx (hs.configured call hmem))).1
    rw [hidle other (List.mem_of_getElem? hother) hother'] at hunits
    cases hunits
  refine ⟨hs.coherent.goto hcall (FetchRequest.keeps_of_authorizes hauthorizes),
    forall_goto hs.configured (hs.configured call hmem), forall_goto hs.underway fun a ha => ?_, hs.positive,
    hs.entries, hs.booked, fun j k a b hj hk => ?_, fun j a hj => ?_, hs.capped⟩
  · cases ha
    exact hpos
  · rcases hcases j a hj with ⟨hji, hctx, _⟩ | hj <;> rcases hcases k b hk with ⟨hki, hctx', _⟩ | hk
    · exact hji.symm.trans hki
    · exact (hnobody hctx k b hk).elim
    · exact (hnobody hctx' j a hj).elim
    · exact hs.alone j k a b hj hk
  · rcases hcases j a hj with ⟨rfl, hctx, rfl⟩ | hj
    · have hle := hfits hctx (hs.configured call hmem)
      have hout := hs.outstanding_le (hcovered hctx hle)
      have hothers : totalAmount (s.outstandingOthers c windowMs i) ≤ totalAmount (s.outstanding c windowMs) :=
        totalAmount_mono (fun h hh => (mem_outstandingOthers.mp hh).1) hs.pos_outstanding
      exact (Int.add_le_add_right (hothers.trans hout) amount).trans hle
    · exact hs.room j a hj

theorem Phase.Sends.uncharged_eq (h : phase.Sends payment) : phase.uncharged = some payment.transaction.amount := by
  rcases h with ⟨_, rfl⟩ | ⟨_, rfl⟩ <;> rfl

theorem not_mem_charged (hs : Coherent parseUrl s) (hcall : s.calls[i]? = some call)
    (hphase : call.phase.isFinished = false) : i ∉ s.charged := by
  intro hcharged
  obtain ⟨other, hother, hfinished⟩ := hs.charged i hcharged
  cases hcall.symm.trans hother
  simp [hphase] at hfinished

theorem Capped.handOver {attempt : Nat} (hs : Capped parseUrl c cap windowMs s) (hcall : s.calls[i]? = some call)
    (hsends : call.phase.Sends payment) :
    Capped parseUrl c cap windowMs (s.handOver parseUrl i call.request payment attempt) := by
  have hmem := List.mem_of_getElem? hcall
  have hfresh := not_mem_charged hs.coherent hcall hsends.isFinished_eq_false
  have hphase : Phase.uncharged (.sending payment attempt) = call.phase.uncharged := hsends.uncharged_eq.symm
  have hpos : 0 < payment.transaction.amount := hs.underway call hmem _ hsends.uncharged_eq
  have hself (hctx : call.request.shieldCtx = some c) :
      s.CallAt i fun call => call.unchargedIn c = some payment.transaction.amount :=
    ⟨call, hcall, unchargedIn_eq_some.mpr ⟨hctx, hsends.uncharged_eq⟩⟩
  have hnew (h : Handover) (hh : h ∈ (s.handOver parseUrl i call.request payment attempt).outstanding c windowMs) :
      h ∈ s.outstanding c windowMs ∨
        call.request.shieldCtx = some c ∧ h.call = i ∧ h.transaction = payment.transaction := by
    obtain ⟨hh, hctx, hrest⟩ := mem_outstanding.mp hh
    rcases List.mem_cons.mp hh with rfl | hh
    · exact .inr ⟨hctx, rfl, rfl⟩
    · exact .inl (mem_outstanding.mpr ⟨hh, hctx, hrest⟩)
  -- what call `i` handed over before is the same transaction
  have hsame (h : Handover) (hh : h ∈ s.outstanding c windowMs) (hown : h.call = i) :
      h.transaction = payment.transaction := by
    obtain ⟨other, hother, howns⟩ := hs.coherent.owner h (mem_outstanding.mp hh).1
    rw [hown, hcall] at hother
    cases hother
    exact howns.transaction_eq hsends
  have hback (j : Nat) (a : Int)
      (hj : (s.handOver parseUrl i call.request payment attempt).CallAt j fun call => call.unchargedIn c = some a) :
      s.CallAt j fun call => call.unchargedIn c = some a :=
    Process.CallAt.of_goto (s := s) hj hcall (unchargedIn_of_leads (.inr hphase))
  refine ⟨hs.coherent.handOver hcall hsends, forall_goto hs.configured (hs.configured call hmem),
    forall_goto hs.underway fun a ha => ?_, fun h hh => ?_, hs.entries, fun since hsince => ?_,
    fun j k a b hj hk => hs.alone j k a b (hback j a hj) (hback k b hk), fun j a hj => ?_, ?_⟩
  · cases ha
    exact hpos
  · rcases List.mem_cons.mp hh with rfl | hh
    · exact hpos
    · exact hs.positive h hh
  · refine (totalAmount_mono (fun h hh => ?_) fun h hh => hs.positive h (mem_chargedSince.mp hh).1).trans
      (hs.booked since hsince)
    obtain ⟨hh, hctx, htime, hcharged⟩ := mem_chargedSince.mp hh
    rcases List.mem_cons.mp hh with rfl | hh
    · exact absurd hcharged hfresh
    · exact mem_chargedSince.mpr ⟨hh, hctx, htime, hcharged⟩
  · refine (Int.add_le_add_right (totalAmount_mono (fun h hh => ?_) hs.pos_others) a).trans
      (hs.room j a (hback j a hj))
    obtain ⟨hh, hother⟩ := mem_outstandingOthers.mp hh
    rcases hnew h hh with hh | ⟨hctx, hown, _⟩
    · exact mem_outstandingOthers.mpr ⟨hh, hother⟩
    · exact absurd (hown.trans (hs.alone i j _ a (hself hctx) (hback j a hj))) hother
  · by_cases hctx : call.request.shieldCtx = some c
    · refine (totalAmount_le_add (fun h hh => ?_) hs.pos_others hpos).trans (hs.room i _ (hself hctx))
      rcases hnew h hh with hh | ⟨_, _, htx⟩
      · by_cases hown : h.call = i
        · exact .inr (hsame h hh hown)
        · exact .inl (mem_outstandingOthers.mpr ⟨hh, hown⟩)
      · exact .inr htx
    · refine (totalAmount_mono (fun h hh => ?_) hs.pos_outstanding).trans hs.capped
      exact (hnew h hh).resolve_right fun hrest => hctx hrest.1

/-- The record of a spend makes up for the payments of the call. -/
theorem Capped.booked_charge (hs : Capped parseUrl c cap windowMs s) (hcall : s.calls[i]? = some call)
    (hpayment : call.phase.payment = some payment)
    (hwindow : (s.contexts c).spendEntries.length < pruneThreshold ∨
      ∀ e ∈ (s.contexts c).spendEntries, s.now - windowMs ≤ e.timestamp → s.now - dayMs ≤ e.timestamp)
    (hsince : s.now - windowMs ≤ since) :
    totalAmount (Process.chargedSince c since { s with charged := i :: s.charged }) ≤
      (recordX402Spend (s.contexts c) s.now payment.selected.asset payment.transaction.amount).totalSince since := by
  have hpos : 0 < payment.transaction.amount :=
    hs.underway call (List.mem_of_getElem? hcall) _ (Phase.uncharged_of_payment hpayment)
  have hchargedPos : ∀ h ∈ s.chargedSince c since, 0 < h.transaction.amount :=
    fun h hh => hs.positive h (mem_chargedSince.mp hh).1
  have hkept := hwindow.imp_right fun hrecent e he hle => hrecent e he (hsince.trans hle)
  rw [ShieldState.totalSince_recordX402Spend hkept]
  -- a payment counted now was counted before, or call `i` has made it by now
  have hcases (h : Handover) (hh : h ∈ Process.chargedSince c since { s with charged := i :: s.charged }) :
      h ∈ s.chargedSince c since ∨ since ≤ s.now ∧ h.transaction = payment.transaction := by
    obtain ⟨hmem, hctx, htime, hcharged⟩ := mem_chargedSince.mp hh
    rcases List.mem_cons.mp hcharged with hown | hcharged
    · obtain ⟨other, hother, _, howns⟩ := hs.coherent.owner h hmem
      rw [hown, hcall] at hother
      cases hother
      rcases howns with hfinished | ⟨same, hsame, htx, _⟩
      · simp [Phase.isFinished_of_payment hpayment] at hfinished
      · cases hpayment.symm.trans hsame
        exact .inr ⟨htime.trans (hs.coherent.past h hmem), htx⟩
    · exact .inl (mem_chargedSince.mpr ⟨hmem, hctx, htime, hcharged⟩)
  by_cases hnow : since ≤ s.now
  · rw [if_pos hnow]
    exact (totalAmount_le_add (fun h hh => (hcases h hh).imp_right And.right) hchargedPos hpos).trans
      (Int.add_le_add_right (hs.booked since hsince) _)
  · rw [if_neg hnow, add_zero]
    exact (totalAmount_mono (fun h hh => (hcases h hh).resolve_right fun hlate => hnow hlate.1) hchargedPos).trans
      (hs.booked since hsince)

/-- The spend of another context is not looked at. -/
theorem Capped.booked_other {other : Nat} (hs : Capped parseUrl c cap windowMs s) (hcall : s.calls[i]? = some call)
    (hctx : call.request.shieldCtx = some other) (hother : other ≠ c) (hsince : s.now - windowMs ≤ since) :
    totalAmount (Process.chargedSince c since { s with charged := i :: s.charged }) ≤
      (s.contexts c).totalSince since := by
  refine (totalAmount_mono (fun h hh => ?_) fun h hh => hs.positive h (mem_chargedSince.mp hh).1).trans
    (hs.booked since hsince)
  obtain ⟨hmem, hc, htime, hcharged⟩ := mem_chargedSince.mp hh
  rcases List.mem_cons.mp hcharged with hown | hcharged
  · obtain ⟨same, hsame, howns, _⟩ := hs.coherent.owner h hmem
    rw [hown, hcall] at hsame
    cases hsame
    exact absurd (Option.some.inj (hctx.symm.trans (howns.symm.trans hc))) hother
  · exact mem_chargedSince.mpr ⟨hmem, hc, htime, hcharged⟩

theorem Capped.charge (hs : Capped parseUrl c cap windowMs s) (hcall : s.calls[i]? = some call)
    (hpayment : call.phase.payment = some payment)
    (hwindow : (s.contexts c).spendEntries.length < pruneThreshold ∨
      ∀ e ∈ (s.contexts c).spendEntries, s.now - windowMs ≤ e.timestamp → s.now - dayMs ≤ e.timestamp) :
    Capped parseUrl c cap windowMs (s.charge around i call.request payment) := by
  have hcoherent : Coherent parseUrl (s.charge around i call.request payment) :=
    hs.coherent.charge hcall hpayment
  have hgoto (outcome : FetchOutcome) : Capped parseUrl c cap windowMs (s.goto i call.request (.finished outcome)) :=
    hs.goto hcall (Phase.Leads.finished (Phase.isFinished_of_payment hpayment)).toKeeps (.inl rfl)
  unfold Process.charge at hcoherent ⊢
  cases hctx : call.request.shieldCtx with
  | none => exact hgoto _
  | some other =>
      have hgoto := hgoto (if around.onPaymentThrows then .threw .external else .returned true)
      simp only [hctx] at hcoherent
      refine ⟨hcoherent, hgoto.configured, hgoto.underway, hgoto.positive, ?_, fun since hsince => ?_, hgoto.alone,
        hgoto.room, hgoto.capped⟩
      · intro e he
        by_cases hother : c = other
        · subst hother
          simp only [goto_contexts, Function.update_self] at he
          rcases ShieldState.mem_recordX402Spend he with he | rfl
          · exact hs.entries e he
          · exact (hs.underway call (List.mem_of_getElem? hcall) _ (Phase.uncharged_of_payment hpayment)).le
        · simp only [goto_contexts, Function.update_of_ne hother] at he
          exact hs.entries e he
      · by_cases hother : c = other
        · subst hother
          simp only [goto_contexts, Function.update_self]
          exact hs.booked_charge hcall hpayment hwindow hsince
        · simp only [goto_contexts, Function.update_of_ne hother]
          exact hs.booked_other hcall hctx (Ne.symm hother) hsince

theorem Capped.record {settlement : Option SettleResponse} (hs : Capped parseUrl c cap windowMs s)
    (hcall : s.calls[i]? = some call) (hanswered : call.phase.Answered payment) :
    Capped parseUrl c cap windowMs (Process.goto i call.request (.recording payment settlement)
      { s with globalNonceTracker := tracker, recorded := i :: s.recorded }) := by
  have huncharged := Phase.uncharged_of_payment (Phase.payment_of_answered hanswered)
  have hgoto : Capped parseUrl c cap windowMs (s.goto i call.request (.recording payment settlement)) :=
    hs.goto hcall hanswered.keeps (.inr huncharged.symm)
  exact ⟨hs.coherent.record hcall hanswered, hgoto.configured, hgoto.underway, hgoto.positive, hgoto.entries,
    hgoto.booked, hgoto.alone, hgoto.room, hgoto.capped⟩

theorem Capped.moves (hs : Capped parseUrl c cap windowMs s) (hcall : s.calls[i]? = some call)
    (hcovered : ∀ selected ∈ call.request.authorizes call.phase answer, call.request.shieldCtx = some c →
      ∀ amount ∈ bigInt selected.amount,
        (s.contexts c).getTotalSpendInWindow s.now windowMs + amount ≤ cap → s.Covered c windowMs s.now)
    (hwindow : (s.contexts c).spendEntries.length < pruneThreshold ∨
      ∀ e ∈ (s.contexts c).spendEntries, s.now - windowMs ≤ e.timestamp → s.now - dayMs ≤ e.timestamp)
    (h : Moves parseUrl around i call.request s call.phase answer s') : Capped parseUrl c cap windowMs s' := by
  cases h with
  | leads hleads _ hfailed => exact (hs.later (le_refl _) hfailed).goto hcall hleads.toKeeps hleads.uncharged
  | checks hchecks _ =>
      exact (hs.later (le_refl _) (List.Subset.refl _)).goto hcall (FetchRequest.keeps_of_checks hchecks) (.inl rfl)
  | approves hauthorizes happrove =>
      refine hs.approve hcall hauthorizes happrove fun hctx hle => ?_
      obtain ⟨hamount, _⟩ := approve_fits c cap windowMs happrove
      exact hcovered _ hauthorizes hctx _ hamount hle
  | hands hsends => exact hs.handOver hcall hsends
  | records hanswered => exact hs.record hcall hanswered
  | charges hpayment => exact Capped.charge (hs.later (le_refl _) (List.Subset.refl _)) hcall hpayment hwindow

theorem Capped.start (hs : Capped parseUrl c cap windowMs s) {now : Int} (hnow : s.now ≤ now)
    (hcapped : request.CappedBy c cap windowMs) :
    Capped parseUrl c cap windowMs { s with now, calls := s.calls ++ [request.begin] } := by
  have hlater : Capped parseUrl c cap windowMs { s with now } := hs.later hnow (List.Subset.refl _)
  have hnew (a : Int) : ¬ request.begin.unchargedIn c = some a := by simp [FetchCall.unchargedIn]
  exact ⟨hs.coherent.start hnow _, forall_append hs.configured (by simpa using hcapped),
    forall_append hs.underway (by simp), hlater.positive, hlater.entries, hlater.booked,
    fun j k a b hj hk => hs.alone j k a b (hj.of_append (hnew a)) (hk.of_append (hnew b)),
    fun j a hj => hlater.room j a (hj.of_append (hnew a)), hlater.capped⟩

theorem Capped.turn {t : Turn} (hs : Capped parseUrl c cap windowMs s)
    (hcapped : ∀ request ∈ t.started, request.CappedBy c cap windowMs) (hcovered : t.ChecksCovered c cap windowMs s)
    (hwindow : t.KeepsWindow c windowMs s) (h : s.turn parseUrl t = .ok s') : Capped parseUrl c cap windowMs s' := by
  obtain ⟨hnow, ⟨request, hstarted, rfl⟩ | ⟨i, answer, around, call, ht, hcall, hmoves⟩⟩ := turn_cases h
  · exact hs.start hnow (hcapped request hstarted)
  · have hlater : Capped parseUrl c cap windowMs { s with now := t.now } := hs.later hnow (List.Subset.refl _)
    refine hlater.moves hcall (fun selected hauthorizes hctx amount hamount hle => ?_) hwindow hmoves
    have hfinds : (call.request, selected) ∈ t.finds FetchRequest.authorizes s :=
      ht ▸ Turn.mem_finds hcall hauthorizes
    exact hcovered (call.request, selected) hfinds hctx amount hamount hle

theorem capped_initial {now : Int} {contexts : Nat → ShieldState} (hcap : 0 ≤ cap)
    (hentries : ∀ e ∈ (contexts c).spendEntries, 0 ≤ e.amount) :
    Capped parseUrl c cap windowMs (.initial now contexts) where
  coherent := coherent_initial
  configured := by simp [Process.initial]
  underway := by simp [Process.initial]
  positive := by simp [Process.initial]
  entries := hentries
  booked since _ := by
    refine List.sum_nonneg fun a ha => ?_
    obtain ⟨e, he, rfl⟩ := List.mem_map.mp ha
    exact hentries e (List.mem_filter.mp he).1
  alone := by simp [Process.initial, Process.CallAt]
  room := by simp [Process.initial, Process.CallAt]
  capped := hcap

end

/-! ## Runs -/

/-- In every run of calls with one cap in which a payment is let pass only when the recorded spend covers what was
handed out, and no spend of the window is dropped, the payments of the window stay within the cap. -/
theorem cumulative_cap_holds (parseUrl : String → Option String) (c : Nat) (cap windowMs now : Int)
    (contexts : Nat → ShieldState) (turns : List Turn) (hcap : 0 ≤ cap)
    (hentries : ∀ e ∈ (contexts c).spendEntries, 0 ≤ e.amount)
    (hcapped : ∀ t ∈ turns, ∀ request ∈ t.started, request.CappedBy c cap windowMs)
    (hcovered : Always (Process.turn parseUrl)
      (fun t s _ => t.ChecksCovered c cap windowMs s ∧ t.KeepsWindow c windowMs s) turns (.initial now contexts)) :
    Along (Process.turn parseUrl) (Process.WithinCap c cap windowMs) turns (.initial now contexts) :=
  hcovered.along (I := Capped parseUrl c cap windowMs) (capped_initial hcap hentries)
    (fun t ht _ _ hs hmeets hturn => hs.turn (hcapped t ht) hmeets.1 hmeets.2 hturn) fun _ hs => hs.capped

/-! ## A shop that does not acknowledge -/

/-- `maxCumulativeSpend` is 1000. -/
def cappedRequest : FetchRequest :=
  { shopRequest with config := { X402Config.default with maxCumulativeSpend := some 1000 } }

/-- The first payment is answered with an error, then there is another one. -/
def unacknowledgedTurns : List Turn :=
  [.start 0 cappedRequest, .resume 10 0 shopDemands calm] ++ payTurns 20 0 "a" ++
    [.resume 30 0 (shopAnswers 500) calm, .start 40 cappedRequest, .resume 50 1 shopDemands calm] ++ payTurns 60 1 "b"

theorem unacknowledged_payment_exceeds_cap :
    ¬ ∀ (parseUrl : String → Option String) (c : Nat) (cap windowMs now : Int) (contexts : Nat → ShieldState)
      (turns : List Turn), 0 ≤ cap → (∀ e ∈ (contexts c).spendEntries, 0 ≤ e.amount) →
      (∀ t ∈ turns, ∀ request ∈ t.started, request.CappedBy c cap windowMs) →
        Along (Process.turn parseUrl) (Process.WithinCap c cap windowMs) turns (.initial now contexts) := by
  intro h
  have hrun := h some 0 1000 dayMs 0 (fun _ => ⟨[], []⟩) unacknowledgedTurns (by decide) (by decide) (by decide)
  revert hrun
  decide +kernel

/-- A payment that is recorded, one that is denied, and one on the next day. -/
def acknowledgedTurns : List Turn :=
  [.start 0 cappedRequest, .resume 10 0 shopDemands calm] ++ payTurns 20 0 "a" ++
    [.resume 30 0 (shopAnswers 200) calm, .resume 30 0 .done calm, .start 300100 cappedRequest,
      .resume 300110 1 shopDemands calm, .resume 300110 1 .done calm, .start 86500000 cappedRequest,
      .resume 86500010 2 shopDemands calm] ++ payTurns 86500020 2 "b"

theorem cumulative_cap_holds_acknowledged :
    Along (Process.turn some) (Process.WithinCap 0 1000 dayMs) acknowledgedTurns (.initial 0 fun _ => ⟨[], []⟩) :=
  cumulative_cap_holds some 0 1000 dayMs 0 (fun _ => ⟨[], []⟩) acknowledgedTurns (by decide) (by decide) (by decide)
    (by decide +kernel)

end Sigil.Sdk
