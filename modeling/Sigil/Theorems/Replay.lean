import Sigil.Lemmas.ShieldedFetch

/-!
# Duplicate payments

The replay check and the record of the nonce lie apart, with other calls between them, and a payment that the server
does not acknowledge is not recorded. Where neither happens, a key is paid once within the time to live.
-/

namespace Sigil.Sdk

open Library

/-- Of the payments with one key that were handed over within one time to live, all are the same transaction. -/
def Process.NoDuplicatePayment (s : Process) : Prop :=
  ∀ h ∈ s.handed, ∀ h' ∈ s.handed, h.key = h'.key → h.time ≤ h'.time → h'.time ≤ h.time + defaultTtlMs →
    h.transaction = h'.transaction

instance : DecidablePred Process.NoDuplicatePayment := fun s =>
  inferInstanceAs (Decidable (∀ h ∈ s.handed, ∀ h' ∈ s.handed, h.key = h'.key → h.time ≤ h'.time →
    h'.time ≤ h.time + defaultTtlMs → h.transaction = h'.transaction))

/-- The key for which the call has passed its replay check without a record yet. -/
def FetchCall.unrecordedKey (parseUrl : String → Option String) (call : FetchCall) : Option String :=
  call.phase.unrecorded.map (Process.nonceKey parseUrl call.request)

/-- No call is on its way for the key, and what was handed over for it was recorded or has expired. -/
def Process.Settled (parseUrl : String → Option String) (now : Int) (key : String) (s : Process) : Prop :=
  (∀ call ∈ s.calls, call.unrecordedKey parseUrl ≠ some key) ∧
    ∀ h ∈ s.handed, h.key = key → h.call ∈ s.recorded ∨ h.time + defaultTtlMs < now

instance {parseUrl : String → Option String} {now : Int} {key : String} :
    DecidablePred (Process.Settled parseUrl now key) := fun s =>
  inferInstanceAs (Decidable ((∀ call ∈ s.calls, call.unrecordedKey parseUrl ≠ some key) ∧
    ∀ h ∈ s.handed, h.key = key → h.call ∈ s.recorded ∨ h.time + defaultTtlMs < now))

/-- A replay check is passed only when the key is settled. -/
def Turn.ChecksSettled (parseUrl : String → Option String) (t : Turn) (s : Process) : Prop :=
  ∀ found ∈ t.finds FetchRequest.checks s,
    s.globalNonceTracker.isDuplicate t.now (Process.nonceKey parseUrl found.1 found.2) = false →
      s.Settled parseUrl t.now (Process.nonceKey parseUrl found.1 found.2)

instance {parseUrl : String → Option String} {t : Turn} : DecidablePred (Turn.ChecksSettled parseUrl t) := fun s =>
  inferInstanceAs (Decidable (∀ found ∈ t.finds FetchRequest.checks s,
    s.globalNonceTracker.isDuplicate t.now (Process.nonceKey parseUrl found.1 found.2) = false →
      s.Settled parseUrl t.now (Process.nonceKey parseUrl found.1 found.2)))

/-! ## The invariant -/

structure Exclusive (parseUrl : String → Option String) (s : Process) : Prop where
  coherent : Coherent parseUrl s
  replayProtection : ∀ call ∈ s.calls, call.request.replayProtection
  /-- a recorded payment is found as long as it matters -/
  found : ∀ h ∈ s.handed, h.call ∈ s.recorded → s.now ≤ h.time + defaultTtlMs →
    ∃ expiresAt ∈ s.globalNonceTracker.entries h.key, h.time + defaultTtlMs ≤ expiresAt
  /-- while a call is on its way, only itself has paid -/
  sole : ∀ i key, (s.CallAt i fun call => call.unrecordedKey parseUrl = some key) →
    ∀ h ∈ s.handed, h.key = key → s.now ≤ h.time + defaultTtlMs → h.call = i
  apart : ∀ i j key, (s.CallAt i fun call => call.unrecordedKey parseUrl = some key) →
    (s.CallAt j fun call => call.unrecordedKey parseUrl = some key) → i = j
  noDuplicate : s.NoDuplicatePayment

section
variable {parseUrl : String → Option String} {around : Surroundings} {i j : Nat} {request : FetchRequest}
  {s s' : Process} {phase phase' : Phase} {answer : Answer} {payment : Payment} {call : FetchCall} {key : String}
  {tracker : NonceTracker} {recent : List Int} {failed : List String}

theorem NonceTracker.mem_gc {now expiresAt : Int} :
    expiresAt ∈ (tracker.gc now).entries key ↔ expiresAt ∈ tracker.entries key ∧ now ≤ expiresAt := by
  simp [NonceTracker.gc, Option.mem_def, Option.filter_eq_some_iff]

theorem NonceTracker.isDuplicate_of_mem {now expiresAt : Int} (h : expiresAt ∈ tracker.entries key)
    (hnow : now ≤ expiresAt) : tracker.isDuplicate now key = true := by
  have hmem := mem_gc.mpr ⟨h, hnow⟩
  simp [isDuplicate, has, Option.mem_def.mp hmem]

theorem NonceTracker.mem_record_self {now : Int} : now + defaultTtlMs ∈ (tracker.record now key).entries key := by
  simp [record]

theorem NonceTracker.mem_record_of_ne {now expiresAt : Int} {other : String} (hne : other ≠ key)
    (h : expiresAt ∈ tracker.entries other) : expiresAt ∈ (tracker.record now key).entries other := by
  simpa [record, Function.update_of_ne hne] using h

/-- A phase in which nothing is begun keeps what is on its way. -/
theorem unrecordedKey_of_leads (h : phase'.unrecorded = none ∨ phase'.unrecorded = call.phase.unrecorded) :
    FetchCall.unrecordedKey parseUrl ⟨call.request, phase'⟩ = some key → call.unrecordedKey parseUrl = some key := by
  rcases h with h | h <;> simp [FetchCall.unrecordedKey, h]

theorem Exclusive.goto (hs : Exclusive parseUrl s) (hcall : s.calls[i]? = some call)
    (hkeeps : call.phase.Keeps phase')
    (hunrecorded : phase'.unrecorded = none ∨ phase'.unrecorded = call.phase.unrecorded) :
    Exclusive parseUrl (s.goto i call.request phase') where
  coherent := hs.coherent.goto hcall hkeeps
  replayProtection := forall_goto hs.replayProtection (hs.replayProtection call (List.mem_of_getElem? hcall))
  found := hs.found
  sole j key hj := hs.sole j key (hj.of_goto hcall (unrecordedKey_of_leads hunrecorded))
  apart j k key hj hk :=
    hs.apart j k key (hj.of_goto hcall (unrecordedKey_of_leads hunrecorded))
      (hk.of_goto hcall (unrecordedKey_of_leads hunrecorded))
  noDuplicate := hs.noDuplicate

/-- What the calls do not look at may change, and expired nonces may be dropped. -/
theorem Exclusive.shared (hs : Exclusive parseUrl s)
    (htracker : tracker = s.globalNonceTracker ∨ tracker = s.globalNonceTracker.gc s.now) :
    Exclusive parseUrl { s with globalNonceTracker := tracker, recentPayments := recent, failed } where
  coherent := hs.coherent.later (le_refl _)
  replayProtection := hs.replayProtection
  found h hh hrecorded hnow := by
    obtain ⟨expiresAt, hmem, hle⟩ := hs.found h hh hrecorded hnow
    rcases htracker with rfl | rfl
    · exact ⟨expiresAt, hmem, hle⟩
    · exact ⟨expiresAt, NonceTracker.mem_gc.mpr ⟨hmem, hnow.trans hle⟩, hle⟩
  sole := hs.sole
  apart := hs.apart
  noDuplicate := hs.noDuplicate

/-- A check is passed: for a settled key there is nobody else on the way and nothing to be found. -/
theorem Exclusive.checks {selected : PaymentRequirements} (hs : Exclusive parseUrl s)
    (hcall : s.calls[i]? = some call) (hchecks : call.request.checks call.phase answer = some selected)
    (hfresh : s.globalNonceTracker.isDuplicate s.now (Process.nonceKey parseUrl call.request selected) = false)
    (hsettled : s.Settled parseUrl s.now (Process.nonceKey parseUrl call.request selected)) :
    Exclusive parseUrl (s.goto i call.request (.checking selected false)) := by
  have hkeeps := FetchRequest.keeps_of_checks hchecks
  -- on its way after the turn: the call itself, for its own key, or a call that was on its way before
  have hcases (j : Nat) (key : String)
      (hj : (s.goto i call.request (.checking selected false)).CallAt j fun call =>
        call.unrecordedKey parseUrl = some key) :
      i = j ∧ Process.nonceKey parseUrl call.request selected = key ∨
        s.CallAt j fun call => call.unrecordedKey parseUrl = some key :=
    (hj.goto_cases hcall).imp_left (And.imp_right Option.some.inj)
  have hnobody (j : Nat) (hj : s.CallAt j fun other =>
      other.unrecordedKey parseUrl = some (Process.nonceKey parseUrl call.request selected)) : False := by
    obtain ⟨other, hother, hkey⟩ := hj
    exact hsettled.1 other (List.mem_of_getElem? hother) hkey
  have hprotected := hs.replayProtection call (List.mem_of_getElem? hcall)
  refine ⟨hs.coherent.goto hcall hkeeps, forall_goto hs.replayProtection hprotected, hs.found,
    fun j key hj h hh hkey hnow => ?_, fun j k key hj hk => ?_, hs.noDuplicate⟩
  · rcases hcases j key hj with ⟨rfl, hown⟩ | hj
    · rcases hsettled.2 h hh (hkey.trans hown.symm) with hrecorded | hexpired
      · obtain ⟨expiresAt, hmem, hle⟩ := hs.found h hh hrecorded hnow
        rw [hkey, ← hown] at hmem
        exact absurd (hfresh.symm.trans (NonceTracker.isDuplicate_of_mem hmem (hnow.trans hle))) Bool.false_ne_true
      · exact absurd hnow hexpired.not_ge
    · exact hs.sole j key hj h hh hkey hnow
  · rcases hcases j key hj with ⟨hji, hkey⟩ | hj <;> rcases hcases k key hk with ⟨hki, hkey'⟩ | hk
    · exact hji.symm.trans hki
    · exact (hnobody k (hkey.symm ▸ hk)).elim
    · exact (hnobody j (hkey'.symm ▸ hj)).elim
    · exact hs.apart j k key hj hk

theorem Phase.Sends.unrecorded_eq (h : phase.Sends payment) : phase.unrecorded = some payment.selected := by
  rcases h with ⟨_, rfl⟩ | ⟨_, rfl⟩ <;> rfl

/-- What the call itself handed over before is the transaction that it hands over now. -/
theorem FetchCall.Owns.transaction_eq {h : Handover} (howns : call.Owns parseUrl h)
    (hsends : call.phase.Sends payment) : h.transaction = payment.transaction := by
  obtain ⟨_, hrest⟩ := howns
  rcases hsends with ⟨_, hphase⟩ | ⟨_, hphase⟩
  · simp [hphase, Phase.isFinished, Phase.payment] at hrest
  · rw [hphase] at hrest
    rcases hrest with hfinished | ⟨same, hsame, htransaction, _⟩
    · cases hfinished
    · cases hsame
      exact htransaction

theorem Exclusive.handOver {attempt : Nat} (hs : Exclusive parseUrl s) (hcall : s.calls[i]? = some call)
    (hsends : call.phase.Sends payment) :
    Exclusive parseUrl (s.handOver parseUrl i call.request payment attempt) := by
  have hselfKey : call.unrecordedKey parseUrl = some (Process.nonceKey parseUrl call.request payment.selected) := by
    rw [FetchCall.unrecordedKey, hsends.unrecorded_eq]
    rfl
  have hsameKey : (⟨call.request, .sending payment attempt⟩ : FetchCall).unrecordedKey parseUrl =
      call.unrecordedKey parseUrl := hselfKey.symm
  have hunrecorded : i ∉ s.recorded := fun hrecorded => by
    obtain ⟨other, hother, hpast⟩ := hs.coherent.recorded i hrecorded
    cases hcall.symm.trans hother
    simp [hsends.pastRecord_eq_false] at hpast
  -- a payment of the key that still matters is the transaction of the call itself
  have hsame (h : Handover) (hh : h ∈ s.handed)
      (hkey : h.key = Process.nonceKey parseUrl call.request payment.selected)
      (hnow : s.now ≤ h.time + defaultTtlMs) : h.transaction = payment.transaction := by
    obtain ⟨other, hother, howns⟩ := hs.coherent.owner h hh
    rw [hs.sole i _ ⟨call, hcall, hselfKey⟩ h hh hkey hnow, hcall] at hother
    cases hother
    exact howns.transaction_eq hsends
  have hprotected := hs.replayProtection call (List.mem_of_getElem? hcall)
  refine ⟨hs.coherent.handOver hcall hsends, forall_goto hs.replayProtection hprotected,
    fun h hh hrecorded hnow => ?_, fun j key hj h hh hhkey hnow => ?_, fun j k key hj hk => ?_,
    fun h hh h' hh' hkeys hle hnow => ?_⟩
  · rcases List.mem_cons.mp hh with rfl | hh
    · exact absurd hrecorded hunrecorded
    · exact hs.found h hh hrecorded hnow
  · have hj := hj.of_goto hcall hsameKey.symm.trans
    rcases List.mem_cons.mp hh with rfl | hh
    · exact hs.apart i j key ⟨call, hcall, hselfKey.trans (congrArg some hhkey)⟩ hj
    · exact hs.sole j key hj h hh hhkey hnow
  · exact hs.apart j k key (hj.of_goto hcall hsameKey.symm.trans) (hk.of_goto hcall hsameKey.symm.trans)
  · rcases List.mem_cons.mp hh with rfl | hh <;> rcases List.mem_cons.mp hh' with rfl | hh'
    · rfl
    · have hpast := hs.coherent.past h' hh'
      exact (hsame h' hh' hkeys.symm (by dsimp only [defaultTtlMs] at *; omega)).symm
    · exact hsame h hh hkeys hnow
    · exact hs.noDuplicate h hh h' hh' hkeys hle hnow

theorem Exclusive.record {settlement : Option SettleResponse} (hs : Exclusive parseUrl s)
    (hcall : s.calls[i]? = some call) (hanswered : call.phase.Answered payment) :
    Exclusive parseUrl (Process.goto i call.request (.recording payment settlement)
      { s with
        globalNonceTracker :=
          s.globalNonceTracker.record s.now (Process.nonceKey parseUrl call.request payment.selected)
        recorded := i :: s.recorded }) := by
  have hpayment := Phase.payment_of_answered hanswered
  have hnothing (j : Nat) (key : String)
      (hj : (s.goto i call.request (.recording payment settlement)).CallAt j fun call =>
        call.unrecordedKey parseUrl = some key) : s.CallAt j fun call => call.unrecordedKey parseUrl = some key :=
    hj.of_goto hcall (unrecordedKey_of_leads (.inl rfl))
  have hprotected := hs.replayProtection call (List.mem_of_getElem? hcall)
  refine ⟨hs.coherent.record hcall hanswered, forall_goto hs.replayProtection hprotected,
    fun h hh hrecorded hnow => ?_, fun j key hj => hs.sole j key (hnothing j key hj),
    fun j k key hj hk => hs.apart j k key (hnothing j key hj) (hnothing k key hk), hs.noDuplicate⟩
  by_cases hkey : h.key = Process.nonceKey parseUrl call.request payment.selected
  · have hpast := hs.coherent.past h hh
    exact ⟨s.now + defaultTtlMs, hkey ▸ NonceTracker.mem_record_self, Int.add_le_add_right hpast _⟩
  · rcases List.mem_cons.mp hrecorded with hown | hrecorded
    · -- what the call itself handed over has its key
      obtain ⟨other, hother, _, hfinished | ⟨same, hsame, _, hkey'⟩⟩ := hs.coherent.owner h hh
      · rw [hown, hcall] at hother
        cases hother
        simp [Phase.isFinished_of_payment hpayment] at hfinished
      · rw [hown, hcall] at hother
        cases hother
        cases hpayment.symm.trans hsame
        exact absurd hkey' hkey
    · obtain ⟨expiresAt, hmem, hle⟩ := hs.found h hh hrecorded hnow
      exact ⟨expiresAt, NonceTracker.mem_record_of_ne hkey hmem, hle⟩

theorem Exclusive.charge (hs : Exclusive parseUrl s) (hcall : s.calls[i]? = some call)
    (hpayment : call.phase.payment = some payment) :
    Exclusive parseUrl (s.charge around i call.request payment) := by
  have hcoherent : Coherent parseUrl (s.charge around i call.request payment) :=
    hs.coherent.charge hcall hpayment
  have hgoto (outcome : FetchOutcome) : Exclusive parseUrl (s.goto i call.request (.finished outcome)) :=
    hs.goto hcall (Phase.Leads.finished (Phase.isFinished_of_payment hpayment)).toKeeps (.inl rfl)
  unfold Process.charge at hcoherent ⊢
  cases hctx : call.request.shieldCtx with
  | none => exact hgoto _
  | some c =>
      have hgoto := hgoto (if around.onPaymentThrows then .threw .external else .returned true)
      simp only [hctx] at hcoherent
      exact ⟨hcoherent, hgoto.replayProtection, hgoto.found, hgoto.sole, hgoto.apart, hgoto.noDuplicate⟩

/-- With replay protection a call is put to the policies only after its replay check. -/
theorem FetchRequest.unrecorded_of_authorizes {selected : PaymentRequirements} {amount : Int}
    (h : request.authorizes phase answer = some selected) (hprotected : request.replayProtection) :
    (Phase.building selected amount).unrecorded = phase.unrecorded := by
  unfold FetchRequest.authorizes at h
  split at h
  · simp [hprotected] at h
    split at h <;> cases h
  · exact h.symm
  · cases h

theorem Exclusive.moves {now : Int} (hs : Exclusive parseUrl s) (hnow : s.now = now)
    (hcall : s.calls[i]? = some call)
    (hsettled : ∀ selected ∈ call.request.checks call.phase answer,
      s.globalNonceTracker.isDuplicate now (Process.nonceKey parseUrl call.request selected) = false →
        s.Settled parseUrl now (Process.nonceKey parseUrl call.request selected))
    (h : Moves parseUrl around i call.request s call.phase answer s') : Exclusive parseUrl s' := by
  subst hnow
  cases h with
  | leads hleads htracker _ => exact (hs.shared htracker).goto hcall hleads.toKeeps hleads.unrecorded
  | checks hchecks hfresh =>
      have hgc := hs.checks hcall hchecks hfresh (hsettled _ hchecks hfresh)
      exact hgc.shared (.inr rfl)
  | approves hauthorizes _ =>
      refine hs.goto hcall (FetchRequest.keeps_of_authorizes hauthorizes) (.inr ?_)
      exact FetchRequest.unrecorded_of_authorizes hauthorizes
        (hs.replayProtection call (List.mem_of_getElem? hcall))
  | hands hsends => exact hs.handOver hcall hsends
  | records hanswered => exact hs.record hcall hanswered
  | charges hpayment =>
      exact Exclusive.charge (hs.shared (.inl rfl)) hcall hpayment

theorem Exclusive.start (hs : Exclusive parseUrl s) {now : Int} (hnow : s.now ≤ now)
    (hprotected : request.replayProtection) :
    Exclusive parseUrl { s with now, calls := s.calls ++ [request.begin] } := by
  have hnew (key : String) : ¬ request.begin.unrecordedKey parseUrl = some key := by simp [FetchCall.unrecordedKey]
  exact ⟨hs.coherent.start hnow _, forall_append hs.replayProtection (by simpa using hprotected),
    fun h hh hrecorded hle => hs.found h hh hrecorded (hnow.trans hle),
    fun j key hj h hh hkey hle => hs.sole j key (hj.of_append (hnew key)) h hh hkey (hnow.trans hle),
    fun j k key hj hk => hs.apart j k key (hj.of_append (hnew key)) (hk.of_append (hnew key)), hs.noDuplicate⟩

theorem Exclusive.turn {t : Turn} (hs : Exclusive parseUrl s)
    (hprotected : ∀ request ∈ t.started, request.replayProtection) (hsettled : t.ChecksSettled parseUrl s)
    (h : s.turn parseUrl t = .ok s') : Exclusive parseUrl s' := by
  obtain ⟨hnow, ⟨request, hstarted, rfl⟩ | ⟨i, answer, around, call, ht, hcall, hmoves⟩⟩ := turn_cases h
  · exact hs.start hnow (hprotected request hstarted)
  · have hlater : Exclusive parseUrl { s with now := t.now } :=
      ⟨hs.coherent.later hnow, hs.replayProtection, fun h hh hrecorded hle => hs.found h hh hrecorded (hnow.trans hle),
        fun j key hj h hh hkey hle => hs.sole j key hj h hh hkey (hnow.trans hle), hs.apart, hs.noDuplicate⟩
    refine hlater.moves rfl hcall (fun selected hchecks hfresh => ?_) hmoves
    have hfinds : (call.request, selected) ∈ t.finds FetchRequest.checks s := ht ▸ Turn.mem_finds hcall hchecks
    exact hsettled (call.request, selected) hfinds hfresh

theorem exclusive_initial {now : Int} {contexts : Nat → ShieldState} : Exclusive parseUrl (.initial now contexts) where
  coherent := coherent_initial
  replayProtection := by simp [Process.initial]
  found := by simp [Process.initial]
  sole := by simp [Process.initial]
  apart := by simp [Process.initial, Process.CallAt]
  noDuplicate := by simp [Process.NoDuplicatePayment, Process.initial]

end

/-! ## Runs -/

/-- In every run with replay protection in which a replay check is passed only for a settled key, no key is paid twice
within the time to live. -/
theorem no_duplicate_payment (parseUrl : String → Option String) (now : Int) (contexts : Nat → ShieldState)
    (turns : List Turn) (hprotected : ∀ t ∈ turns, ∀ request ∈ t.started, request.replayProtection)
    (hsettled : Always (Process.turn parseUrl) (fun t s _ => t.ChecksSettled parseUrl s) turns
      (.initial now contexts)) :
    Along (Process.turn parseUrl) Process.NoDuplicatePayment turns (.initial now contexts) :=
  hsettled.along (I := Exclusive parseUrl) exclusive_initial
    (fun t ht _ _ hs hchecks hturn => hs.turn (hprotected t ht) hchecks hturn) fun _ hs => hs.noDuplicate

/-! ## A shop that is paid -/

def shopOption : PaymentRequirements :=
  { network := "solana:mainnet", asset := "USDC", amount := "600", payTo := "shop" }

def shopRequest : FetchRequest :=
  { signer := "agent"
    url := "https://shop.example/data"
    config := .default
    shieldCtx := some 0
    rpc := true
    dryRun := false
    maxPayment := none
    paymentSignatureHeader := false }

def calm : Surroundings := { isPaused := false, checked := [], onPaymentThrows := false }

def shopDemands : Answer :=
  .response { status := 402, paymentRequired := some (some [shopOption]), paymentResponse := none }

def shopAnswers (status : Nat) : Answer := .response { status, paymentRequired := none, paymentResponse := none }

/-- From the demand of the shop to the payment that is sent to it. -/
def payTurns (now : Int) (call : Nat) (blockhash : String) : List Turn :=
  [.resume now call .done calm, .resume now call .done calm, .resume now call (.blockhash blockhash) calm,
    .resume now call (.signed ("signed " ++ blockhash)) calm]

/-- Both calls pass their replay check before one of them pays. -/
def racingTurns : List Turn :=
  [.start 0 shopRequest, .start 0 shopRequest, .resume 10 0 shopDemands calm, .resume 10 1 shopDemands calm] ++
    payTurns 20 0 "a" ++ payTurns 30 1 "b"

theorem racing_calls_pay_twice :
    ¬ ∀ (parseUrl : String → Option String) (now : Int) (contexts : Nat → ShieldState) (turns : List Turn),
      (∀ t ∈ turns, ∀ request ∈ t.started, request.replayProtection) →
        Along (Process.turn parseUrl) Process.NoDuplicatePayment turns (.initial now contexts) := by
  intro h
  have hrun := h some 0 (fun _ => ⟨[], []⟩) racingTurns (by decide)
  revert hrun
  decide +kernel

/-- A payment, a second attempt that is stopped, and another payment after the time to live. -/
def patientTurns : List Turn :=
  [.start 0 shopRequest, .resume 10 0 shopDemands calm] ++ payTurns 20 0 "a" ++
    [.resume 30 0 (shopAnswers 200) calm, .resume 30 0 .done calm, .start 40 shopRequest,
      .resume 50 1 shopDemands calm, .resume 50 1 .done calm, .start 300100 shopRequest,
      .resume 300110 2 shopDemands calm] ++ payTurns 300120 2 "b"

theorem no_duplicate_payment_patient :
    Along (Process.turn some) Process.NoDuplicatePayment patientTurns (.initial 0 fun _ => ⟨[], []⟩) :=
  no_duplicate_payment some 0 (fun _ => ⟨[], []⟩) patientTurns (by decide) (by decide +kernel)

end Sigil.Sdk
