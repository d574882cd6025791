import Sigil.Sdk.ShieldedFetch

/-!
# What a turn of `shieldedFetch` does

A turn moves one call from one phase to another. `Moves` lists what it can do to the process at the same time.
-/

namespace Sigil.Sdk

open Library

namespace Phase

def isFinished : Phase → Bool
  | .finished _ => true
  | _ => false

/-- The nonce of the call was recorded, or is not any more. -/
def pastRecord : Phase → Bool
  | .recording _ _ => true
  | .confirming _ _ _ => true
  | .sleeping _ _ _ => true
  | .finished _ => true
  | _ => false

/-- The payment that was handed over. -/
def payment : Phase → Option Payment
  | .sending payment _ => some payment
  | .validating payment _ _ => some payment
  | .recording payment _ => some payment
  | .confirming payment _ _ => some payment
  | .sleeping payment _ _ => some payment
  | _ => none

/-- The option whose replay check was passed and whose nonce is not recorded yet. -/
def unrecorded : Phase → Option PaymentRequirements
  | .checking selected false => some selected
  | .building selected _ => some selected
  | .fetchingBlockhash selected _ => some selected
  | .signing selected _ _ => some selected
  | .sending payment _ => some payment.selected
  | .validating payment _ _ => some payment.selected
  | _ => none

/-- The amount that the policies have let pass and that is not recorded as spent yet. -/
def uncharged : Phase → Option Int
  | .building _ amount => some amount
  | .fetchingBlockhash _ amount => some amount
  | .signing _ amount _ => some amount
  | .sending payment _ => some payment.transaction.amount
  | .validating payment _ _ => some payment.transaction.amount
  | .recording payment _ => some payment.transaction.amount
  | .confirming payment _ _ => some payment.transaction.amount
  | .sleeping payment _ _ => some payment.transaction.amount
  | _ => none

/-- The payment and the record are not lost. -/
structure Keeps (phase phase' : Phase) : Prop where
  unfinished : phase.isFinished = false
  payment : phase'.payment = phase.payment ∨ phase'.isFinished
  pastRecord : phase.pastRecord → phase'.pastRecord

/-- Besides, nothing new is begun. -/
structure Leads (phase phase' : Phase) : Prop extends Keeps phase phase' where
  unrecorded : phase'.unrecorded = none ∨ phase'.unrecorded = phase.unrecorded
  uncharged : phase'.uncharged = none ∨ phase'.uncharged = phase.uncharged

theorem Leads.finished {phase : Phase} {outcome : FetchOutcome} (h : phase.isFinished = false) :
    phase.Leads (.finished outcome) :=
  ⟨⟨h, .inr rfl, fun _ => rfl⟩, .inl rfl, .inl rfl⟩

/-- The payment may be sent: it has just been signed, or the server has not accepted it. -/
def Sends (phase : Phase) (payment : Payment) : Prop :=
  (∃ blockhash, phase = .signing payment.selected payment.transaction.amount blockhash) ∨
    ∃ attempt, phase = .sending payment attempt

/-- The answer of the server to the payment is there. -/
def Answered (phase : Phase) (payment : Payment) : Prop :=
  (∃ attempt, phase = .sending payment attempt) ∨ ∃ ok settlement, phase = .validating payment ok settlement

end Phase

namespace FetchRequest

variable (request : FetchRequest)

/-- The option whose replay check is made in the turn. -/
def checks : Phase → Answer → Option PaymentRequirements
  | .requesting, .response response =>
      match request.demanded response with
      | .ok (some selected) => if request.replayProtection then some selected else none
      | _ => none
  | _, _ => none

/-- The option that is put to the policies in the turn. -/
def authorizes : Phase → Answer → Option PaymentRequirements
  | .requesting, .response response =>
      match request.demanded response with
      | .ok (some selected) => if request.replayProtection then none else some selected
      | _ => none
  | .checking selected false, .done => some selected
  | _, _ => none

end FetchRequest

/-- The request and the option that `look` finds in the turn. -/
def Turn.finds (look : FetchRequest → Phase → Answer → Option PaymentRequirements) (s : Process) :
    Turn → Option (FetchRequest × PaymentRequirements)
  | .start _ _ => none
  | .resume _ i answer _ =>
      s.calls[i]?.bind fun call => (look call.request call.phase answer).map fun selected => (call.request, selected)

/-- What call `i` can do in a turn. -/
inductive Moves (parseUrl : String → Option String) (around : Surroundings) (i : Nat) (request : FetchRequest)
    (s : Process) (phase : Phase) (answer : Answer) : Process → Prop
  | leads {tracker : NonceTracker} {recent : List Int} {failed : List String} {phase' : Phase} :
      phase.Leads phase' →
      (tracker = s.globalNonceTracker ∨ tracker = s.globalNonceTracker.gc s.now) →
      s.failed ⊆ failed →
      Moves parseUrl around i request s phase answer
        (Process.goto i request phase'
          { s with globalNonceTracker := tracker, recentPayments := recent, failed })
  | checks {selected : PaymentRequirements} :
      request.checks phase answer = some selected →
      s.globalNonceTracker.isDuplicate s.now (Process.nonceKey parseUrl request selected) = false →
      Moves parseUrl around i request s phase answer
        (Process.goto i request (.checking selected false)
          { s with globalNonceTracker := s.globalNonceTracker.gc s.now })
  | approves {selected : PaymentRequirements} {amount : Int} :
      request.authorizes phase answer = some selected →
      s.approve around request selected = .ok (some amount) →
      Moves parseUrl around i request s phase answer (s.goto i request (.building selected amount))
  | hands {payment : Payment} {attempt : Nat} :
      phase.Sends payment →
      Moves parseUrl around i request s phase answer (s.handOver parseUrl i request payment attempt)
  | records {payment : Payment} {settlement : Option SettleResponse} :
      phase.Answered payment →
      Moves parseUrl around i request s phase answer
        (Process.goto i request (.recording payment settlement)
          { s with
            globalNonceTracker :=
              s.globalNonceTracker.record s.now (Process.nonceKey parseUrl request payment.selected)
            recorded := i :: s.recorded })
  | charges {payment : Payment} {recent : List Int} :
      phase.payment = some payment →
      Moves parseUrl around i request s phase answer
        (Process.charge around i request payment { s with recentPayments := recent })

section
variable {parseUrl : String → Option String} {around : Surroundings} {i : Nat} {request : FetchRequest}
  {s s' : Process} {phase phase' : Phase} {answer : Answer} {payment : Payment}

theorem Moves.goto (h : phase.Leads phase') :
    Moves parseUrl around i request s phase answer (s.goto i request phase') :=
  .leads h (.inl rfl) (List.Subset.refl _)

theorem Moves.throws {error : X402Error} (h : phase.isFinished = false) :
    Moves parseUrl around i request s phase answer (s.throws i request error) :=
  .goto (.finished h)

theorem authorize_moves {selected : PaymentRequirements} (h : request.authorizes phase answer = some selected)
    (hphase : phase.isFinished = false) :
    Moves parseUrl around i request s phase answer (s.authorize around i request selected) := by
  unfold Process.authorize
  cases happrove : s.approve around request selected with
  | error error => exact .throws hphase
  | ok result =>
      cases result with
      | none => exact .goto (.finished hphase)
      | some amount => exact .approves h happrove

theorem onResponse_moves {response : FetchResponse} :
    Moves parseUrl around i request s .requesting (.response response)
      (s.onResponse parseUrl around i request response) := by
  unfold Process.onResponse
  cases hdemanded : request.demanded response with
  | error error => exact .throws rfl
  | ok result =>
      cases result with
      | none => exact .goto (.finished rfl)
      | some selected =>
          dsimp only
          split
          · next hprotected =>
              cases hduplicate : s.globalNonceTracker.isDuplicate s.now
                (Process.nonceKey parseUrl request selected) with
              | true =>
                  have hleads : Phase.requesting.Leads (.checking selected true) :=
                    ⟨⟨rfl, .inl rfl, by simp [Phase.pastRecord]⟩, .inl rfl, .inl rfl⟩
                  exact .leads hleads (.inr rfl) (List.Subset.refl _)
              | false => exact .checks (by simp [FetchRequest.checks, hdemanded, hprotected]) hduplicate
          · next hunprotected =>
              exact authorize_moves (by simp [FetchRequest.authorizes, hdemanded, hunprotected]) rfl

theorem charge_moves (h : phase.payment = some payment) :
    Moves parseUrl around i request s phase answer (s.charge around i request payment) :=
  .charges h

theorem Phase.isFinished_of_payment (h : phase.payment = some payment) : phase.isFinished = false := by
  cases phase <;> simp_all [Phase.payment, Phase.isFinished]

theorem Phase.uncharged_of_payment (h : phase.payment = some payment) :
    phase.uncharged = some payment.transaction.amount := by
  cases phase <;> simp_all [Phase.payment, Phase.uncharged]

/-- Once the answer is there, a call goes on to wait for the confirmation. -/
theorem Phase.leads_confirming {signature : String} {deadline : Int} (h : phase.payment = some payment) :
    phase.Leads (.confirming payment signature deadline) :=
  ⟨⟨isFinished_of_payment h, .inl h.symm, fun _ => rfl⟩, .inl rfl, .inr (uncharged_of_payment h).symm⟩

theorem Phase.leads_sleeping {signature : String} {deadline : Int} (h : phase.payment = some payment) :
    phase.Leads (.sleeping payment signature deadline) :=
  ⟨⟨isFinished_of_payment h, .inl h.symm, fun _ => rfl⟩, .inl rfl, .inr (uncharged_of_payment h).symm⟩

theorem awaitStatus_moves {signature : String} {deadline : Int} {recent : List Int}
    (h : phase.payment = some payment) :
    Moves parseUrl around i request s phase answer
      (Process.awaitStatus around i request payment signature deadline { s with recentPayments := recent }) := by
  unfold Process.awaitStatus
  split
  · exact .leads (Phase.leads_confirming h) (.inl rfl) (List.Subset.refl _)
  · exact .charges h

theorem onStatus_moves {signature : String} {deadline : Int} {status : Option SignatureStatus}
    (h : phase.payment = some payment) :
    Moves parseUrl around i request s phase answer
      (s.onStatus around i request payment signature deadline status) := by
  unfold Process.onStatus
  cases status with
  | none => exact .goto (Phase.leads_sleeping h)
  | some status =>
      dsimp only
      split
      · exact .leads (.finished (Phase.isFinished_of_payment h)) (.inl rfl) (List.subset_cons_self ..)
      · split
        · exact charge_moves h
        · exact .goto (Phase.leads_sleeping h)

theorem confirm_moves {settlement : Option SettleResponse} (h : phase.payment = some payment) :
    Moves parseUrl around i request s phase answer (s.confirm around i request payment settlement) := by
  unfold Process.confirm
  dsimp only
  split
  · exact awaitStatus_moves h
  · exact .charges h

theorem Phase.payment_of_answered (h : phase.Answered payment) : phase.payment = some payment := by
  rcases h with ⟨_, rfl⟩ | ⟨_, _, rfl⟩ <;> rfl

theorem settle_moves {ok : Bool} {settlement : Option SettleResponse} (h : phase.Answered payment) :
    Moves parseUrl around i request s phase answer
      (s.settle parseUrl around i request payment ok settlement) := by
  have hphase := Phase.isFinished_of_payment (Phase.payment_of_answered h)
  unfold Process.settle
  split
  · exact .throws hphase
  · split
    · split
      · exact .records h
      · exact confirm_moves (Phase.payment_of_answered h)
    · exact .goto (.finished hphase)

theorem onPaymentResponse_moves {attempt : Nat} {response : FetchResponse} :
    Moves parseUrl around i request s (.sending payment attempt) answer
      (s.onPaymentResponse parseUrl around i request payment attempt response) := by
  unfold Process.onPaymentResponse
  split
  · exact .hands (.inr ⟨attempt, rfl⟩)
  · split
    · exact .goto ⟨⟨rfl, .inl rfl, by simp [Phase.pastRecord]⟩, .inr rfl, .inr rfl⟩
    · exact settle_moves (.inl ⟨attempt, rfl⟩)

theorem proceed_moves (h : s.proceed parseUrl around i request phase answer = .ok s') :
    Moves parseUrl around i request s phase answer s' := by
  unfold Process.proceed at h
  split at h
  all_goals first | obtain rfl := pure_eq_ok.mp h | cases h
  · exact onResponse_moves
  · exact .throws rfl
  · next selected duplicate =>
      cases duplicate with
      | true => exact .throws rfl
      | false => exact authorize_moves rfl rfl
  · exact .goto ⟨⟨rfl, .inl rfl, by simp [Phase.pastRecord]⟩, .inr rfl, .inr rfl⟩
  · exact .throws rfl
  · exact .goto ⟨⟨rfl, .inl rfl, by simp [Phase.pastRecord]⟩, .inr rfl, .inr rfl⟩
  · exact .throws rfl
  · exact .hands (.inl ⟨_, rfl⟩)
  · exact .throws rfl
  · exact onPaymentResponse_moves
  · exact .throws rfl
  · exact settle_moves (.inr ⟨_, _, rfl⟩)
  · exact settle_moves (.inr ⟨_, _, rfl⟩)
  · exact confirm_moves rfl
  · exact onStatus_moves rfl
  · exact .throws rfl
  · exact awaitStatus_moves rfl

theorem turn_cases {t : Turn} (h : s.turn parseUrl t = .ok s') : s.now ≤ t.now ∧
    ((∃ request, t.started = some request ∧ s' = { s with now := t.now, calls := s.calls ++ [request.begin] }) ∨
      ∃ i answer around call, t = .resume t.now i answer around ∧ s.calls[i]? = some call ∧
        Moves parseUrl around i call.request { s with now := t.now } call.phase answer s') := by
  obtain ⟨_, hnow, h⟩ := bind_eq_ok.mp h
  refine ⟨require_eq_ok.mp hnow, ?_⟩
  cases t with
  | start now request => exact .inl ⟨request, rfl, (pure_eq_ok.mp h).symm⟩
  | resume now i answer around =>
      obtain ⟨call, hcall, h⟩ := bind_eq_ok.mp h
      exact .inr ⟨i, answer, around, call, rfl, okOr_eq_ok.mp hcall, proceed_moves h⟩

end

/-! ## The history agrees with the calls -/

/-- The call still carries the payment that it handed over, or has ended. -/
def FetchCall.Owns (parseUrl : String → Option String) (call : FetchCall) (h : Handover) : Prop :=
  h.shieldCtx = call.request.shieldCtx ∧
    (call.phase.isFinished ∨ ∃ payment, call.phase.payment = some payment ∧ h.transaction = payment.transaction ∧
      h.key = Process.nonceKey parseUrl call.request payment.selected)

def Process.CallAt (s : Process) (i : Nat) (P : FetchCall → Prop) : Prop := ∃ call, s.calls[i]? = some call ∧ P call

structure Coherent (parseUrl : String → Option String) (s : Process) : Prop where
  past : ∀ h ∈ s.handed, h.time ≤ s.now
  owner : ∀ h ∈ s.handed, s.CallAt h.call fun call => call.Owns parseUrl h
  recorded : ∀ i ∈ s.recorded, s.CallAt i fun call => call.phase.pastRecord
  charged : ∀ i ∈ s.charged, s.CallAt i fun call => call.phase.isFinished

section
variable {parseUrl : String → Option String} {around : Surroundings} {i j : Nat} {request : FetchRequest}
  {s s' : Process} {phase phase' : Phase} {answer : Answer} {payment : Payment} {call : FetchCall}

@[simp] theorem goto_now : (s.goto i request phase).now = s.now := rfl
@[simp] theorem goto_globalNonceTracker :
    (s.goto i request phase).globalNonceTracker = s.globalNonceTracker := rfl
@[simp] theorem goto_contexts : (s.goto i request phase).contexts = s.contexts := rfl
@[simp] theorem goto_handed : (s.goto i request phase).handed = s.handed := rfl
@[simp] theorem goto_charged : (s.goto i request phase).charged = s.charged := rfl
@[simp] theorem goto_failed : (s.goto i request phase).failed = s.failed := rfl

theorem goto_getElem? (hcall : s.calls[i]? = some call) :
    (s.goto i request phase').calls[j]? = if i = j then some ⟨request, phase'⟩ else s.calls[j]? := by
  obtain ⟨hlt, _⟩ := List.getElem?_eq_some_iff.mp hcall
  simp [Process.goto, List.getElem?_set, hlt]

theorem Process.CallAt.goto {P : FetchCall → Prop} (h : s.CallAt j P) (hcall : s.calls[i]? = some call)
    (hP : P call → P ⟨request, phase'⟩) : (s.goto i request phase').CallAt j P := by
  obtain ⟨other, hother, hholds⟩ := h
  by_cases hij : i = j
  · subst hij
    obtain rfl : call = other := Option.some.inj (hcall.symm.trans hother)
    exact ⟨⟨request, phase'⟩, by simp [goto_getElem? hcall], hP hholds⟩
  · exact ⟨other, by simp [goto_getElem? hcall, hij, hother], hholds⟩

theorem callAt_goto_self {P : FetchCall → Prop} (hcall : s.calls[i]? = some call) (hP : P ⟨request, phase'⟩) :
    (s.goto i request phase').CallAt i P :=
  ⟨⟨request, phase'⟩, by simp [goto_getElem? hcall], hP⟩

theorem Process.CallAt.append {P : FetchCall → Prop} {new : List FetchCall} {now : Int} (h : s.CallAt j P) :
    Process.CallAt { s with now, calls := s.calls ++ new } j P := by
  obtain ⟨other, hother, hholds⟩ := h
  exact ⟨other, by simp [List.getElem?_append_left (List.getElem?_eq_some_iff.mp hother).1, hother], hholds⟩

/-- What holds of a call after a turn of call `i` holds of the new phase of call `i`, or held before. -/
theorem Process.CallAt.goto_cases {P : FetchCall → Prop} (h : (s.goto i request phase').CallAt j P)
    (hcall : s.calls[i]? = some call) : i = j ∧ P ⟨request, phase'⟩ ∨ s.CallAt j P := by
  obtain ⟨other, hother, hholds⟩ := h
  rw [goto_getElem? hcall] at hother
  split at hother
  · next hij =>
      cases hother
      exact .inl ⟨hij, hholds⟩
  · exact .inr ⟨other, hother, hholds⟩

theorem Process.CallAt.of_goto {P : FetchCall → Prop} (h : (s.goto i request phase').CallAt j P)
    (hcall : s.calls[i]? = some call) (hP : P ⟨request, phase'⟩ → P call) : s.CallAt j P := by
  rcases h.goto_cases hcall with ⟨rfl, hholds⟩ | h
  · exact ⟨call, hcall, hP hholds⟩
  · exact h

theorem forall_goto {P : FetchCall → Prop} (hs : ∀ call ∈ s.calls, P call) (hP : P ⟨request, phase'⟩) :
    ∀ other ∈ (s.goto i request phase').calls, P other := by
  intro other hother
  rcases List.mem_or_eq_of_mem_set hother with hother | rfl
  · exact hs other hother
  · exact hP

theorem forall_append {P : FetchCall → Prop} {new : FetchCall} (hs : ∀ call ∈ s.calls, P call) (hP : P new) :
    ∀ other ∈ s.calls ++ [new], P other := by
  intro other hother
  rcases List.mem_append.mp hother with hother | hother
  · exact hs other hother
  · rw [List.mem_singleton.mp hother]
    exact hP

theorem Process.CallAt.of_append {P : FetchCall → Prop} {new : FetchCall} {now : Int} (hnew : ¬ P new)
    (h : Process.CallAt { s with now, calls := s.calls ++ [new] } j P) : s.CallAt j P := by
  obtain ⟨other, hother, hholds⟩ := h
  rw [List.getElem?_append] at hother
  split at hother
  · exact ⟨other, hother, hholds⟩
  · obtain rfl : other = new := by simpa using List.mem_of_getElem? hother
    exact absurd hholds hnew

theorem FetchCall.Owns.keeps {h : Handover} (howns : call.Owns parseUrl h) (hkeeps : call.phase.Keeps phase') :
    FetchCall.Owns parseUrl ⟨call.request, phase'⟩ h := by
  obtain ⟨hctx, hfinished | ⟨payment, hpayment, hrest⟩⟩ := howns
  · simp [hkeeps.unfinished] at hfinished
  · rcases hkeeps.payment with hsame | hfinished
    · exact ⟨hctx, .inr ⟨payment, hsame.trans hpayment, hrest⟩⟩
    · exact ⟨hctx, .inl hfinished⟩

/-- Time passes, and what the history does not speak of may change. -/
theorem Coherent.later {now : Int} {tracker : NonceTracker} {recent : List Int} {failed : List String}
    (hs : Coherent parseUrl s) (hnow : s.now ≤ now) :
    Coherent parseUrl { s with now, globalNonceTracker := tracker, recentPayments := recent, failed } where
  past h hh := (hs.past h hh).trans hnow
  owner := hs.owner
  recorded := hs.recorded
  charged := hs.charged

theorem Coherent.goto (hs : Coherent parseUrl s) (hcall : s.calls[i]? = some call) (hkeeps : call.phase.Keeps phase') :
    Coherent parseUrl (s.goto i call.request phase') where
  past := hs.past
  owner h hh := (hs.owner h hh).goto hcall fun howns => howns.keeps hkeeps
  recorded j hj := (hs.recorded j hj).goto hcall hkeeps.pastRecord
  charged j hj := (hs.charged j hj).goto hcall fun hfinished => by simp [hkeeps.unfinished] at hfinished

theorem FetchCall.Owns.sends {h : Handover} {attempt : Nat} (howns : call.Owns parseUrl h)
    (hsends : call.phase.Sends payment) : FetchCall.Owns parseUrl ⟨call.request, .sending payment attempt⟩ h := by
  obtain ⟨hctx, hrest⟩ := howns
  rcases hsends with ⟨blockhash, hphase⟩ | ⟨before, hphase⟩
  · simp [hphase, Phase.isFinished, Phase.payment] at hrest
  · rw [hphase] at hrest
    exact ⟨hctx, hrest⟩

theorem Phase.Sends.pastRecord_eq_false (h : phase.Sends payment) : phase.pastRecord = false := by
  rcases h with ⟨_, rfl⟩ | ⟨_, rfl⟩ <;> rfl

theorem Phase.Sends.isFinished_eq_false (h : phase.Sends payment) : phase.isFinished = false := by
  rcases h with ⟨_, rfl⟩ | ⟨_, rfl⟩ <;> rfl

theorem Coherent.handOver {attempt : Nat} (hs : Coherent parseUrl s) (hcall : s.calls[i]? = some call)
    (hsends : call.phase.Sends payment) : Coherent parseUrl (s.handOver parseUrl i call.request payment attempt) where
  past h hh := by
    rcases List.mem_cons.mp hh with rfl | hh
    · exact le_refl _
    · exact hs.past h hh
  owner h hh := by
    rcases List.mem_cons.mp hh with rfl | hh
    · exact callAt_goto_self hcall ⟨rfl, .inr ⟨payment, rfl, rfl, rfl⟩⟩
    · exact (hs.owner h hh).goto hcall fun howns => howns.sends hsends
  recorded j hj := (hs.recorded j hj).goto hcall fun hpast => by simp [hsends.pastRecord_eq_false] at hpast
  charged j hj := (hs.charged j hj).goto hcall fun hfinished => by simp [hsends.isFinished_eq_false] at hfinished

theorem Phase.Answered.keeps {settlement : Option SettleResponse} (h : phase.Answered payment) :
    phase.Keeps (.recording payment settlement) where
  unfinished := isFinished_of_payment (payment_of_answered h)
  payment := .inl (payment_of_answered h).symm
  pastRecord _ := rfl

theorem Coherent.record {settlement : Option SettleResponse} {tracker : NonceTracker} (hs : Coherent parseUrl s)
    (hcall : s.calls[i]? = some call) (hanswered : call.phase.Answered payment) :
    Coherent parseUrl (Process.goto i call.request (.recording payment settlement)
      { s with globalNonceTracker := tracker, recorded := i :: s.recorded }) where
  past := hs.past
  owner h hh := (hs.owner h hh).goto hcall fun howns => howns.keeps hanswered.keeps
  recorded j hj := by
    rcases List.mem_cons.mp hj with rfl | hj
    · exact callAt_goto_self hcall rfl
    · exact (hs.recorded j hj).goto hcall fun _ => rfl
  charged j hj := (hs.charged j hj).goto hcall fun hfinished => by
    simp [Phase.isFinished_of_payment (Phase.payment_of_answered hanswered)] at hfinished

theorem Coherent.charge (hs : Coherent parseUrl s) (hcall : s.calls[i]? = some call)
    (hpayment : call.phase.payment = some payment) :
    Coherent parseUrl (s.charge around i call.request payment) := by
  have hkeeps (outcome : FetchOutcome) : call.phase.Keeps (.finished outcome) :=
    (Phase.Leads.finished (Phase.isFinished_of_payment hpayment)).toKeeps
  unfold Process.charge
  cases call.request.shieldCtx with
  | none => exact hs.goto hcall (hkeeps _)
  | some c =>
      refine ⟨hs.past, fun h hh => (hs.owner h hh).goto hcall fun howns => howns.keeps (hkeeps _),
        fun j hj => (hs.recorded j hj).goto hcall fun _ => rfl, fun j hj => ?_⟩
      rcases List.mem_cons.mp hj with rfl | hj
      · exact callAt_goto_self hcall rfl
      · exact (hs.charged j hj).goto hcall fun _ => rfl

theorem FetchRequest.keeps_of_checks {selected : PaymentRequirements}
    (h : request.checks phase answer = some selected) : phase.Keeps (.checking selected false) := by
  unfold FetchRequest.checks at h
  split at h
  · exact ⟨rfl, .inl rfl, by simp [Phase.pastRecord]⟩
  · cases h

theorem FetchRequest.keeps_of_authorizes {selected : PaymentRequirements} {amount : Int}
    (h : request.authorizes phase answer = some selected) : phase.Keeps (.building selected amount) := by
  unfold FetchRequest.authorizes at h
  split at h
  · exact ⟨rfl, .inl rfl, by simp [Phase.pastRecord]⟩
  · exact ⟨rfl, .inl rfl, by simp [Phase.pastRecord]⟩
  · cases h

theorem Coherent.moves (hs : Coherent parseUrl s) (hcall : s.calls[i]? = some call)
    (h : Moves parseUrl around i call.request s call.phase answer s') : Coherent parseUrl s' := by
  cases h with
  | leads hleads _ _ => exact (hs.later (le_refl _)).goto hcall hleads.toKeeps
  | checks hchecks _ => exact (hs.later (le_refl _)).goto hcall (FetchRequest.keeps_of_checks hchecks)
  | approves hauthorizes _ => exact hs.goto hcall (FetchRequest.keeps_of_authorizes hauthorizes)
  | hands hsends => exact hs.handOver hcall hsends
  | records hanswered => exact hs.record hcall hanswered
  | charges hpayment => exact Coherent.charge (hs.later (le_refl _)) hcall hpayment

@[simp] theorem FetchRequest.begin_request : request.begin.request = request := by
  unfold FetchRequest.begin
  split <;> rfl

@[simp] theorem FetchRequest.begin_unrecorded : request.begin.phase.unrecorded = none := by
  unfold FetchRequest.begin
  split <;> rfl

@[simp] theorem FetchRequest.begin_uncharged : request.begin.phase.uncharged = none := by
  unfold FetchRequest.begin
  split <;> rfl

theorem Turn.mem_finds {look : FetchRequest → Phase → Answer → Option PaymentRequirements}
    {selected : PaymentRequirements} {now : Int} (hcall : s.calls[i]? = some call)
    (h : look call.request call.phase answer = some selected) :
    (call.request, selected) ∈ (Turn.resume now i answer around).finds look s := by
  simp [Turn.finds, hcall, h]

theorem Coherent.start (hs : Coherent parseUrl s) {now : Int} (hnow : s.now ≤ now) (new : FetchCall) :
    Coherent parseUrl { s with now, calls := s.calls ++ [new] } where
  past h hh := (hs.past h hh).trans hnow
  owner h hh := (hs.owner h hh).append
  recorded j hj := (hs.recorded j hj).append
  charged j hj := (hs.charged j hj).append

theorem coherent_initial {now : Int} {contexts : Nat → ShieldState} : Coherent parseUrl (.initial now contexts) where
  past := by simp [Process.initial]
  owner := by simp [Process.initial]
  recorded := by simp [Process.initial]
  charged := by simp [Process.initial]

theorem Coherent.turn {t : Turn} (hs : Coherent parseUrl s) (h : s.turn parseUrl t = .ok s') :
    Coherent parseUrl s' := by
  obtain ⟨hnow, ⟨request, _, rfl⟩ | ⟨i, answer, around, call, _, hcall, hmoves⟩⟩ := turn_cases h
  · exact hs.start hnow _
  · have hlater : Coherent parseUrl { s with now := t.now } := hs.later hnow
    exact hlater.moves hcall hmoves

end

end Sigil.Sdk
