import Mathlib.Data.Nat.Digits.Defs
import Sigil.Lemmas.Dashboard
import Sigil.Sdk.Mutations
import Sigil.Theorems.Timelock

/-!
# What the dashboard shows

A queued change is shown as it was made, but for the mode of the destinations, which is not shown, and the fractions of
basis points, which are not encoded. An overview is read back from its text, but for the amounts of a queued change,
which stay texts.
-/

namespace Sigil.Sdk

open Library Library.JsValue

/-! ## Queued changes -/

section
variable {env : Environment} {changes : PolicyChanges JsNumber} {u : PolicyUpdate}

theorem encodeGiven_map {α β : Type} {encode : α → Option β} {decode : β → α} {x : Option α} {y : Option β}
    (hexact : ∀ a b, encode a = some b → decode b = a) (h : encodeGiven encode x = .ok y) : y.map decode = x := by
  cases x with
  | none =>
      rw [encodeGiven, pure_eq_ok] at h
      rw [← h]
      rfl
  | some a =>
      simp only [encodeGiven, bind_eq_ok, okOr_eq_ok, pure_eq_ok] at h
      obtain ⟨b, hb, rfl⟩ := h
      simp [hexact a b hb]

theorem mapM_decode {α β : Type} {encode : α → Option β} {decode : β → α}
    (hexact : ∀ a b, encode a = some b → decode b = a) {l : List α} {l' : List β} (h : l.mapM encode = some l') :
    l'.map decode = l := by
  induction l generalizing l' with
  | nil =>
      cases h
      rfl
  | cons a l ih =>
      simp only [List.mapM_cons, Option.bind_eq_bind, Option.bind_eq_some_iff, Option.pure_def,
        Option.some.injEq] at h
      obtain ⟨b, hb, bs, hbs, rfl⟩ := h
      rw [List.map_cons, hexact a b hb, ih hbs]

theorem numberOf_of_value {x : Double} {n : Nat} (h : x.value = n) : numberOf n = x := by
  rw [← Double.ofRat_value x, h]
  rfl

theorem decode_timelock {x : Option JsNumber} {y : Option UInt64} (h : encodeTimelock env.codecs x = .ok y) :
    (y.map UInt64.toNat).map (fun n : Nat => JsNumber.finite (numberOf n)) = x := by
  cases x with
  | none =>
      rw [encodeTimelock, pure_eq_ok] at h
      rw [← h]
      rfl
  | some x =>
      cases x with
      | finite x =>
          simp only [encodeTimelock, bigIntOfNumber, encodeGiven, bind_eq_ok, require_eq_ok, pure_eq_ok,
            okOr_eq_ok] at h
          obtain ⟨_, ⟨_, hinteger, rfl⟩, n, hn, rfl⟩ := h
          have hvalue : x.value = n.toNat := by
            rw [← hinteger, env.codecs.u64_exact hn]
            simp
          simp [numberOf_of_value hvalue]
      | nan => cases h
      | infinity negative => cases h

/-- What is shown of a number of two bytes. -/
def shownNumber (n : UInt16) : JsNumber := .finite (numberOf n.toNat)

theorem numberOf_eq_iff {x : Double} {n : Nat} (hn : n ≤ 2 ^ 53) : numberOf n = x ↔ x.value = n := by
  constructor
  · intro h
    rw [← h, ← Double.round_natCast hn]
    rfl
  · exact numberOf_of_value

/-- A fraction is not encoded, and what is no number is encoded as 0. -/
theorem shownNumber_eq_iff {x : JsNumber} {n : UInt16} (h : u16Encoder x = some n) :
    shownNumber n = x ↔ x.isInteger := by
  simp only [u16Encoder, numberEncoder, Option.map_eq_some_iff, Option.ite_none_left_eq_some, Option.some.injEq,
    Bool.or_eq_true, not_or] at h
  obtain ⟨_, ⟨⟨hlow, hhigh⟩, rfl⟩, hn⟩ := h
  cases x with
  | nan => simp [shownNumber, JsNumber.isInteger]
  | infinity negative => cases negative <;> simp [JsNumber.lt, JsNumber.gt] at hlow hhigh
  | finite x =>
      simp only [JsNumber.lt, JsNumber.gt, decide_eq_true_eq, not_lt] at hlow hhigh
      have hlt := n.toNat_lt
      simp only [shownNumber, JsNumber.finite.injEq, numberOf_eq_iff (show n.toNat ≤ 2 ^ 53 by omega),
        JsNumber.isInteger, decide_eq_true_eq]
      constructor
      · intro hvalue
        rw [hvalue, Rat.den_natCast]
      · intro hden
        obtain ⟨k, hk⟩ := Int.eq_ofNat_of_zero_le (Rat.num_nonneg.mpr hlow)
        have hvalue : x.value = k := by
          rw [← Rat.num_div_den x.value, hk, hden]
          simp
        have hle : k ≤ 65535 := by
          rw [hvalue] at hhigh
          exact_mod_cast hhigh
        have huint : (JsNumber.finite x).toUint32 = k := by
          simp only [JsNumber.toUint32, hk, hden, Nat.cast_one, Int.tdiv_one]
          omega
        rw [hvalue, ← hn, huint, UInt16.toNat_ofNat_of_lt' (Nat.lt_succ_of_le hle)]

theorem shownGiven_eq_iff {x : Option JsNumber} {y : Option UInt16} (h : encodeGiven u16Encoder x = .ok y) :
    y.map shownNumber = x ↔ ∀ a ∈ x, a.isInteger := by
  cases x with
  | none =>
      rw [encodeGiven, pure_eq_ok] at h
      simp [← h]
  | some x =>
      simp only [encodeGiven, bind_eq_ok, okOr_eq_ok, pure_eq_ok] at h
      obtain ⟨n, hn, rfl⟩ := h
      simp [shownNumber_eq_iff hn]

theorem modeMap_mapProtocolMode (m : ProtocolMode) : ProtocolMode.modeMap (mapProtocolMode m).toNat = m := by
  cases m <;> rfl

/-- The numbers of changes, each by its own value. -/
def PolicyChanges.mapNumbers {ν μ : Type} (f : ν → μ) (c : PolicyChanges ν) : PolicyChanges μ :=
  { c with
    maxSlippageBps := c.maxSlippageBps.map f
    developerFeeRate := c.developerFeeRate.map f
    timelock := c.timelock.map f
    destinationMode := c.destinationMode.map f }

/-- The object has the fields of the changes that are present, each with its value. -/
def ShowsChanges (v : JsValue) (c : PolicyChanges JsNumber) : Prop :=
  ∃ d : PolicyChanges Double, v = d.toObject ∧ d.mapNumbers .finite = c

theorem getD_map_inj {α : Type} {f : α → JsValue} (hinj : Function.Injective f) (hdefined : ∀ a, f a ≠ undefined)
    {x y : Option α} (h : (x.map f).getD undefined = (y.map f).getD undefined) : x = y := by
  cases x with
  | none =>
      cases y with
      | none => rfl
      | some b => exact absurd h.symm (hdefined b)
  | some a =>
      cases y with
      | none => exact absurd h (hdefined a)
      | some b => exact congrArg some (hinj h)

theorem texts_injective : Function.Injective fun l : List String => array (l.map string) := by
  intro l l' h
  exact List.map_injective_iff.mpr (fun _ _ => string.inj) (array.inj h)

theorem amounts_injective : Function.Injective fun l : List Int => array (l.map bigint) := by
  intro l l' h
  exact List.map_injective_iff.mpr (fun _ _ => bigint.inj) (array.inj h)

theorem modeText_injective : Function.Injective fun m : ProtocolMode => string m.text := by
  intro m m' h
  cases m <;> cases m' <;> simp_all [ProtocolMode.text]

/-- Every field is read back from the object under its name. -/
theorem toObject_inj {c d : PolicyChanges Double} (h : c.toObject = d.toObject) : c = d := by
  have hget (key : String) : c.toObject.get key = d.toObject.get key := by rw [h]
  simp only [PolicyChanges.toObject, get_object, List.lookup_append, lookup_optionalField] at hget
  have hdailyCap : c.dailyCap = d.dailyCap :=
    getD_map_inj (fun _ _ => bigint.inj) (by simp) (by simpa using hget "dailyCap")
  have hmaxPerTrade : c.maxPerTrade = d.maxPerTrade :=
    getD_map_inj (fun _ _ => bigint.inj) (by simp) (by simpa using hget "maxPerTrade")
  have happrovedApps : c.approvedApps = d.approvedApps :=
    getD_map_inj texts_injective (by simp) (by simpa using hget "approvedApps")
  have hprotocolMode : c.protocolMode = d.protocolMode :=
    getD_map_inj modeText_injective (by simp) (by simpa using hget "protocolMode")
  have hhasProtocolCaps : c.hasProtocolCaps = d.hasProtocolCaps :=
    getD_map_inj (fun _ _ => bool.inj) (by simp) (by simpa using hget "hasProtocolCaps")
  have hprotocolCaps : c.protocolCaps = d.protocolCaps :=
    getD_map_inj amounts_injective (by simp) (by simpa using hget "protocolCaps")
  have hmaxSlippageBps : c.maxSlippageBps = d.maxSlippageBps :=
    getD_map_inj (fun _ _ => number.inj) (by simp) (by simpa using hget "maxSlippageBps")
  have hallowedDestinations : c.allowedDestinations = d.allowedDestinations :=
    getD_map_inj texts_injective (by simp) (by simpa using hget "allowedDestinations")
  have hdeveloperFeeRate : c.developerFeeRate = d.developerFeeRate :=
    getD_map_inj (fun _ _ => number.inj) (by simp) (by simpa using hget "developerFeeRate")
  have hsessionExpirySeconds : c.sessionExpirySeconds = d.sessionExpirySeconds :=
    getD_map_inj (fun _ _ => bigint.inj) (by simp) (by simpa using hget "sessionExpirySeconds")
  have htimelock : c.timelock = d.timelock :=
    getD_map_inj (fun _ _ => number.inj) (by simp) (by simpa using hget "timelock")
  have hdestinationMode : c.destinationMode = d.destinationMode :=
    getD_map_inj (fun _ _ => number.inj) (by simp) (by simpa using hget "destinationMode")
  cases c
  cases d
  simp only [PolicyChanges.mk.injEq]
  exact ⟨hdailyCap, hmaxPerTrade, happrovedApps, hprotocolMode, hhasProtocolCaps, hprotocolCaps, hmaxSlippageBps,
    hallowedDestinations, hdeveloperFeeRate, hsessionExpirySeconds, htimelock, hdestinationMode⟩

/-- Everything but the mode of the destinations is decoded as it was encoded. -/
theorem decode_pending {clock : Clock} {executes : Int} (h : queuePolicyUpdate env.codecs changes = .ok u) :
    (decodeChanges env (u.pending clock executes)).mapNumbers .finite =
      { changes with
        maxSlippageBps := u.maxSlippageBps.map shownNumber
        developerFeeRate := u.developerFeeRate.map shownNumber
        destinationMode := none } := by
  simp only [queuePolicyUpdate, bind_eq_ok, pure_eq_ok] at h
  obtain ⟨_, -, cap, hcap, trade, htrade, apps, happs, fee, -, slippage, -, timelock, htimelock,
    destinations, hdestinations, expiry, hexpiry, caps, hcaps, mode, -, rfl⟩ := h
  have hu64 : ∀ (i : Int) (n : UInt64), env.codecs.u64 i = some n → Int.ofNat n.toNat = i :=
    fun _ _ hn => (env.codecs.u64_exact hn).symm
  have haddress : ∀ (s : String) (k : Pubkey), env.codecs.address s = some k → env.codecs.base58 k = s :=
    fun _ _ hk => env.codecs.address_exact hk
  have hlist : ∀ (l : List Int) (l' : List UInt64), l.mapM env.codecs.u64 = some l' →
      l'.map (fun n => Int.ofNat n.toNat) = l := fun _ _ hl => mapM_decode hu64 hl
  have haddresses : ∀ (l : List String) (l' : List Pubkey), l.mapM env.codecs.address = some l' →
      l'.map env.codecs.base58 = l := fun _ _ hl => mapM_decode haddress hl
  have hmode : (changes.protocolMode.map mapProtocolMode).map (fun n => ProtocolMode.modeMap n.toNat) =
      changes.protocolMode := by
    cases changes.protocolMode <;> simp [modeMap_mapProtocolMode]
  have htimelock' := decode_timelock htimelock
  simp only [Option.map_map, Function.comp_def] at hmode htimelock'
  simp only [PolicyChanges.mapNumbers, PolicyUpdate.pending, decodeChanges, Option.map_map, Option.map_none,
    List.map_map, Function.comp_def, hmode, htimelock', encodeGiven_map hu64 hcap, encodeGiven_map hu64 htrade,
    encodeGiven_map haddresses happs, encodeGiven_map haddresses hdestinations, encodeGiven_map hu64 hexpiry,
    encodeGiven_map hlist hcaps]
  rfl

theorem encoded_numbers (h : queuePolicyUpdate env.codecs changes = .ok u) :
    encodeGiven u16Encoder changes.maxSlippageBps = .ok u.maxSlippageBps ∧
      encodeGiven u16Encoder changes.developerFeeRate = .ok u.developerFeeRate := by
  simp only [queuePolicyUpdate, bind_eq_ok, pure_eq_ok] at h
  obtain ⟨_, -, _, -, _, -, _, -, _, hfee, _, hslippage, _, -, _, -, _, -, _, -, _, -, rfl⟩ := h
  exact ⟨hslippage, hfee⟩

/-- The changes are shown as they were queued if and only if the mode of the destinations is not among them, and the
numbers of two bytes are integers. -/
theorem queued_changes_shown_iff {ctx : Ctx} {a : OwnerAction} {w w' : World} {octx : OverviewContext}
    {view : View PolicyData} (hsdk : queuePolicyUpdate env.codecs changes = .ok u)
    (hchain : Sigil.queuePolicyUpdate ctx a u w = .ok w') (hpending : octx.pendingPolicy = w'.pendingPolicies a.vault)
    (hview : buildPolicy env octx = .ok view) :
    ShowsChanges (view.data.pendingUpdate.get "changes") changes ↔
      changes.destinationMode = none ∧ (∀ x ∈ changes.maxSlippageBps, x.isInteger) ∧
        ∀ x ∈ changes.developerFeeRate, x.isInteger := by
  obtain ⟨executes, hexecutes⟩ : ∃ executes, octx.pendingPolicy = some (u.pending ctx.clock executes) := by
    simp only [Sigil.queuePolicyUpdate, bind_eq_ok, pure_eq_ok] at hchain
    obtain ⟨_, -, _, -, _, -, _, -, _, -, _, -, _, -, executes, -, rfl⟩ := hchain
    exact ⟨executes, by simp [hpending, World.setPolicy, World.setPendingPolicy]⟩
  have hchanges : view.data.pendingUpdate.get "changes" =
      (decodeChanges env (u.pending ctx.clock executes)).toObject := by
    simp only [buildPolicy, bind_eq_ok, pure_eq_ok] at hview
    obtain ⟨_, -, rfl⟩ := hview
    simp [hexecutes, pendingObject]
  have hshows : ShowsChanges (view.data.pendingUpdate.get "changes") changes ↔
      (decodeChanges env (u.pending ctx.clock executes)).mapNumbers .finite = changes := by
    rw [hchanges]
    constructor
    · intro h
      obtain ⟨d, hd, hnumbers⟩ := h
      rw [toObject_inj hd]
      exact hnumbers
    · intro hnumbers
      exact ⟨_, rfl, hnumbers⟩
  obtain ⟨hslippage, hfee⟩ := encoded_numbers hsdk
  rw [hshows, decode_pending hsdk, ← shownGiven_eq_iff hslippage, ← shownGiven_eq_iff hfee]
  cases changes
  simp only [PolicyChanges.mk.injEq, true_and]
  constructor
  · intro h
    obtain ⟨hslippage, hfee, hmode⟩ := h
    exact ⟨hmode.symm, hslippage, hfee⟩
  · intro h
    obtain ⟨hmode, hslippage, hfee⟩ := h
    exact ⟨hslippage, hfee, hmode.symm⟩

end

/-! ### Queueing a new cap, and an opening of the destinations -/

def base58Alphabet : List Char := "123456789ABCDEFGHJKLMNPQRSTUVWXYZabcdefghijkmnopqrstuvwxyz".toList

def base58Text : Pubkey → String
  | .key n => .ofList (List.replicate (32 - (Nat.digits 256 n).length) '1' ++
      (Nat.digits 58 n).reverse.map fun digit => base58Alphabet.getD digit '1')
  | _ => ""

def base58Key (s : String) : Pubkey :=
  .key (s.toList.foldl (fun n c => n * 58 + base58Alphabet.idxOf c) 0)

/-- Codecs that refuse what they cannot represent. -/
def exactCodecs : Codecs where
  u64 i := if i = (UInt64.ofNat i.toNat).toNat then some (UInt64.ofNat i.toNat) else none
  address s := if base58Text (base58Key s) = s then some (base58Key s) else none
  base58 := base58Text
  u64_exact h := by
    obtain ⟨heq, ⟨⟩⟩ := Option.ite_none_right_eq_some.mp h
    exact heq
  address_exact h := by
    obtain ⟨heq, ⟨⟩⟩ := Option.ite_none_right_eq_some.mp h
    exact heq

/-- Analytics that find nothing. -/
def quietEnvironment : Environment where
  codecs := exactCodecs
  nowMs := 1000000
  getSecurityPosture _ := { checks := [], failCount := .ofRat 0, criticalFailures := [] }
  getSpendingBreakdown _ := { byProtocol := [] }
  evaluateAlertConditions _ _ := []
  getAgentProfile _ _ := none
  getSpendingHistory _ _ := []
  resolveProtocolName s := s
  toISOString _ := none
  numberText _ := ""

def overviewOf (w : World) : OverviewContext :=
  { vault := ""
    state :=
      { vault := w.vaults timelockAction.vault
        policy := w.policies timelockAction.vault
        tracker := none
        globalBudget := { spent24h := 0, cap := 0, remaining := 0 }
        allAgentBudgets := fun _ => none
        stablecoinBalances := { usdc := 0, usdt := 0 } }
    pendingPolicy := w.pendingPolicies timelockAction.vault }

def queueCtx : Ctx := { clock := { unixTimestamp := 1001, slot := 3 }, signers := [.key 1] }

def newCap : PolicyChanges JsNumber := { dailyCap := some 500000000, maxSlippageBps := some (.ofUInt32 100) }

theorem queued_changes_shown_cap : ∃ u w w' view, queuePolicyUpdate exactCodecs newCap = .ok u ∧
    run Step.exec ((queueRun 1800).take 1) {} = .ok w ∧ Sigil.queuePolicyUpdate queueCtx timelockAction u w = .ok w' ∧
    buildPolicy quietEnvironment (overviewOf w') = .ok view ∧
    ShowsChanges (view.data.pendingUpdate.get "changes") newCap := by
  obtain ⟨u, hu⟩ : ∃ u, queuePolicyUpdate exactCodecs newCap = .ok u := ⟨_, rfl⟩
  obtain ⟨w, hrun⟩ : ∃ w, run Step.exec ((queueRun 1800).take 1) {} = .ok w := ⟨_, rfl⟩
  obtain ⟨w', hqueue⟩ : ∃ w', Sigil.queuePolicyUpdate queueCtx timelockAction u w = .ok w' := by
    cases hu
    cases hrun
    exact ⟨_, rfl⟩
  obtain ⟨view, hview⟩ : ∃ view, buildPolicy quietEnvironment (overviewOf w') = .ok view := by
    cases hu
    cases hrun
    cases hqueue
    exact ⟨_, rfl⟩
  have hslippage : ∀ x ∈ newCap.maxSlippageBps, x.isInteger := by
    intro x hx
    cases hx
    rfl
  exact ⟨u, w, w', view, hu, hrun, hqueue, hview,
    (queued_changes_shown_iff hu hqueue rfl hview).mpr ⟨rfl, hslippage, by simp [newCap]⟩⟩

def openDestinations : PolicyChanges JsNumber := { destinationMode := some (.ofUInt32 1) }

/-- The destinations are about to be opened, and the dashboard shows no change. -/
theorem opening_hidden : ∃ u w w' view, queuePolicyUpdate exactCodecs openDestinations = .ok u ∧
    run Step.exec ((queueRun 1800).take 1) {} = .ok w ∧ Sigil.queuePolicyUpdate queueCtx timelockAction u w = .ok w' ∧
    buildPolicy quietEnvironment (overviewOf w') = .ok view ∧
    view.data.pendingUpdate.get "changes" = ({} : PolicyChanges Double).toObject ∧
    ¬ ShowsChanges (view.data.pendingUpdate.get "changes") openDestinations := by
  obtain ⟨u, hu⟩ : ∃ u, queuePolicyUpdate exactCodecs openDestinations = .ok u := ⟨_, rfl⟩
  obtain ⟨w, hrun⟩ : ∃ w, run Step.exec ((queueRun 1800).take 1) {} = .ok w := ⟨_, rfl⟩
  obtain ⟨w', hqueue⟩ : ∃ w', Sigil.queuePolicyUpdate queueCtx timelockAction u w = .ok w' := by
    cases hu
    cases hrun
    exact ⟨_, rfl⟩
  obtain ⟨view, hview, hshown⟩ : ∃ view, buildPolicy quietEnvironment (overviewOf w') = .ok view ∧
      view.data.pendingUpdate.get "changes" = ({} : PolicyChanges Double).toObject := by
    cases hu
    cases hrun
    cases hqueue
    exact ⟨_, rfl, rfl⟩
  refine ⟨u, w, w', view, hu, hrun, hqueue, hview, hshown, fun hshows => ?_⟩
  obtain ⟨d, hd, hnumbers⟩ := hshows
  rw [hshown] at hd
  rw [← toObject_inj hd] at hnumbers
  have hmode := congrArg PolicyChanges.destinationMode hnumbers
  cases hmode

/-! ## The overview through a text -/

/-- `toJSON` of an overview. -/
def OverviewData.serialize (d : OverviewData) : JsValue :=
  .object
    [("vault", d.vault.serialize), ("agents", .array (d.agents.map AgentData.serialize)),
      ("spending", d.spending.serialize), ("health", d.health.serialize), ("policy", d.policy.serialize),
      ("activity", .array (d.activity.map ActivityRow.serialize))]

/-- The copy is read as the same data, and serializes to the same value. -/
def ReadBackFromCopy (d : View OverviewData) : Prop :=
  ∃ json r, d.toJSON.copy = some json ∧ overviewDataFromJSON json = some r ∧ r.data = d.data ∧ r.toJSON.Same d.toJSON

/-- No amount of money or time is among the changes. -/
structure AmountFree (pp : PendingPolicyUpdate) : Prop where
  dailySpendingCapUsd : pp.dailySpendingCapUsd = none
  maxTransactionAmountUsd : pp.maxTransactionAmountUsd = none
  sessionExpirySeconds : pp.sessionExpirySeconds = none
  protocolCaps : pp.protocolCaps.getD [] = []

section
variable {env : Environment} {ctx : OverviewContext} {d : View OverviewData}

theorem toJSON_buildOverview (h : buildOverview env ctx = .ok d) : d.toJSON = d.data.serialize ∧
    d.data.policy.pendingUpdate = (ctx.pendingPolicy.map (pendingObject env)).getD .undefined := by
  simp only [buildOverview, buildVaultState, buildAgents, buildSpending, buildHealth, buildPolicy, bind_eq_ok,
    pure_eq_ok] at h
  obtain ⟨_, ⟨_, -, rfl⟩, _, ⟨_, -, rfl⟩, _, ⟨_, -, rfl⟩, _, ⟨_, -, rfl⟩, _, ⟨_, -, rfl⟩, rfl⟩ := h
  refine ⟨?_, rfl⟩
  simp [OverviewData.serialize, buildActivityRows, buildActivityRow, buildAgent, Function.comp_def]

theorem plain_policyData (p : PolicyData) :
    p.serialize.hasBigint = (serializePending p.pendingUpdate).hasBigint := by
  simp [PolicyData.serialize, roundTrips_app.list.plain, roundTrips_bs.list.plain, roundTrips_texts.plain]

theorem plain_overviewData (d : OverviewData) :
    d.serialize.hasBigint = (serializePending d.policy.pendingUpdate).hasBigint := by
  have hagents : (JsValue.array (d.agents.map AgentData.serialize)).hasBigint = false := by
    simp [hasBigint, anyBigint_map, plain_agentData]
  have hactivity : (JsValue.array (d.activity.map ActivityRow.serialize)).hasBigint = false := by
    simp [hasBigint, anyBigint_map, plain_activityRow]
  simp [OverviewData.serialize, plain_vaultState, hagents, plain_spendingData, plain_healthData, plain_policyData,
    hactivity]

/-- Only the pending update may be read as another one. -/
theorem reads_overviewData (d : OverviewData) : overviewDataFromJSON d.serialize.clean =
    some { data := { d with policy :=
             { d.policy with pendingUpdate := (serializePending d.policy.pendingUpdate).clean } }
           toJSON := d.serialize.clean } := by
  have hagents := asListOf_clean AgentData.serialize (fun _ => rfl) reads_agentData d.agents
  have hactivity := asListOf_clean ActivityRow.serialize (fun _ => rfl) reads_activityRow d.activity
  have hvault : d.vault.serialize.isUndefined = false := rfl
  have hspending : d.spending.serialize.isUndefined = false := rfl
  have hhealth : d.health.serialize.isUndefined = false := rfl
  have hpolicy : d.policy.serialize.isUndefined = false := rfl
  simp [OverviewData.serialize, overviewDataFromJSON, withSource, hvault, hspending, hhealth, hpolicy,
    reads_vaultState, hagents, reads_spendingData, reads_healthData, reads_policyData, hactivity, readBack,
    Function.comp_def]

theorem plain_serializePending (pp : PendingPolicyUpdate) :
    (serializePending (pendingObject env pp)).hasBigint = false := by
  simp [serializePending, pendingObject, truthy, plain_serializeBigints]

theorem readBackFromCopy_iff (h : buildOverview env ctx = .ok d) : ReadBackFromCopy d ↔
    (serializePending d.data.policy.pendingUpdate).clean = d.data.policy.pendingUpdate := by
  obtain ⟨hjson, hpending⟩ := toJSON_buildOverview h
  have hplain : d.toJSON.hasBigint = false := by
    rw [hjson, plain_overviewData, hpending]
    cases ctx.pendingPolicy with
    | none => rfl
    | some pp => exact plain_serializePending pp
  have hcopy : d.toJSON.copy = some d.data.serialize.clean := by
    have hdefined : d.toJSON.isUndefined = false := by rw [hjson]; rfl
    rw [copy, hplain, hdefined, hjson]
    rfl
  constructor
  · rintro ⟨json, r, hj, hr, hdata, -⟩
    rw [hcopy, Option.some.injEq] at hj
    rw [← hj, reads_overviewData, Option.some.injEq] at hr
    rw [← hr] at hdata
    exact congrArg (fun d : OverviewData => d.policy.pendingUpdate) hdata
  · intro heq
    refine ⟨_, _, hcopy, reads_overviewData _, ?_, ?_⟩
    · simp only [heq]
    · rw [hjson]
      exact same_clean _

/-- An object that is serialized with its changes, and keeps the rest. -/
theorem clean_serializePending_iff {pp : PendingPolicyUpdate} :
    (serializePending (pendingObject env pp)).clean = pendingObject env pp ↔ AmountFree pp := by
  have hchanges : (serializePending (pendingObject env pp)).clean = pendingObject env pp ↔
      (serializeBigints (decodeChanges env pp).toObject).clean = (decodeChanges env pp).toObject := by
    have hdefined : (serializeBigints (decodeChanges env pp).toObject).isUndefined = false := rfl
    simp [serializePending, pendingObject, truthy, hdefined]
  rw [hchanges, clean_serializeBigints_iff (clean_toObject _), hasBigint_toObject]
  have hcaps : (pp.protocolCaps.map (List.map Int.ofNat)).getD [] = [] ↔ pp.protocolCaps.getD [] = [] := by
    cases pp.protocolCaps <;> simp
  simp only [decodeChanges, Option.map_eq_none_iff, hcaps]
  constructor
  · rintro ⟨hcap, htrade, hexpiry, hcaps⟩
    exact ⟨hcap, htrade, hexpiry, hcaps⟩
  · rintro ⟨hcap, htrade, hexpiry, hcaps⟩
    exact ⟨hcap, htrade, hexpiry, hcaps⟩

/-- An overview is read back from its text if and only if no update with an amount is pending. -/
theorem overview_read_back_iff (h : buildOverview env ctx = .ok d) :
    ReadBackFromCopy d ↔ ∀ pp, ctx.pendingPolicy = some pp → AmountFree pp := by
  rw [readBackFromCopy_iff h, (toJSON_buildOverview h).2]
  cases ctx.pendingPolicy with
  | none => simp [serializePending, truthy]
  | some pp => simp [clean_serializePending_iff]

end

/-! ### A change without amounts, and a new cap -/

def newSlippage : PolicyChanges JsNumber := { protocolMode := some .whitelist, maxSlippageBps := some (.ofUInt32 100) }

theorem overview_read_back_quiet : ∃ u w w' d, queuePolicyUpdate exactCodecs newSlippage = .ok u ∧
    run Step.exec ((queueRun 1800).take 1) {} = .ok w ∧ Sigil.queuePolicyUpdate queueCtx timelockAction u w = .ok w' ∧
    (overviewOf w').pendingPolicy.isSome ∧ buildOverview quietEnvironment (overviewOf w') = .ok d ∧
    ReadBackFromCopy d := by
  obtain ⟨u, hu⟩ : ∃ u, queuePolicyUpdate exactCodecs newSlippage = .ok u := ⟨_, rfl⟩
  obtain ⟨w, hrun⟩ : ∃ w, run Step.exec ((queueRun 1800).take 1) {} = .ok w := ⟨_, rfl⟩
  obtain ⟨w', hqueue⟩ : ∃ w', Sigil.queuePolicyUpdate queueCtx timelockAction u w = .ok w' := by
    cases hu
    cases hrun
    exact ⟨_, rfl⟩
  obtain ⟨d, pp, hd, hpending, hfree⟩ : ∃ d pp, buildOverview quietEnvironment (overviewOf w') = .ok d ∧
      (overviewOf w').pendingPolicy = some pp ∧ AmountFree pp := by
    cases hu
    cases hrun
    cases hqueue
    exact ⟨_, _, rfl, rfl, rfl, rfl, rfl, rfl⟩
  have hevery : ∀ pp', (overviewOf w').pendingPolicy = some pp' → AmountFree pp' := by
    intro pp' hpp'
    rw [hpending, Option.some.injEq] at hpp'
    rw [← hpp']
    exact hfree
  exact ⟨u, w, w', d, hu, hrun, hqueue, by rw [hpending]; rfl, hd, (overview_read_back_iff hd).mpr hevery⟩

/-- The cap of 500 dollars comes back as a text. -/
theorem overview_cap_changed : ∃ u w w' d, queuePolicyUpdate exactCodecs newCap = .ok u ∧
    run Step.exec ((queueRun 1800).take 1) {} = .ok w ∧ Sigil.queuePolicyUpdate queueCtx timelockAction u w = .ok w' ∧
    buildOverview quietEnvironment (overviewOf w') = .ok d ∧ ¬ ReadBackFromCopy d := by
  obtain ⟨u, hu⟩ : ∃ u, queuePolicyUpdate exactCodecs newCap = .ok u := ⟨_, rfl⟩
  obtain ⟨w, hrun⟩ : ∃ w, run Step.exec ((queueRun 1800).take 1) {} = .ok w := ⟨_, rfl⟩
  obtain ⟨w', hqueue⟩ : ∃ w', Sigil.queuePolicyUpdate queueCtx timelockAction u w = .ok w' := by
    cases hu
    cases hrun
    exact ⟨_, rfl⟩
  obtain ⟨d, pp, hd, hpending, hcap⟩ : ∃ d pp, buildOverview quietEnvironment (overviewOf w') = .ok d ∧
      (overviewOf w').pendingPolicy = some pp ∧ pp.dailySpendingCapUsd = some 500000000 := by
    cases hu
    cases hrun
    cases hqueue
    exact ⟨_, _, rfl, rfl, rfl⟩
  refine ⟨u, w, w', d, hu, hrun, hqueue, hd, fun hback => ?_⟩
  rw [readBackFromCopy_iff hd, (toJSON_buildOverview hd).2, hpending] at hback
  have hfree := clean_serializePending_iff.mp hback
  exact absurd hfree.dailySpendingCapUsd (by simp [hcap])

end Sigil.Sdk
