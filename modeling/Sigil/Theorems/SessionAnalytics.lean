import Sigil.Sdk.SessionAnalytics

/-!
# Sessions and the pairs that are taken for them

An authorization is paired with its own finalization as long as that is one of the next four events, and, where only
spending counts, as long as a session without spend has no other one in its reach.
-/

namespace Sigil.Sdk

open Library

/-! ## Events of committed transactions -/

/-- Neither begins nor ends a session. -/
def DecodedSigilEvent.IsOther (event : DecodedSigilEvent) : Prop :=
  event.name ≠ "ActionAuthorized" ∧ event.name ≠ "SessionFinalized"

/-- The events of a session: its authorization and its finalization, and what comes between them. -/
structure SessionEvents where
  agent : String
  authorized : Int
  actual : Int
  authData : List UInt8
  auth : JsValue
  between : List DecodedSigilEvent
  finData : List UInt8
  fin : JsValue
  auth_agent : auth.get "agent" = .string agent
  auth_amount : auth.get "usdAmount" = .bigint authorized
  fin_agent : fin.get "agent" = .string agent
  fin_amount : fin.get "actualSpendUsd" = .bigint actual
  actual_nonneg : 0 ≤ actual
  between_other : ∀ event ∈ between, event.IsOther

namespace SessionEvents

variable (s : SessionEvents)

def authorization : DecodedSigilEvent := { name := "ActionAuthorized", data := s.authData, fields := some s.auth }

def finalization : DecodedSigilEvent := { name := "SessionFinalized", data := s.finData, fields := some s.fin }

def events : List DecodedSigilEvent := s.authorization :: (s.between ++ [s.finalization])

/-- The session as a trade. -/
def trade : Trade := { agent := s.agent, authorized := some s.authorized, actual := s.actual }

/-- The pair of the session whose authorization is the event at `i`. -/
def pair (i : Nat) : EventPair :=
  { authorizedAt := i, auth := s.auth, finalizedAt := i + 1 + s.between.length, fin := s.fin }

end SessionEvents

inductive EventBlock where
  | session (s : SessionEvents)
  | other (event : DecodedSigilEvent) (h : event.IsOther)

namespace EventBlock

def events : EventBlock → List DecodedSigilEvent
  | session s => s.events
  | other event _ => [event]

/-- The sessions, in order. -/
def sessions : List EventBlock → List SessionEvents
  | [] => []
  | session s :: blocks => s :: sessions blocks
  | other _ _ :: blocks => sessions blocks

/-- The pairs of the sessions that count, of blocks whose first event is at `i`. -/
def ownPairs (counts : SessionEvents → Bool) : Nat → List EventBlock → List EventPair
  | _, [] => []
  | i, session s :: blocks =>
      (if counts s then [s.pair i] else []) ++ ownPairs counts (i + 1 + s.between.length + 1) blocks
  | i, other _ _ :: blocks => ownPairs counts (i + 1) blocks

end EventBlock

/-! ## Searching -/

variable {takes : JsValue → JsValue → Bool} {auth : JsValue} {event : DecodedSigilEvent} {s : SessionEvents}

theorem DecodedSigilEvent.IsOther.not_auth (h : event.IsOther) : fieldsNamed "ActionAuthorized" event = none :=
  if_neg h.1

theorem DecodedSigilEvent.IsOther.not_fin (h : event.IsOther) : fieldsNamed "SessionFinalized" event = none :=
  if_neg h.2

@[simp] theorem fieldsNamed_authorization : fieldsNamed "ActionAuthorized" s.authorization = some s.auth := rfl

@[simp] theorem fieldsNamed_finalization : fieldsNamed "SessionFinalized" s.finalization = some s.fin := rfl

theorem fieldsNamed_auth_finalization : fieldsNamed "ActionAuthorized" s.finalization = none := by
  rw [fieldsNamed, if_neg]
  change "SessionFinalized" ≠ "ActionAuthorized"
  decide

theorem findFinalization_others {others : List DecodedSigilEvent} (h : ∀ event ∈ others, event.IsOther) (j k : Nat)
    (rest : List DecodedSigilEvent) : findFinalization takes auth j ((others ++ rest).take k) =
      findFinalization takes auth (j + others.length) (rest.take (k - others.length)) := by
  induction others generalizing j k with
  | nil => rfl
  | cons event others ih =>
      rw [List.forall_mem_cons] at h
      cases k with
      | zero => simp [findFinalization]
      | succ k =>
          rw [List.cons_append, List.take_succ_cons, findFinalization, h.1.not_fin, Option.filter_none, Option.map_none,
            Option.none_or, ih h.2, List.length_cons]
          rw [show j + 1 + others.length = j + (others.length + 1) by omega, Nat.add_sub_add_right]

theorem findFinalization_finalization (j k : Nat) (rest : List DecodedSigilEvent) :
    findFinalization takes auth j ((s.finalization :: rest).take k) =
      if k = 0 then none
      else if takes auth s.fin then some (j, s.fin)
      else findFinalization takes auth (j + 1) (rest.take (k - 1)) := by
  cases k with
  | zero => rfl
  | succ k =>
      rw [List.take_succ_cons, findFinalization, fieldsNamed_finalization, if_neg (Nat.succ_ne_zero k),
        Option.filter_some]
      split
      · rfl
      · rfl

/-- Where nothing else is taken nothing is found. -/
theorem findFinalization_eq_none {j : Nat} {events : List DecodedSigilEvent} :
    findFinalization takes auth j events = none ↔
      ∀ event ∈ events, ∀ fin, fieldsNamed "SessionFinalized" event = some fin → takes auth fin = false := by
  induction events generalizing j with
  | nil => simp [findFinalization]
  | cons event events ih =>
      rw [findFinalization, Option.or_eq_none_iff, ih, Option.map_eq_none_iff, Option.filter_eq_none_iff,
        List.forall_mem_cons]
      simp

/-- What the loop finds for a session: its own finalization within reach, or one beyond it that is taken. -/
theorem pairAt_session (i : Nat) (rest : List DecodedSigilEvent) :
    pairAt takes i s.authorization (s.between ++ s.finalization :: rest) =
      if 3 < s.between.length then none
      else if takes s.auth s.fin then some (s.pair i)
      else (findFinalization takes s.auth (i + 1 + s.between.length + 1) (rest.take (3 - s.between.length))).map
        fun found => { authorizedAt := i, auth := s.auth, finalizedAt := found.1, fin := found.2 } := by
  rw [pairAt, fieldsNamed_authorization, Option.bind_some, findFinalization_others s.between_other,
    findFinalization_finalization]
  by_cases hfar : 3 < s.between.length
  · rw [if_pos (by omega), if_pos hfar, Option.map_none]
  · rw [if_neg (by omega), if_neg hfar, show 4 - s.between.length - 1 = 3 - s.between.length by omega]
    by_cases htakes : takes s.auth s.fin
    · rw [if_pos htakes, if_pos htakes]
      rfl
    · rw [if_neg htakes, if_neg htakes]

theorem pairAt_other (h : event.IsOther) (i : Nat) (rest : List DecodedSigilEvent) :
    pairAt takes i event rest = none := by
  rw [pairAt, h.not_auth, Option.bind_none]

theorem authorizedAt_of_pairAt {i : Nat} {rest : List DecodedSigilEvent} {p : EventPair}
    (h : pairAt takes i event rest = some p) : p.authorizedAt = i := by
  obtain ⟨auth, -, h⟩ := Option.bind_eq_some_iff.mp h
  obtain ⟨found, -, rfl⟩ := Option.map_eq_some_iff.mp h
  rfl

theorem le_authorizedAt {i : Nat} {events : List DecodedSigilEvent} {p : EventPair}
    (h : p ∈ pairsFrom takes i events) : i ≤ p.authorizedAt := by
  induction events generalizing i with
  | nil => cases h
  | cons event rest ih =>
      rcases List.mem_append.mp h with h | h
      · exact (authorizedAt_of_pairAt (Option.mem_toList.mp h)).ge
      · have := ih h
        omega

/-! ## One session -/

theorem pairsFrom_others {others : List DecodedSigilEvent} (h : ∀ event ∈ others, event.IsOther) (i : Nat)
    (rest : List DecodedSigilEvent) :
    pairsFrom takes i (others ++ rest) = pairsFrom takes (i + others.length) rest := by
  induction others generalizing i with
  | nil => rfl
  | cons event others ih =>
      rw [List.forall_mem_cons] at h
      rw [List.cons_append, pairsFrom, pairAt_other h.1, ih h.2, List.length_cons,
        show i + 1 + others.length = i + (others.length + 1) by omega]
      rfl

/-- Only the authorization of a session can have a pair. -/
theorem pairsFrom_session (i : Nat) (rest : List DecodedSigilEvent) : pairsFrom takes i (s.events ++ rest) =
    (pairAt takes i s.authorization (s.between ++ s.finalization :: rest)).toList ++
      pairsFrom takes (i + 1 + s.between.length + 1) rest := by
  have hnone : pairAt takes (i + 1 + s.between.length) s.finalization rest = none := by
    rw [pairAt, fieldsNamed_auth_finalization, Option.bind_none]
  have htail : s.between ++ [s.finalization] ++ rest = s.between ++ s.finalization :: rest := by simp
  rw [SessionEvents.events, List.cons_append, pairsFrom, htail, pairsFrom_others s.between_other, pairsFrom, hnone]
  rfl

/-- The session gets its own pair if it counts, and none otherwise. -/
structure PairedRight (takes : JsValue → JsValue → Bool) (counts : SessionEvents → Bool) (s : SessionEvents)
    (later : List DecodedSigilEvent) : Prop where
  near : counts s → s.between.length ≤ 3
  alone : counts s = false → s.between.length ≤ 3 → ∀ event ∈ later.take (3 - s.between.length), ∀ fin,
    fieldsNamed "SessionFinalized" event = some fin → takes s.auth fin = false

theorem pairedRight_iff {counts : SessionEvents → Bool} (hcounts : takes s.auth s.fin = counts s) (i : Nat)
    (later : List DecodedSigilEvent) :
    pairAt takes i s.authorization (s.between ++ s.finalization :: later) =
        (if counts s then some (s.pair i) else none) ↔ PairedRight takes counts s later := by
  rw [pairAt_session, hcounts]
  by_cases hfar : 3 < s.between.length
  · rw [if_pos hfar]
    cases hc : counts s with
    | true => exact iff_of_false (by simp) fun h => absurd (h.near hc) (by omega)
    | false => exact iff_of_true rfl ⟨fun h => absurd (hc.symm.trans h) (by simp), fun _ hnear => by omega⟩
  · rw [if_neg hfar]
    cases hc : counts s with
    | true => exact iff_of_true rfl ⟨fun _ => by omega, fun h => absurd (hc.symm.trans h) (by simp)⟩
    | false =>
        rw [if_neg (by simp), if_neg (by simp), Option.map_eq_none_iff, findFinalization_eq_none]
        exact ⟨fun h => ⟨fun hc' => absurd (hc.symm.trans hc') (by simp), fun _ _ => h⟩,
          fun h => h.alone hc (by omega)⟩

/-! ## All sessions -/

namespace EventBlock

variable {counts : SessionEvents → Bool} {i : Nat} {blocks : List EventBlock}

theorem le_authorizedAt_ownPairs {p : EventPair} (h : p ∈ ownPairs counts i blocks) : i ≤ p.authorizedAt := by
  induction blocks generalizing i with
  | nil => cases h
  | cons block blocks ih =>
      cases block with
      | other event hother =>
          have := ih h
          omega
      | session s =>
          rcases List.mem_append.mp h with h | h
          · split at h
            · obtain rfl := List.mem_singleton.mp h
              exact le_rfl
            · cases h
          · have := ih h
            omega

theorem toList_append_inj {p q : Option EventPair} {ps qs : List EventPair} (hp : ∀ x ∈ p, x.authorizedAt = i)
    (hq : ∀ x ∈ q, x.authorizedAt = i) (hps : ∀ x ∈ ps, i < x.authorizedAt) (hqs : ∀ x ∈ qs, i < x.authorizedAt) :
    p.toList ++ ps = q.toList ++ qs ↔ p = q ∧ ps = qs := by
  constructor
  · intro h
    cases p with
    | none =>
        cases q with
        | none => exact ⟨rfl, h⟩
        | some y =>
            have hy := hps y (by rw [show ps = y :: qs from h]; simp)
            exact absurd (hq y rfl) (by omega)
    | some x =>
        cases q with
        | none =>
            have hx := hqs x (by rw [← show x :: ps = qs from h]; simp)
            exact absurd (hp x rfl) (by omega)
        | some y =>
            obtain ⟨rfl, hrest⟩ := List.cons.inj h
            exact ⟨rfl, hrest⟩
  · rintro ⟨rfl, rfl⟩
    rfl

/-- The pairs are those of the sessions iff each session is paired right. -/
theorem pairsFrom_iff (hcounts : ∀ s : SessionEvents, takes s.auth s.fin = counts s) :
    pairsFrom takes i (blocks.flatMap events) = ownPairs counts i blocks ↔
      ∀ s later, (session s :: later) <:+ blocks → PairedRight takes counts s (later.flatMap events) := by
  induction blocks generalizing i with
  | nil => exact iff_of_true rfl fun s later h => absurd (List.suffix_nil.mp h) (by simp)
  | cons block blocks ih =>
      cases block with
      | other event hother =>
          have hskip : pairsFrom takes i ([event] ++ blocks.flatMap events) =
              pairsFrom takes (i + 1) (blocks.flatMap events) := pairsFrom_others (by simpa using hother) i _
          rw [List.flatMap_cons, events, hskip, ownPairs, ih]
          exact forall₂_congr fun s later => by simp [List.suffix_cons_iff]
      | session s =>
          rw [List.flatMap_cons, events, pairsFrom_session, ownPairs,
            show (if counts s then [s.pair i] else []) = (if counts s then some (s.pair i) else none).toList by
              split <;> rfl,
            toList_append_inj (fun _ h => authorizedAt_of_pairAt h) (by split <;> simp [SessionEvents.pair])
              (fun _ h => by have := le_authorizedAt h; omega)
              (fun _ h => by have := le_authorizedAt_ownPairs h; omega),
            pairedRight_iff (hcounts s), ih]
          constructor
          · rintro ⟨hhead, htail⟩ s' later hsuffix
            rcases List.suffix_cons_iff.mp hsuffix with heq | hsuffix
            · obtain ⟨hs, rfl⟩ := List.cons.inj heq
              obtain rfl := session.inj hs
              exact hhead
            · exact htail s' later hsuffix
          · intro h
            exact ⟨h s blocks List.suffix_rfl, fun s' later hsuffix =>
              h s' later (hsuffix.trans (List.suffix_cons _ _))⟩

theorem trade_pair : (s.pair i).trade = s.trade := by
  simp only [EventPair.trade, SessionEvents.pair, SessionEvents.trade, actualSpend, s.auth_agent, s.auth_amount,
    s.fin_amount]
  rfl

theorem map_trade_ownPairs :
    (ownPairs counts i blocks).map EventPair.trade = ((sessions blocks).filter counts).map SessionEvents.trade := by
  induction blocks generalizing i with
  | nil => rfl
  | cons block blocks ih =>
      cases block with
      | other event hother => exact ih
      | session s =>
          rw [ownPairs, sessions, List.map_append, ih, List.filter_cons]
          split
          · rw [List.map_cons, List.map_nil, trade_pair, List.map_cons]
            rfl
          · rfl

/-! ## Both analytics -/

/-- Slippage pairs every session with itself, deviation every session with spend, and both report these trades. -/
structure PairsOwn (blocks : List EventBlock) : Prop where
  slippage : slippagePairs (blocks.flatMap events) = ownPairs (fun _ => true) 0 blocks
  slippage_report : getSlippageEfficiency (blocks.flatMap events) =
    slippageReport ((sessions blocks).map SessionEvents.trade)
  deviation : deviationPairs (blocks.flatMap events) = ownPairs (fun s => 0 < s.actual) 0 blocks
  deviation_report : getSessionDeviationRate (blocks.flatMap events) =
    deviationReport (((sessions blocks).filter fun s => 0 < s.actual).map SessionEvents.trade)

/-- The finalization is one of the four events after the authorization; without spend no other finalization with spend
of the agent is. -/
structure Within (s : SessionEvents) (later : List DecodedSigilEvent) : Prop where
  near : s.between.length ≤ 3
  alone : s.actual = 0 → ∀ event ∈ later.take (3 - s.between.length), ∀ fin,
    fieldsNamed "SessionFinalized" event = some fin → (fin.get "agent").asString = some s.agent →
      actualSpend fin ≤ 0

theorem sameAgent_iff {fin : JsValue} : sameAgent s.auth fin ↔ (fin.get "agent").asString = some s.agent := by
  rw [sameAgent, s.auth_agent, decide_eq_true_eq, eq_comm]
  rfl

theorem takesSlippage_own : takesSlippage s.auth s.fin = true := by
  rw [takesSlippage, sameAgent_iff, s.fin_agent]
  rfl

theorem takesDeviation_own : takesDeviation s.auth s.fin = decide (0 < s.actual) := by
  have hsame : sameAgent s.auth s.fin = true := takesSlippage_own
  rw [takesDeviation, hsame, actualSpend, s.fin_amount, Bool.true_and]
  rfl

theorem within_iff {later : List DecodedSigilEvent} : Within s later ↔
    PairedRight takesSlippage (fun _ => true) s later ∧
      PairedRight takesDeviation (fun s => 0 < s.actual) s later := by
  have hnonneg := s.actual_nonneg
  constructor
  · intro h
    refine ⟨⟨fun _ => h.near, fun hc => by cases hc⟩, fun _ => h.near, ?_⟩
    intro hc _ event hevent fin hfin
    have hzero : s.actual = 0 := by
      rw [decide_eq_false_iff_not] at hc
      omega
    rw [takesDeviation, Bool.and_eq_false_iff, decide_eq_false_iff_not, not_lt]
    by_cases hagent : sameAgent s.auth fin
    · exact .inr (h.alone hzero event hevent fin hfin (sameAgent_iff.mp hagent))
    · exact .inl (Bool.not_eq_true _ ▸ hagent)
  · rintro ⟨hslippage, hdeviation⟩
    have hnear := hslippage.near rfl
    refine ⟨hnear, fun hzero event hevent fin hfin hagent => ?_⟩
    have hnot := hdeviation.alone (by simp [hzero]) hnear event hevent fin hfin
    rw [takesDeviation, sameAgent_iff.mpr hagent, Bool.true_and, decide_eq_false_iff_not, not_lt] at hnot
    exact hnot

/-- Both pair the sessions with themselves iff every session is within the reach of the search. -/
theorem pairsOwn_iff (blocks : List EventBlock) : PairsOwn blocks ↔
    ∀ s later, (session s :: later) <:+ blocks → Within s (later.flatMap events) := by
  have hslippage : slippagePairs (blocks.flatMap events) = ownPairs (fun _ => true) 0 blocks ↔ _ :=
    pairsFrom_iff fun _ => takesSlippage_own
  have hdeviation : deviationPairs (blocks.flatMap events) = ownPairs (fun s => 0 < s.actual) 0 blocks ↔ _ :=
    pairsFrom_iff fun _ => takesDeviation_own
  constructor
  · intro h s later hsuffix
    exact within_iff.mpr ⟨hslippage.mp h.slippage s later hsuffix, hdeviation.mp h.deviation s later hsuffix⟩
  · intro h
    have hs : slippagePairs (blocks.flatMap events) = ownPairs (fun _ => true) 0 blocks :=
      hslippage.mpr fun s later hsuffix => (within_iff.mp (h s later hsuffix)).1
    have hd : deviationPairs (blocks.flatMap events) = ownPairs (fun s => 0 < s.actual) 0 blocks :=
      hdeviation.mpr fun s later hsuffix => (within_iff.mp (h s later hsuffix)).2
    refine ⟨hs, ?_, hd, ?_⟩
    · rw [getSlippageEfficiency, hs, map_trade_ownPairs, List.filter_true]
    · rw [getSessionDeviationRate, hd, map_trade_ownPairs]

/-! ### Two sessions of one agent, the first without spend -/

def sessionOf (agent : String) (authorized : Int) (actual : Nat) : SessionEvents where
  agent := agent
  authorized := authorized
  actual := actual
  authData := []
  auth := .object [("agent", .string agent), ("usdAmount", .bigint authorized)]
  between := []
  finData := []
  fin := .object [("agent", .string agent), ("actualSpendUsd", .bigint actual)]
  auth_agent := rfl
  auth_amount := rfl
  fin_agent := rfl
  fin_amount := rfl
  actual_nonneg := Int.natCast_nonneg _
  between_other := fun _ h => absurd h List.not_mem_nil

/-- The session without spend is reported with the spend of the one after it. -/
theorem spend_counted_twice :
    (deviationPairs ([session (sessionOf "A" 50000000 0), session (sessionOf "A" 100000000 100000000)].flatMap
        events)).map EventPair.trade =
      [⟨"A", some 50000000, 100000000⟩, ⟨"A", some 100000000, 100000000⟩] ∧
    ¬ PairsOwn [session (sessionOf "A" 50000000 0), session (sessionOf "A" 100000000 100000000)] := by
  constructor
  · decide +kernel
  · intro h
    have hlength := congrArg List.length h.deviation
    revert hlength
    decide +kernel

end EventBlock

end Sigil.Sdk
