import Sigil.Lemmas.Events
import Sigil.Program.Serialize
import Sigil.Theorems.Incarnations

/-!
# Completeness of the audit trails

The two trails of a vault are read from the logs of its transactions. An instruction shows up in a trail if an event
that it emits is in the trail's table.
-/

namespace Sigil

open Library

/-! ## Histories -/

/-- The log of a step: of this program the lines of its events, of another program any lines. -/
def Step.Logs (st : Step) (w : World) (lines : List LogLine) : Prop :=
  ∀ i, st.instruction.call = .sigil i → ∃ kinds, i.events st.ctx w = .ok kinds ∧ Emits kinds lines

/-- An instruction that succeeded, with its log. -/
structure Logged where
  step : Step
  before : World
  after : World
  lines : List LogLine
  executed : step.exec before = .ok after
  logged : step.Logs before lines

structure Committed where
  tx : Transaction
  signature : String
  blockTime : Option Int
  accountKeys : List Pubkey
  steps : List Logged
  steps_eq : steps.map Logged.step = tx.steps
  named : ∀ s ∈ steps, ∀ v ∈ s.step.vaults, v ∈ accountKeys

/-- Every step starts in the state that the step before it left. -/
def Connected : World → List Logged → World → Prop
  | w, [], w' => w = w'
  | w, s :: rest, w' => s.before = w ∧ Connected s.after rest w'

/-- Committed transactions, oldest first. -/
structure History where
  committed : List Committed
  final : World
  connected : Connected {} (committed.flatMap Committed.steps) final

variable {w w' : World} {st : Step} {steps : List Step} {txs : List Transaction} {logged logged' : List Logged}

theorem connected_append : Connected w (logged ++ logged') w' ↔
    ∃ w₁, Connected w logged w₁ ∧ Connected w₁ logged' w' := by
  induction logged generalizing w with
  | nil => simp [Connected]
  | cons s rest ih => simp [Connected, ih, and_assoc]

theorem emits_discriminators (kinds : List EventKind) :
    Emits kinds (kinds.map fun kind => some kind.discriminator) := by
  have hdata : (kinds.map fun kind => some kind.discriminator).reduceOption = kinds.map EventKind.discriminator := by
    induction kinds with
    | nil => rfl
    | cons kind kinds ih => rw [List.map_cons, List.reduceOption_cons_of_some, ih, List.map_cons]
  rw [Emits, hdata, List.forall₂_map_right_iff, List.forall₂_same]
  intro kind _
  exact ⟨[], (List.append_nil _).symm⟩

theorem Step.exists_logs (h : st.exec w = .ok w') : ∃ lines, st.Logs w lines := by
  cases hcall : st.instruction.call with
  | foreign ops => exact ⟨[], fun i hi => by cases hcall.symm.trans hi⟩
  | sigil i =>
      rcases Step.exec_cases h with ⟨j, hj, -, -, hexec⟩ | ⟨_, hj, -⟩
      · cases hcall.symm.trans hj
        obtain ⟨kinds, hkinds⟩ := i.exists_events hexec
        exists kinds.map fun kind => some kind.discriminator
        intro j hj'
        cases hcall.symm.trans hj'
        exact ⟨kinds, hkinds, emits_discriminators kinds⟩
      · cases hcall.symm.trans hj

theorem exists_logged (h : run Step.exec steps w = .ok w') :
    ∃ logged : List Logged, logged.map Logged.step = steps ∧ Connected w logged w' := by
  induction steps generalizing w with
  | nil => exact ⟨[], rfl, run_nil_eq_ok.mp h⟩
  | cons st steps ih =>
      obtain ⟨w₁, hst, hrest⟩ := run_cons_eq_ok.mp h
      obtain ⟨lines, hlines⟩ := Step.exists_logs hst
      obtain ⟨rest, rfl, hconnected⟩ := ih hrest
      exact ⟨⟨st, w, w₁, lines, hst, hlines⟩ :: rest, rfl, rfl, hconnected⟩

theorem exists_committed (h : run Step.exec (txs.flatMap Transaction.steps) w = .ok w') :
    ∃ committed : List Committed, committed.map Committed.tx = txs ∧
      Connected w (committed.flatMap Committed.steps) w' := by
  induction txs generalizing w with
  | nil => exact ⟨[], rfl, run_nil_eq_ok.mp h⟩
  | cons tx txs ih =>
      obtain ⟨w₁, htx, hrest⟩ := run_append_eq_ok.mp h
      obtain ⟨logged, hlogged, hfirst⟩ := exists_logged htx
      obtain ⟨committed, rfl, hconnected⟩ := ih hrest
      let first : Committed :=
        { tx := tx
          signature := ""
          blockTime := none
          accountKeys := logged.flatMap fun s => s.step.vaults
          steps := logged
          steps_eq := hlogged
          named := fun s hs v hv => List.mem_flatMap.mpr ⟨s, hs, hv⟩ }
      exact ⟨first :: committed, rfl, connected_append.mpr ⟨w₁, hfirst, hconnected⟩⟩

theorem exists_history (h : run Step.exec (txs.flatMap Transaction.steps) {} = .ok w) :
    ∃ history : History, history.committed.map Committed.tx = txs := by
  obtain ⟨committed, htxs, hconnected⟩ := exists_committed h
  exact ⟨⟨committed, w, hconnected⟩, htxs⟩

theorem Connected.run_eq (h : Connected w logged w') : run Step.exec (logged.map Logged.step) w = .ok w' := by
  induction logged generalizing w with
  | nil => exact run_nil_eq_ok.mpr h
  | cons s rest ih =>
      obtain ⟨rfl, hrest⟩ := h
      exact run_cons_eq_ok.mpr ⟨s.after, s.executed, ih hrest⟩

/-- A history is a run of its transactions. -/
theorem History.run_eq (history : History) :
    run Step.exec ((history.committed.map Committed.tx).flatMap Transaction.steps) {} = .ok history.final := by
  have hsteps : (history.committed.map Committed.tx).flatMap Transaction.steps =
      (history.committed.flatMap Committed.steps).map Logged.step := by
    rw [List.flatMap_map, List.map_flatMap]
    simp only [Committed.steps_eq]
  rw [hsteps]
  exact history.connected.run_eq

/-! ## The trails of a vault -/

/-- What the node answers for the transaction. -/
def Committed.fetched (c : Committed) : Sdk.FetchedTransaction :=
  { signature := c.signature
    blockTime := c.blockTime
    logMessages := some (c.steps.flatMap Logged.lines) }

namespace History

variable (history : History) (reader : Sdk.EventReader) (v : Pubkey)

/-- The transactions that name the vault. -/
def onVault : List Committed := history.committed.filter fun c => v ∈ c.accountKeys

/-- Newest first. -/
def answer : List Sdk.FetchedTransaction := ((history.onVault v).map Committed.fetched).reverse

/-- `buildAuditTrail` over the items of `getVaultActivity`. -/
def activityTrail : List Sdk.AuditTrailEntry := Sdk.buildAuditTrail (Sdk.getVaultActivity reader (history.answer v))

/-- `getAuditTrail` over the decoded events, without filters. -/
def decodedTrail : List Sdk.AuditEntry :=
  Sdk.getAuditTrail reader ((history.answer v).flatMap fun tx =>
    Sdk.parseAndDecodeSigilEvents reader.decoders (tx.logMessages.getD [])) {}

end History

variable {history : History} {reader : Sdk.EventReader} {v : Pubkey} {c : Committed} {s : Logged}

/-- Entries that a step adds to the trail over the activity. -/
def Committed.activityEntries (c : Committed) (reader : Sdk.EventReader) (s : Logged) : List Sdk.AuditTrailEntry :=
  Sigil.activityEntries reader c.signature (Sdk.numberOf (c.blockTime.getD 0)) s.lines

def Logged.decodedEntries (s : Logged) (reader : Sdk.EventReader) : List Sdk.AuditEntry :=
  Sigil.decodedEntries reader s.lines

theorem mem_answer {tx : Sdk.FetchedTransaction} :
    tx ∈ history.answer v ↔ ∃ c ∈ history.onVault v, c.fetched = tx := by
  simp [History.answer]

theorem mem_parse_flatMap {event : Sdk.DecodedSigilEvent} :
    event ∈ Sdk.parseAndDecodeSigilEvents reader.decoders (logged.flatMap Logged.lines) ↔
      ∃ s ∈ logged, event ∈ Sdk.parseAndDecodeSigilEvents reader.decoders s.lines := by
  induction logged with
  | nil => simp [Sdk.parseAndDecodeSigilEvents, Sdk.parseSigilEvents]
  | cons s rest ih =>
      have happend : Sdk.parseAndDecodeSigilEvents reader.decoders (s.lines ++ rest.flatMap Logged.lines) =
          Sdk.parseAndDecodeSigilEvents reader.decoders s.lines ++
            Sdk.parseAndDecodeSigilEvents reader.decoders (rest.flatMap Logged.lines) := by
        simp [Sdk.parseAndDecodeSigilEvents, Sdk.parseSigilEvents]
      rw [List.flatMap_cons, happend, List.mem_append, ih]
      simp

theorem mem_activityTrail {entry : Sdk.AuditTrailEntry} : entry ∈ history.activityTrail reader v ↔
    ∃ c ∈ history.onVault v, ∃ s ∈ c.steps, entry ∈ c.activityEntries reader s := by
  simp only [History.activityTrail, Sdk.buildAuditTrail, Sdk.getVaultActivity, Sdk.activityOf,
    Committed.activityEntries, activityEntries, List.mem_filterMap, List.mem_mergeSort, List.mem_flatMap, List.mem_map,
    mem_answer]
  constructor
  · rintro ⟨_, ⟨_, ⟨c, hc, rfl⟩, event, hevent, rfl⟩, hentry⟩
    obtain ⟨s, hs, hevent⟩ := mem_parse_flatMap.mp hevent
    exact ⟨c, hc, s, hs, _, ⟨event, hevent, rfl⟩, hentry⟩
  · rintro ⟨c, hc, s, hs, _, ⟨event, hevent, rfl⟩, hentry⟩
    exact ⟨_, ⟨_, ⟨c, hc, rfl⟩, event, mem_parse_flatMap.mpr ⟨s, hs, hevent⟩, rfl⟩, hentry⟩

theorem mem_decodedTrail {entry : Sdk.AuditEntry} : entry ∈ history.decodedTrail reader v ↔
    ∃ c ∈ history.onVault v, ∃ s ∈ c.steps, entry ∈ s.decodedEntries reader := by
  simp only [History.decodedTrail, Sdk.getAuditTrail, Logged.decodedEntries, decodedEntries, List.mem_filterMap,
    List.mem_flatMap, mem_answer]
  constructor
  · rintro ⟨event, ⟨_, ⟨c, hc, rfl⟩, hevent⟩, hentry⟩
    obtain ⟨s, hs, hevent⟩ := mem_parse_flatMap.mp hevent
    exact ⟨c, hc, s, hs, event, hevent, hentry⟩
  · rintro ⟨c, hc, s, hs, event, hevent, hentry⟩
    exact ⟨event, ⟨_, ⟨c, hc, rfl⟩, mem_parse_flatMap.mpr ⟨s, hs, hevent⟩⟩, hentry⟩

/-! ## Completeness -/

/-- What the trails have to show of a vault. -/
def Logged.Audited (s : Logged) (v : Pubkey) : Prop :=
  s.after.vaultStatus v ≠ s.before.vaultStatus v ∨
    v ∈ s.step.vaults ∧
      ((∃ e d, s.after.escrows e = some d ∧ (s.before.escrows e).map EscrowDeposit.status ≠ some d.status) ∨
        ∃ i, s.step.instruction.call = .sigil i ∧ i.governs)

def Logged.Traffic (s : Logged) : Prop := ∃ i, s.step.instruction.call = .sigil i ∧ i.isTraffic

/-- Names of the events of sessions, deposits, withdrawals and fees. -/
def trafficEvents : List String :=
  ["ActionAuthorized", "SessionFinalized", "DelegationRevoked", "FundsDeposited", "FundsWithdrawn", "FeesCollected"]

/-- Every audited step adds an entry to both trails; sessions, deposits, withdrawals and fees add none. -/
structure AuditComplete (reader : Sdk.EventReader) (history : History) (v : Pubkey) : Prop where
  shown : ∀ c ∈ history.onVault v, ∀ s ∈ c.steps, s.Audited v →
    (∃ entry ∈ c.activityEntries reader s, entry ∈ history.activityTrail reader v) ∧
      ∃ entry ∈ s.decodedEntries reader, entry ∈ history.decodedTrail reader v
  traffic : ∀ c ∈ history.onVault v, ∀ s ∈ c.steps, s.Traffic →
    c.activityEntries reader s = [] ∧ s.decodedEntries reader = []
  activity_names : ∀ entry ∈ history.activityTrail reader v, entry.eventName ∉ trafficEvents
  decoded_names : ∀ entry ∈ history.decodedTrail reader v, entry.action ∉ trafficEvents

theorem Instruction.listed_of_moves {i : Instruction} (h : i.setsStatus ∨ i.movesEscrow) : i.unlisted = false := by
  cases i <;> simp_all [setsStatus, movesEscrow, unlisted]

theorem Instruction.governs_of_unlisted {i : Instruction} (h : i.unlisted) : i.governs := by
  cases i <;> simp_all [governs, unlisted]

theorem Logged.Audited.instruction (h : s.Audited v) : ∃ i, s.step.instruction.call = .sigil i ∧
    (i.setsStatus ∨ i.movesEscrow ∨ i.governs) ∧ (i.unlisted → v ∈ i.vaults) := by
  rcases h with hstatus | ⟨hv, ⟨e, d, he, hmoved⟩ | ⟨i, hcall, hgoverns⟩⟩
  · obtain ⟨i, hcall, hsets⟩ := Step.setsStatus s.executed hstatus
    have hlisted := Instruction.listed_of_moves (.inl hsets)
    exact ⟨i, hcall, .inl hsets, fun h => by simp [hlisted] at h⟩
  · obtain ⟨i, hcall, hmoves⟩ := Step.movesEscrow s.executed he hmoved
    have hlisted := Instruction.listed_of_moves (.inr hmoves)
    exact ⟨i, hcall, .inr (.inl hmoves), fun h => by simp [hlisted] at h⟩
  · rw [Step.vaults, hcall] at hv
    exact ⟨i, hcall, .inr (.inr hgoverns), fun _ => hv⟩

theorem shown_of_listed {i : Instruction} (hcall : s.step.instruction.call = .sigil i)
    (haudited : i.setsStatus ∨ i.movesEscrow ∨ i.governs) (hlisted : i.unlisted = false) :
    c.activityEntries reader s ≠ [] ∧ s.decodedEntries reader ≠ [] := by
  obtain ⟨kinds, hkinds, hemits⟩ := s.logged i hcall
  obtain ⟨kind, hmem, hkind⟩ := i.events_listed hkinds hlisted haudited
  constructor
  · intro hnil
    cases hkind.symm.trans ((activityEntries_eq_nil hemits).mp hnil kind hmem)
  · intro hnil
    cases hkind.symm.trans ((decodedEntries_eq_nil hemits).mp hnil kind hmem)

theorem quiet_of_events {i : Instruction} (hcall : s.step.instruction.call = .sigil i)
    (hquiet : ∀ kinds, i.events s.step.ctx s.before = .ok kinds → ∀ kind ∈ kinds, inActivityTrail kind.name = false) :
    c.activityEntries reader s = [] ∧ s.decodedEntries reader = [] := by
  obtain ⟨kinds, hkinds, hemits⟩ := s.logged i hcall
  have hnone := hquiet kinds hkinds
  exact ⟨(activityEntries_eq_nil hemits).mpr hnone, (decodedEntries_eq_nil hemits).mpr hnone⟩

theorem activityEntries_names {entry : Sdk.AuditTrailEntry} (h : entry ∈ c.activityEntries reader s) :
    inActivityTrail entry.eventName = true := by
  have hname := List.mem_map_of_mem (f := Sdk.AuditTrailEntry.eventName) h
  rw [Committed.activityEntries, map_eventName_activityEntries] at hname
  exact (List.mem_filter.mp hname).2

theorem decodedEntries_names {entry : Sdk.AuditEntry} (h : entry ∈ s.decodedEntries reader) :
    inDecodedTrail entry.action = true := by
  have hname := List.mem_map_of_mem (f := Sdk.AuditEntry.action) h
  rw [Logged.decodedEntries, map_action_decodedEntries] at hname
  exact (List.mem_filter.mp hname).2

theorem trafficEvents_unlisted :
    ∀ name ∈ trafficEvents, inActivityTrail name = false ∧ inDecodedTrail name = false := by
  decide +kernel

theorem not_complete_of_unlisted {i : Instruction} (hc : c ∈ history.onVault v) (hs : s ∈ c.steps)
    (hcall : s.step.instruction.call = .sigil i) (hv : v ∈ i.vaults) (hunlisted : i.unlisted) :
    ¬ AuditComplete reader history v := by
  intro h
  have hvaults : v ∈ s.step.vaults := by rwa [Step.vaults, hcall]
  obtain ⟨⟨entry, hentry, -⟩, -⟩ :=
    h.shown c hc s hs (.inr ⟨hvaults, .inr ⟨i, hcall, i.governs_of_unlisted hunlisted⟩⟩)
  have hnone : c.activityEntries reader s = [] :=
    (quiet_of_events hcall fun _ hkinds => i.events_unlisted hkinds hunlisted).1
  rw [hnone] at hentry
  cases hentry

/-- The trails of a vault are complete exactly if no change of an agent's permissions, no closing of constraints and
no change of post-assertions happened on it. -/
theorem audit_complete_iff (reader : Sdk.EventReader) (history : History) (v : Pubkey) :
    AuditComplete reader history v ↔ ∀ c ∈ history.onVault v, ∀ s ∈ c.steps, ∀ i,
      s.step.instruction.call = .sigil i → v ∈ i.vaults → i.unlisted = false := by
  constructor
  · intro h c hc s hs i hcall hv
    by_contra hunlisted
    exact not_complete_of_unlisted hc hs hcall hv (by simpa using hunlisted) h
  · intro hlisted
    refine ⟨?_, ?_, ?_, ?_⟩
    · intro c hc s hs haudited
      obtain ⟨i, hcall, hkind, hv⟩ := haudited.instruction
      have hnot : i.unlisted = false := by
        by_contra hunlisted
        have hunlisted : i.unlisted = true := by simpa using hunlisted
        exact absurd (hlisted c hc s hs i hcall (hv hunlisted)) (by simp [hunlisted])
      obtain ⟨hactivity, hdecoded⟩ : c.activityEntries reader s ≠ [] ∧ s.decodedEntries reader ≠ [] :=
        shown_of_listed hcall hkind hnot
      obtain ⟨entry, hentry⟩ := List.exists_mem_of_ne_nil _ hactivity
      obtain ⟨action, haction⟩ := List.exists_mem_of_ne_nil _ hdecoded
      exact ⟨⟨entry, hentry, mem_activityTrail.mpr ⟨c, hc, s, hs, hentry⟩⟩, action, haction,
        mem_decodedTrail.mpr ⟨c, hc, s, hs, haction⟩⟩
    · intro c hc s hs htraffic
      obtain ⟨i, hcall, htraffic⟩ := htraffic
      exact quiet_of_events hcall fun _ hkinds => i.events_traffic hkinds htraffic
    · intro entry hentry hname
      obtain ⟨c, -, s, -, hentry⟩ := mem_activityTrail.mp hentry
      cases (activityEntries_names hentry).symm.trans (trafficEvents_unlisted _ hname).1
    · intro entry hentry hname
      obtain ⟨c, -, s, -, hentry⟩ := mem_decodedTrail.mp hentry
      cases (decodedEntries_names hentry).symm.trans (trafficEvents_unlisted _ hname).2

/-! ### A vault whose owner creates post-assertions -/

def assertionTxs : List Transaction :=
  [.ofKey payClock 1 [(Instruction.initializeVault payVault).toTopLevel],
   .ofKey payClock 1 [(Instruction.createPostAssertions payAction [ownerAssertion]).toTopLevel]]

def nameReader : Sdk.EventReader :=
  { decoders := fun _ _ => none
    describeEvent := Sdk.DecodedSigilEvent.name
    resolveProtocolName := id }

theorem post_assertions_missing : ∃ history : History, history.committed.map Committed.tx = assertionTxs ∧
    ¬ AuditComplete nameReader history payVault.vault := by
  obtain ⟨w, hrun⟩ := exists_ok_of_isOk (x := run Step.exec (assertionTxs.flatMap Transaction.steps) {})
    (by decide +kernel)
  obtain ⟨history, htxs⟩ := exists_history hrun
  exists history, htxs
  have hlast : assertionTxs[1] ∈ history.committed.map Committed.tx := by
    rw [htxs]
    exact List.getElem_mem _
  obtain ⟨c, hc, hctx⟩ := List.mem_map.mp hlast
  have hstep : assertionTxs[1].step (Instruction.createPostAssertions payAction [ownerAssertion]).toTopLevel 0 ∈
      c.steps.map Logged.step := by
    rw [c.steps_eq, hctx]
    exact List.mem_singleton_self _
  obtain ⟨s, hs, hsstep⟩ := List.mem_map.mp hstep
  have hcall : s.step.instruction.call = .sigil (.createPostAssertions payAction [ownerAssertion]) := by
    rw [hsstep]
    rfl
  have hvaults : payVault.vault ∈ s.step.vaults := by
    rw [Step.vaults, hcall]
    exact List.mem_singleton_self _
  have hon : c ∈ history.onVault payVault.vault :=
    List.mem_filter.mpr ⟨hc, decide_eq_true (c.named s hs _ hvaults)⟩
  exact not_complete_of_unlisted hon hs hcall (List.mem_singleton_self _) rfl

end Sigil
