import Mathlib.Data.List.ReduceOption
import Sigil.Lemmas.Status
import Sigil.Sdk.AuditTrail

/-!
# Events from the handler to the trails

Every event is found by its name in the log, and a trail depends on the names alone.
-/

namespace Sigil

open Library

/-! ## Discriminators -/

namespace EventKind

theorem length_discriminator (kind : EventKind) : kind.discriminator.length = 8 := by
  simp [discriminator, Sha256.digest, Sha256.bytesBE]

/-- The map of the kit has the discriminator that the program computes. -/
theorem lookup_discriminator (kind : EventKind) :
    Sdk.eventDiscriminatorMap.lookup (Sdk.bytesToHex kind.discriminator) = some kind.name := by
  cases kind <;> decide +kernel

end EventKind

/-! ## Parsing -/

variable {kind : EventKind} {kinds : List EventKind} {lines : List LogLine} {reader : Sdk.EventReader}

theorem parseSigilEvent_emitted (fields : List UInt8) :
    Sdk.parseSigilEvent (some (kind.discriminator ++ fields)) = some { name := kind.name, data := fields } := by
  have hlength := kind.length_discriminator
  have htake : (kind.discriminator ++ fields).take 8 = kind.discriminator := by
    rw [← hlength, List.take_left]
  have hdrop : (kind.discriminator ++ fields).drop 8 = fields := by
    rw [← hlength, List.drop_left]
  have hname : Sdk.eventNameOf (kind.discriminator ++ fields) = some kind.name := by
    rw [Sdk.eventNameOf, if_neg (by simp [hlength]), htake, kind.lookup_discriminator]
  simp [Sdk.parseSigilEvent, hname, hdrop]

theorem parseSigilEvents_eq : Sdk.parseSigilEvents lines = lines.reduceOption.filterMap fun bytes =>
    Sdk.parseSigilEvent (some bytes) := by
  unfold Sdk.parseSigilEvents
  induction lines with
  | nil => rfl
  | cons line lines ih =>
      cases line with
      | none => exact ih
      | some bytes => rw [List.reduceOption_cons_of_some, List.filterMap_cons, List.filterMap_cons, ih]

/-- The events of the log are those that were emitted, in their order. -/
theorem map_name_parse (h : Emits kinds lines) :
    (Sdk.parseAndDecodeSigilEvents reader.decoders lines).map Sdk.DecodedSigilEvent.name =
      kinds.map EventKind.name := by
  have hparsed : (Sdk.parseSigilEvents lines).map Sdk.SigilEvent.name = kinds.map EventKind.name := by
    rw [parseSigilEvents_eq]
    unfold Emits at h
    generalize lines.reduceOption = datas at h
    induction h with
    | nil => rfl
    | cons hline _ ih =>
        obtain ⟨fields, rfl⟩ := hline
        rw [List.filterMap_cons, parseSigilEvent_emitted, List.map_cons, ih, List.map_cons]
  rw [Sdk.parseAndDecodeSigilEvents, List.map_map, ← hparsed]
  rfl

/-! ## Trails of events -/

section Names
variable {α β γ : Type} {f : α → Option β} {name : α → γ} {nameOf : β → γ} {keeps : γ → Bool}

/-- What is kept by name keeps its name. -/
theorem map_filterMap_kept (hf : ∀ a, (f a).map nameOf = if keeps (name a) then some (name a) else none) (l : List α) :
    (l.filterMap f).map nameOf = (l.map name).filter keeps := by
  induction l with
  | nil => rfl
  | cons a l ih =>
      have ha := hf a
      cases hkept : f a with
      | none =>
          rw [hkept] at ha
          rw [List.filterMap_cons_none hkept, ih, List.map_cons, List.filter_cons_of_neg]
          intro hkeeps
          simp [hkeeps] at ha
      | some b =>
          rw [hkept] at ha
          have hkeeps : keeps (name a) = true := by
            by_contra hnot
            simp [hnot] at ha
          rw [if_pos hkeeps, Option.map_some, Option.some.injEq] at ha
          rw [List.filterMap_cons_some hkept, List.map_cons, ha, ih, List.map_cons, List.filter_cons_of_pos hkeeps]

end Names

/-- Entries that log lines add to `buildAuditTrail` over the activity. -/
def activityEntries (reader : Sdk.EventReader) (signature : String) (blockTime : Double) (lines : List LogLine) :
    List Sdk.AuditTrailEntry :=
  Sdk.buildAuditTrail ((Sdk.parseAndDecodeSigilEvents reader.decoders lines).map fun event =>
    Sdk.buildActivityItem reader event signature blockTime)

/-- Entries that they add to `getAuditTrail`. -/
def decodedEntries (reader : Sdk.EventReader) (lines : List LogLine) : List Sdk.AuditEntry :=
  Sdk.getAuditTrail reader (Sdk.parseAndDecodeSigilEvents reader.decoders lines) {}

/-- Whether the category of an event is one that `buildAuditTrail` keeps. -/
def inActivityTrail (eventName : String) : Bool :=
  (Sdk.auditCategoryToType (Sdk.categorizeEvent eventName).text).isSome

def inDecodedTrail (eventName : String) : Bool := (Sdk.auditEvents.lookup eventName).isSome

/-- The two tables agree on every event of the program. -/
theorem EventKind.tables_agree (kind : EventKind) : inActivityTrail kind.name = inDecodedTrail kind.name := by
  cases kind <;> decide +kernel

theorem map_eventName_activityEntries {signature : String} {blockTime : Double} :
    (activityEntries reader signature blockTime lines).map Sdk.AuditTrailEntry.eventName =
      ((Sdk.parseAndDecodeSigilEvents reader.decoders lines).map
        Sdk.DecodedSigilEvent.name).filter inActivityTrail := by
  rw [activityEntries, Sdk.buildAuditTrail, List.filterMap_map]
  apply map_filterMap_kept
  intro event
  cases hkept : Sdk.auditCategoryToType (Sdk.categorizeEvent event.name).text with
  | none => simp [Sdk.auditTrailEntry, Sdk.buildActivityItem, inActivityTrail, hkept]
  | some eventType => simp [Sdk.auditTrailEntry, Sdk.buildActivityItem, inActivityTrail, hkept]

theorem map_action_decodedEntries :
    (decodedEntries reader lines).map Sdk.AuditEntry.action =
      ((Sdk.parseAndDecodeSigilEvents reader.decoders lines).map Sdk.DecodedSigilEvent.name).filter inDecodedTrail := by
  apply map_filterMap_kept
  intro event
  cases hkept : Sdk.auditEvents.lookup event.name with
  | none => simp [Sdk.auditEntry, inDecodedTrail, hkept]
  | some category =>
      simp [Sdk.auditEntry, inDecodedTrail, hkept, Sdk.keepsCategory, Sdk.keepsSince, Sdk.keepsActor]

theorem activityEntries_eq_nil {signature : String} {blockTime : Double} (h : Emits kinds lines) :
    activityEntries reader signature blockTime lines = [] ↔ ∀ kind ∈ kinds, inActivityTrail kind.name = false := by
  rw [← List.map_eq_nil_iff (f := Sdk.AuditTrailEntry.eventName), map_eventName_activityEntries, map_name_parse h,
    List.filter_eq_nil_iff]
  simp

theorem decodedEntries_eq_nil (h : Emits kinds lines) :
    decodedEntries reader lines = [] ↔ ∀ kind ∈ kinds, inActivityTrail kind.name = false := by
  rw [← List.map_eq_nil_iff (f := Sdk.AuditEntry.action), map_action_decodedEntries, map_name_parse h,
    List.filter_eq_nil_iff]
  simp [EventKind.tables_agree]

/-! ## Events of the instructions -/

/-- The audited instructions beside those that set a status or move an escrow: changes that are queued, applied or
cancelled, agents and post-assertions. -/
def Instruction.governs : Instruction → Bool
  | .queuePolicyUpdate _ _ | .applyPendingPolicy _ | .cancelPendingPolicy _ => true
  | .queueConstraintsUpdate _ _ _ | .applyConstraintsUpdate _ | .cancelConstraintsUpdate _ => true
  | .queueCloseConstraints _ | .applyCloseConstraints _ _ | .cancelCloseConstraints _ => true
  | .queueAgentPermissionsUpdate _ _ _ | .applyAgentPermissionsUpdate _ _ | .cancelAgentPermissionsUpdate _ _ => true
  | .registerAgent _ | .revokeAgent _ | .pauseAgent _ | .unpauseAgent _ => true
  | .createPostAssertions _ _ | .closePostAssertions _ => true
  | _ => false

/-- Those of them whose event is in neither table. -/
def Instruction.unlisted : Instruction → Bool
  | .queueCloseConstraints _ | .applyCloseConstraints _ _ | .cancelCloseConstraints _ => true
  | .queueAgentPermissionsUpdate _ _ _ | .applyAgentPermissionsUpdate _ _ | .cancelAgentPermissionsUpdate _ _ => true
  | .createPostAssertions _ _ | .closePostAssertions _ => true
  | _ => false

/-- Sessions, deposits and withdrawals. -/
def Instruction.isTraffic : Instruction → Bool
  | .validateAndAuthorize _ | .finalizeSession _ | .depositFunds _ | .withdrawFunds _ => true
  | _ => false

variable {ctx : Ctx} {w w' : World} {i : Instruction}

theorem validateAndAuthorize_events {a : ValidateAndAuthorize} (h : validateAndAuthorize ctx a w = .ok w') :
    ∃ kinds, a.events w = .ok kinds := by
  obtain ⟨_, policy, tokenAccount, _, plan, _, _, -, hp, -, htoken, -, -, hplan, -⟩ := validateAndAuthorize_ok h
  simp only [ValidateAndAuthorize.events, bind_eq_ok, World.loadPolicy_eq_ok, World.loadToken_eq_ok]
  exact ⟨_, policy, hp, tokenAccount, htoken, plan, hplan, rfl⟩

theorem finalizeSession_events {a : FinalizeSession} (h : finalizeSession ctx a w = .ok w') :
    ∃ kinds, a.events ctx w = .ok kinds := by
  simp only [finalizeSession, chargeSession, bind_eq_ok] at h
  obtain ⟨_, -, vault, hv, session, hs, policy, hp, _, -, _, -, _, -, _, -, _, -, _, -, spend, hspend, _,
    ⟨_, -, overlay, ho, -⟩, -⟩ := h
  simp only [FinalizeSession.events, bind_eq_ok]
  exact ⟨_, vault, hv, session, hs, policy, hp, overlay, ho, spend, hspend, rfl⟩

theorem agentTransfer_events {a : AgentTransfer} (h : agentTransfer ctx a w = .ok w') :
    ∃ kinds, a.events w = .ok kinds := by
  simp only [agentTransfer, bind_eq_ok] at h
  obtain ⟨_, -, vault, hv, _, -, policy, hp, _, -, overlay, ho, _, -, _, -, _, -, _, -, _, -, _, -, _, -, _, -, _, -, _,
    -, _, -, _, -, protocolFee, hprotocol, developerFee, hdeveloper, -⟩ := h
  simp only [AgentTransfer.events, bind_eq_ok]
  exact ⟨_, vault, hv, policy, hp, overlay, ho, protocolFee, hprotocol, developerFee, hdeveloper, rfl⟩

theorem createEscrow_events {a : CreateEscrow} (h : createEscrow ctx a w = .ok w') :
    ∃ kinds, a.events w = .ok kinds := by
  simp only [createEscrow, bind_eq_ok] at h
  obtain ⟨_, -, vault, hv, _, -, _, -, policy, hp, _, -, overlay, ho, _, -, _, -, _, -, _, -, _, -, _, -, _, -, _, -, _,
    -, _, -, _, -, _, -, _, -, _, -, _, -, _, -, _, -, protocolFee, hprotocol, developerFee, hdeveloper, -⟩ := h
  simp only [CreateEscrow.events, bind_eq_ok]
  exact ⟨_, vault, hv, policy, hp, overlay, ho, protocolFee, hprotocol, developerFee, hdeveloper, rfl⟩

theorem Instruction.exists_events (h : i.exec ctx w = .ok w') : ∃ kinds, i.events ctx w = .ok kinds := by
  cases i with
  | validateAndAuthorize a => exact validateAndAuthorize_events h
  | finalizeSession a => exact finalizeSession_events h
  | agentTransfer a => exact agentTransfer_events h
  | createEscrow a => exact createEscrow_events h
  | _ => exact ⟨_, rfl⟩

/-- An audited instruction with a listed event emits it. -/
theorem Instruction.events_listed (h : i.events ctx w = .ok kinds) (hlisted : i.unlisted = false)
    (haudited : i.setsStatus ∨ i.movesEscrow ∨ i.governs) : ∃ kind ∈ kinds, inActivityTrail kind.name = true := by
  cases i with
  | createEscrow a =>
      simp only [events, CreateEscrow.events, bind_eq_ok, pure_eq_ok] at h
      obtain ⟨_, -, _, -, _, -, _, -, _, -, rfl⟩ := h
      exact ⟨.escrowCreated, by simp, rfl⟩
  | freezeVault a =>
      cases h
      exact ⟨.vaultFrozen, by simp [FreezeVault.events], rfl⟩
  | initializeVault | closeVault | reactivateVault | registerAgent | revokeAgent | pauseAgent | unpauseAgent
  | settleEscrow | refundEscrow | queuePolicyUpdate | applyPendingPolicy | cancelPendingPolicy
  | queueConstraintsUpdate | applyConstraintsUpdate | cancelConstraintsUpdate =>
      cases h
      exact ⟨_, List.mem_singleton_self _, rfl⟩
  | queueCloseConstraints | applyCloseConstraints | cancelCloseConstraints | queueAgentPermissionsUpdate
  | applyAgentPermissionsUpdate | cancelAgentPermissionsUpdate | createPostAssertions | closePostAssertions =>
      cases hlisted
  | depositFunds | withdrawFunds | validateAndAuthorize | finalizeSession | agentTransfer | closeSettledEscrow
  | allocateConstraintsPda | allocatePendingConstraintsPda | extendPda | createInstructionConstraints
  | cleanupOrphanConstraintsPda =>
      simp [setsStatus, movesEscrow, governs] at haudited

theorem Instruction.events_unlisted (h : i.events ctx w = .ok kinds) (hunlisted : i.unlisted = true) :
    ∀ kind ∈ kinds, inActivityTrail kind.name = false := by
  cases i with
  | queueCloseConstraints | applyCloseConstraints | cancelCloseConstraints | queueAgentPermissionsUpdate
  | applyAgentPermissionsUpdate | cancelAgentPermissionsUpdate | createPostAssertions | closePostAssertions =>
      cases h
      exact List.forall_mem_singleton.mpr rfl
  | _ => cases hunlisted

theorem not_inActivityTrail_limitChecked {vault : AgentVault} {overlay : AgentSpendOverlay} {agent : Pubkey}
    (h : kind ∈ limitChecked vault overlay agent) : inActivityTrail kind.name = false := by
  unfold limitChecked at h
  split at h
  · cases List.mem_singleton.mp h
    rfl
  · cases h

theorem not_inActivityTrail_feesCollected {protocolFee developerFee : Nat}
    (h : kind ∈ feesCollected protocolFee developerFee) : inActivityTrail kind.name = false := by
  unfold feesCollected at h
  split at h
  · cases List.mem_singleton.mp h
    rfl
  · cases h

theorem not_inActivityTrail_assertionsChecked {v : Pubkey} {policy : PolicyConfig} {isExpired : Bool}
    (h : kind ∈ assertionsChecked w v policy isExpired) : inActivityTrail kind.name = false := by
  unfold assertionsChecked at h
  split at h
  · obtain ⟨_, -, rfl⟩ := List.mem_map.mp h
    rfl
  · cases h

/-- Sessions, deposits and withdrawals emit events of trades, fees, deposits and withdrawals only. -/
theorem Instruction.events_traffic (h : i.events ctx w = .ok kinds) (htraffic : i.isTraffic = true) :
    ∀ kind ∈ kinds, inActivityTrail kind.name = false := by
  cases i with
  | depositFunds | withdrawFunds =>
      cases h
      exact List.forall_mem_singleton.mpr rfl
  | validateAndAuthorize a =>
      simp only [events, ValidateAndAuthorize.events, bind_eq_ok, pure_eq_ok] at h
      obtain ⟨_, -, _, -, _, -, rfl⟩ := h
      intro kind hkind
      rcases List.mem_append.mp hkind with hfees | hlast
      · exact not_inActivityTrail_feesCollected hfees
      · cases List.mem_singleton.mp hlast
        rfl
  | finalizeSession a =>
      simp only [events, FinalizeSession.events, bind_eq_ok, pure_eq_ok] at h
      obtain ⟨_, -, session, -, policy, -, _, -, spend, -, rfl⟩ := h
      intro kind hkind
      simp only [List.append_assoc, List.mem_append] at hkind
      rcases hkind with hrevoked | hlimit | hchecked | hlast
      · split at hrevoked
        · cases List.mem_singleton.mp hrevoked
          rfl
        · cases hrevoked
      · split at hlimit
        · exact not_inActivityTrail_limitChecked hlimit
        · cases hlimit
      · exact not_inActivityTrail_assertionsChecked hchecked
      · cases List.mem_singleton.mp hlast
        rfl
  | _ => cases htraffic

end Sigil
