import Mathlib.Data.Finset.Max
import Sigil.Lemmas.ApprovedRecords
import Sigil.Sdk.ShieldedSigner
import Sigil.Theorems.ShieldSync

/-!
# Batches that are signed as a whole

A transaction is recorded before the ones after it are checked, and nothing is taken back. So a batch leaves either
nothing or all of it only if it fails at its first transaction, or not at all.
-/

namespace Sigil.Sdk

open Library

namespace ShieldedSigner

variable (base58 : Pubkey → String) (signer : ShieldedSigner)

/-! ## What a batch adds -/

def batchRecords (txs : List BatchTransaction) : List ShieldRecord :=
  txs.flatMap fun tx => approvedRecords base58 tx.now tx.instructions signer.address

/-- Stablecoins that are counted once the chain has been read. -/
def stablecoinUsd (state : SyncedState) (tx : BatchTransaction) : Int :=
  match state.resolvedState, state.network with
  | some _, some network =>
      computeStablecoinUsd (analyzeInstructions tx.instructions signer.address).tokenTransfers signer.address network
  | _, _ => 0

/-- Exactly these transactions have been added. -/
structure Added (txs : List BatchTransaction) (before after : SyncedState) : Prop where
  records : after.toShieldState = before.toShieldState.appendAll (signer.batchRecords base58 txs)
  localUsdAdditions : after.localUsdAdditions = before.localUsdAdditions + (txs.map (signer.stablecoinUsd before)).sum

/-- A call that throws leaves the state as it was, and one that returns adds all of the batch. -/
def Atomic (txs : List BatchTransaction) (c : ShieldedContext) : Prop :=
  match signer.modifyAndSignTransactions base58 txs c with
  | (c', .ok _) => signer.Added base58 txs c.state c'.state
  | (c', .error _) => c'.state.toShieldState = c.state.toShieldState ∧
      c'.state.localUsdAdditions = c.state.localUsdAdditions

/-! ## When it is added as a whole -/

/-- No transaction is refused when its turn comes. -/
def NoneRefused : List BatchTransaction → ShieldedContext → Prop
  | [], _ => True
  | tx :: txs, c => ∃ c', signer.approve base58 tx c = .ok c' ∧ NoneRefused txs c'

/-- The batch fails before anything is recorded, or it is signed and nothing is dropped for it. -/
def RecordsTogether (txs : List BatchTransaction) (c : ShieldedContext) : Prop :=
  (∀ tx ∈ txs.head?, ∃ violations, signer.approve base58 tx c = .error violations) ∨
    (signer.NoneRefused base58 txs c ∧ signer.baseSigner.signTransactions = .ok () ∧
      c.state.toShieldState.PrunesNothing (signer.batchRecords base58 txs))

/-! ## The loop -/

/-- A context that has recorded transactions. -/
structure Recorded (txs : List BatchTransaction) (c c' : ShieldedContext) : Prop where
  records : c'.state.toShieldState = c.state.toShieldState.recordAll (signer.batchRecords base58 txs)
  localUsdAdditions : c'.state.localUsdAdditions =
    c.state.localUsdAdditions + (txs.map (signer.stablecoinUsd c.state)).sum
  resolvedState : c'.state.resolvedState = c.state.resolvedState
  network : c'.state.network = c.state.network

section
variable {base58 : Pubkey → String} {signer : ShieldedSigner} {tx : BatchTransaction} {txs : List BatchTransaction}
  {c c' c'' : ShieldedContext}

theorem Recorded.nothing : signer.Recorded base58 [] c c := ⟨rfl, by simp, rfl, rfl⟩

theorem Recorded.trans (h : signer.Recorded base58 [tx] c c') (h' : signer.Recorded base58 txs c' c'') :
    signer.Recorded base58 (tx :: txs) c c'' := by
  have hsame : signer.stablecoinUsd c'.state = signer.stablecoinUsd c.state := by
    funext tx
    rw [stablecoinUsd, stablecoinUsd, h.resolvedState, h.network]
  constructor
  case records =>
    rw [h'.records, h.records, ← ShieldState.recordAll_append]
    simp [batchRecords]
  case localUsdAdditions =>
    rw [h'.localUsdAdditions, h.localUsdAdditions, hsame]
    simp [Int.add_assoc]
  case resolvedState => exact h'.resolvedState.trans h.resolvedState
  case network => exact h'.network.trans h.network

/-- One transaction. -/
theorem recorded_approve (h : signer.approve base58 tx c = .ok c') : signer.Recorded base58 [tx] c c' := by
  simp only [approve] at h
  split at h
  · unfold SigningRequest.approve at h
    split at h
    · cases h
    split at h
    · obtain rfl := Except.ok.inj h
      obtain ⟨record, hrecord⟩ := recordApproved_eq base58 tx.now signer.address tx.instructions c.state c.state.network
      constructor
      case records =>
        show (recordApproved base58 tx.now tx.instructions signer.address c.state.network c.state).toShieldState = _
        rw [recordApproved_toShieldState]
        simp [batchRecords]
      case localUsdAdditions =>
        show (recordApproved base58 tx.now tx.instructions signer.address c.state.network
          c.state).localUsdAdditions = _
        rw [hrecord, List.map_singleton, List.sum_singleton]
        rfl
      case resolvedState =>
        show (recordApproved base58 tx.now tx.instructions signer.address c.state.network c.state).resolvedState = _
        rw [hrecord]
      case network =>
        show (recordApproved base58 tx.now tx.instructions signer.address c.state.network c.state).network = _
        rw [hrecord]
    · cases h
    · cases h
  · cases h

variable (base58 signer txs c) in
/-- The transactions that come before the first refusal have been recorded. -/
theorem recorded_approveAll : ∃ done rest, txs = done ++ rest ∧
    signer.Recorded base58 done c (signer.approveAll base58 txs c).1 ∧
    ((signer.approveAll base58 txs c).2 = none ↔ signer.NoneRefused base58 txs c) ∧
    ((signer.approveAll base58 txs c).2 = none → rest = []) ∧
    (done = [] ↔ ∀ tx ∈ txs.head?, ∃ violations, signer.approve base58 tx c = .error violations) := by
  induction txs generalizing c with
  | nil => exact ⟨[], [], rfl, .nothing, iff_of_true rfl trivial, fun _ => rfl, by simp⟩
  | cons tx txs ih =>
      rw [approveAll, NoneRefused]
      cases happrove : signer.approve base58 tx c with
      | ok c' =>
          obtain ⟨done, rest, rfl, hrecorded, hnone, hrest, -⟩ := ih c'
          refine ⟨tx :: done, rest, rfl, (recorded_approve happrove).trans hrecorded, ?_, hrest, ?_⟩
          · simpa using hnone
          · simp [happrove]
      | error violations => exact ⟨[], tx :: txs, rfl, .nothing, by simp, by simp, by simp [happrove]⟩

/-- Whatever has been recorded can be seen. -/
theorem Recorded.txEntries_ne (h : signer.Recorded base58 txs c c') (hsome : txs ≠ []) :
    c'.state.txEntries ≠ c.state.txEntries := by
  obtain ⟨latest, hmem, hlatest⟩ := (txs.map BatchTransaction.now).toFinset.exists_max_image id (by simpa using hsome)
  simp only [List.mem_toFinset, List.mem_map, id_eq] at hmem hlatest
  obtain ⟨tx, htx, rfl⟩ := hmem
  rw [h.records]
  have hrecords : ∀ r ∈ signer.batchRecords base58 txs, r.now ≤ tx.now := by
    intro r hr
    obtain ⟨tx', htx', hr⟩ := List.mem_flatMap.mp hr
    rw [approvedRecords_now hr]
    exact hlatest _ ⟨tx', htx', rfl⟩
  apply ShieldState.recordAll_txEntries_ne hrecords
  apply List.mem_flatMap_of_mem htx
  simp [approvedRecords]

theorem Recorded.unchanged_iff (h : signer.Recorded base58 txs c c') :
    (c'.state.toShieldState = c.state.toShieldState ∧ c'.state.localUsdAdditions = c.state.localUsdAdditions) ↔
      txs = [] := by
  constructor
  · intro hsame
    by_contra hsome
    exact h.txEntries_ne hsome (congrArg ShieldState.txEntries hsame.1)
  · rintro rfl
    exact ⟨h.records, by simpa using h.localUsdAdditions⟩

theorem Recorded.added_iff (h : signer.Recorded base58 txs c c') :
    signer.Added base58 txs c.state c'.state ↔
      c.state.toShieldState.PrunesNothing (signer.batchRecords base58 txs) := by
  rw [← ShieldState.recordAll_eq_appendAll_iff, ← h.records]
  exact ⟨Added.records, fun hrecords => ⟨hrecords, h.localUsdAdditions⟩⟩

end

end ShieldedSigner

/-- A batch is recorded as a whole if and only if its first transaction is refused, or none is, the base signer signs
and nothing is dropped. -/
theorem batch_atomic_iff (base58 : Pubkey → String) (signer : ShieldedSigner) (txs : List BatchTransaction)
    (c : ShieldedContext) : signer.Atomic base58 txs c ↔ signer.RecordsTogether base58 txs c := by
  obtain ⟨done, rest, hsplit, hrecorded, hnone, hrest, hfirst⟩ :=
    signer.recorded_approveAll base58 txs c
  rw [ShieldedSigner.Atomic, ShieldedSigner.RecordsTogether, ← hfirst, ← hnone,
    ShieldedSigner.modifyAndSignTransactions]
  cases hdenied : (signer.approveAll base58 txs c).2 with
  | some violations => simpa [hdenied] using hrecorded.unchanged_iff
  | none =>
      rw [hrest hdenied, List.append_nil] at hsplit
      subst hsplit
      cases hsigned : signer.baseSigner.signTransactions with
      | error e => simpa [hdenied, hsigned] using hrecorded.unchanged_iff
      | ok u =>
          show signer.Added base58 txs c.state (signer.approveAll base58 txs c).1.state ↔ _
          rw [hrecorded.added_iff, and_iff_right rfl, and_iff_right rfl]
          constructor
          · exact .inr
          · rintro (rfl | hprunes)
            · intro before r after hempty
              simp [ShieldedSigner.batchRecords] at hempty
            · exact hprunes

/-! ### Two transactions, of which one an hour is allowed -/

def plainSigner : ShieldedSigner :=
  { address := .key 3
    options := { simulate := false, sessionBinding := none, maxTxPerHour := none, maxUsdPerHour := none }
    baseSigner := .modifyAndSign true }

def onceAnHour : ShieldedContext :=
  { resolved := { openPolicies with maxTransactions := 1 }, paused := false, state := .initial, syncNetwork := none }

def emptyTransaction : BatchTransaction := { instructions := [], startedAt := 0, now := 0, simulated := false }

/-- The second transaction is refused, and the first one stays recorded. -/
theorem batch_half_recorded : ¬ ∀ base58 signer txs c, ShieldedSigner.Atomic base58 signer txs c := by
  intro h
  have hatomic := h (fun _ => "") plainSigner [emptyTransaction, emptyTransaction] onceAnHour
  have hentries : [0] = ([] : List Int) := congrArg ShieldState.txEntries hatomic.1
  cases hentries

end Sigil.Sdk
