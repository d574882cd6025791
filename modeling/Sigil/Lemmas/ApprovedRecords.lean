import Sigil.Lemmas.ShieldRecords
import Sigil.Sdk.Shield

/-!
# What is recorded of approved instructions

The outgoing transfers one after the other, and then the transaction.
-/

namespace Sigil.Sdk

open Library

/-- The key under which a transfer is recorded; an unknown mint has the empty one. -/
def mintKey (base58 : Pubkey → String) (t : TokenTransferInfo) : String := (t.mint.map base58).getD ""

def outgoingTransfers (instructions : List InspectableInstruction) (signerAddress : Pubkey) : List TokenTransferInfo :=
  (analyzeInstructions instructions signerAddress).tokenTransfers.filter (isOutgoing signerAddress)

def approvedRecords (base58 : Pubkey → String) (now : Int) (instructions : List InspectableInstruction)
    (signerAddress : Pubkey) : List ShieldRecord :=
  (outgoingTransfers instructions signerAddress).map (fun t => .spend now (mintKey base58 t) t.amount) ++
    [.transaction now]

section
variable {base58 : Pubkey → String} {now : Int} {signerAddress : Pubkey} {instructions : List InspectableInstruction}
  {state : SyncedState} {network : Option Network}

theorem approvedRecords_now {r : ShieldRecord} (h : r ∈ approvedRecords base58 now instructions signerAddress) :
    r.now = now := by
  rcases List.mem_append.mp h with h | h
  · obtain ⟨t, -, rfl⟩ := List.mem_map.mp h
    rfl
  · rw [List.mem_singleton.mp h]
    rfl

theorem foldl_recordTransfer_toShieldState (transfers : List TokenTransferInfo) :
    (transfers.foldl (recordTransfer base58 now signerAddress) state).toShieldState =
      state.toShieldState.recordAll
        ((transfers.filter (isOutgoing signerAddress)).map fun t => .spend now (mintKey base58 t) t.amount) := by
  induction transfers generalizing state with
  | nil => rfl
  | cons t transfers ih =>
      rw [List.foldl_cons, ih, recordTransfer]
      by_cases hout : isOutgoing signerAddress t = true
      · rw [if_pos hout, List.filter_cons_of_pos hout]
        rfl
      · rw [if_neg hout, List.filter_cons_of_neg hout]

theorem recordStablecoins_toShieldState {transfers : List TokenTransferInfo} :
    (recordStablecoins signerAddress transfers network state).toShieldState = state.toShieldState := by
  unfold recordStablecoins
  split
  · dsimp only
    split
    · rfl
    · rfl
  · rfl

theorem recordApproved_toShieldState :
    (recordApproved base58 now instructions signerAddress network state).toShieldState =
      state.toShieldState.recordAll (approvedRecords base58 now instructions signerAddress) := by
  rw [recordApproved, recordStablecoins_toShieldState]
  show (SyncedState.toShieldState _).recordTransaction now = _
  rw [foldl_recordTransfer_toShieldState, approvedRecords, ShieldState.recordAll_append]
  rfl

end

/-! ## Entries that are not dropped -/

namespace ShieldState

/-- At `now` nothing is dropped. -/
def NothingStale (now : Int) (s : ShieldState) : Prop :=
  (s.spendEntries.length ≤ pruneThreshold ∨ ∀ e ∈ s.spendEntries, now - dayMs ≤ e.timestamp) ∧
    (s.txEntries.length ≤ pruneThreshold ∨ ∀ t ∈ s.txEntries, now - dayMs ≤ t)

/-- Nothing is dropped at any record. -/
def PrunesNothing (s : ShieldState) (records : List ShieldRecord) : Prop :=
  ∀ before r after, records = before ++ r :: after → ((s.recordAll before).appended r).NothingStale r.now

section
variable {s : ShieldState} {records : List ShieldRecord}

theorem prunesNothing_iff : s.PrunesNothing records ↔
    Write.Retains (fun _ => true) (records.map spendWrite) s.spendEntries ∧
      Write.Retains (fun _ => true) (records.map txWrite) s.txEntries := by
  rw [retains_spendWrite_iff, retains_txWrite_iff]
  simp only [PrunesNothing, NothingStale, true_implies]
  constructor
  · intro h
    exact ⟨fun before r after hsplit => (h before r after hsplit).1,
      fun before r after hsplit => (h before r after hsplit).2⟩
  · intro h before r after hsplit
    exact ⟨h.1 before r after hsplit, h.2 before r after hsplit⟩

theorem recordAll_eq_appendAll_iff : s.recordAll records = s.appendAll records ↔ s.PrunesNothing records := by
  rw [prunesNothing_iff, ← Write.filter_kept_iff, ← Write.filter_kept_iff, ← recordAll_spendEntries,
    ← recordAll_txEntries, ← appendAll_spendEntries, ← appendAll_txEntries, List.filter_true, List.filter_true,
    List.filter_true, List.filter_true]
  cases s.recordAll records
  cases s.appendAll records
  simp

/-- The latest transaction of the records is not dropped. -/
theorem recordAll_txEntries_ne {latest : Int} (hlatest : ∀ r ∈ records, r.now ≤ latest)
    (hmem : .transaction latest ∈ records) : (s.recordAll records).txEntries ≠ s.txEntries := by
  intro hsame
  have hretains : Write.Retains (fun t => t = latest) (records.map txWrite) s.txEntries := by
    rw [retains_txWrite_iff]
    intro before r after hsplit
    have hr : r.now ≤ latest := hlatest r (by simp [hsplit])
    right
    intro t _ ht
    have ht : t = latest := of_decide_eq_true ht
    dsimp only [dayMs]
    omega
  have hkept := hretains.filter_kept
  rw [← recordAll_txEntries, hsame, Write.history, List.filter_append, List.self_eq_append_right,
    List.filter_eq_nil_iff] at hkept
  apply hkept latest
  · apply List.mem_flatMap_of_mem (List.mem_map_of_mem hmem)
    exact List.mem_singleton_self latest
  · simp

end

end ShieldState

end Sigil.Sdk
