import Sigil.Lemmas.ApprovedRecords
import Sigil.Sdk.CoreEngine

/-!
# The checks of the two engines

What each check of the core lets pass, and the two that never find what the shield has not found: the spend limits and
the rate limit, as long as both have recorded the same.
-/

namespace Sigil.Sdk

/-! ## The same record -/

/-- What the core has recorded where the shield has recorded `s`. -/
def ShieldState.toCore (s : ShieldState) : Core.ShieldState :=
  { s with spendEntries := s.spendEntries.map fun e => { e with mint := Core.mintKey e.mint } }

/-- The analysis that the core is given. -/
def coreAnalysis (base58 : Pubkey → String) (signerAddress : Pubkey) (analysis : InstructionAnalysis) :
    Core.TransactionAnalysis :=
  (customAnalysis base58 signerAddress analysis).toCore base58

/-- The texts of the mints in play: they tell a limited mint from the others and from the mark for an unknown one. -/
structure TellsMints (base58 : Pubkey → String) (limits : List SpendLimit) (transfers : List TokenTransferInfo) :
    Prop where
  named : ∀ limit ∈ limits, base58 limit.mint ≠ "unknown"
  apart : ∀ limit ∈ limits, ∀ t ∈ transfers, ∀ mint ∈ t.mint, base58 mint = base58 limit.mint → mint = limit.mint

namespace Core

/-! ## Programs, tokens, size -/

section
variable {analysis : TransactionAnalysis} {policies : ResolvedPolicies}

theorem isKnownProtocol_of_isSystemProgram {programId : String} (h : isSystemProgram programId = true) :
    isKnownProtocol programId = true := by
  apply List.contains_iff_mem.mpr
  apply List.mem_append_right
  exact List.contains_iff_mem.mp h

theorem checkProgram_eq_none {programId : String} : checkProgram policies programId = none ↔
    isSystemProgram programId ∨
      (∀ allowed, policies.allowedProtocols = some allowed → programId ∈ allowed) ∧
        (policies.allowedProtocols = none → policies.blockUnknownPrograms → isKnownProtocol programId) := by
  cases hsystem : isSystemProgram programId with
  | true => simp [checkProgram, hsystem]
  | false => cases h : policies.allowedProtocols <;> simp [checkProgram, hsystem, h]

theorem checkToken_eq_none {allowed : List String} {t : TokenTransfer} : checkToken allowed t = none ↔
    (t.direction = .outgoing → t.mint = defaultAddress ∨ t.mint = "" ∨ t.mint ∈ allowed) := by
  unfold checkToken
  split
  case isTrue hdirection => simp [hdirection]
  case isFalse hdirection =>
      split
      case isTrue hmint =>
          simp only [true_iff]
          intro _
          exact hmint.imp_right Or.inl
      case isFalse hmint =>
          push Not at hdirection hmint
          simp [hdirection, hmint]

theorem checkTokens_eq_nil : checkTokens analysis policies = [] ↔
    ∀ allowed, policies.allowedTokens = some allowed → ∀ t ∈ analysis.transfers, t.direction = .outgoing →
      t.mint = defaultAddress ∨ t.mint = "" ∨ t.mint ∈ allowed := by
  cases h : policies.allowedTokens with
  | none => simp [checkTokens, h]
  | some allowed => simp [checkTokens, h, List.filterMap_eq_nil_iff, checkToken_eq_none]

theorem checkTransactionSize_eq_nil : checkTransactionSize analysis policies = [] ↔
    ∀ limit, policies.maxTransactionSize = some limit → limit ≠ 0 → analysis.estimatedValueLamports ≤ limit := by
  cases h : policies.maxTransactionSize with
  | none => simp [checkTransactionSize, h]
  | some limit => simp [checkTransactionSize, h]

end

end Core

/-! ## Spend limits -/

theorem sum_filter_mono {α : Type} {weight : α → Int} {p q : α → Bool} {l : List α}
    (hnonneg : ∀ a ∈ l, 0 ≤ weight a) (h : ∀ a ∈ l, p a = true → q a = true) :
    ((l.filter p).map weight).sum ≤ ((l.filter q).map weight).sum := by
  induction l with
  | nil => simp
  | cons a l ih =>
      obtain ⟨ha, hl⟩ := List.forall_mem_cons.mp hnonneg
      obtain ⟨hpq, hrest⟩ := List.forall_mem_cons.mp h
      have hle := ih hl hrest
      cases hp : p a with
      | true => simpa [hp, hpq hp] using hle
      | false =>
          cases hq : q a with
          | true =>
              simp only [List.filter_cons, hp, hq, if_true, Bool.false_eq_true, if_false, List.map_cons, List.sum_cons]
              omega
          | false => simpa [hp, hq] using hle

theorem Core.mintKey_eq_iff {mint key : String} (hkey : key ≠ "unknown") :
    Core.mintKey mint = key ↔ mint = key ∧ mint ≠ Core.defaultAddress ∧ mint ≠ "" := by
  unfold Core.mintKey
  split
  case isTrue h =>
      simp only [hkey.symm, false_iff]
      rintro ⟨-, hdefault, hempty⟩
      exact h.elim hdefault hempty
  case isFalse h =>
      push Not at h
      simp [h]

/-- Under a key of its own the core has recorded what the shield has. -/
theorem ShieldState.toCore_getSpendInWindow {s : ShieldState} {now windowMs : Int} {key : String}
    (hkey : key ≠ "unknown") (hdefault : key ≠ Core.defaultAddress) (hempty : key ≠ "") :
    s.toCore.getSpendInWindow now key windowMs = s.getSpendInWindow now key windowMs := by
  have hsame (e : SpendEntry) : Core.mintKey e.mint = key ↔ e.mint = key := by
    rw [Core.mintKey_eq_iff hkey]
    constructor
    · exact And.left
    · rintro rfl
      exact ⟨rfl, hdefault, hempty⟩
  simp only [ShieldState.getSpendInWindow, ShieldState.toCore, List.filter_map, List.map_map]
  congr 2
  apply List.filter_congr
  intro e _
  simp [hsame]

section
variable {base58 : Pubkey → String} {now : Int} {signerAddress : Pubkey} {resolved : ResolvedPolicies}
  {analysis : InstructionAnalysis} {state : SyncedState}

variable (base58 signerAddress) in
/-- A transfer as the core is given it. -/
def coreTransfer (t : TokenTransferInfo) : Core.TokenTransfer :=
  { mint := mintKey base58 t
    amount := t.amount
    direction := if isOutgoing signerAddress t then .outgoing else .unknown
    destination := base58 t.destination }

theorem coreAnalysis_transfers {analysis : InstructionAnalysis} :
    (coreAnalysis base58 signerAddress analysis).transfers =
      analysis.tokenTransfers.map (coreTransfer base58 signerAddress) := by
  simp only [coreAnalysis, TransactionAnalysis.toCore, customAnalysis, List.map_map]
  rfl

/-- What the core counts for a limit, in terms of the transfers that the shield has read. -/
theorem coreAnalysis_spend {key : String} :
    (((coreAnalysis base58 signerAddress analysis).transfers.filter fun t =>
        t.direction = .outgoing ∧ Core.mintKey t.mint = key).map Core.TokenTransfer.amount).sum =
      ((analysis.tokenTransfers.filter fun t =>
        isOutgoing signerAddress t ∧ Core.mintKey (mintKey base58 t) = key).map TokenTransferInfo.amount).sum := by
  simp only [coreAnalysis_transfers, List.filter_map, List.map_map]
  congr 2
  apply List.filter_congr
  intro t _
  cases h : isOutgoing signerAddress t <;> simp [coreTransfer, h]

variable (signerAddress) in
/-- The shield counts for a limit what the core counts, and transfers of unknown mints. -/
theorem coreSpend_le {limit : SpendLimit} (hnonneg : ∀ t ∈ analysis.tokenTransfers, 0 ≤ t.amount)
    (hnamed : base58 limit.mint ≠ "unknown")
    (hapart : ∀ t ∈ analysis.tokenTransfers, ∀ mint ∈ t.mint, base58 mint = base58 limit.mint → mint = limit.mint) :
    ((analysis.tokenTransfers.filter fun t =>
        isOutgoing signerAddress t ∧ Core.mintKey (mintKey base58 t) = base58 limit.mint).map
          TokenTransferInfo.amount).sum ≤
      ((analysis.tokenTransfers.filter fun t =>
        isOutgoing signerAddress t ∧ (t.mint = some limit.mint ∨ t.mint = none)).map TokenTransferInfo.amount).sum := by
  apply sum_filter_mono hnonneg
  intro t ht hcounted
  simp only [decide_eq_true_eq] at hcounted ⊢
  obtain ⟨hout, hkey⟩ := hcounted
  have hmint := ((Core.mintKey_eq_iff hnamed).mp hkey).1
  cases hcase : t.mint with
  | none => exact ⟨hout, .inr rfl⟩
  | some mint =>
      have hname : base58 mint = base58 limit.mint := by simpa [mintKey, hcase] using hmint
      exact ⟨hout, .inl (by rw [hapart t ht mint hcase hname])⟩

/-- The core counts nothing for a mint that it calls unknown. -/
theorem coreSpend_eq_nil {key : String} (hkey : key ≠ "unknown")
    (hplain : ¬ (key ≠ Core.defaultAddress ∧ key ≠ "")) :
    (analysis.tokenTransfers.filter fun t =>
      isOutgoing signerAddress t ∧ Core.mintKey (mintKey base58 t) = key) = [] := by
  apply List.filter_eq_nil_iff.mpr
  intro t _ hcounted
  simp only [decide_eq_true_eq] at hcounted
  obtain ⟨hmint, hdefault, hempty⟩ := (Core.mintKey_eq_iff hkey).mp hcounted.2
  rw [hmint] at hdefault hempty
  exact hplain ⟨hdefault, hempty⟩

/-- A limit that the shield keeps is no cap that the core finds exceeded. -/
theorem checkSpendingCap_of_checkSpendLimit {limit : SpendLimit}
    (hnonneg : ∀ t ∈ analysis.tokenTransfers, 0 ≤ t.amount) (hnamed : base58 limit.mint ≠ "unknown")
    (hapart : ∀ t ∈ analysis.tokenTransfers, ∀ mint ∈ t.mint, base58 mint = base58 limit.mint → mint = limit.mint)
    (h : checkSpendLimit base58 now signerAddress analysis state limit = none) :
    Core.checkSpendingCap now (coreAnalysis base58 signerAddress analysis) state.toShieldState.toCore
      { mint := base58 limit.mint, amount := limit.amount, windowMs := limit.windowMs } = none := by
  by_cases hplain : base58 limit.mint ≠ Core.defaultAddress ∧ base58 limit.mint ≠ ""
  · have hle := coreSpend_le signerAddress hnonneg hnamed hapart
    have hkept : ¬ state.getSpendInWindow now (base58 limit.mint) (limit.windowMs.getD dayMs) +
        ((analysis.tokenTransfers.filter fun t =>
          isOutgoing signerAddress t ∧ (t.mint = some limit.mint ∨ t.mint = none)).map
            TokenTransferInfo.amount).sum > limit.amount := by
      simpa [checkSpendLimit] using h
    simp only [Core.checkSpendingCap, coreAnalysis_spend,
      ShieldState.toCore_getSpendInWindow hnamed hplain.1 hplain.2]
    split
    · rfl
    · rw [if_neg (by omega)]
  · simp only [Core.checkSpendingCap, coreAnalysis_spend, coreSpend_eq_nil hnamed hplain]
    rfl

/-- Both engines count the transactions of one window. -/
theorem checkRateLimit_toCore {policies : CheckedPolicies} :
    Core.checkRateLimit now (policies.toCore base58) state.toShieldState.toCore = [] ↔
      checkRateLimit now policies state = [] := by
  simp [Core.checkRateLimit, checkRateLimit, ResolvedPolicies.toCore, ShieldState.toCore,
    ShieldState.getTransactionCountInWindow]

/-! ## Programs -/

/-- The programs that the shield always lets pass are among those of the core. -/
def TellsSystem (base58 : Pubkey → String) : Prop := ∀ pid ∈ systemPrograms, Core.isSystemProgram (base58 pid)

/-- An allowlist that the shield enforces is enforced by the core. -/
theorem allowed_of_checkPrograms {policies : CheckedPolicies} {allowed : List Pubkey} (hsystem : TellsSystem base58)
    (h : checkPrograms policies analysis = []) (hallowed : policies.allowedProtocols = some allowed)
    (hblock : policies.blockUnknownPrograms = true) {pid : Pubkey} (hpid : pid ∈ analysis.programIds) :
    Core.isSystemProgram (base58 pid) ∨ base58 pid ∈ allowed.map base58 := by
  simp only [checkPrograms, hallowed, hblock, if_true, List.map_eq_nil_iff, List.filter_eq_nil_iff] at h
  have hpass := h pid hpid
  by_cases hmem : pid ∈ systemPrograms
  · exact .inl (hsystem pid hmem)
  · right
    apply List.mem_map_of_mem
    simpa [hmem] using hpass

end

/-! ## Recording -/

/-- The same record under the keys of the core. -/
def ShieldRecord.toCore : ShieldRecord → ShieldRecord
  | .spend now mint amount => .spend now (Core.mintKey mint) amount
  | .transaction now => .transaction now

/-- Neither engine drops an entry for so many records. -/
structure ShieldState.HasRoom (s : ShieldState) (count : Nat) : Prop where
  spends : s.spendEntries.length + count ≤ Core.maxSpendEntries
  transactions : s.txEntries.length + count ≤ Core.maxTxEntries

section
variable {s : ShieldState} {r : ShieldRecord} {records : List ShieldRecord} {count : Nat}

theorem ShieldState.HasRoom.appended (h : s.HasRoom (count + 1)) : (s.appended r).HasRoom count := by
  obtain ⟨hspends, htransactions⟩ := h
  cases r with
  | spend now mint amount =>
      constructor
      · simp only [ShieldState.appended, ShieldRecord.spendEntries, List.length_append, List.length_singleton]
        omega
      · simp only [ShieldState.appended, ShieldRecord.txEntries, List.append_nil]
        omega
  | transaction now =>
      constructor
      · simp only [ShieldState.appended, ShieldRecord.spendEntries, List.append_nil]
        omega
      · simp only [ShieldState.appended, ShieldRecord.txEntries, List.length_append, List.length_singleton]
        omega

theorem ShieldState.record_of_room (h : s.HasRoom (count + 1)) : s.record r = s.appended r := by
  obtain ⟨hspends, htransactions⟩ := h.appended (r := r)
  have hkeep : ¬ (s.appended r).spendEntries.length > pruneThreshold := by
    dsimp only [Core.maxSpendEntries, pruneThreshold] at hspends ⊢
    omega
  have hkeep' : ¬ (s.appended r).txEntries.length > pruneThreshold := by
    dsimp only [Core.maxTxEntries, pruneThreshold] at htransactions ⊢
    omega
  rw [ShieldState.record_eq_prune, ShieldState.prune, if_neg hkeep, if_neg hkeep']

theorem Core.record_of_room (h : s.HasRoom (count + 1)) : Core.record s r = s.appended r := by
  obtain ⟨hspends, htransactions⟩ := h.appended (r := r)
  cases r with
  | spend now mint amount =>
      have hkeep : ¬ (s.spendEntries ++ [SpendEntry.mk mint amount now]).length > Core.maxSpendEntries := by
        simp only [ShieldState.appended, ShieldRecord.spendEntries] at hspends
        omega
      simp only [Core.record, Core.recordSpend, if_neg hkeep, ShieldState.appended, ShieldRecord.spendEntries,
        ShieldRecord.txEntries, List.append_nil]
  | transaction now =>
      have hkeep : ¬ (s.txEntries ++ [now]).length > Core.maxTxEntries := by
        simp only [ShieldState.appended, ShieldRecord.txEntries] at htransactions
        omega
      simp only [Core.record, Core.recordTransaction, if_neg hkeep, ShieldState.appended, ShieldRecord.spendEntries,
        ShieldRecord.txEntries, List.append_nil]

theorem ShieldState.recordAll_of_room (h : s.HasRoom records.length) : s.recordAll records = s.appendAll records := by
  induction records generalizing s with
  | nil => rfl
  | cons r records ih =>
      rw [ShieldState.recordAll, List.foldl_cons, ShieldState.record_of_room h]
      exact ih h.appended

theorem Core.recordAll_of_room (h : s.HasRoom records.length) : Core.recordAll s records = s.appendAll records := by
  induction records generalizing s with
  | nil => rfl
  | cons r records ih =>
      rw [Core.recordAll, List.foldl_cons, Core.record_of_room h]
      exact ih h.appended

theorem ShieldState.toCore_appended : (s.appended r).toCore = s.toCore.appended r.toCore := by
  cases r <;> simp [ShieldState.appended, ShieldState.toCore, ShieldRecord.toCore, ShieldRecord.spendEntries,
    ShieldRecord.txEntries]

theorem ShieldState.toCore_appendAll : (s.appendAll records).toCore = s.toCore.appendAll (records.map .toCore) := by
  induction records generalizing s with
  | nil => rfl
  | cons r records ih =>
      rw [ShieldState.appendAll, List.foldl_cons, ← ShieldState.appendAll, ih, ShieldState.toCore_appended]
      rfl

theorem ShieldState.HasRoom.toCore (h : s.HasRoom count) : s.toCore.HasRoom count :=
  ⟨by simpa [ShieldState.toCore] using h.spends, h.transactions⟩

end

section
variable {base58 : Pubkey → String} {now : Int} {signerAddress : Pubkey} {s : ShieldState}

theorem foldl_engineRecordTransfer (transfers : List TokenTransferInfo) :
    (transfers.map (coreTransfer base58 signerAddress)).foldl (Core.Engine.recordTransfer now) s =
      Core.recordAll s (((transfers.filter (isOutgoing signerAddress)).map
        fun t => ShieldRecord.spend now (mintKey base58 t) t.amount).map .toCore) := by
  induction transfers generalizing s with
  | nil => rfl
  | cons t transfers ih =>
      rw [List.map_cons, List.foldl_cons, ih, Core.Engine.recordTransfer]
      by_cases hout : isOutgoing signerAddress t = true
      · rw [List.filter_cons_of_pos hout, if_pos (by simp [coreTransfer, hout])]
        rfl
      · rw [List.filter_cons_of_neg hout, if_neg (by simp [coreTransfer, hout])]

/-- What the core records of a transaction is what the shield records, under its own keys. -/
theorem engineRecordTransaction_eq {instructions : List InspectableInstruction} :
    Core.Engine.recordTransaction now
        (coreAnalysis base58 signerAddress (analyzeInstructions instructions signerAddress)) s =
      Core.recordAll s ((approvedRecords base58 now instructions signerAddress).map .toCore) := by
  rw [Core.Engine.recordTransaction, coreAnalysis_transfers, foldl_engineRecordTransfer, approvedRecords,
    List.map_append, Core.recordAll, Core.recordAll, List.foldl_append]
  rfl

end

end Sigil.Sdk
