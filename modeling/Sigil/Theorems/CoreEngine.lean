import Sigil.Lemmas.CoreEngine

/-!
# The shield and the core engine

What the shield lets pass keeps to the spend limits and to the rate limit of the core. Tokens and the size of a
transaction are checked by the core alone, and programs by the shield only if there is an allowlist and unknown programs
are blocked.
-/

namespace Sigil.Sdk

namespace Core

/-- The programs pass where the shield does not look at them. -/
structure ResolvedPolicies.AdmitsPrograms (policies : ResolvedPolicies) (programIds : List String) : Prop where
  /-- an allowlist where unknown programs are not blocked -/
  listed : ∀ allowed, policies.allowedProtocols = some allowed → policies.blockUnknownPrograms = false →
    ∀ programId ∈ programIds, isSystemProgram programId ∨ programId ∈ allowed
  /-- blocked programs where there is no allowlist -/
  known : policies.allowedProtocols = none → policies.blockUnknownPrograms = true →
    ∀ programId ∈ programIds, isKnownProtocol programId

/-- What only the core checks. -/
structure ResolvedPolicies.KeepsUnshielded (policies : ResolvedPolicies) (analysis : TransactionAnalysis) : Prop where
  programs : policies.AdmitsPrograms analysis.programIds
  tokens : ∀ allowed, policies.allowedTokens = some allowed → ∀ t ∈ analysis.transfers, t.direction = .outgoing →
    t.mint = defaultAddress ∨ t.mint = "" ∨ t.mint ∈ allowed
  size : ∀ limit, policies.maxTransactionSize = some limit → limit ≠ 0 → analysis.estimatedValueLamports ≤ limit

end Core

/-- What the shield lets pass has its programs checked by the core only where the shield does not look. -/
theorem admitsPrograms_iff {base58 : Pubkey → String} {signerAddress : Pubkey} {resolved : CheckedPolicies}
    {analysis : InstructionAnalysis} (hsystem : TellsSystem base58) (h : checkPrograms resolved analysis = []) :
    (∀ programId ∈ (coreAnalysis base58 signerAddress analysis).programIds,
      Core.checkProgram (resolved.toCore base58) programId = none) ↔
    (resolved.toCore base58).AdmitsPrograms (coreAnalysis base58 signerAddress analysis).programIds := by
  simp only [Core.checkProgram_eq_none]
  constructor
  · intro hpass
    constructor
    · intro allowed hallowed _ programId hmem
      exact (hpass programId hmem).imp_right fun hother => hother.1 allowed hallowed
    · intro hnone hblock programId hmem
      rcases hpass programId hmem with hknown | hother
      · exact Core.isKnownProtocol_of_isSystemProgram hknown
      · exact hother.2 hnone hblock
  · intro hadmits programId hmem
    cases hallowed : resolved.allowedProtocols with
    | none =>
        have hnone : (resolved.toCore base58).allowedProtocols = none := by simp [ResolvedPolicies.toCore, hallowed]
        right
        constructor
        · simp [hnone]
        · exact fun _ hblock => hadmits.known hnone hblock programId hmem
    | some allowed =>
        have hsome : (resolved.toCore base58).allowedProtocols = some (allowed.map base58) := by
          simp [ResolvedPolicies.toCore, hallowed]
        have hpass : Core.isSystemProgram programId ∨ programId ∈ allowed.map base58 := by
          cases hblock : resolved.blockUnknownPrograms with
          | true =>
              obtain ⟨pid, hpid, rfl⟩ := List.mem_map.mp hmem
              exact allowed_of_checkPrograms hsystem h hallowed hblock hpid
          | false => exact hadmits.listed _ hsome hblock programId hmem
        rcases hpass with hpass | hpass
        · exact .inl hpass
        · right
          simp [hsome, hpass]

/-- The core lets pass what the shield lets pass if and only if that keeps to what only the core checks. -/
theorem core_passes_iff {base58 : Pubkey → String} (now : Int) {signerAddress : Pubkey} (resolved : CheckedPolicies)
    (state : SyncedState) {instructions : List InspectableInstruction} {network : Option Network}
    (hsystem : TellsSystem base58)
    (hmints : TellsMints base58 resolved.spendLimits (analyzeInstructions instructions signerAddress).tokenTransfers)
    (h : evaluateInstructions base58 now signerAddress resolved state instructions network = []) :
    Core.evaluatePolicy now (coreAnalysis base58 signerAddress (analyzeInstructions instructions signerAddress))
        (resolved.toCore base58) state.toShieldState.toCore = [] ↔
      (resolved.toCore base58).KeepsUnshielded
        (coreAnalysis base58 signerAddress (analyzeInstructions instructions signerAddress)) := by
  simp only [evaluateInstructions, List.append_eq_nil_iff] at h
  obtain ⟨⟨⟨⟨hprograms, hlimits⟩, hrate⟩, -⟩, -⟩ := h
  have hcaps : (resolved.toCore base58).spendLimits.filterMap (Core.checkSpendingCap now
      (coreAnalysis base58 signerAddress (analyzeInstructions instructions signerAddress))
      state.toShieldState.toCore) = [] := by
    apply List.filterMap_eq_nil_iff.mpr
    intro _ hlimit
    obtain ⟨limit, hmem, rfl⟩ := List.mem_map.mp hlimit
    apply checkSpendingCap_of_checkSpendLimit (fun t => analyzeInstructions_amount_nonneg) (hmints.named limit hmem)
      (hmints.apart limit hmem)
    exact List.filterMap_eq_nil_iff.mp hlimits limit hmem
  simp only [Core.evaluatePolicy, List.append_eq_nil_iff, hcaps, checkRateLimit_toCore.mpr hrate, and_true,
    List.filterMap_eq_nil_iff, admitsPrograms_iff hsystem hprograms, Core.checkTokens_eq_nil,
    Core.checkTransactionSize_eq_nil]
  constructor
  · rintro ⟨⟨hadmits, htokens⟩, hsize⟩
    exact ⟨hadmits, htokens, hsize⟩
  · intro hkeeps
    exact ⟨⟨hkeeps.programs, hkeeps.tokens⟩, hkeeps.size⟩

/-- Where neither engine drops an entry, a transaction that both record leaves them with the same record. -/
theorem recordTransaction_toCore {base58 : Pubkey → String} {now : Int} {signerAddress : Pubkey} {state : SyncedState}
    {instructions : List InspectableInstruction} {network : Option Network}
    (h : state.toShieldState.HasRoom (approvedRecords base58 now instructions signerAddress).length) :
    Core.Engine.recordTransaction now
        (coreAnalysis base58 signerAddress (analyzeInstructions instructions signerAddress))
        state.toShieldState.toCore =
      (recordApproved base58 now instructions signerAddress network state).toShieldState.toCore := by
  have hcore : state.toShieldState.toCore.HasRoom
      ((approvedRecords base58 now instructions signerAddress).map ShieldRecord.toCore).length := by
    rw [List.length_map]
    exact h.toCore
  rw [engineRecordTransaction_eq, Core.recordAll_of_room hcore, recordApproved_toShieldState,
    ShieldState.recordAll_of_room h, ShieldState.toCore_appendAll]

/-! ### The default policies -/

def defaultPolicies : CheckedPolicies :=
  { spendLimits := defaultMaxSpend
    maxTransactionSize := none
    allowedProtocols := none
    allowedTokens := none
    blockUnknownPrograms := true
    maxTransactions := 60
    rateWindowMs := 3600000
    customCheck := none }

theorem resolvePolicies_none : resolvePolicies none = .ok defaultPolicies.toResolvedPolicies := rfl

def addressTexts : List (Pubkey × String) :=
  [(systemProgramId, "11111111111111111111111111111111"),
   (computeBudgetProgramId, "ComputeBudget111111111111111111111111111111"),
   (ataProgramId, "ATokenGPvbdGVxr1b2hvZbsiqW5xWH25efTNsLJA8knL"),
   (splTokenProgramId, "TokenkegQfeZyiNwAJbNbGKPFXCWuBvf9Ss623VQ5DA"),
   (crateId, "4ZeVCqnjUgUtFrHHPG7jELUxvJeoVGHhGNgPrhBPwrHL"),
   (usdcMintMainnet, "EPjFWdd5AufqSSqeM2qN1xzybapC8G4wEGGkZwyTDt1v"),
   (usdtMintMainnet, "Es9vMFrzaCERmJfrF4H2FYD4KCoNkY11McCe8BenwNYB"),
   (solMint, "So11111111111111111111111111111111111111112")]

def addressText (address : Pubkey) : String := (addressTexts.lookup address).getD ""

theorem tellsSystem_addressText : TellsSystem addressText := by
  unfold TellsSystem
  decide +kernel

theorem named_addressText : ∀ limit ∈ defaultMaxSpend, addressText limit.mint ≠ "unknown" := by decide +kernel

/-- A checked transfer of 60 units, signed by key 3. -/
def sixtyUsdc : InspectableInstruction :=
  { programAddress := splTokenProgramId
    accounts := [.key 4, usdcMintMainnet, .key 5, .key 3]
    data := [12, 60, 0, 0, 0, 0, 0, 0, 0, 6] }

theorem core_passes_iff_usdc :
    Core.evaluatePolicy 0 (coreAnalysis addressText (.key 3) (analyzeInstructions [sixtyUsdc] (.key 3)))
      (defaultPolicies.toCore addressText) SyncedState.initial.toShieldState.toCore = [] := by
  have hmints : TellsMints addressText defaultMaxSpend (analyzeInstructions [sixtyUsdc] (.key 3)).tokenTransfers :=
    ⟨named_addressText, by decide +kernel⟩
  have hpass : evaluateInstructions addressText 0 (.key 3) defaultPolicies .initial [sixtyUsdc] none = [] := by
    decide +kernel
  have hknown : ∀ programId ∈ (coreAnalysis addressText (.key 3) (analyzeInstructions [sixtyUsdc] (.key 3))).programIds,
      Core.isKnownProtocol programId := by decide +kernel
  apply (core_passes_iff 0 defaultPolicies .initial tellsSystem_addressText hmints hpass).mpr
  constructor
  · exact ⟨by rintro _ ⟨⟩, fun _ _ => hknown⟩
  · rintro _ ⟨⟩
  · rintro _ ⟨⟩

/-- An instruction of a program that nobody has registered. -/
def unregistered : InspectableInstruction := { programAddress := crateId }

theorem unregistered_passes : ¬ ∀ (base58 : Pubkey → String) (now : Int) (signerAddress : Pubkey)
    (resolved : CheckedPolicies) (state : SyncedState) (instructions : List InspectableInstruction)
    (network : Option Network), TellsSystem base58 →
    TellsMints base58 resolved.spendLimits (analyzeInstructions instructions signerAddress).tokenTransfers →
    evaluateInstructions base58 now signerAddress resolved state instructions network = [] →
    Core.evaluatePolicy now (coreAnalysis base58 signerAddress (analyzeInstructions instructions signerAddress))
        (resolved.toCore base58) state.toShieldState.toCore = [] := by
  intro h
  have hmints : TellsMints addressText defaultMaxSpend (analyzeInstructions [unregistered] (.key 3)).tokenTransfers :=
    ⟨named_addressText, by decide +kernel⟩
  have hcore := h addressText 0 (.key 3) defaultPolicies .initial [unregistered] none tellsSystem_addressText hmints
    (by decide +kernel)
  exact absurd hcore (by decide +kernel)

end Sigil.Sdk
