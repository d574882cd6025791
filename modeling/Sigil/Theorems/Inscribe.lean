import Mathlib.Data.Finset.Max
import Sigil.Sdk.Policies
import Sigil.State.Vault

/-!
# Policies of the client on the chain

The vault that the policies are mapped to lets no other program pass, and spends no more dollars than the limits on
stablecoins say, unless the list of programs is given and empty, or a limit in the units of another token is the
largest number.
-/

namespace Sigil.Sdk

open Library

/-- The vault is no weaker than the policies: its programs are among those that were given, and its cap, in dollars with
six decimals, is at most the largest of the limits on stablecoins, or 0 when there is none. -/
structure NoWeaker (isStable : Pubkey → Bool) (input : Option ShieldPolicies) (limits : List SpendLimit)
    (params : VaultParams) : Prop where
  programs : ∀ policy : PolicyConfig, policy.protocolMode = params.protocolMode → policy.protocols = params.protocols →
    ∀ programId, policy.isProtocolAllowed programId →
      ∀ allowed, (input.bind ShieldPolicies.allowedProtocols) = some allowed → programId ∈ allowed
  cap : (∃ limit ∈ limits, isStable limit.mint ∧ params.dailySpendingCap ≤ limit.amount) ∨
    (∀ limit ∈ limits, ¬ isStable limit.mint) ∧ params.dailySpendingCap ≤ 0

/-- No limit on another token is above the largest of the limits on stablecoins, which is not negative. -/
def LimitsInDollars (isStable : Pubkey → Bool) (limits : List SpendLimit) : Prop :=
  (∃ limit ∈ limits, isStable limit.mint ∧ 0 ≤ limit.amount ∧
      ∀ other ∈ limits, ¬ isStable other.mint → other.amount ≤ limit.amount) ∨
    ∀ limit ∈ limits, ¬ isStable limit.mint ∧ limit.amount ≤ 0

instance (isStable : Pubkey → Bool) (limits : List SpendLimit) : Decidable (LimitsInDollars isStable limits) :=
  inferInstanceAs (Decidable (_ ∨ _))

/-- A policy under which every program passes. -/
def openPolicy : PolicyConfig :=
  { dailySpendingCapUsd := 0
    maxTransactionSizeUsd := 0
    protocolMode := protocolModeAll
    protocols := []
    developerFeeRate := 0
    maxSlippageBps := 0
    timelockDuration := 0
    allowedDestinations := []
    hasProtocolCaps := false
    protocolCaps := [] }

section
variable {isStable : Pubkey → Bool} {input : Option ShieldPolicies} {resolved : ResolvedPolicies}
  {limits : List SpendLimit} {params : VaultParams} {vaultId : Int} {feeDestination : Pubkey} {opts : MapOptions}

theorem foldl_largest_le {n x : Int} :
    limits.foldl (fun maxCap limit => if limit.amount > maxCap then limit.amount else maxCap) n ≤ x ↔
      n ≤ x ∧ ∀ limit ∈ limits, limit.amount ≤ x := by
  induction limits generalizing n with
  | nil => simp
  | cons l limits ih =>
      rw [List.foldl_cons, ih, List.forall_mem_cons, ← and_assoc]
      refine and_congr_left fun _ => ?_
      split <;> omega

theorem largestAmount_le {x : Int} : largestAmount limits ≤ x ↔ 0 ≤ x ∧ ∀ limit ∈ limits, limit.amount ≤ x :=
  foldl_largest_le

/-- Of the limits on stablecoins one is the largest. -/
theorem exists_largest {limit : SpendLimit} (h : limit ∈ limits) (hstable : isStable limit.mint) :
    ∃ largest ∈ limits, isStable largest.mint ∧
      ∀ other ∈ limits, isStable other.mint → other.amount ≤ largest.amount := by
  have hne : (limits.filter fun l => isStable l.mint).toFinset.Nonempty := ⟨limit, by simp [h, hstable]⟩
  obtain ⟨largest, hmem, hmax⟩ := Finset.exists_max_image _ SpendLimit.amount hne
  simp only [List.mem_toFinset, List.mem_filter] at hmem hmax
  exact ⟨largest, hmem.1, hmem.2, fun other ho hs => hmax other ⟨ho, hs⟩⟩

/-- The largest number is that of a stablecoin. -/
theorem cap_iff_limitsInDollars :
    ((∃ limit ∈ limits, isStable limit.mint ∧ largestAmount limits ≤ limit.amount) ∨
      (∀ limit ∈ limits, ¬ isStable limit.mint) ∧ largestAmount limits ≤ 0) ↔ LimitsInDollars isStable limits := by
  simp only [largestAmount_le]
  constructor
  · rintro (⟨limit, hmem, hstable, hpos, hall⟩ | ⟨hnone, -, hall⟩)
    · exact .inl ⟨limit, hmem, hstable, hpos, fun other ho _ => hall other ho⟩
    · exact .inr fun limit hmem => ⟨hnone limit hmem, hall limit hmem⟩
  · rintro (⟨limit, hmem, hstable, hpos, hothers⟩ | hnone)
    · obtain ⟨largest, hlargest, hs, hmax⟩ := exists_largest hmem hstable
      have hle := hmax limit hmem hstable
      refine .inl ⟨largest, hlargest, hs, hpos.trans hle, fun other ho => ?_⟩
      by_cases hother : isStable other.mint
      · exact hmax other ho hother
      · exact (hothers other ho hother).trans hle
    · exact .inr ⟨fun limit hmem => (hnone limit hmem).1, le_rfl, fun limit hmem => (hnone limit hmem).2⟩

theorem resolvePolicies_allowedProtocols (h : resolvePolicies input = .ok resolved) :
    resolved.allowedProtocols = (input.bind ShieldPolicies.allowedProtocols).map List.eraseDups := by
  simp only [resolvePolicies, bind_eq_ok, pure_eq_ok] at h
  obtain ⟨_, _, _, _, rfl⟩ := h
  cases input <;> rfl

/-- Programs that are given are the only ones, unless none is given. -/
theorem programs_iff (h : resolvePolicies input = .ok resolved) :
    (∀ policy : PolicyConfig,
      policy.protocolMode = (mapPoliciesToVaultParams resolved vaultId feeDestination opts).protocolMode →
      policy.protocols = (mapPoliciesToVaultParams resolved vaultId feeDestination opts).protocols →
      ∀ programId, policy.isProtocolAllowed programId →
        ∀ allowed, (input.bind ShieldPolicies.allowedProtocols) = some allowed → programId ∈ allowed) ↔
      input.bind ShieldPolicies.allowedProtocols ≠ some [] := by
  simp only [mapPoliciesToVaultParams, resolvePolicies_allowedProtocols h]
  generalize input.bind ShieldPolicies.allowedProtocols = given
  constructor
  · rintro hprograms rfl
    have hdefault := hprograms openPolicy rfl rfl .default (by decide) [] rfl
    simp at hdefault
  · rintro hne policy hmode hprotocols programId hallowed allowed rfl
    have hpos : 0 < (allowed.eraseDups.take 10).length := by
      cases allowed with
      | nil => exact absurd rfl hne
      | cons a l => simp [List.eraseDups_cons]
    dsimp only [Option.map_some, Option.getD_some] at hmode hprotocols
    rw [if_pos hpos] at hmode
    rw [PolicyConfig.isProtocolAllowed, hmode, hprotocols] at hallowed
    have hmem : programId ∈ allowed.eraseDups.take 10 := by simpa using hallowed
    exact List.mem_eraseDups.mp (List.mem_of_mem_take hmem)

/-- The mapped vault is no weaker than the policies if and only if the list of programs is not given as the empty one
and no limit on another token is above the largest limit on a stablecoin. -/
theorem policies_no_weaker_iff (h : resolvePolicies input = .ok resolved) :
    NoWeaker isStable input resolved.spendLimits (mapPoliciesToVaultParams resolved vaultId feeDestination opts) ↔
      input.bind ShieldPolicies.allowedProtocols ≠ some [] ∧ LimitsInDollars isStable resolved.spendLimits := by
  constructor
  · rintro ⟨hprograms, hcap⟩
    exact ⟨(programs_iff h).mp hprograms, cap_iff_limitsInDollars.mp hcap⟩
  · rintro ⟨hgiven, hlimits⟩
    exact ⟨(programs_iff h).mpr hgiven, cap_iff_limitsInDollars.mpr hlimits⟩

end

/-! ### Limits of 500 USDC and 0.1 SOL -/

def stableOnMainnet (mint : Pubkey) : Bool := isStablecoinMint mint .mainnetBeta

def modestPolicies : ShieldPolicies :=
  { maxSpend := some [.limit { mint := usdcMintMainnet, amount := 500000000, windowMs := none },
      .limit { mint := solMint, amount := 100000000, windowMs := none }]
    allowedProtocols := some [jupiterProgram] }

theorem policies_no_weaker_modest : ∃ resolved, resolvePolicies (some modestPolicies) = .ok resolved ∧
    NoWeaker stableOnMainnet (some modestPolicies) resolved.spendLimits
      (mapPoliciesToVaultParams resolved 0 (.key 1) {}) := by
  obtain ⟨resolved, hresolved, hlimits⟩ : ∃ resolved, resolvePolicies (some modestPolicies) = .ok resolved ∧
      LimitsInDollars stableOnMainnet resolved.spendLimits := ⟨_, rfl, by decide +kernel⟩
  exact ⟨resolved, hresolved, (policies_no_weaker_iff hresolved).mpr ⟨by simp [modestPolicies], hlimits⟩⟩

/-! ### The default policies, and the empty list of programs -/

def closedPolicies : ShieldPolicies :=
  { maxSpend := some [.limit { mint := usdcMintMainnet, amount := 500000000, windowMs := none }]
    allowedProtocols := some [] }

/-- The default limit of 10 SOL becomes a cap of 10 000 dollars, and the empty list lets every program pass. -/
theorem policies_weakened :
    (∃ resolved, resolvePolicies none = .ok resolved ∧
      ¬ NoWeaker stableOnMainnet none resolved.spendLimits (mapPoliciesToVaultParams resolved 0 (.key 1) {})) ∧
    ∃ resolved, resolvePolicies (some closedPolicies) = .ok resolved ∧
      ¬ NoWeaker stableOnMainnet (some closedPolicies) resolved.spendLimits
        (mapPoliciesToVaultParams resolved 0 (.key 1) {}) := by
  constructor
  · obtain ⟨resolved, hresolved, hlimits⟩ : ∃ resolved, resolvePolicies none = .ok resolved ∧
        ¬ LimitsInDollars stableOnMainnet resolved.spendLimits := ⟨_, rfl, by decide +kernel⟩
    exact ⟨resolved, hresolved, fun h => hlimits (cap_iff_limitsInDollars.mp h.cap)⟩
  · obtain ⟨resolved, hresolved⟩ : ∃ resolved, resolvePolicies (some closedPolicies) = .ok resolved := ⟨_, rfl⟩
    exact ⟨resolved, hresolved, fun h => (programs_iff hresolved).mp h.programs rfl⟩

end Sigil.Sdk
