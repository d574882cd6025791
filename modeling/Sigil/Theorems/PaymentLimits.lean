import Sigil.Sdk.PolicyBridge
import Sigil.Theorems.SpendLimits

/-!
# Payments and spend limits

The shield is asked about an instruction that has no amount. A payment is let pass if the shield would let pass a
transaction of the token program without any transfer, so the limits do not hold it back.
-/

namespace Sigil.Sdk

open Library

section
variable (base58 : Pubkey → String) (address : String → Pubkey) (now : Int) (selected : PaymentRequirements)
  (config : X402Config) (signerAddress : Pubkey) (c : ShieldedContext) (amount : Nat)

/-- With the payment the limits for its asset are kept, and the caps of the chain that hold for a transfer of it, if
there is a transfer of as much. -/
structure PaymentFits : Prop where
  limits : ∀ limit ∈ c.resolved.spendLimits, base58 limit.mint = selected.asset →
    c.state.getSpendInWindow now selected.asset (limit.windowMs.getD dayMs) + amount ≤ limit.amount
  onChain : amount < 2 ^ 64 → ∀ source decimals, checkOnChainCaps signerAddress
    (analyzeInstructions [selected.transferChecked address signerAddress amount source decimals] signerAddress) c.state
    c.syncNetwork = []

/-- What a limit, with what is spent of it, leaves for the asset. -/
def limitRoom : List Int :=
  (c.resolved.spendLimits.filter fun limit => base58 limit.mint = selected.asset).map fun limit =>
    limit.amount - c.state.getSpendInWindow now selected.asset (limit.windowMs.getD dayMs)

/-- What the caps of the chain leave for a transfer of the asset. -/
def onChainRoom : List Int :=
  match c.state.resolvedState, c.syncNetwork.or c.state.network with
  | some rs, some network =>
      if isStablecoinMint (address selected.asset) network then
        [rs.maxTransactionUsd, rs.globalBudget.cap - c.state.getEffectiveGlobalSpent24h] ++
          match c.state.getEffectiveAgentSpent24h, rs.agentBudget with
          | some spent, some budget => [budget.cap - spent]
          | _, _ => []
      else []
  | _, _ => []

/-- The greatest amount that the limits of the configuration let pass; `none` if it has no limits. -/
def mostPayable : Option Int :=
  let cumulative := config.maxCumulativeSpend.map fun limit =>
    limit - c.state.getTotalSpendInWindow now (config.cumulativeWindowMs.getD dayMs)
  match cumulative, config.maxPaymentPerRequest with
  | some a, some b => some (min a b)
  | some a, none => some a
  | none, b => b

/-- The shield lets a transaction of the token program without transfers pass. -/
structure ShieldOpen : Prop where
  running : c.paused = false
  program : ∀ allowed, c.resolved.allowedProtocols = some allowed → c.resolved.blockUnknownPrograms →
    splTokenProgramId ∈ allowed
  limits : ∀ limit ∈ c.resolved.spendLimits,
    c.state.getSpendInWindow now (base58 limit.mint) (limit.windowMs.getD dayMs) ≤ limit.amount
  rate : (c.state.getTransactionCountInWindow now c.resolved.rateWindowMs : Int) < c.resolved.maxTransactions
  custom : ∀ check, c.resolved.customCheck = some check →
    (check { programIds := [splTokenProgramId], transfers := [], estimatedValueLamports := 0 }).allowed

/-- The limits of the configuration alone keep payments within what is left. A transfer is of less than `2 ^ 64`. -/
def PaymentsBounded : Prop :=
  ∃ most, mostPayable now config c = some most ∧ (0 ≤ most → (∀ room ∈ limitRoom base58 now selected c, most ≤ room) ∧
    (0 < most → ∀ room ∈ onChainRoom address selected c, min most (2 ^ 64 - 1) ≤ room))

end

section
variable {base58 : Pubkey → String} {address : String → Pubkey} {message : PolicyViolation → String} {now : Int}
  {selected : PaymentRequirements} {config : X402Config} {signerAddress : Pubkey} {c : ShieldedContext} {amount : Nat}

/-! ## The analysis -/

/-- The analysis of the synthetic instruction. -/
def tokenProgramOnly : InstructionAnalysis :=
  { programIds := [splTokenProgramId], tokenTransfers := [], estimatedValue := 0, dangerousOperations := [] }

/-- Nothing is read from the synthetic instruction but its program. -/
theorem analyzeInstructions_syntheticIx :
    analyzeInstructions [selected.syntheticIx address signerAddress] signerAddress =
      tokenProgramOnly := by
  simp [tokenProgramOnly, analyzeInstructions, PaymentRequirements.syntheticIx, List.eraseDups_cons,
    InspectableInstruction.tokenTransfer, InspectableInstruction.dangerousOperation,
    InspectableInstruction.tokenDiscriminator]

/-- A transfer is read with its amount. -/
theorem analyzeInstructions_transferChecked {source : Pubkey} {decimals : UInt8} (hamount : amount < 2 ^ 64) :
    (analyzeInstructions [selected.transferChecked address signerAddress amount source decimals]
        signerAddress).tokenTransfers =
      [{ mint := some (address selected.asset), amount, source, destination := address selected.payTo,
         authority := signerAddress }] := by
  have hvalue : leValue (leBytes 8 amount).toList = amount := leValue_leBytes (n := 8) hamount
  have hdigits : (leBytes 8 amount).toList = leDigits 8 amount := by simp [leBytes]
  rw [hdigits] at hvalue
  simp [analyzeInstructions, PaymentRequirements.transferChecked, InspectableInstruction.tokenTransfer,
    InspectableInstruction.tokenDiscriminator, readU64LE, hvalue]

/-! ## What is checked -/

theorem checkPrograms_tokenProgramOnly : checkPrograms c.resolved tokenProgramOnly = [] ↔
    ∀ allowed, c.resolved.allowedProtocols = some allowed → c.resolved.blockUnknownPrograms →
      splTokenProgramId ∈ allowed := by
  have hsystem : splTokenProgramId ∉ systemPrograms := by decide
  rw [checkPrograms]
  cases c.resolved.allowedProtocols with
  | none => simp
  | some allowed => cases c.resolved.blockUnknownPrograms <;> simp [tokenProgramOnly, hsystem]

theorem checkSpendLimit_tokenProgramOnly {limit : SpendLimit} :
    checkSpendLimit base58 now signerAddress tokenProgramOnly c.state limit = none ↔
      c.state.getSpendInWindow now (base58 limit.mint) (limit.windowMs.getD dayMs) ≤ limit.amount := by
  simp [checkSpendLimit, tokenProgramOnly]

theorem checkRateLimit_eq_nil : checkRateLimit now c.resolved c.state = [] ↔
    (c.state.getTransactionCountInWindow now c.resolved.rateWindowMs : Int) < c.resolved.maxTransactions := by
  simp [checkRateLimit]

theorem checkCustom_tokenProgramOnly : checkCustom base58 signerAddress c.resolved tokenProgramOnly = [] ↔
    ∀ check, c.resolved.customCheck = some check →
      (check { programIds := [splTokenProgramId], transfers := [], estimatedValueLamports := 0 }).allowed := by
  rw [checkCustom]
  cases c.resolved.customCheck with
  | none => simp
  | some check => simp [customAnalysis, tokenProgramOnly]

theorem checkOnChainCaps_tokenProgramOnly {network : Option Network} :
    checkOnChainCaps signerAddress tokenProgramOnly c.state network = [] := by
  unfold checkOnChainCaps
  split
  · simp [checkOnChain, computeStablecoinUsd, tokenProgramOnly]
  · rfl

/-- The shield lets the synthetic instruction pass. -/
theorem check_syntheticIx : c.check base58 now [selected.syntheticIx address signerAddress] signerAddress = [] ↔
    c.paused = false ∧
      (∀ allowed, c.resolved.allowedProtocols = some allowed → c.resolved.blockUnknownPrograms →
        splTokenProgramId ∈ allowed) ∧
      (∀ limit ∈ c.resolved.spendLimits,
        c.state.getSpendInWindow now (base58 limit.mint) (limit.windowMs.getD dayMs) ≤ limit.amount) ∧
      (c.state.getTransactionCountInWindow now c.resolved.rateWindowMs : Int) < c.resolved.maxTransactions ∧
      ∀ check, c.resolved.customCheck = some check →
        (check { programIds := [splTokenProgramId], transfers := [], estimatedValueLamports := 0 }).allowed := by
  rw [ShieldedContext.check, evaluateInstructions, analyzeInstructions_syntheticIx]
  cases c.paused with
  | true => simp
  | false =>
      simp only [Bool.false_eq_true, if_false, List.append_eq_nil_iff, and_assoc, true_and,
        checkPrograms_tokenProgramOnly, List.filterMap_eq_nil_iff, checkSpendLimit_tokenProgramOnly,
        checkRateLimit_eq_nil, checkCustom_tokenProgramOnly, checkOnChainCaps_tokenProgramOnly, and_true]

theorem checkCumulativeSpend_eq_ok_nil (hamount : bigInt selected.amount = some (amount : Int)) {state : ShieldState} :
    checkCumulativeSpend now selected state config = .ok [] ↔
      ∀ limit, config.maxCumulativeSpend = some limit →
        state.getTotalSpendInWindow now (config.cumulativeWindowMs.getD dayMs) + amount ≤ limit := by
  unfold checkCumulativeSpend
  cases config.maxCumulativeSpend with
  | none => simp
  | some limit => simp [hamount, okOr, bind, Except.bind]

theorem checkPerRequest_eq_ok_nil (hamount : bigInt selected.amount = some (amount : Int)) :
    checkPerRequest selected config = .ok [] ↔
      ∀ limit, config.maxPaymentPerRequest = some limit → (amount : Int) ≤ limit := by
  unfold checkPerRequest
  cases config.maxPaymentPerRequest with
  | none => simp
  | some limit => simp [hamount, okOr, bind, Except.bind]

/-- The limits of the configuration are one bound. -/
theorem le_mostPayable_iff : (∀ most, mostPayable now config c = some most → (amount : Int) ≤ most) ↔
    (∀ limit, config.maxCumulativeSpend = some limit →
      c.state.getTotalSpendInWindow now (config.cumulativeWindowMs.getD dayMs) + amount ≤ limit) ∧
      ∀ limit, config.maxPaymentPerRequest = some limit → (amount : Int) ≤ limit := by
  unfold mostPayable
  cases config.maxCumulativeSpend with
  | none => simp
  | some limit =>
      cases config.maxPaymentPerRequest with
      | none => simp [le_sub_iff_add_le']
      | some ceiling => simp [le_sub_iff_add_le']

/-- A payment of a signer is let pass iff the shield is open and the limits of the configuration are kept. Only these
look at the amount. -/
theorem evaluateX402Payment_eq_ok_nil (hsigner : base58 signerAddress ≠ "")
    (hamount : bigInt selected.amount = some (amount : Int)) :
    c.evaluateX402Payment base58 address message now selected config signerAddress = .ok [] ↔
      ShieldOpen base58 now c ∧ ∀ most, mostPayable now config c = some most → (amount : Int) ≤ most := by
  rw [ShieldedContext.evaluateX402Payment, evaluateX402Payment, require_bind_eq_ok, le_mostPayable_iff]
  simp only [bind_eq_ok, pure_eq_ok, List.append_eq_nil_iff, hsigner, ne_eq, not_false_eq_true, if_true,
    List.map_eq_nil_iff, check_syntheticIx]
  constructor
  · rintro ⟨-, _, hcumulative, _, hceiling, ⟨rfl, rfl⟩, hrunning, hprogram, hlimits, hrate, hcustom⟩
    exact ⟨⟨hrunning, hprogram, hlimits, hrate, hcustom⟩, (checkCumulativeSpend_eq_ok_nil hamount).mp hcumulative,
      (checkPerRequest_eq_ok_nil hamount).mp hceiling⟩
  · rintro ⟨hopen, hcumulative, hceiling⟩
    exact ⟨by simp [hopen.running], _, (checkCumulativeSpend_eq_ok_nil hamount).mpr hcumulative, _,
      (checkPerRequest_eq_ok_nil hamount).mpr hceiling, ⟨rfl, rfl⟩, hopen.running, hopen.program, hopen.limits,
      hopen.rate, hopen.custom⟩

/-! ## What is left -/

theorem computeStablecoinUsd_transferChecked {source : Pubkey} {decimals : UInt8} {network : Network}
    (hamount : amount < 2 ^ 64) :
    computeStablecoinUsd (analyzeInstructions
        [selected.transferChecked address signerAddress amount source decimals] signerAddress).tokenTransfers
        signerAddress network =
      if isStablecoinMint (address selected.asset) network then (amount : Int) else 0 := by
  rw [analyzeInstructions_transferChecked hamount]
  by_cases hstable : isStablecoinMint (address selected.asset) network = true
  · simp [computeStablecoinUsd, isOutgoing, hstable]
  · simp [computeStablecoinUsd, isOutgoing, hstable]

/-- The caps of the chain leave room for a transfer. -/
theorem checkOnChainCaps_transferChecked (hamount : amount < 2 ^ 64) (hpositive : 0 < amount) {source : Pubkey}
    {decimals : UInt8} : checkOnChainCaps signerAddress
      (analyzeInstructions [selected.transferChecked address signerAddress amount source decimals] signerAddress)
      c.state c.syncNetwork = [] ↔ ∀ room ∈ onChainRoom address selected c, (amount : Int) ≤ room := by
  unfold checkOnChainCaps onChainRoom
  cases c.state.resolvedState with
  | none => simp
  | some rs =>
      cases c.syncNetwork.or c.state.network with
      | none => simp
      | some network =>
          dsimp only
          rw [checkOnChain, computeStablecoinUsd_transferChecked hamount]
          split
          · have hgt : (amount : Int) > 0 := by omega
            rw [if_pos hgt]
            unfold checkAgentCap
            cases c.state.getEffectiveAgentSpent24h with
            | none => simp [le_sub_iff_add_le']
            | some spent =>
                cases rs.agentBudget with
                | none => simp [le_sub_iff_add_le']
                | some budget => simp [le_sub_iff_add_le']
          · simp

theorem checkOnChainCaps_zero {source : Pubkey} {decimals : UInt8} : checkOnChainCaps signerAddress
      (analyzeInstructions [selected.transferChecked address signerAddress 0 source decimals] signerAddress)
      c.state c.syncNetwork = [] := by
  unfold checkOnChainCaps
  split
  · simp [checkOnChain, computeStablecoinUsd_transferChecked (show 0 < 2 ^ 64 by decide)]
  · rfl

/-- A payment fits if there is room for it. -/
theorem paymentFits_iff : PaymentFits base58 address now selected signerAddress c amount ↔
    (∀ room ∈ limitRoom base58 now selected c, (amount : Int) ≤ room) ∧
      (amount < 2 ^ 64 → 0 < amount → ∀ room ∈ onChainRoom address selected c, (amount : Int) ≤ room) := by
  have hlimits : (∀ room ∈ limitRoom base58 now selected c, (amount : Int) ≤ room) ↔
      ∀ limit ∈ c.resolved.spendLimits, base58 limit.mint = selected.asset →
        c.state.getSpendInWindow now selected.asset (limit.windowMs.getD dayMs) + amount ≤ limit.amount := by
    simp only [limitRoom, List.mem_map, List.mem_filter, decide_eq_true_eq]
    constructor
    · intro h limit hlimit hasset
      exact le_sub_iff_add_le'.mp (h _ ⟨limit, ⟨hlimit, hasset⟩, rfl⟩)
    · rintro h _ ⟨limit, ⟨hlimit, hasset⟩, rfl⟩
      exact le_sub_iff_add_le'.mpr (h limit hlimit hasset)
  rw [hlimits]
  constructor
  · intro h
    exact ⟨h.limits, fun hamount hpositive =>
      (checkOnChainCaps_transferChecked hamount hpositive).mp (h.onChain hamount (.key 0) 0)⟩
  · rintro ⟨hlimits, honChain⟩
    refine ⟨hlimits, fun hamount source decimals => ?_⟩
    rcases Nat.eq_zero_or_pos amount with rfl | hpositive
    · exact checkOnChainCaps_zero
    · exact (checkOnChainCaps_transferChecked hamount hpositive).mpr (honChain hamount hpositive)

/-- Payments of every amount that are let pass fit into the limits iff the shield is closed to all of them, or the
limits of the configuration are no greater than what is left. -/
theorem payment_fits_iff (hsigner : base58 signerAddress ≠ "")
    (hlimit : ∃ limit ∈ c.resolved.spendLimits, base58 limit.mint = selected.asset) :
    (∀ (text : String) (amount : Nat), bigInt text = some (amount : Int) →
        c.evaluateX402Payment base58 address message now { selected with amount := text } config signerAddress =
          .ok [] →
        PaymentFits base58 address now { selected with amount := text } signerAddress c amount) ↔
      ¬ ShieldOpen base58 now c ∨ PaymentsBounded base58 address now selected config c := by
  constructor
  · intro h
    by_cases hopen : ShieldOpen base58 now c
    · right
      have hfits (n : Nat) (hpayable : ∀ most, mostPayable now config c = some most → (n : Int) ≤ most) :
          (∀ room ∈ limitRoom base58 now selected c, (n : Int) ≤ room) ∧
            (n < 2 ^ 64 → 0 < n → ∀ room ∈ onChainRoom address selected c, (n : Int) ≤ room) := by
        have hamount : bigInt n.repr = some (n : Int) := bigInt_repr n
        let payment : PaymentRequirements := { selected with amount := n.repr }
        have hread : bigInt payment.amount = some (n : Int) := hamount
        have hpass : c.evaluateX402Payment base58 address message now payment config signerAddress = .ok [] :=
          (evaluateX402Payment_eq_ok_nil hsigner hread).mpr ⟨hopen, hpayable⟩
        have hroom := paymentFits_iff.mp (h n.repr n hamount hpass)
        exact hroom
      cases hmost : mostPayable now config c with
      | none =>
          -- one more than is left is payable
          obtain ⟨limit, hmem, hasset⟩ := hlimit
          have hroom : limit.amount - c.state.getSpendInWindow now selected.asset (limit.windowMs.getD dayMs) ∈
              limitRoom base58 now selected c :=
            List.mem_map_of_mem (List.mem_filter.mpr ⟨hmem, by simpa using hasset⟩)
          have hle := (hfits (limit.amount - c.state.getSpendInWindow now selected.asset
            (limit.windowMs.getD dayMs) + 1).toNat (by simp [hmost])).1 _ hroom
          omega
      | some most =>
          refine ⟨most, hmost, fun hnonneg => ⟨?_, fun hpositive => ?_⟩⟩
          · have hall := (hfits most.toNat (by simp [hmost]; omega)).1
            rwa [Int.toNat_of_nonneg hnonneg] at hall
          · have hsmall : 0 ≤ min most (2 ^ 64 - 1) := le_min hnonneg (by norm_num)
            have hall := (hfits (min most (2 ^ 64 - 1)).toNat (by simp [hmost]; omega)).2 (by omega) (by omega)
            rwa [Int.toNat_of_nonneg hsmall] at hall
    · exact .inl hopen
  · intro h text amount hamount hpass
    have hread : bigInt ({ selected with amount := text } : PaymentRequirements).amount = some (amount : Int) := hamount
    obtain ⟨hopen, hpayable⟩ := (evaluateX402Payment_eq_ok_nil hsigner hread).mp hpass
    rcases h with hclosed | ⟨most, hmost, hbounded⟩
    · exact absurd hopen hclosed
    · have hle := hpayable most hmost
      obtain ⟨hlimits, honChain⟩ := hbounded (by omega)
      refine paymentFits_iff.mpr ⟨fun room hroom => hle.trans (hlimits room hroom), ?_⟩
      intro hsmall hpositive room hroom
      exact (le_min hle (by omega)).trans (honChain (by omega) room hroom)

end

/-! ### Payments in USDC, of which 100 units are allowed -/

def usdcPayment (amount : String) : PaymentRequirements :=
  { network := "solana:EtWTRABZaYq6iMfeYKouRu166VU2xqa1"
    asset := usdcText Sigil.usdcMint
    amount
    payTo := "merchant" }

/-- At most 60 units a request. -/
def cautiousConfig : X402Config := { X402Config.default with maxPaymentPerRequest := some 60 }

/-- With the limit of the configuration every payment fits, and one of 60 units is let pass. -/
theorem payment_fits_iff_sixty :
    limitedContext.evaluateX402Payment usdcText (fun _ => Sigil.usdcMint) (fun _ => "") 0 (usdcPayment "60")
      cautiousConfig (.key 3) = .ok [] ∧
    ∀ (text : String) (amount : Nat), bigInt text = some (amount : Int) →
      limitedContext.evaluateX402Payment usdcText (fun _ => Sigil.usdcMint) (fun _ => "") 0 (usdcPayment text)
        cautiousConfig (.key 3) = .ok [] →
      PaymentFits usdcText (fun _ => Sigil.usdcMint) 0 (usdcPayment text) (.key 3) limitedContext amount := by
  have hsigner : usdcText (.key 3) ≠ "" := by decide
  have hlimit : ∃ limit ∈ limitedContext.resolved.spendLimits, usdcText limit.mint = (usdcPayment "").asset :=
    ⟨hundredLimit, List.mem_singleton_self _, rfl⟩
  have hbounded : PaymentsBounded usdcText (fun _ => Sigil.usdcMint) 0 (usdcPayment "") cautiousConfig
      limitedContext := by
    refine ⟨60, by decide, fun _ => ⟨?_, ?_⟩⟩
    · decide
    · rintro - _ ⟨⟩
  exact ⟨by decide +kernel, (payment_fits_iff hsigner hlimit).mpr (.inr hbounded)⟩

/-- Without one no payment is held back, so a payment of 1000 units is let pass. -/
theorem payment_unlimited : ¬ ∀ (base58 : Pubkey → String) (address : String → Pubkey)
    (message : PolicyViolation → String) (now : Int) (selected : PaymentRequirements) (config : X402Config)
    (signerAddress : Pubkey) (c : ShieldedContext) (amount : Nat), base58 signerAddress ≠ "" →
    (∃ limit ∈ c.resolved.spendLimits, base58 limit.mint = selected.asset) →
    bigInt selected.amount = some (amount : Int) →
    c.evaluateX402Payment base58 address message now selected config signerAddress = .ok [] →
    PaymentFits base58 address now selected signerAddress c amount := by
  intro h
  have hamount : bigInt (usdcPayment "1000").amount = some ((1000 : Nat) : Int) := by decide +kernel
  have hpass : limitedContext.evaluateX402Payment usdcText (fun _ => Sigil.usdcMint) (fun _ => "") 0
      (usdcPayment "1000") .default (.key 3) = .ok [] := by decide +kernel
  have hfits := h usdcText (fun _ => Sigil.usdcMint) (fun _ => "") 0 (usdcPayment "1000") .default (.key 3)
    limitedContext 1000 (by decide) ⟨hundredLimit, List.mem_singleton_self _, rfl⟩ hamount hpass
  exact absurd (hfits.limits hundredLimit (List.mem_singleton_self _) rfl) (by decide)

end Sigil.Sdk
