import Sigil.Sdk.Drain
import Sigil.Theorems.SealScan

/-!
# Drains of a sealed transaction

Outflows are looked for under the address of the vault, and tokens flow out of its token account.
-/

namespace Sigil.Sdk

open Library

/-! ## What a delta says -/

/-- The account has lost this much of a balance. -/
def BalanceDelta.Loses (balance percent : Int) (d : BalanceDelta) : Prop :=
  d.delta < 0 ∧ balance * percent ≤ -d.delta * 100

namespace VaultContext

variable (vaultContext : VaultContext) (balanceDeltas : List BalanceDelta) (percent : Int)

/-- The token account of the vault loses this much of a positive balance. -/
def TokenAccountLoses : Prop :=
  0 < vaultContext.tokenBalance ∧
    ∃ d ∈ balanceDeltas, d.account = vaultContext.vaultTokenAta ∧ d.Loses vaultContext.tokenBalance percent

/-- So does what is listed under the address of the vault itself. -/
def VaultAddressLoses : Prop :=
  0 < vaultContext.tokenBalance ∧
    ∃ d, balanceDeltas.find? (fun d => d.account = vaultContext.vaultAddress) = some d ∧
      d.Loses vaultContext.tokenBalance percent

/-- Nothing is listed at the address of the vault itself, which holds no tokens. -/
def OfTokenAccounts : Prop := ∀ d ∈ balanceDeltas, d.account ≠ vaultContext.vaultAddress

/-- Tokens arrive at the token account of the vault only. -/
def OnlyTokenAccountGains : Prop := ∀ d ∈ balanceDeltas, 0 < d.delta → d.account = vaultContext.vaultTokenAta

/-- Both thresholds are noticed. -/
def DrainNoticed (thresholds : DrainThresholds) : Prop :=
  (vaultContext.TokenAccountLoses balanceDeltas thresholds.blockPct →
      .fullDrain ∈ detectDrainFromSealContext balanceDeltas vaultContext thresholds) ∧
    (vaultContext.TokenAccountLoses balanceDeltas thresholds.warningPct →
      .largeOutflow ∈ detectDrainFromSealContext balanceDeltas vaultContext thresholds)

end VaultContext

/-! ## Flags -/

section
variable {input : DrainDetectionInput} {percent : Int} {flag flag' : RiskFlag} {vaultContext : VaultContext}
  {balanceDeltas : List BalanceDelta} {thresholds : DrainThresholds}

theorem mem_flagOutflow : flag' ∈ input.flagOutflow percent flag ↔
    flag' = flag ∧ ∃ d, input.vaultDelta = some d ∧ input.outflowReaches percent d = true := by
  unfold DrainDetectionInput.flagOutflow
  split
  · rename_i h
    simpa using fun _ => (Option.any_eq_true _ _).mp h
  · rename_i h
    simp only [Option.any_eq_true] at h
    simp [h]

theorem mem_flagUnknownRecipient : flag ∈ input.flagUnknownRecipient ↔
    flag = .unknownRecipient ∧ input.knownRecipients.isSome ∧ input.unknownPositiveDeltas ≠ [] := by
  unfold DrainDetectionInput.flagUnknownRecipient
  cases input.knownRecipients <;> cases input.unknownPositiveDeltas <;> simp

theorem mem_flagMultiOutput : flag ∈ input.flagMultiOutput ↔
    flag = .multiOutput ∧ 2 ≤ input.unknownPositiveDeltas.length := by
  unfold DrainDetectionInput.flagMultiOutput
  split
  · rename_i hmany
    simp [hmany]
  · rename_i hfew
    simp [hfew]

variable (flag) in
/-- A flag for an outflow comes from the address of the vault. -/
theorem flagOutflow_iff : flag ∈ (DrainDetectionInput.mk balanceDeltas vaultContext.vaultAddress
      vaultContext.tokenBalance (some vaultContext.knownRecipients)).flagOutflow percent flag ↔
    vaultContext.VaultAddressLoses balanceDeltas percent := by
  simp only [mem_flagOutflow, DrainDetectionInput.vaultDelta, DrainDetectionInput.outflowReaches, decide_eq_true_eq,
    VaultContext.VaultAddressLoses, BalanceDelta.Loses, true_and]
  constructor
  · rintro ⟨d, hd, hneg, hpos, hreaches⟩
    exact ⟨hpos, d, hd, hneg, hreaches⟩
  · rintro ⟨hpos, d, hd, hneg, hreaches⟩
    exact ⟨d, hd, hneg, hpos, hreaches⟩

/-- Every flag comes from its own check. -/
theorem mem_detectDrainAttempt : flag ∈ detectDrainAttempt input thresholds ↔
    flag ∈ input.flagOutflow thresholds.warningPct .largeOutflow ∨
      flag ∈ input.flagOutflow thresholds.blockPct .fullDrain ∨
      flag ∈ input.flagUnknownRecipient ∨ flag ∈ input.flagMultiOutput := by
  simp only [detectDrainAttempt, List.mem_append, or_assoc]

theorem fullDrain_iff : .fullDrain ∈ detectDrainFromSealContext balanceDeltas vaultContext thresholds ↔
    vaultContext.VaultAddressLoses balanceDeltas thresholds.blockPct := by
  rw [← flagOutflow_iff .fullDrain, detectDrainFromSealContext, mem_detectDrainAttempt, mem_flagUnknownRecipient,
    mem_flagMultiOutput]
  simp [mem_flagOutflow]

theorem largeOutflow_iff : .largeOutflow ∈ detectDrainFromSealContext balanceDeltas vaultContext thresholds ↔
    vaultContext.VaultAddressLoses balanceDeltas thresholds.warningPct := by
  rw [← flagOutflow_iff .largeOutflow, detectDrainFromSealContext, mem_detectDrainAttempt, mem_flagUnknownRecipient,
    mem_flagMultiOutput]
  simp [mem_flagOutflow]

/-- Of known recipients nothing is said. -/
theorem recipients_unflagged (hknown : ∀ d ∈ balanceDeltas, 0 < d.delta → d.account ∈ vaultContext.knownRecipients) :
    .unknownRecipient ∉ detectDrainFromSealContext balanceDeltas vaultContext thresholds ∧
      .multiOutput ∉ detectDrainFromSealContext balanceDeltas vaultContext thresholds := by
  have hnone : (DrainDetectionInput.mk balanceDeltas vaultContext.vaultAddress vaultContext.tokenBalance
      (some vaultContext.knownRecipients)).unknownPositiveDeltas = [] := by
    rw [DrainDetectionInput.unknownPositiveDeltas, List.filter_eq_nil_iff]
    intro d hd hunknown
    simp only [decide_eq_true_eq, DrainDetectionInput.isKnown, Option.any_some, decide_eq_false_iff_not] at hunknown
    exact hunknown.2.2 (hknown d hd hunknown.1)
  simp [detectDrainFromSealContext, mem_detectDrainAttempt, mem_flagOutflow, mem_flagUnknownRecipient,
    mem_flagMultiOutput, hnone]

/-- In a list of token accounts no outflow is noticed, since the address of the vault is none of them. -/
theorem outflow_unflagged (haddress : vaultContext.OfTokenAccounts balanceDeltas) :
    .fullDrain ∉ detectDrainFromSealContext balanceDeltas vaultContext thresholds ∧
      .largeOutflow ∉ detectDrainFromSealContext balanceDeltas vaultContext thresholds := by
  have hnone (percent : Int) : ¬ vaultContext.VaultAddressLoses balanceDeltas percent := by
    rintro ⟨-, d, hd, -⟩
    exact haddress d (List.mem_of_find?_eq_some hd) (by simpa using List.find?_some hd)
  rw [fullDrain_iff, largeOutflow_iff]
  exact ⟨hnone _, hnone _⟩

end

/-! ## Sealed transactions -/

/-- Whatever the token account of a vault loses, no outflow is noticed; and gains of the token account raise no flag. -/
theorem drain_never_noticed {env : SealEnv} {reads : BalanceReads} {p : SealParams} {result : SealResult}
    {vaultContext : VaultContext} (hseal : p.sealWithContext reads env = .ok (result, vaultContext))
    (balanceDeltas : List BalanceDelta) (thresholds : DrainThresholds)
    (haccounts : vaultContext.OfTokenAccounts balanceDeltas) :
    (.fullDrain ∉ detectDrainFromSealContext balanceDeltas vaultContext thresholds ∧
        .largeOutflow ∉ detectDrainFromSealContext balanceDeltas vaultContext thresholds) ∧
      (vaultContext.DrainNoticed balanceDeltas thresholds ↔
        ¬ vaultContext.TokenAccountLoses balanceDeltas thresholds.blockPct ∧
          ¬ vaultContext.TokenAccountLoses balanceDeltas thresholds.warningPct) ∧
      (vaultContext.OnlyTokenAccountGains balanceDeltas →
        .unknownRecipient ∉ detectDrainFromSealContext balanceDeltas vaultContext thresholds ∧
          .multiOutput ∉ detectDrainFromSealContext balanceDeltas vaultContext thresholds) := by
  refine ⟨outflow_unflagged haccounts, ?_, ?_⟩
  · simp [VaultContext.DrainNoticed, outflow_unflagged haccounts]
  · intro hgains
    obtain ⟨_, -, h⟩ := bind_eq_ok.mp hseal
    obtain ⟨rfl, rfl⟩ := Prod.mk.inj (pure_eq_ok.mp h)
    apply recipients_unflagged
    intro d hd hpositive
    rw [hgains d hd hpositive]
    exact List.mem_cons_self

/-! ### All 5 USDC leave the vault -/

def callReads : BalanceReads :=
  { stablecoinBalances := { usdc := 5000000, usdt := 0 }
    getAccountInfo := fun _ => .missing }

def callContext : VaultContext :=
  { vaultAddress := payVault.vault
    vaultTokenAta := .ata payVault.vault usdcMint
    tokenBalance := 5000000
    knownRecipients := [.ata payVault.vault usdcMint, .ata protocolTreasury usdcMint] }

theorem sealWithContext_call : ∃ result,
    (callParams (.key 8)).sealWithContext callReads callEnv = .ok (result, callContext) := ⟨_, rfl⟩

def emptied : List BalanceDelta := [{ account := .ata payVault.vault usdcMint, delta := -5000000 }]

/-- The token account is emptied, more than either threshold. -/
theorem drain_never_noticed_emptied : callContext.TokenAccountLoses emptied ({} : DrainThresholds).blockPct ∧
    .fullDrain ∉ detectDrainFromSealContext emptied callContext {} ∧
    .largeOutflow ∉ detectDrainFromSealContext emptied callContext {} := by
  obtain ⟨_, hseal⟩ := sealWithContext_call
  have haccounts : callContext.OfTokenAccounts emptied := by
    intro d hd
    rw [List.mem_singleton.mp hd]
    decide
  refine ⟨⟨by decide, _, List.mem_singleton_self _, rfl, by decide, by decide⟩, ?_⟩
  exact (drain_never_noticed hseal emptied {} haccounts).1

/-- The token account is emptied, and no flag is raised. -/
theorem drain_unnoticed : ¬ ∀ env reads p result vaultContext balanceDeltas thresholds,
    SealParams.sealWithContext reads p env = .ok (result, vaultContext) →
      VaultContext.DrainNoticed vaultContext balanceDeltas thresholds := by
  intro h
  obtain ⟨_, hseal⟩ := sealWithContext_call
  have hnoticed := h _ _ _ _ _ emptied {} hseal
  have hflag := hnoticed.1 ⟨by decide, _, List.mem_singleton_self _, rfl, by decide, by decide⟩
  exact absurd hflag (by decide)

end Sigil.Sdk
