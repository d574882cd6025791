import Sigil.Lemmas.EscrowInv
import Sigil.Lemmas.ScanErrors
import Sigil.Library.Result
import Sigil.Sdk.Seal
import Sigil.Theorems.Policy

/-!
# Sealed transactions and the scan

Whether the program refuses a sealed transaction for its agent, its target or its instructions. Sealing looks at the
target and at the older token opcodes only.
-/

namespace Sigil.Sdk

open Library

/-! ## What sealing gives -/

section
variable {env : SealEnv} {p : SealParams} {state : ResolvedVaultState} {r : SealResult} {tx : SealedTransaction}
  {ix : KitInstruction} {replacements : List (Pubkey × Pubkey)}

/-- The protocol that a session is for: the one that is named, or that of the first instruction. -/
def SealParams.target (p : SealParams) : Option Pubkey :=
  p.targetProtocol.or (p.defiInstructions.head?.map KitInstruction.programAddress)

/-- What a sealed transaction has been checked for, and what it is made of. -/
structure SealParams.Sealed (p : SealParams) (state : ResolvedVaultState) (tx : SealedTransaction) : Prop where
  active : state.vault.status = .active
  agent : ∃ e, state.vault.getAgent p.agent = some e ∧ e.paused = false ∧ e.capability ≠ 0
  amount : 0 ≤ p.amount ∧ p.amount < 2 ^ 64
  operations : ∀ ix ∈ p.defiInstructions, ix.blockedOperation = none
  validate : ∃ target, p.target = some target ∧ isProtocolAllowed target state.policy ∧
    p.validateInstruction state target = .ok tx.validateIx
  budget : ∀ ix ∈ tx.computeBudget, ix.programAddress = computeBudgetProgramId
  defi : ∃ replacements, tx.defiInstructions = replaceAgentAtas p.defiInstructions replacements
  finalize : tx.finalizeIx = p.finalizeInstruction

theorem computeUnitLimit_programAddress {defiInstructions : List KitInstruction}
    (h : p.computeUnitLimit defiInstructions = .ok ix) : ix.programAddress = computeBudgetProgramId := by
  unfold SealParams.computeUnitLimit at h
  split at h
  · obtain ⟨-, h⟩ := require_bind_eq_ok.mp h
    obtain rfl := pure_eq_ok.mp h
    rfl
  · obtain rfl := pure_eq_ok.mp h
    rfl

theorem computeUnitPrice_programAddress {price : List KitInstruction} (h : p.computeUnitPrice = .ok price) :
    ∀ ix ∈ price, ix.programAddress = computeBudgetProgramId := by
  unfold SealParams.computeUnitPrice at h
  split at h
  · obtain ⟨-, h⟩ := require_bind_eq_ok.mp h
    obtain rfl := pure_eq_ok.mp h
    simp [computeBudgetInstruction]
  · obtain rfl := pure_eq_ok.mp h
    simp

theorem checkTokenOperation_eq_ok (h : SealParams.checkTokenOperation ix = .ok ()) : ix.blockedOperation = none := by
  unfold SealParams.checkTokenOperation at h
  split at h
  · cases h
  · assumption

theorem SealParams.sealed (hstate : p.resolvedState env = .ok state) (h : p.seal env = .ok r) :
    p.Sealed state r.transaction := by
  simp only [SealParams.seal, checkAgent, compose, bind_eq_ok, require_eq_ok, okOr_eq_ok, pure_eq_ok, exists_and_left,
    exists_const] at h
  obtain ⟨-, state', hstate', e, ⟨hactive, e', hagent, hpaused, rfl⟩, -, hamount, _, hoperations, target, htarget,
    hcapability, hallowed, _, -, _, -, _, -, replacements, -, validateIx, hvalidate, height, -, -, tx,
    ⟨limit, hlimit, price, hprice, rfl⟩, -, rfl⟩ := h
  obtain rfl := Except.ok.inj (hstate'.symm.trans hstate)
  exact
    { active := hactive
      agent := ⟨e', hagent, hpaused, hcapability⟩
      amount := hamount
      operations := fun ix hix => checkTokenOperation_eq_ok (forM_eq_ok.mp hoperations ix hix)
      validate := ⟨target, htarget, hallowed, hvalidate⟩
      budget := List.forall_mem_cons.mpr
        ⟨computeUnitLimit_programAddress hlimit, computeUnitPrice_programAddress hprice⟩
      defi := ⟨replacements, rfl⟩
      finalize := rfl }

end

/-! ## What the scan asks beyond sealing -/

/-- Opcodes of Token-2022 that the program refuses and sealing lets pass. -/
def KitInstruction.isExtensionOperation (ix : KitInstruction) : Bool :=
  ix.programAddress = token2022ProgramId &&
    ix.data.head?.any fun disc => disc ∈ ([27, 35, 36, 38, 42, 45, 46, 255] : List UInt8)

/-- Instructions in front of the first `finalize_session` of this program. -/
def SealParams.scannedInstructions (p : SealParams) : List KitInstruction :=
  p.defiInstructions.takeWhile fun ix => !isFinalizeSession ix.raw

/-- What the program asks of an instruction beyond the checks of sealing. -/
structure SealParams.MirroredInstruction (p : SealParams) (policy : PolicyConfig) (ix : KitInstruction) : Prop where
  operation : ix.isExtensionOperation = false
  synchronous : ix.programAddress ∉ knownAsyncFulfillmentPrograms
  allowed : policy.isProtocolAllowed ix.programAddress
  declared : 0 < p.amount → isRecognizedDefi ix.programAddress → p.target = some ix.programAddress

structure SealParams.Mirrored (p : SealParams) (state : ResolvedVaultState) : Prop where
  capability : p.amount = 0 ∨
    ∃ e, state.vault.getAgent p.agent = some e ∧ capabilityOperator ≤ e.capability
  instructions : ∀ ix ∈ p.scannedInstructions, p.MirroredInstruction state.policy ix

section
variable {env : SealEnv} {p : SealParams} {state : ResolvedVaultState} {tx : SealedTransaction} {ctx : Ctx}
  {ix : KitInstruction} {l : List KitInstruction} {replacements : List (Pubkey × Pubkey)} {policy : PolicyConfig}
  {target programId : Pubkey}

/-! ## One instruction -/

theorem isProtocolAllowed_eq (h : policy.protocolMode ≤ protocolModeDenylist) :
    isProtocolAllowed programId policy = policy.isProtocolAllowed programId := by
  have hmode : policy.protocolMode = 0 ∨ policy.protocolMode = 1 ∨ policy.protocolMode = 2 := by
    rw [protocolModeDenylist] at h; omega
  rcases hmode with h | h | h <;> simp [isProtocolAllowed, PolicyConfig.isProtocolAllowed, h, protocolModeAll,
    protocolModeAllowlist, protocolModeDenylist]

theorem splToken_ne_token2022 : splTokenProgramId ≠ token2022ProgramId := by decide +kernel

/-- Of the opcodes that the program refuses, sealing misses those of the extensions. -/
theorem blockedTokenOpcode_raw (h : ix.blockedOperation = none) :
    blockedTokenOpcode ix.raw = none ↔ ix.isExtensionOperation = false := by
  unfold KitInstruction.blockedOperation at h
  unfold blockedTokenOpcode KitInstruction.isExtensionOperation KitInstruction.raw
  cases hdata : ix.data.head? with
  | none => simp
  | some disc =>
      rw [hdata] at h
      by_cases hspl : ix.programAddress = splTokenProgramId
      · simp only [hspl, if_true, splToken_ne_token2022, false_and, or_false] at h
        simp only [hspl, if_true, splToken_ne_token2022]
        split_ifs at h
        simp_all
      · by_cases htoken : ix.programAddress = token2022ProgramId
        · simp only [htoken, or_true, if_true, true_and] at h
          simp only [htoken, if_true, splToken_ne_token2022.symm, if_false]
          split_ifs at h
          split_ifs <;> simp_all <;> tauto
        · simp [hspl, htoken]

theorem isInfrastructure_of_mem_defiInstructions (h : ix ∈ p.defiInstructions) :
    isInfrastructure ix.programAddress = false := by
  simpa [SealParams.defiInstructions, isInfrastructure] using (List.mem_filter.mp h).2

/-- Other accounts make no difference. -/
theorem scanPermits_iff (hmem : ix ∈ p.defiInstructions) (hoperation : ix.blockedOperation = none)
    (htarget : p.target = some target) :
    ScanPermits policy (0 < p.amount) target (ix.replaceAccounts replacements).raw ↔
      p.MirroredInstruction policy ix := by
  have hinfra := isInfrastructure_of_mem_defiInstructions hmem
  constructor
  · rintro ⟨hopcode, hasync, hallowed, hdeclared⟩
    exact
      { operation := (blockedTokenOpcode_raw hoperation).mp hopcode
        synchronous := hasync hinfra
        allowed := hallowed hinfra
        declared := fun hamount hrecognized => htarget.trans (congrArg some (hdeclared hamount hrecognized).symm) }
  · rintro ⟨hoperation', hasync, hallowed, hdeclared⟩
    exact
      { opcode := (blockedTokenOpcode_raw hoperation).mpr hoperation'
        async := fun _ => hasync
        allowed := fun _ => hallowed
        declared := fun hamount hrecognized =>
          Option.some.inj ((hdeclared hamount hrecognized).symm.trans htarget) }

/-! ## The transaction -/

theorem inFront_concat {l : List RawInstruction} {fin : RawInstruction} (h : isFinalizeSession fin) :
    inFront (l ++ [fin]) = inFront l := by
  induction l with
  | nil => exact inFront_cons_of_finalize h
  | cons ix l ih =>
      cases hix : isFinalizeSession ix with
      | true => rw [List.cons_append, inFront_cons_of_finalize hix, inFront_cons_of_finalize hix]
      | false => rw [List.cons_append, inFront_cons hix, inFront_cons hix, ih]

theorem take_instructions : tx.instructions.take tx.computeBudget.length = tx.computeBudget.map KitInstruction.raw := by
  rw [SealedTransaction.instructions, List.take_left' (List.length_map _)]

theorem drop_instructions : tx.instructions.drop (tx.computeBudget.length + 1) =
    tx.defiInstructions.map KitInstruction.raw ++ [(Instruction.finalizeSession tx.finalizeIx).toTopLevel.raw] := by
  rw [SealedTransaction.instructions, ← List.drop_drop, List.drop_left' (List.length_map _), List.drop_one,
    List.tail_cons]

/-- The program scans the instructions that were given, with other accounts. -/
theorem scanned_sealed (hdefi : tx.defiInstructions = replaceAgentAtas p.defiInstructions replacements)
    (hinstructions : ctx.instructions = tx.instructions) (hindex : ctx.index = tx.computeBudget.length) :
    scanned ctx = p.scannedInstructions.map fun ix => (ix.replaceAccounts replacements).raw := by
  have hfinalize : isFinalizeSession (Instruction.finalizeSession tx.finalizeIx).toTopLevel.raw := by
    simp [isFinalizeSession, Instruction.toTopLevel, Instruction.discriminator, finalizeSessionDiscriminator]
  rw [scanned, hinstructions, hindex, drop_instructions, inFront_concat hfinalize, hdefi, replaceAgentAtas,
    List.map_map, inFront, List.takeWhile_map]
  rfl

/-- The arguments of the session, as they are read back. -/
theorem SealParams.Sealed.arguments (h : p.Sealed state tx) :
    ∃ target, p.target = some target ∧ isProtocolAllowed target state.policy ∧
      tx.validateIx.agent = p.agent ∧ tx.validateIx.vault = p.vault ∧ tx.validateIx.targetProtocol = target ∧
      tx.validateIx.expectedPolicyVersion.toNat = state.policy.policyVersion ∧
      (tx.validateIx.amount.toNat : Int) = p.amount := by
  obtain ⟨target, htarget, hallowed, hvalidate⟩ := h.validate
  obtain ⟨hversion, hvalidate⟩ := require_bind_eq_ok.mp hvalidate
  have hix := pure_eq_ok.mp hvalidate
  have hamount := h.amount
  refine ⟨target, htarget, hallowed, ?_⟩
  rw [← hix]
  refine ⟨rfl, rfl, rfl, UInt64.toNat_ofNat_of_lt' hversion, ?_⟩
  rw [UInt64.toNat_ofNat_of_lt' (by rw [UInt64.size]; omega)]
  omega

theorem SealParams.Sealed.requestFits (h : p.Sealed state tx) (hinstructions : ctx.instructions = tx.instructions)
    (hindex : ctx.index = tx.computeBudget.length) : RequestFits ctx tx.validateIx state.vault state.policy := by
  obtain ⟨e, he, hpaused, -⟩ := h.agent
  obtain ⟨target, -, -, hagent, -, -, hversion, -⟩ := h.arguments
  refine ⟨?_, hversion.symm, by simp [AgentVault.isActive, h.active], ?_, ?_⟩
  · rw [hagent, AgentVault.isAgent, List.any_eq_true]
    have hpubkey := List.find?_some he
    exact ⟨e, List.mem_of_find?_eq_some he, hpubkey⟩
  · rw [hagent, AgentVault.isAgentPaused, he]
    exact hpaused
  · rw [hinstructions, hindex, take_instructions]
    intro ix hix
    obtain ⟨budget, hbudget, rfl⟩ := List.mem_map.mp hix
    simp [isInfrastructure, KitInstruction.raw, h.budget budget hbudget]

theorem SealParams.Sealed.hasCapability_iff (h : p.Sealed state tx) :
    state.vault.hasCapability p.agent (0 < p.amount) ↔
      p.amount = 0 ∨ ∃ e, state.vault.getAgent p.agent = some e ∧ capabilityOperator ≤ e.capability := by
  obtain ⟨e, he, -, hcapability⟩ := h.agent
  have hamount := h.amount
  rw [AgentVault.hasCapability, he]
  by_cases hpositive : 0 < p.amount
  · simp [hpositive, hpositive.ne']
  · simp only [show p.amount = 0 by omega, true_or, iff_true]
    simp [capabilityObserver]
    omega

theorem SealParams.Sealed.sessionPermits_iff (h : p.Sealed state tx)
    (hmode : state.policy.protocolMode ≤ protocolModeDenylist) (hinstructions : ctx.instructions = tx.instructions)
    (hindex : ctx.index = tx.computeBudget.length) :
    SessionPermits ctx tx.validateIx state.vault state.policy ↔ p.Mirrored state := by
  obtain ⟨target, htarget, hallowed, hagent, -, hprotocol, -, hamount⟩ := h.arguments
  obtain ⟨replacements, hdefi⟩ := h.defi
  have hspending : (tx.validateIx.amount.toNat > 0) = (0 < p.amount) := by rw [← hamount]; simp
  have hscanned := scanned_sealed hdefi hinstructions hindex
  have hmem {ix : KitInstruction} (hix : ix ∈ p.scannedInstructions) : ix ∈ p.defiInstructions :=
    (List.takeWhile_sublist _).mem hix
  have hpermits {ix : KitInstruction} (hix : ix ∈ p.scannedInstructions) :
      ScanPermits state.policy (0 < p.amount) target (ix.replaceAccounts replacements).raw ↔
        p.MirroredInstruction state.policy ix :=
    scanPermits_iff (hmem hix) (h.operations ix (hmem hix)) htarget
  constructor
  · rintro ⟨hcapability, -, hall⟩
    simp only [hagent, hspending, hprotocol] at hcapability hall
    refine ⟨h.hasCapability_iff.mp hcapability, fun ix hix => (hpermits hix).mp (hall _ ?_)⟩
    rw [hscanned]
    exact List.mem_map_of_mem hix
  · rintro ⟨hcapability, hall⟩
    refine ⟨?_, ?_, ?_⟩
    · simp only [hagent, hspending]
      exact h.hasCapability_iff.mpr hcapability
    · rw [hprotocol, ← isProtocolAllowed_eq hmode]
      exact hallowed
    · rw [hscanned]
      intro raw hraw
      obtain ⟨ix, hix, rfl⟩ := List.mem_map.mp hraw
      simp only [hspending, hprotocol]
      exact (hpermits hix).mpr (hall ix hix)

end

/-- When a sealed transaction meets the state it was sealed for, `validate_and_authorize` does not refuse its agent,
its target or its instructions if sealing mirrors the scan. Otherwise it does, unless something else is refused. -/
theorem seal_mirrors_iff {env : SealEnv} {p : SealParams} {state : ResolvedVaultState} {r : SealResult}
    {steps : List Step} {w : World} {ctx : Ctx} (hrun : run Step.exec steps {} = .ok w)
    (hstate : p.resolvedState env = .ok state) (hvault : w.vaults p.vault = some state.vault)
    (hpolicy : w.policies p.vault = some state.policy) (hseal : p.seal env = .ok r)
    (hinstructions : ctx.instructions = r.transaction.instructions)
    (hindex : ctx.index = r.transaction.computeBudget.length) :
    (p.Mirrored state → ScanSafe (validateAndAuthorize ctx r.transaction.validateIx w)) ∧
      (SessionUnhindered ctx r.transaction.validateIx w state.policy →
        ScanSafe (validateAndAuthorize ctx r.transaction.validateIx w) → p.Mirrored state) := by
  have hsealed := SealParams.sealed hstate hseal
  obtain ⟨-, -, -, -, hv, -⟩ := hsealed.arguments
  rw [← hv] at hvault hpolicy
  have hmode := ((policyInv_run hrun _).wellFormed _ hpolicy).protocolMode
  have hpermits := hsealed.sessionPermits_iff hmode hinstructions hindex
  refine ⟨fun h => validateAndAuthorize_safe hvault hpolicy (hpermits.mpr h), fun hunhindered h => ?_⟩
  have haddress := run_vaults_address (by rintro _ _ ⟨⟩) hrun _ _ hvault
  exact hpermits.mp (validateAndAuthorize_permits hvault haddress hpolicy (hsealed.requestFits hinstructions hindex)
    hunhindered h)

/-! ### Agent 3 calls a program for 1 USDC -/

def callRun : List Step :=
  [.alone payClock [usdcMint, .key 4] payLaunch launchers_isKey,
   .ofKey payClock 1 (Instruction.initializeVault payVault).toTopLevel,
   .ofKey payClock 1 (Instruction.registerAgent payAgent).toTopLevel]

def callState : ResolvedVaultState :=
  { vault := { payVault.newVault payClock with agents := [payAgent.entry] }
    policy := payVault.policy
    globalBudget := { spent24h := 0, cap := 5000000, remaining := 5000000 }
    agentBudget := none
    maxTransactionUsd := 5000000
    resolvedAtTimestamp := 600200 }

def callEnv : SealEnv :=
  { now := 600200000
    skipSeal := false
    pluginsAllow := fun _ => true
    resolveVaultState := some callState
    lastValidBlockHeight := some 1000
    lookupTablesVerified := true
    measureTransactionSize := fun _ => 900 }

def callParams (program : Pubkey) : SealParams :=
  { vault := payVault.vault
    agent := .key 3
    instructions := [{ programAddress := program }]
    network := .devnet
    tokenMint := usdcMint
    amount := 1000000 }

/-- The agent sends the transaction. -/
def SealedTransaction.ctx (tx : SealedTransaction) : Ctx :=
  { clock := payClock
    signers := [.key 3]
    instructions := tx.instructions
    index := tx.computeBudget.length }

theorem seal_mirrors_iff_call : ∃ w r, run Step.exec callRun {} = .ok w ∧ (callParams (.key 8)).seal callEnv = .ok r ∧
    SessionUnhindered r.transaction.ctx r.transaction.validateIx w callState.policy ∧
    ScanSafe (validateAndAuthorize r.transaction.ctx r.transaction.validateIx w) := by
  obtain ⟨w, r, hrun, hseal, hvault, hpolicy, hunhindered⟩ : ∃ w r, run Step.exec callRun {} = .ok w ∧
      (callParams (.key 8)).seal callEnv = .ok r ∧ w.vaults payVault.vault = some callState.vault ∧
      w.policies payVault.vault = some callState.policy ∧
      SessionUnhindered r.transaction.ctx r.transaction.validateIx w callState.policy := by
    refine ⟨_, _, rfl, rfl, rfl, rfl,
      ⟨rfl, rfl, rfl, rfl, ⟨_, rfl, rfl, rfl, _, rfl⟩, rfl, rfl, rfl, rfl, ?_, none, rfl, fun ix hix => ?_⟩⟩
    · decide
    · obtain rfl : ix = { programId := .key 8, accounts := [], data := [] } := List.mem_singleton.mp hix
      exact ⟨nofun, rfl⟩
  refine ⟨w, r, hrun, hseal, hunhindered, (seal_mirrors_iff hrun rfl hvault hpolicy hseal rfl rfl).1 ⟨.inr ?_, ?_⟩⟩
  · exact ⟨_, rfl, by decide⟩
  · intro ix hix
    have hmem : ix ∈ (callParams (.key 8)).defiInstructions := (List.takeWhile_sublist _).mem hix
    obtain rfl : ix = { programAddress := .key 8 } := List.mem_singleton.mp (List.mem_of_mem_filter hmem)
    exact ⟨by decide, by decide, rfl, fun _ h => absurd h (by decide)⟩

/-- Sealing lets a program pass whose effects come later, the program does not. -/
theorem drift_call_refused : ¬ ∀ env p state r steps w ctx, run Step.exec steps {} = .ok w →
    SealParams.resolvedState env p = .ok state → w.vaults p.vault = some state.vault →
    w.policies p.vault = some state.policy → p.seal env = .ok r → ctx.instructions = r.transaction.instructions →
    ctx.index = r.transaction.computeBudget.length →
    ScanSafe (validateAndAuthorize ctx r.transaction.validateIx w) := by
  intro h
  obtain ⟨w, r, hrun, hvault, hpolicy, hseal, hrefused⟩ : ∃ w r, run Step.exec callRun {} = .ok w ∧
      w.vaults payVault.vault = some callState.vault ∧ w.policies payVault.vault = some callState.policy ∧
      (callParams driftV2Program).seal callEnv = .ok r ∧
      validateAndAuthorize r.transaction.ctx r.transaction.validateIx w =
        .error SigilError.asyncFulfillmentNotPermitted := ⟨_, _, rfl, rfl, rfl, rfl, rfl⟩
  have hsafe := h callEnv (callParams driftV2Program) callState r callRun w r.transaction.ctx hrun rfl hvault hpolicy
    hseal rfl rfl
  rw [hrefused] at hsafe
  exact nomatch avoids_error.mp hsafe

end Sigil.Sdk
