import Sigil.Lemmas.Administration
import Sigil.Lemmas.Slots
import Sigil.Program.Serialize
import Sigil.Sdk.CreateVault
import Sigil.Sdk.PreviewCreateVault

/-!
# Vaults as they are previewed

What becomes of the instructions of a previewed vault on the chain. The space of the policy is previewed with one byte
too little, whatever the configuration is. For the rest it depends on the slippage, and on whether protocols come
without caps.
-/

namespace Sigil

open Library

/-- The addresses of a new vault hold no accounts. -/
structure World.FreshVault (w : World) (v : Pubkey) : Prop where
  vault : w.vaults v = none
  policy : w.policies v = none
  tracker : w.trackers v = none
  overlay : w.overlays v = none

namespace Sdk

/-! ## Arguments of a new vault

What the two instructions that `createVault` builds carry of the options.
-/

section
variable {field : String} {i : Int} {x : Double}

theorem encodeU64_eq_ok {n : UInt64} (h : encodeU64 field i = .ok n) : (n.toNat : Int) = i := by
  simp only [encodeU64, bind_eq_ok, require_eq_ok, exists_and_left, exists_const, pure_eq_ok] at h
  obtain ⟨⟨hnonneg, hlt⟩, rfl⟩ := h
  rw [UInt64.toNat_ofNat_of_lt' (by show i.toNat < 2 ^ 64; omega)]
  exact Int.toNat_of_nonneg hnonneg

theorem encodeNumberU64_eq_ok {n : UInt64} (h : encodeNumberU64 field x = .ok n) : (n.toNat : ℚ) = x.value := by
  obtain ⟨_, hinteger, h⟩ := bind_eq_ok.mp h
  have hnum := encodeU64_eq_ok h
  rw [← (Rat.den_eq_one_iff x.value).mp (require_eq_ok.mp hinteger), ← hnum]
  norm_cast

theorem encodeU16_eq_ok {n : UInt16} (h : encodeU16 field x = .ok n) : (n.toNat : Int) = ⌊x.value⌋ := by
  simp only [encodeU16, bind_eq_ok, require_eq_ok, exists_and_left, exists_const, pure_eq_ok] at h
  obtain ⟨⟨hnonneg, hle⟩, rfl⟩ := h
  have hfloor : 0 ≤ ⌊x.value⌋ := Int.floor_nonneg.mpr hnonneg
  have hlt : ⌊x.value⌋ < 65536 := Int.floor_lt.mpr (by push_cast; linarith)
  rw [UInt16.toNat_ofNat_of_lt' (by show ⌊x.value⌋.toNat < 2 ^ 16; omega)]
  exact Int.toNat_of_nonneg hfloor

theorem encodeU8_eq_ok {n : UInt8} (h : encodeU8 field x = .ok n) : (n.toNat : Int) = ⌊x.value⌋ := by
  simp only [encodeU8, bind_eq_ok, require_eq_ok, exists_and_left, exists_const, pure_eq_ok] at h
  obtain ⟨⟨hnonneg, hle⟩, rfl⟩ := h
  have hfloor : 0 ≤ ⌊x.value⌋ := Int.floor_nonneg.mpr hnonneg
  have hlt : ⌊x.value⌋ < 256 := Int.floor_lt.mpr (by push_cast; linarith)
  rw [UInt8.toNat_ofNat_of_lt' (by show ⌊x.value⌋.toNat < 2 ^ 8; omega)]
  exact Int.toNat_of_nonneg hfloor

theorem mapM_encodeU64 {l : List Int} {ns : List UInt64} (h : l.mapM (encodeU64 field) = .ok ns) :
    ns.map (fun n => (n.toNat : Int)) = l := by
  induction l generalizing ns with
  | nil =>
      obtain rfl := pure_eq_ok.mp h
      rfl
  | cons i l ih =>
      obtain ⟨n, hn, ns', hns, rfl⟩ := mapM_cons_eq_ok.mp h
      rw [List.map_cons, encodeU64_eq_ok hn, ih hns]

/-- A small integer is not changed by rounding. -/
theorem floor_ofRat {n : Int} (h : |n| ≤ 2 ^ 53) : ⌊(Double.ofRat n).value⌋ = n := by
  rw [Double.value_ofRat, Double.round_intCast h, Int.floor_intCast]

end

/-! ## Instructions -/

namespace CreateVaultOptions

/-- The arguments of `initialize_vault`, with the defaults in place of what is not given. -/
structure Initializes (o : CreateVaultOptions) (a : InitializeVault) : Prop where
  owner : a.owner = o.owner
  feeDestination : a.feeDestination = o.feeDestination.getD o.owner
  dailySpendingCapUsd : (a.dailySpendingCapUsd.toNat : Int) = o.dailySpendingCapUsd
  maxTransactionSizeUsd : (a.maxTransactionSizeUsd.toNat : Int) = o.maxTransactionSizeUsd.getD o.dailySpendingCapUsd
  protocolMode : (a.protocolMode.toNat : Int) = ⌊(o.protocolMode.getD (.ofRat 0)).value⌋
  protocols : a.protocols = o.protocols.getD []
  developerFeeRate : (a.developerFeeRate.toNat : Int) = ⌊(o.developerFeeRate.getD (.ofRat 0)).value⌋
  maxSlippageBps : (a.maxSlippageBps.toNat : Int) = ⌊(o.maxSlippageBps.getD (.ofRat 100)).value⌋
  timelockDuration : (a.timelockDuration.toNat : ℚ) = o.timelockDuration.value
  allowedDestinations : a.allowedDestinations = o.allowedDestinations.getD []
  protocolCaps : a.protocolCaps.map (fun n => (n.toNat : Int)) = o.protocolCapsArgument

/-- The arguments of `register_agent`. -/
structure Registers (o : CreateVaultOptions) (vault : Pubkey) (r : RegisterAgent) : Prop where
  owner : r.owner = o.owner
  vault : r.vault = vault
  agent : r.agent = o.agent
  capability : (r.capability.toNat : Int) = o.permissions.getD fullPermissions
  capability_le : r.capability.toNat ≤ fullCapability
  spendingLimitUsd : (r.spendingLimitUsd.toNat : Int) = o.spendingLimitUsd

/-- What holds of the result of `createVault`. -/
structure Creates (o : CreateVaultOptions) (r : CreateVaultResult) : Prop where
  agent_ne : o.owner ≠ o.agent
  limit_le : o.spendingLimitUsd ≤ o.dailySpendingCapUsd
  address : r.vaultAddress = r.initializeVaultIx.vault
  initializes : o.Initializes r.initializeVaultIx
  registers : o.Registers r.initializeVaultIx.vault r.registerAgentIx

section
variable {o : CreateVaultOptions} {id : UInt64} {vault : Pubkey} {r : CreateVaultResult}
  {findNextVaultId : Pubkey → Option Int}

theorem initializeVaultInstruction_eq_ok {a : InitializeVault} (h : o.initializeVaultInstruction id = .ok a) :
    o.Initializes a := by
  simp only [initializeVaultInstruction, bind_eq_ok, pure_eq_ok] at h
  obtain ⟨daily, hdaily, maxTx, hmaxTx, mode, hmode, fee, hfee, slippage, hslippage, timelock, htimelock, caps, hcaps,
    rfl⟩ := h
  exact
    { owner := rfl
      feeDestination := rfl
      dailySpendingCapUsd := encodeU64_eq_ok hdaily
      maxTransactionSizeUsd := encodeU64_eq_ok hmaxTx
      protocolMode := encodeU8_eq_ok hmode
      protocols := rfl
      developerFeeRate := encodeU16_eq_ok hfee
      maxSlippageBps := encodeU16_eq_ok hslippage
      timelockDuration := encodeNumberU64_eq_ok htimelock
      allowedDestinations := rfl
      protocolCaps := mapM_encodeU64 hcaps }

theorem capability_bounds (h : o.validateCapability = .ok ()) :
    0 ≤ o.permissions.getD fullPermissions ∧ o.permissions.getD fullPermissions ≤ 2 := by
  unfold validateCapability at h
  cases hpermissions : o.permissions with
  | none => exact ⟨by decide, by decide⟩
  | some cap =>
      rw [hpermissions] at h
      exact require_eq_ok.mp h

theorem registerAgentInstruction_eq_ok {a : RegisterAgent} (hcapability : o.validateCapability = .ok ())
    (h : o.registerAgentInstruction vault = .ok a) : o.Registers vault a := by
  simp only [registerAgentInstruction, bind_eq_ok, pure_eq_ok] at h
  obtain ⟨capability, hencoded, limit, hlimit, rfl⟩ := h
  obtain ⟨hnonneg, hle⟩ := capability_bounds hcapability
  have hexact : (capability.toNat : Int) = o.permissions.getD fullPermissions := by
    rw [encodeU8_eq_ok hencoded, floor_ofRat (abs_le.mpr ⟨by omega, by omega⟩)]
  exact
    { owner := rfl
      vault := rfl
      agent := rfl
      capability := hexact
      capability_le := by
        show capability.toNat ≤ 2
        omega
      spendingLimitUsd := encodeU64_eq_ok hlimit }

theorem createVault_eq_ok (h : createVault findNextVaultId o = .ok r) : o.Creates r := by
  simp only [createVault, bind_eq_ok, require_eq_ok, exists_and_left, exists_const, pure_eq_ok] at h
  obtain ⟨hne, _, haggregate, _, hcapability, vaultId, -, id, -, init, hinit, register, hregister, rfl⟩ := h
  simp only [validateAgentCapAggregate, bind_eq_ok, require_eq_ok, exists_and_left, exists_const] at haggregate
  obtain ⟨-, -, -, hle⟩ := haggregate
  exact
    { agent_ne := hne
      limit_le := by simpa using hle
      address := rfl
      initializes := initializeVaultInstruction_eq_ok hinit
      registers := registerAgentInstruction_eq_ok hcapability hregister }

end

end CreateVaultOptions

/-! ## What the preview promises -/

/-- `space` of the account in `initialize_vault`. -/
def VaultPdaName.space : VaultPdaName → Nat
  | agentVault => agentVaultSize
  | policyConfig => policyConfigSize
  | spendTracker => spendTrackerSize
  | agentSpendOverlay => agentSpendOverlaySize

/-- The policy that is configured. -/
def PreviewCreateVaultConfig.policy (config : PreviewCreateVaultConfig) : PolicyConfig :=
  { dailySpendingCapUsd := config.dailyCapUsd.toNat
    maxTransactionSizeUsd := config.maxTxSizeUsd.toNat
    protocolMode := config.protocolMode
    protocols := config.protocols
    developerFeeRate := ⌊config.developerFeeRate.value⌋.toNat
    maxSlippageBps := ⌊config.maxSlippageBps.value⌋.toNat
    timelockDuration := config.timelockDuration.toNat
    allowedDestinations := config.allowedDestinations
    hasProtocolCaps := config.protocolCaps ≠ []
    protocolCaps := config.protocolCaps.map Int.toNat }

/-- The two instructions, one after the other. -/
def CreateVaultResult.exec (created : CreateVaultResult) (ctx : Ctx) (w : World) : Result World := do
  let w' ← initializeVault ctx created.initializeVaultIx w
  registerAgent ctx created.registerAgentIx w'

/-- A vault that comes out as its preview says. -/
structure PreviewCreateVaultConfig.Honoured (config : PreviewCreateVaultConfig) (preview : CreateVaultPreview)
    (created : CreateVaultResult) (ctx : Ctx) (w : World) : Prop where
  accepted : ∃ w', created.exec ctx w = .ok w' ∧ w'.policies created.vaultAddress = some config.policy
  sizes : ∀ info ∈ preview.pdaList, info.sizeBytes = info.name.space

/-! ## What the preview has checked -/

structure PreviewCreateVaultConfig.Valid (config : PreviewCreateVaultConfig) : Prop where
  timelock : 1800 ≤ config.timelockDuration ∧ config.timelockDuration ≤ maxSafeInteger
  developerFee : config.developerFeeRate.value ≤ 500
  slippage : config.maxSlippageBps.value.den = 1
  protocols : config.protocols.length ≤ maxAllowedProtocols
  destinations : config.allowedDestinations.length ≤ maxAllowedDestinations
  capsMode : config.protocolCaps ≠ [] → config.protocolMode = 1
  capsLength : config.protocolCaps ≠ [] → config.protocolCaps.length = config.protocols.length
  feeDestination : config.feeDestination ≠ .default

section
variable {env : PreviewEnv} {config : PreviewCreateVaultConfig} {preview : CreateVaultPreview}
  {created : CreateVaultResult} {ctx : Ctx} {w w' : World}

theorem PreviewCreateVaultConfig.valid (h : config.validateConfig = .ok ()) : config.Valid := by
  simp only [validateConfig, validateProtocolCaps, bind_eq_ok, require_eq_ok, exists_and_left, exists_const] at h
  obtain ⟨-, -, -, -, -, -, -, -, -, -, -, hsafe, hshort, -, hfee, ⟨hslippage, -⟩, hprotocols, hdestinations, _,
    ⟨hmode, hlength, -⟩, hdestination, -, -⟩ := h
  exact
    { timelock := ⟨hshort, hsafe⟩
      developerFee := hfee
      slippage := by simpa [isInteger] using hslippage
      protocols := hprotocols
      destinations := hdestinations
      capsMode := hmode
      capsLength := hlength
      feeDestination := hdestination }

theorem previewCreateVault_eq_ok (h : previewCreateVault env config = .ok (preview, created)) :
    config.Valid ∧ vaultPdas.mapM (fetchRentForSize env) = .ok preview.pdaList ∧
      config.createVaultOptions.Creates created := by
  simp only [previewCreateVault, bind_eq_ok, pure_eq_ok, Prod.mk.injEq] at h
  obtain ⟨_, hvalid, _, -, pdaList, hpdas, created, hcreated, _, -, rfl, rfl⟩ := h
  exact ⟨PreviewCreateVaultConfig.valid hvalid, hpdas, CreateVaultOptions.createVault_eq_ok hcreated⟩

/-! ## Acceptance -/

/-- A key without a slot gets one of a new overlay. -/
theorem claimForNewAgent_new {agent : Pubkey} {limit : Nat} (h : agent ≠ .default) :
    ∃ overlay, claimForNewAgent {} agent limit = .ok overlay := by
  have hnone : ({} : AgentSpendOverlay).findAgentSlot agent = none := by
    rw [AgentSpendOverlay.findAgentSlot_eq_none]
    exact fun _ heq => h heq.symm
  unfold claimForNewAgent
  rw [hnone]
  cases hclaim : ({} : AgentSpendOverlay).claimSlot agent with
  | some overlay => exact ⟨overlay, rfl⟩
  | none => exact absurd rfl (AgentSpendOverlay.claimSlot_eq_none.mp hclaim 0)

theorem initializeVault_new {a : InitializeVault} (hsigner : a.owner ∈ ctx.signers) (hfresh : w.FreshVault a.vault)
    (hcheck : a.check = .ok ()) : ∃ w', initializeVault ctx a w = .ok w' := by
  simp only [initializeVault, Ctx.requireSigner, bind_eq_ok, require_eq_ok, exists_and_left, exists_const, pure_eq_ok,
    Option.isNone_iff_eq_none]
  exact ⟨hsigner, hfresh.vault, hfresh.policy, hfresh.tracker, hfresh.overlay, _, (), hcheck, rfl⟩

/-- The first agent of a new vault. -/
theorem registerAgent_new {o : CreateVaultOptions} (hcreates : o.Creates created) (hsigner : o.owner ∈ ctx.signers)
    (hagent : o.agent ≠ .default) (hw : initializeVault ctx created.initializeVaultIx w = .ok w') :
    ∃ w'', registerAgent ctx created.registerAgentIx w' = .ok w'' ∧ w''.policies = w'.policies := by
  obtain ⟨-, -, hw'⟩ := initializeVault_ok hw
  obtain ⟨howner, hvault, hkey, -, hcapability, -⟩ := hcreates.registers
  have hsame : o.owner = created.initializeVaultIx.owner := hcreates.initializes.owner.symm
  obtain ⟨overlay, hclaim⟩ := claimForNewAgent_new (hkey ▸ hagent)
  have howned : Owned w' ctx created.registerAgentIx.owner created.registerAgentIx.vault
      (created.initializeVaultIx.newVault ctx.clock) :=
    { signer := howner ▸ hsigner
      found := by rw [hw', hvault]; exact Function.update_self ..
      address := hvault
      owner := hsame.symm.trans howner.symm }
  have hoverlay : w'.overlays created.registerAgentIx.vault = some {} := by
    rw [hw', hvault]
    exact Function.update_self ..
  simp only [registerAgent, bind_eq_ok, require_eq_ok, exists_and_left, exists_const, pure_eq_ok,
    World.loadOwnedVault_eq_ok, World.loadOverlay_eq_ok]
  have hfew : (created.initializeVaultIx.newVault ctx.clock).agents.length < maxAgentsPerVault :=
    Nat.zero_lt_succ _
  have hopen : (created.initializeVaultIx.newVault ctx.clock).status ≠ .closed := by simp [InitializeVault.newVault]
  refine ⟨_, ⟨_, howned, _, hoverlay, hopen, hcapability, rfl, hfew, hkey ▸ hagent, ?_, overlay, hclaim, rfl⟩, rfl⟩
  rw [hkey]
  exact fun heq => hcreates.agent_ne (hsame.trans heq.symm)

/-- Nothing but the check of the arguments can fail. -/
theorem exec_isOk_iff {o : CreateVaultOptions} (hcreates : o.Creates created) (hsigner : o.owner ∈ ctx.signers)
    (hagent : o.agent ≠ .default) (hfresh : w.FreshVault created.vaultAddress) :
    (∃ w', created.exec ctx w = .ok w') ↔ created.initializeVaultIx.check = .ok () := by
  constructor
  · rintro ⟨w', h⟩
    obtain ⟨w₁, hinit, -⟩ := bind_eq_ok.mp h
    exact (initializeVault_ok hinit).2.1
  · intro hcheck
    obtain ⟨w₁, hinit⟩ := initializeVault_new (hcreates.initializes.owner ▸ hsigner) (hcreates.address ▸ hfresh) hcheck
    obtain ⟨w₂, hregister, -⟩ := registerAgent_new hcreates hsigner hagent hinit
    exact ⟨w₂, bind_eq_ok.mpr ⟨w₁, hinit, hregister⟩⟩

/-- The policy that is there afterwards is that of the first instruction. -/
theorem exec_policies {o : CreateVaultOptions} (hcreates : o.Creates created)
    (hsigner : o.owner ∈ ctx.signers) (hagent : o.agent ≠ .default) (h : created.exec ctx w = .ok w') :
    w'.policies created.vaultAddress = some created.initializeVaultIx.policy := by
  obtain ⟨w₁, hinit, hregister⟩ := bind_eq_ok.mp h
  obtain ⟨w₂, hregister', hpolicies⟩ := registerAgent_new hcreates hsigner hagent hinit
  obtain rfl := Except.ok.inj (hregister'.symm.trans hregister)
  obtain ⟨-, -, hw₁⟩ := initializeVault_ok hinit
  rw [hpolicies, hw₁, hcreates.address]
  exact Function.update_self ..

/-! ## Arguments -/

/-- What the first instruction carries of a valid configuration. -/
structure PreviewCreateVaultConfig.Carries (config : PreviewCreateVaultConfig) (a : InitializeVault) : Prop where
  policy : a.policy = { config.policy with
    hasProtocolCaps := a.protocolCaps ≠ []
    protocolCaps := a.protocolCaps.map UInt64.toNat }
  given : config.protocolCaps ≠ [] → a.protocolCaps.map UInt64.toNat = config.protocolCaps.map Int.toNat
  zeros : config.protocolCaps = [] → a.protocolCaps.length = config.protocols.length
  feeDestination : a.feeDestination = config.feeDestination

theorem PreviewCreateVaultConfig.Valid.carries {a : InitializeVault} (hvalid : config.Valid)
    (h : config.createVaultOptions.Initializes a) : config.Carries a := by
  have htimelock : (a.timelockDuration.toNat : Int) = config.timelockDuration := by
    have hsafe : |config.timelockDuration| ≤ 2 ^ 53 := by
      have := hvalid.timelock
      rw [maxSafeInteger] at this
      exact abs_le.mpr ⟨by omega, by omega⟩
    have hexact : (a.timelockDuration.toNat : ℚ) = config.timelockDuration :=
      h.timelockDuration.trans (Double.round_intCast hsafe)
    exact_mod_cast hexact
  have hmode : (a.protocolMode.toNat : Int) = config.protocolMode.val := by
    refine h.protocolMode.trans ?_
    have hsmall := config.protocolMode.isLt
    have := floor_ofRat (n := config.protocolMode.val) (abs_le.mpr ⟨by omega, by omega⟩)
    exact_mod_cast this
  have hcaps := h.protocolCaps
  constructor
  · have hdaily := h.dailySpendingCapUsd
    have hmax := h.maxTransactionSizeUsd
    have hfee := h.developerFeeRate
    have hslippage := h.maxSlippageBps
    dsimp only [createVaultOptions, Option.getD_some] at hdaily hmax hfee hslippage
    simp only [InitializeVault.policy, PreviewCreateVaultConfig.policy, PolicyConfig.mk.injEq]
    refine ⟨by omega, by omega, by omega, h.protocols, by omega, by omega, by omega, h.allowedDestinations, ?_⟩
    simp only [and_self]
  · intro hgiven
    simp only [createVaultOptions, CreateVaultOptions.protocolCapsArgument, if_pos hgiven] at hcaps
    rw [← hcaps, List.map_map]
    rfl
  · intro hnone
    have hlength := congrArg List.length hcaps
    simpa [createVaultOptions, CreateVaultOptions.protocolCapsArgument, hnone] using hlength
  · exact h.feeDestination

/-- There are caps in the instruction if there are some to configure, or if there are protocols. -/
theorem PreviewCreateVaultConfig.Carries.protocolCaps_ne_nil {a : InitializeVault} (h : config.Carries a) :
    a.protocolCaps ≠ [] ↔ config.protocolCaps ≠ [] ∨ config.protocols ≠ [] := by
  by_cases hgiven : config.protocolCaps = []
  · simp [hgiven, ← List.length_eq_zero_iff, h.zeros hgiven]
  · have hlength := congrArg List.length (h.given hgiven)
    simp only [List.length_map] at hlength
    rw [← List.length_pos_iff, hlength, List.length_pos_iff]
    exact ⟨.inl, fun _ => hgiven⟩

theorem PreviewCreateVaultConfig.Carries.check_iff {a : InitializeVault} (h : config.Carries a)
    (hvalid : config.Valid) :
    a.check = .ok () ↔
      config.maxSlippageBps.value ≤ 5000 ∧ (config.protocols = [] ∨ config.protocolMode = 1) := by
  have hmode : a.protocolMode.toNat = config.protocolMode := congrArg PolicyConfig.protocolMode h.policy
  have hprotocols : a.protocols = config.protocols := congrArg PolicyConfig.protocols h.policy
  have hfee : a.developerFeeRate.toNat = ⌊config.developerFeeRate.value⌋.toNat :=
    congrArg PolicyConfig.developerFeeRate h.policy
  have hslippage : a.maxSlippageBps.toNat = ⌊config.maxSlippageBps.value⌋.toNat :=
    congrArg PolicyConfig.maxSlippageBps h.policy
  have htimelock : a.timelockDuration.toNat = config.timelockDuration.toNat :=
    congrArg PolicyConfig.timelockDuration h.policy
  have hdestinations : a.allowedDestinations = config.allowedDestinations :=
    congrArg PolicyConfig.allowedDestinations h.policy
  have hbound : a.maxSlippageBps.toNat ≤ 5000 ↔ config.maxSlippageBps.value ≤ 5000 := by
    have hnum := (Rat.den_eq_one_iff _).mp hvalid.slippage
    rw [hslippage, ← hnum, Int.floor_intCast, Int.toNat_le]
    norm_cast
  have hallowlist : a.protocolMode.toNat = protocolModeAllowlist ↔ config.protocolMode = 1 := by
    rw [hmode, Fin.ext_iff]
    rfl
  have hlength : a.protocolCaps ≠ [] → a.protocolCaps.length = a.protocols.length := by
    intro _
    rw [hprotocols]
    by_cases hgiven : config.protocolCaps = []
    · exact h.zeros hgiven
    · have hsame := congrArg List.length (h.given hgiven)
      simp only [List.length_map] at hsame
      rw [hsame, hvalid.capsLength hgiven]
  have hcaps : (a.protocolCaps ≠ [] → a.protocolMode.toNat = protocolModeAllowlist) ↔
      config.protocols = [] ∨ config.protocolMode = 1 := by
    rw [h.protocolCaps_ne_nil, hallowlist]
    constructor
    · intro hneeds
      by_cases hempty : config.protocols = []
      · exact .inl hempty
      · exact .inr (hneeds (.inr hempty))
    · rintro (hempty | hmode) (hgiven | hnonempty)
      · exact hvalid.capsMode hgiven
      · exact absurd hempty hnonempty
      · exact hmode
      · exact hmode
  simp only [InitializeVault.check, bind_eq_ok, require_eq_ok, exists_and_left, exists_const]
  rw [hcaps, ← hbound]
  constructor
  · rintro ⟨-, -, -, hle, -, -, -, hmode, -⟩
    exact ⟨hle, hmode⟩
  · rintro ⟨hle, hallowed⟩
    refine ⟨?_, hprotocols ▸ hvalid.protocols, ?_, hle, h.feeDestination ▸ hvalid.feeDestination,
      hdestinations ▸ hvalid.destinations, ?_, hallowed, hlength⟩
    · rw [hmode]
      exact Nat.le_of_lt_succ config.protocolMode.isLt
    · rw [hfee, Int.toNat_le]
      exact_mod_cast (Int.floor_le _).trans hvalid.developerFee
    · have := hvalid.timelock.1
      rw [htimelock]
      show 1800 ≤ _
      omega

theorem with_caps_eq_iff {policy : PolicyConfig} {enabled : Bool} {caps : List Nat} :
    { policy with hasProtocolCaps := enabled, protocolCaps := caps } = policy ↔
      enabled = policy.hasProtocolCaps ∧ caps = policy.protocolCaps := by
  cases policy
  simp

/-- Protocols without caps get zeros, which are enabled as caps. -/
theorem PreviewCreateVaultConfig.Carries.policy_iff {a : InitializeVault} (h : config.Carries a) :
    a.policy = config.policy ↔ config.protocols = [] ∨ config.protocolCaps ≠ [] := by
  rw [h.policy, with_caps_eq_iff]
  by_cases hgiven : config.protocolCaps = []
  · have hlength := h.zeros hgiven
    simp [PreviewCreateVaultConfig.policy, hgiven, ← List.length_eq_zero_iff, hlength]
  · have hsome := h.protocolCaps_ne_nil.mpr (.inl hgiven)
    simp [PreviewCreateVaultConfig.policy, hgiven, hsome, h.given hgiven]

/-! ## Sizes -/

theorem mapM_fetchRentForSize {names : List VaultPdaName} {infos : List VaultPdaInfo}
    (h : names.mapM (fetchRentForSize env) = .ok infos) :
    infos.map VaultPdaInfo.name = names ∧ ∀ info ∈ infos, info.sizeBytes = info.name.previewSize := by
  induction names generalizing infos with
  | nil =>
      obtain rfl := pure_eq_ok.mp h
      exact ⟨rfl, nofun⟩
  | cons name names ih =>
      obtain ⟨info, hinfo, infos', hinfos, rfl⟩ := mapM_cons_eq_ok.mp h
      obtain ⟨hnames, hsizes⟩ := ih hinfos
      simp only [fetchRentForSize, bind_eq_ok, pure_eq_ok] at hinfo
      obtain ⟨_, -, _, -, rfl⟩ := hinfo
      exact ⟨by rw [List.map_cons, hnames], List.forall_mem_cons.mpr ⟨rfl, hsizes⟩⟩

/-- One byte is missing for the policy. -/
theorem previewSize_eq_space_iff {name : VaultPdaName} : name.previewSize = name.space ↔ name ≠ .policyConfig := by
  cases name <;> decide

/-- Whatever is previewed: the size of the policy is wrong, and so no preview is honoured in full. For the rest the
instructions pass if and only if the slippage is within its bound and protocols without an allowlist are not given, and
the policy is the one that is configured if and only if protocols come with caps. -/
theorem preview_never_honoured (h : previewCreateVault env config = .ok (preview, created))
    (hsigner : config.owner ∈ ctx.signers) (hagent : config.agentAddress ≠ .default)
    (hfresh : w.FreshVault created.vaultAddress) :
    ¬ config.Honoured preview created ctx w ∧
      ((∃ w', created.exec ctx w = .ok w') ↔
        config.maxSlippageBps.value ≤ 5000 ∧ (config.protocols = [] ∨ config.protocolMode = 1)) ∧
      (∀ w', created.exec ctx w = .ok w' → (w'.policies created.vaultAddress = some config.policy ↔
        config.protocols = [] ∨ config.protocolCaps ≠ [])) ∧
      ∀ info ∈ preview.pdaList, info.sizeBytes = info.name.space ↔ info.name ≠ .policyConfig := by
  obtain ⟨hvalid, hpdas, hcreates⟩ := previewCreateVault_eq_ok h
  have hcarries := hvalid.carries hcreates.initializes
  obtain ⟨hnames, hsizes⟩ := mapM_fetchRentForSize hpdas
  have hsize : ∀ info ∈ preview.pdaList, info.sizeBytes = info.name.space ↔ info.name ≠ .policyConfig := by
    intro info hinfo
    rw [hsizes info hinfo]
    exact previewSize_eq_space_iff
  refine ⟨fun hhonoured => ?_, ?_, fun w' hexec => ?_, hsize⟩
  · have hmem : VaultPdaName.policyConfig ∈ preview.pdaList.map VaultPdaInfo.name := by
      rw [hnames]
      decide
    obtain ⟨info, hinfo, hname⟩ := List.mem_map.mp hmem
    exact (hsize info hinfo).mp (hhonoured.sizes info hinfo) hname
  · rw [exec_isOk_iff hcreates hsigner hagent hfresh, hcarries.check_iff hvalid]
  · rw [exec_policies hcreates hsigner hagent hexec, Option.some_inj, hcarries.policy_iff]

end

/-! ### A denylist of one protocol, without caps -/

def previewEnv : PreviewEnv :=
  { findNextVaultId := fun _ => none
    rent := fun size => some ((size + 128) * 6960)
    buildOwnerTransaction := fun _ _ _ => some { txSizeBytes := 900, lastValidBlockHeight := 300000000 } }

def denylistConfig : PreviewCreateVaultConfig :=
  { owner := .key 1
    agentAddress := .key 2
    network := "devnet"
    vaultId := 0
    dailyCapUsd := 500000000
    maxTxSizeUsd := 100000000
    spendingLimitUsd := 100000000
    developerFeeRate := .ofRat 0
    maxSlippageBps := .ofRat 100
    timelockDuration := 1800
    protocolMode := Fin.last 2
    protocols := [jupiterProgram]
    protocolCaps := []
    allowedDestinations := []
    feeDestination := .key 3
    capabilityTier := none
    solPriceUsd := 250000000
    priorityFeeMicroLamports := none
    computeUnits := none }

def ownerCtx : Ctx := { clock := { unixTimestamp := 1700000000, slot := 1 }, signers := [.key 1] }

theorem denylistConfig_previewed : (previewCreateVault previewEnv denylistConfig).isOk := by decide +kernel

theorem preview_never_honoured_denylist : ∃ preview created,
    previewCreateVault previewEnv denylistConfig = .ok (preview, created) ∧
      (¬ denylistConfig.Honoured preview created ownerCtx {} ∧
      ((∃ w', created.exec ownerCtx {} = .ok w') ↔
        denylistConfig.maxSlippageBps.value ≤ 5000 ∧
          (denylistConfig.protocols = [] ∨ denylistConfig.protocolMode = 1)) ∧
      (∀ w', created.exec ownerCtx {} = .ok w' →
        (w'.policies created.vaultAddress = some denylistConfig.policy ↔
          denylistConfig.protocols = [] ∨ denylistConfig.protocolCaps ≠ [])) ∧
      ∀ info ∈ preview.pdaList, info.sizeBytes = info.name.space ↔ info.name ≠ .policyConfig) := by
  obtain ⟨⟨preview, created⟩, h⟩ := exists_ok_of_isOk denylistConfig_previewed
  exact ⟨preview, created, h, preview_never_honoured h (by decide) (by decide) ⟨rfl, rfl, rfl, rfl⟩⟩

/-- The chain refuses the vault: the caps that were filled in need an allowlist. -/
theorem denylist_preview_rejected : ¬ ∀ env config preview created ctx w,
    previewCreateVault env config = .ok (preview, created) → config.owner ∈ ctx.signers →
      config.agentAddress ≠ .default → w.FreshVault created.vaultAddress →
      config.Honoured preview created ctx w := by
  intro h
  obtain ⟨⟨preview, created⟩, hpreview⟩ := exists_ok_of_isOk denylistConfig_previewed
  obtain ⟨hvalid, -, hcreates⟩ := previewCreateVault_eq_ok hpreview
  have hfresh : World.FreshVault {} created.vaultAddress := ⟨rfl, rfl, rfl, rfl⟩
  obtain ⟨w', hexec, -⟩ := (h _ _ _ _ ownerCtx {} hpreview (by decide) (by decide) hfresh).accepted
  have hcheck := (exec_isOk_iff hcreates (by decide) (by decide) hfresh).mp ⟨w', hexec⟩
  obtain ⟨-, hprotocols | hmode⟩ := ((hvalid.carries hcreates.initializes).check_iff hvalid).mp hcheck
  · exact absurd hprotocols (by decide)
  · exact absurd hmode (by decide)

end Sdk

end Sigil
