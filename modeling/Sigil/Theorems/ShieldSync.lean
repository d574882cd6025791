import Sigil.Sdk.ShieldTasks

/-!
# Local spending survives a sync

After a sync the shield counts what was read of the chain and every stablecoin amount approved since the read. This
holds if and only if no such amount is approved while a sync waits for its read.
-/

namespace Sigil.Sdk

/-- What was read by the last sync, and everything approved since that read, is counted. -/
def ShieldTasks.KeepsApproved (w : ShieldTasks) : Prop :=
  ∀ reading, w.synced = some reading →
    reading.state.globalBudget.spent24h + (w.approvals.drop reading.since).sum ≤
      w.context.state.getEffectiveGlobalSpent24h

/-- A sync that completes has waited while no stablecoin amount was approved. -/
def ShieldTasks.Quiet (w : ShieldTasks) (turn : ShieldTurn) : Prop :=
  ∀ i reading, turn = .completeSync i → w.readings[i]? = some reading → ∀ x ∈ w.approvals.drop reading.since, x = 0

/-! ## What is recorded -/

section
variable {base58 : Pubkey → String} {now : Int} {signerAddress : Pubkey} {instructions : List InspectableInstruction}
  {state : SyncedState} {network : Option Network}

theorem computeStablecoinUsd_nonneg {network : Network} :
    0 ≤ computeStablecoinUsd (analyzeInstructions instructions signerAddress).tokenTransfers signerAddress network := by
  refine List.sum_nonneg fun amount hamount => ?_
  obtain ⟨t, ht, rfl⟩ := List.mem_map.mp hamount
  exact analyzeInstructions_amount_nonneg (List.mem_of_mem_filter ht)

variable (base58 now signerAddress state) in
/-- Only the record of spends changes. -/
theorem foldl_recordTransfer (transfers : List TokenTransferInfo) :
    ∃ record, transfers.foldl (recordTransfer base58 now signerAddress) state =
      { state with toShieldState := record } := by
  induction transfers generalizing state with
  | nil => exact ⟨_, rfl⟩
  | cons t transfers ih =>
      rw [List.foldl_cons]
      obtain ⟨record, hrecord⟩ := ih (recordTransfer base58 now signerAddress state t)
      refine ⟨record, hrecord.trans ?_⟩
      unfold recordTransfer
      split <;> rfl

variable (base58 now signerAddress instructions state network) in
/-- The amount counts if the chain has been read and the network is known. -/
theorem recordApproved_eq : ∃ record,
    recordApproved base58 now instructions signerAddress network state =
      { state with
        toShieldState := record
        localUsdAdditions := state.localUsdAdditions +
          match state.resolvedState, network with
          | some _, some network =>
              computeStablecoinUsd (analyzeInstructions instructions signerAddress).tokenTransfers signerAddress network
          | _, _ => 0 } := by
  obtain ⟨record, hrecord⟩ := foldl_recordTransfer base58 now signerAddress state
    (analyzeInstructions instructions signerAddress).tokenTransfers
  refine ⟨record.recordTransaction now, ?_⟩
  dsimp only [recordApproved]
  rw [hrecord]
  unfold recordStablecoins
  dsimp only [SyncedState.recordTransaction]
  cases state.resolvedState with
  | none => simp
  | some rs =>
      cases network with
      | none => simp
      | some network =>
          dsimp only
          split
          · rfl
          · next hzero => simp [le_antisymm (not_lt.mp hzero) computeStablecoinUsd_nonneg]

end

/-! ## What every turn keeps -/

namespace ShieldTasks

/-- The read is the baseline of the context. -/
structure Follows (w : ShieldTasks) (reading : Reading) : Prop where
  resolved : w.context.state.resolvedState = some reading.state
  network : w.context.state.network = w.context.syncNetwork
  configured : w.context.syncNetwork.isSome
  since_le : reading.since ≤ w.approvals.length

structure Consistent (w : ShieldTasks) : Prop where
  nonneg : ∀ x ∈ w.approvals, 0 ≤ x
  waiting : ∀ reading ∈ w.readings, w.context.syncNetwork.isSome ∧ reading.since ≤ w.approvals.length
  follows : ∀ reading, w.synced = some reading → w.Follows reading

/-- The context has recorded instructions that were approved. -/
structure Records (w : ShieldTasks) (instructions : List InspectableInstruction) (signerAddress : Pubkey)
    (context : ShieldedContext) : Prop where
  syncNetwork : context.syncNetwork = w.context.syncNetwork
  resolved : context.state.resolvedState = w.context.state.resolvedState
  network : context.state.network = w.context.state.network
  additions : ∀ reading, w.Follows reading → context.state.localUsdAdditions =
    w.context.state.localUsdAdditions + w.stablecoinUsd instructions signerAddress

section
variable {base58 : Pubkey → String} {now : Int} {signerAddress : Pubkey} {instructions : List InspectableInstruction}
  {w : ShieldTasks} {context : ShieldedContext} {result : Except (List PolicyViolation) ShieldedContext}

theorem Follows.effective {reading : Reading} (h : w.Follows reading) :
    w.context.state.getEffectiveGlobalSpent24h =
      reading.state.globalBudget.spent24h + w.context.state.localUsdAdditions := by
  rw [SyncedState.getEffectiveGlobalSpent24h, h.resolved]

theorem stablecoinUsd_nonneg : 0 ≤ w.stablecoinUsd instructions signerAddress := by
  unfold stablecoinUsd
  split
  · exact computeStablecoinUsd_nonneg
  · exact le_refl _

/-- The amount that `enforce` or a signer adds, once there is a baseline. -/
theorem Follows.additions {reading : Reading} {network : Option Network} (h : w.Follows reading)
    (hnetwork : network = w.context.syncNetwork) :
    (recordApproved base58 now instructions signerAddress network w.context.state).localUsdAdditions =
      w.context.state.localUsdAdditions + w.stablecoinUsd instructions signerAddress := by
  obtain ⟨record, hrecord⟩ := recordApproved_eq base58 now signerAddress instructions w.context.state network
  obtain ⟨n, hn⟩ := Option.isSome_iff_exists.mp h.configured
  rw [hrecord]
  dsimp only
  rw [h.resolved, hnetwork, stablecoinUsd, hn]

theorem records_enforce (h : w.context.enforce base58 now instructions signerAddress = .ok context) :
    w.Records instructions signerAddress context := by
  unfold ShieldedContext.enforce at h
  split at h
  · obtain rfl := Except.ok.inj h
    obtain ⟨record, hrecord⟩ := recordApproved_eq base58 now signerAddress instructions w.context.state
      w.context.syncNetwork
    exact
      { syncNetwork := rfl
        resolved := by rw [hrecord]; rfl
        network := by rw [hrecord]; rfl
        additions := fun reading hfollows => hfollows.additions rfl }
  · cases h

theorem records_approve {r : SigningRequest} {simulated : Bool}
    (h : r.approve base58 now simulated w.context = .ok context) :
    w.Records r.instructions r.signerAddress context := by
  unfold SigningRequest.approve at h
  split at h
  · cases h
  · split at h
    · obtain rfl := Except.ok.inj h
      obtain ⟨record, hrecord⟩ := recordApproved_eq base58 now r.signerAddress r.instructions w.context.state
        w.context.state.network
      exact
        { syncNetwork := rfl
          resolved := by rw [hrecord]
          network := by rw [hrecord]
          additions := fun reading hfollows => hfollows.additions hfollows.network }
    · cases h
    · cases h

/-- Nothing but the instructions approved and the context that has recorded them is new. -/
theorem Consistent.approved (h : w.Consistent)
    (hrecords : ∀ context, result = .ok context → w.Records instructions signerAddress context) :
    (w.approved instructions signerAddress result).Consistent := by
  cases result with
  | error violations => exact h
  | ok context =>
      have hr := hrecords context rfl
      constructor
      · intro x hx
        rcases List.mem_append.mp hx with hx | hx
        · exact h.nonneg x hx
        · rw [List.mem_singleton.mp hx]
          exact stablecoinUsd_nonneg
      · intro reading hreading
        obtain ⟨hconfigured, hle⟩ := h.waiting reading hreading
        refine ⟨(congrArg Option.isSome hr.syncNetwork).trans hconfigured, hle.trans ?_⟩
        exact (List.sublist_append_left ..).length_le
      · intro reading hsynced
        have hf := h.follows reading hsynced
        exact
          { resolved := hr.resolved.trans hf.resolved
            network := hr.network.trans (hf.network.trans hr.syncNetwork.symm)
            configured := (congrArg Option.isSome hr.syncNetwork).trans hf.configured
            since_le := hf.since_le.trans (List.sublist_append_left ..).length_le }

theorem Consistent.keepsApproved_approved (h : w.Consistent) (hkeeps : w.KeepsApproved)
    (hrecords : ∀ context, result = .ok context → w.Records instructions signerAddress context) :
    (w.approved instructions signerAddress result).KeepsApproved := by
  cases result with
  | error violations => exact hkeeps
  | ok context =>
      intro reading hsynced
      have hr := hrecords context rfl
      have hbefore := h.follows reading hsynced
      have hafter := (h.approved hrecords).follows reading hsynced
      have hsum : ((w.approvals ++ [w.stablecoinUsd instructions signerAddress]).drop reading.since).sum =
          (w.approvals.drop reading.since).sum + w.stablecoinUsd instructions signerAddress := by
        rw [List.drop_append_of_le_length hbefore.since_le, List.sum_append, List.sum_singleton]
      have hkept := hkeeps reading hsynced
      have hadded := hr.additions reading hbefore
      rw [hafter.effective]
      rw [hbefore.effective] at hkept
      show reading.state.globalBudget.spent24h +
        ((w.approvals ++ [w.stablecoinUsd instructions signerAddress]).drop reading.since).sum ≤
          reading.state.globalBudget.spent24h + context.state.localUsdAdditions
      rw [hsum, hadded]
      omega

/-- A turn that approves nothing and completes no sync. -/
structure Untouched (w w' : ShieldTasks) : Prop where
  approvals : w'.approvals = w.approvals
  synced : w'.synced = w.synced
  state : w'.context.state = w.context.state
  syncNetwork : w'.context.syncNetwork = w.context.syncNetwork
  waiting : ∀ reading ∈ w'.readings,
    reading ∈ w.readings ∨ w.context.syncNetwork.isSome ∧ reading.since ≤ w.approvals.length

theorem Consistent.untouched {w' : ShieldTasks} (h : w.Consistent) (hsame : w.Untouched w') : w'.Consistent := by
  obtain ⟨happrovals, hsynced, hstate, hnetwork, hwaiting⟩ := hsame
  constructor
  · rw [happrovals]
    exact h.nonneg
  · intro reading hreading
    rw [happrovals, hnetwork]
    rcases hwaiting reading hreading with hold | hnew
    · exact h.waiting reading hold
    · exact hnew
  · intro reading hreading
    obtain ⟨hresolved, hfollows, hconfigured, hle⟩ := h.follows reading (hsynced ▸ hreading)
    exact ⟨hstate ▸ hresolved, by rw [hstate, hnetwork, hfollows], hnetwork ▸ hconfigured, happrovals ▸ hle⟩

theorem KeepsApproved.untouched {w' : ShieldTasks} (h : w.KeepsApproved) (hsame : w.Untouched w') :
    w'.KeepsApproved := by
  intro reading hreading
  rw [hsame.approvals, hsame.state]
  exact h reading (hsame.synced ▸ hreading)

end

/-! ## Syncs -/

section
variable {base58 : Pubkey → String} {w : ShieldTasks} {i : Nat} {reading : Reading}

/-- The context starts again from the read. -/
theorem Consistent.follows_completeSync (h : w.Consistent) (hreading : w.readings[i]? = some reading) :
    (w.completeSync i).Follows reading := by
  obtain ⟨hconfigured, hle⟩ := h.waiting reading (List.mem_of_getElem? hreading)
  obtain ⟨network, hnetwork⟩ := Option.isSome_iff_exists.mp hconfigured
  unfold completeSync
  rw [hreading]
  exact
    { resolved := rfl
      network := by simp [SyncedState.syncFromOnChain, hnetwork]
      configured := hconfigured
      since_le := hle }

theorem Consistent.completeSync (h : w.Consistent) : (w.completeSync i).Consistent := by
  cases hreading : w.readings[i]? with
  | none =>
      unfold ShieldTasks.completeSync
      rw [hreading]
      exact h
  | some reading =>
      have hfollows := h.follows_completeSync hreading
      unfold ShieldTasks.completeSync at hfollows ⊢
      rw [hreading] at hfollows ⊢
      exact
        { nonneg := h.nonneg
          waiting := fun r hr => h.waiting r (List.mem_of_mem_eraseIdx hr)
          follows := fun r hr => Option.some.inj hr ▸ hfollows }

/-- What was approved during the wait is lost, so there must be nothing. -/
theorem Consistent.keepsApproved_completeSync_iff (h : w.Consistent) (hreading : w.readings[i]? = some reading) :
    (w.completeSync i).KeepsApproved ↔ ∀ x ∈ w.approvals.drop reading.since, x = 0 := by
  have hfollows := h.follows_completeSync hreading
  have hnonneg : ∀ x ∈ w.approvals.drop reading.since, 0 ≤ x := fun x hx => h.nonneg x (List.mem_of_mem_drop hx)
  have heffective : (w.completeSync i).context.state.getEffectiveGlobalSpent24h =
      reading.state.globalBudget.spent24h := by
    rw [hfollows.effective]
    unfold ShieldTasks.completeSync
    rw [hreading]
    exact Int.add_zero _
  have hkeeps : (w.completeSync i).KeepsApproved ↔
      reading.state.globalBudget.spent24h + (w.approvals.drop reading.since).sum ≤
        reading.state.globalBudget.spent24h := by
    unfold KeepsApproved
    rw [heffective]
    unfold ShieldTasks.completeSync
    rw [hreading]
    exact ⟨fun hall => hall reading rfl, fun hle r hr => Option.some.inj hr ▸ hle⟩
  rw [hkeeps]
  constructor
  · intro hle x hx
    have hzero : (w.approvals.drop reading.since).sum = 0 := by
      have := List.sum_nonneg hnonneg
      omega
    exact List.all_zero_of_le_zero_le_of_sum_eq_zero hnonneg hzero hx
  · intro hall
    rw [List.sum_eq_zero hall]
    exact le_of_eq (Int.add_zero _)

/-! ## Turns -/

theorem untouched_refl : w.Untouched w := ⟨rfl, rfl, rfl, rfl, fun _ h => .inl h⟩

variable (base58 w) in
/-- Every turn approves instructions, completes a sync, or leaves both alone. -/
theorem exec_cases (turn : ShieldTurn) :
    (∃ w' instructions signerAddress result, w.Untouched w' ∧
      w.exec base58 turn = w'.approved instructions signerAddress result ∧
      ∀ context, result = .ok context → w'.Records instructions signerAddress context) ∨
    (∃ i, turn = .completeSync i ∧ w.exec base58 turn = w.completeSync i) ∨
    w.Untouched (w.exec base58 turn) ∧ ∀ i, turn ≠ .completeSync i := by
  cases turn with
  | enforce now instructions signerAddress =>
      exact .inl ⟨w, instructions, signerAddress, _, untouched_refl, rfl, fun _ => records_enforce⟩
  | beginSigning now r =>
      refine .inr (.inr ⟨?_, nofun⟩)
      rw [exec]
      split
      · exact ⟨rfl, rfl, rfl, rfl, fun _ h => .inl h⟩
      · exact untouched_refl
  | approve now i simulated =>
      cases hr : w.signings[i]? with
      | none =>
          refine .inr (.inr ⟨?_, nofun⟩)
          rw [exec, approveSigning, hr]
          exact untouched_refl
      | some r =>
          refine .inl ⟨{ w with signings := w.signings.eraseIdx i }, r.instructions, r.signerAddress,
            r.approve base58 now simulated w.context, ⟨rfl, rfl, rfl, rfl, fun _ h => .inl h⟩, ?_,
            fun _ hok => ?_⟩
          · rw [exec, approveSigning, hr]
          · obtain ⟨hnetwork, hresolved, hsame, hadditions⟩ := records_approve hok
            exact ⟨hnetwork, hresolved, hsame, fun _ ⟨h₁, h₂, h₃, h₄⟩ => hadditions _ ⟨h₁, h₂, h₃, h₄⟩⟩
  | readChain state =>
      refine .inr (.inr ⟨?_, nofun⟩)
      rw [exec]
      split
      · next hconfigured =>
          refine ⟨rfl, rfl, rfl, rfl, fun reading hreading => ?_⟩
          rcases List.mem_append.mp hreading with hold | hnew
          · exact .inl hold
          · rw [List.mem_singleton.mp hnew]
            exact .inr ⟨hconfigured, le_refl _⟩
      · exact untouched_refl
  | completeSync i => exact .inr (.inl ⟨i, rfl, rfl⟩)
  | updatePolicies policies customCheck =>
      refine .inr (.inr ⟨?_, nofun⟩)
      rw [exec, ShieldTasks.updatePolicies]
      split
      · exact ⟨rfl, rfl, rfl, rfl, fun _ h => .inl h⟩
      · exact untouched_refl
  | pause => exact .inr (.inr ⟨⟨rfl, rfl, rfl, rfl, fun _ h => .inl h⟩, nofun⟩)
  | resume => exact .inr (.inr ⟨⟨rfl, rfl, rfl, rfl, fun _ h => .inl h⟩, nofun⟩)

theorem Consistent.exec (h : w.Consistent) (turn : ShieldTurn) : (w.exec base58 turn).Consistent := by
  rcases exec_cases base58 w turn with
    ⟨w', instructions, signerAddress, result, hsame, hexec, hrecords⟩ | ⟨i, rfl, hexec⟩ | ⟨hsame, -⟩
  · rw [hexec]
    exact (h.untouched hsame).approved hrecords
  · rw [hexec]
    exact h.completeSync
  · exact h.untouched hsame

theorem Consistent.keepsApproved_exec (h : w.Consistent) (hkeeps : w.KeepsApproved) {turn : ShieldTurn}
    (hquiet : w.Quiet turn) : (w.exec base58 turn).KeepsApproved := by
  rcases exec_cases base58 w turn with
    ⟨w', instructions, signerAddress, result, hsame, hexec, hrecords⟩ | ⟨i, rfl, hexec⟩ | ⟨hsame, -⟩
  · rw [hexec]
    exact (h.untouched hsame).keepsApproved_approved (hkeeps.untouched hsame) hrecords
  · rw [hexec]
    cases hreading : w.readings[i]? with
    | none =>
        unfold ShieldTasks.completeSync
        rw [hreading]
        exact hkeeps
    | some reading => exact (h.keepsApproved_completeSync_iff hreading).mpr (hquiet i reading rfl hreading)
  · exact hkeeps.untouched hsame

theorem Consistent.quiet (h : w.Consistent) {turn : ShieldTurn} (hkeeps : (w.exec base58 turn).KeepsApproved) :
    w.Quiet turn := by
  rintro i reading rfl hreading
  exact (h.keepsApproved_completeSync_iff hreading).mp hkeeps

end

/-! ## Runs -/

section
variable {base58 : Pubkey → String} {resolved : CheckedPolicies} {syncNetwork : Option Network}

theorem after_concat {w : ShieldTasks} {turns : List ShieldTurn} {turn : ShieldTurn} :
    w.after base58 (turns ++ [turn]) = (w.after base58 turns).exec base58 turn := by
  simp [after]

theorem consistent_initial : (initial resolved syncNetwork).Consistent where
  nonneg _ hx := absurd hx List.not_mem_nil
  waiting _ hreading := absurd hreading List.not_mem_nil
  follows _ hsynced := absurd hsynced (Option.some_ne_none _).symm

theorem keepsApproved_initial : (initial resolved syncNetwork).KeepsApproved :=
  fun _ hsynced => absurd hsynced (Option.some_ne_none _).symm

theorem consistent_after (turns : List ShieldTurn) :
    ((initial resolved syncNetwork).after base58 turns).Consistent := by
  induction turns using List.reverseRecOn with
  | nil => exact consistent_initial
  | append_singleton turns turn ih =>
      rw [after_concat]
      exact ih.exec turn

end

end ShieldTasks

/-- In every order of turns: the local spend survives every sync if and only if each sync that completes has waited
while no stablecoin amount was approved. -/
theorem sync_keeps_approved_iff (base58 : Pubkey → String) (resolved : CheckedPolicies) (syncNetwork : Option Network)
    (turns : List ShieldTurn) :
    (∀ before, before <+: turns → ((ShieldTasks.initial resolved syncNetwork).after base58 before).KeepsApproved) ↔
      ∀ before turn, before ++ [turn] <+: turns →
        ((ShieldTasks.initial resolved syncNetwork).after base58 before).Quiet turn := by
  constructor
  · intro hkeeps before turn hprefix
    have hafter := hkeeps _ hprefix
    rw [ShieldTasks.after_concat] at hafter
    exact (ShieldTasks.consistent_after before).quiet hafter
  · intro hquiet before hprefix
    induction before using List.reverseRecOn with
    | nil => exact ShieldTasks.keepsApproved_initial
    | append_singleton before turn ih =>
        have hbefore := ih ((List.prefix_append before [turn]).trans hprefix)
        rw [ShieldTasks.after_concat]
        exact (ShieldTasks.consistent_after before).keepsApproved_exec hbefore (hquiet before turn hprefix)

/-! ### 50 USDC are approved while the second sync waits -/

def quietState : ResolvedVaultState :=
  { vault := { owner := .key 1, vaultId := 0, feeDestination := .key 2, createdAt := 0 }
    policy :=
      { dailySpendingCapUsd := 500000000
        maxTransactionSizeUsd := 100000000
        protocolMode := 0
        protocols := []
        developerFeeRate := 0
        maxSlippageBps := 100
        timelockDuration := 1800
        allowedDestinations := []
        hasProtocolCaps := false
        protocolCaps := [] }
    globalBudget := { spent24h := 0, cap := 500000000, remaining := 500000000 }
    agentBudget := none
    maxTransactionUsd := 100000000
    resolvedAtTimestamp := 1700000000 }

/-- `TransferChecked` of 50 USDC, signed by key 3. -/
def usdcTransfer : InspectableInstruction :=
  { programAddress := splTokenProgramId
    accounts := [.key 4, Sigil.usdcMint, .key 5, .key 3]
    data := [12, 128, 240, 250, 2, 0, 0, 0, 0, 6] }

def openPolicies : CheckedPolicies :=
  { spendLimits := []
    maxTransactionSize := none
    allowedProtocols := none
    allowedTokens := none
    blockUnknownPrograms := true
    maxTransactions := 60
    rateWindowMs := 3600000
    customCheck := none }

def approvedDuringSync : List ShieldTurn :=
  [.readChain quietState, .completeSync 0, .readChain quietState, .enforce 1700000001000 [usdcTransfer] (.key 3),
    .completeSync 0]

/-- The spend that was recorded is gone, and the chain had not seen it. -/
theorem approved_spend_lost (base58 : Pubkey → String) :
    let w := (ShieldTasks.initial openPolicies (some .devnet)).after base58 approvedDuringSync
    w.approvals = [50000000] ∧ w.context.state.getEffectiveGlobalSpent24h = 0 ∧ ¬ w.KeepsApproved := by
  intro w
  have happrovals : w.approvals = [50000000] := rfl
  have heffective : w.context.state.getEffectiveGlobalSpent24h = 0 := rfl
  have hsynced : w.synced = some ⟨quietState, 0⟩ := rfl
  refine ⟨happrovals, heffective, fun hkeeps => ?_⟩
  have hlaw := hkeeps _ hsynced
  rw [happrovals, heffective] at hlaw
  exact absurd hlaw (by decide)

/-- Local spend does not survive every sync. -/
theorem sync_forgets : ¬ ∀ (base58 : Pubkey → String) (resolved : CheckedPolicies) (syncNetwork : Option Network)
    (turns : List ShieldTurn), ((ShieldTasks.initial resolved syncNetwork).after base58 turns).KeepsApproved :=
  fun h => (approved_spend_lost fun _ => "").2.2 (h _ openPolicies (some .devnet) approvedDuringSync)

end Sigil.Sdk
