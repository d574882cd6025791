import Sigil.Lemmas.Shape

/-!
# What the administrative instructions leave alone

Most instructions touch neither sessions, escrows, trackers nor the timelock, and sign for a vault at most in
a transfer or a revocation. One frame says so for all of them and for every other program.
-/

namespace Sigil

open Library

/-- Address and counters of a vault. -/
def AgentVault.counters (vault : AgentVault) : Pubkey × Nat × Nat × Nat :=
  (vault.owner, vault.vaultId, vault.activeSessions, vault.activeEscrowCount)

/-- Sessions, escrows, trackers and counters stay; tokens move with a vault's signature at most. -/
structure CoreFrame (w w' : World) : Prop where
  sessions : w'.sessions = w.sessions
  escrows : w'.escrows = w.escrows
  trackers : w'.trackers = w.trackers
  spendLog : w'.spendLog = w.spendLog
  vaults : ∀ v, (w'.vaults v).map AgentVault.counters = (w.vaults v).map AgentVault.counters
  ledger : w.ledger.Moves (·.isVault) w'.ledger

/-- No timelock changes and nothing is queued. -/
structure TimelockFrame (w w' : World) : Prop where
  policies : ∀ v p', w'.policies v = some p' →
    ∃ p, w.policies v = some p ∧ p'.timelockDuration = p.timelockDuration
  pendingPolicies : ∀ v p, w'.pendingPolicies v = some p → w.pendingPolicies v = some p
  queuedConstraints : ∀ v p, w'.queuedConstraints v = some p → w.queuedConstraints v = some p
  pendingCloseConstraints : ∀ v p, w'.pendingCloseConstraints v = some p → w.pendingCloseConstraints v = some p
  pendingAgentPerms : ∀ x p, w'.pendingAgentPerms x = some p → w.pendingAgentPerms x = some p

structure Frame (w w' : World) : Prop extends CoreFrame w w', TimelockFrame w w' where
  shape : w.ledger.SameShape w'.ledger

variable {w w' w'' : World} {ctx : Ctx} {v : Pubkey}

/-- What a store holds after one entry was set. -/
theorem update_cases {α : Type} {f : Pubkey → Option α} {k x : Pubkey} {o : Option α} {a : α}
    (h : Function.update f k o x = some a) : x = k ∧ o = some a ∨ x ≠ k ∧ f x = some a := by
  rcases eq_or_ne x k with rfl | hne
  · exact .inl ⟨rfl, by rwa [Function.update_self] at h⟩
  · exact .inr ⟨hne, by rwa [Function.update_of_ne hne] at h⟩

theorem update_none_subset {α : Type} {f : Pubkey → Option α} {k : Pubkey} (x : Pubkey) (a : α)
    (h : Function.update f k none x = some a) : f x = some a := by
  rcases update_cases h with ⟨-, h⟩ | ⟨-, h⟩
  · cases h
  · exact h

/-! ## Composition -/

theorem CoreFrame.refl (w : World) : CoreFrame w w :=
  ⟨rfl, rfl, rfl, rfl, fun _ => rfl, .refl _⟩

theorem TimelockFrame.refl (w : World) : TimelockFrame w w :=
  ⟨fun _ p h => ⟨p, h, rfl⟩, fun _ _ h => h, fun _ _ h => h, fun _ _ h => h, fun _ _ h => h⟩

theorem Frame.refl (w : World) : Frame w w := ⟨.refl w, .refl w, .refl _⟩

theorem CoreFrame.trans (h : CoreFrame w w') (h' : CoreFrame w' w'') : CoreFrame w w'' :=
  ⟨h'.sessions.trans h.sessions, h'.escrows.trans h.escrows, h'.trackers.trans h.trackers,
   h'.spendLog.trans h.spendLog, fun v => (h'.vaults v).trans (h.vaults v), h.ledger.trans h'.ledger⟩

theorem TimelockFrame.trans (h : TimelockFrame w w') (h' : TimelockFrame w' w'') : TimelockFrame w w'' where
  policies v p'' hp := by
    obtain ⟨p', hp', heq'⟩ := h'.policies v p'' hp
    obtain ⟨p, hp, heq⟩ := h.policies v p' hp'
    exact ⟨p, hp, heq'.trans heq⟩
  pendingPolicies v p hp := h.pendingPolicies v p (h'.pendingPolicies v p hp)
  queuedConstraints v p hp := h.queuedConstraints v p (h'.queuedConstraints v p hp)
  pendingCloseConstraints v p hp := h.pendingCloseConstraints v p (h'.pendingCloseConstraints v p hp)
  pendingAgentPerms x p hp := h.pendingAgentPerms x p (h'.pendingAgentPerms x p hp)

theorem Frame.trans (h : Frame w w') (h' : Frame w' w'') : Frame w w'' :=
  ⟨h.toCoreFrame.trans h'.toCoreFrame, h.toTimelockFrame.trans h'.toTimelockFrame, h.shape.trans h'.shape⟩

/-! ## Single stores -/

namespace Frame

theorem setVault (h : Frame w w') {vault vault' : AgentVault} (hv : w'.vaults v = some vault)
    (hcounters : vault'.counters = vault.counters) : Frame w (w'.setVault v vault') := by
  refine h.trans ⟨{ CoreFrame.refl w' with vaults := ?_ }, { TimelockFrame.refl w' with }, .refl _⟩
  intro x
  rcases eq_or_ne x v with rfl | hne
  · simp [World.setVault, hv, hcounters]
  · simp [World.setVault, Function.update_of_ne hne]

theorem setPolicy (h : Frame w w') {policy policy' : PolicyConfig} (hv : w'.policies v = some policy)
    (htimelock : policy'.timelockDuration = policy.timelockDuration) : Frame w (w'.setPolicy v policy') := by
  refine h.trans ⟨{ CoreFrame.refl w' with }, { TimelockFrame.refl w' with policies := ?_ }, .refl _⟩
  intro x p' hx
  rcases update_cases hx with ⟨rfl, heq⟩ | ⟨-, hx⟩
  · obtain rfl := Option.some.inj heq
    exact ⟨policy, hv, htimelock⟩
  · exact ⟨p', hx, rfl⟩

theorem setOverlay (h : Frame w w') (overlay : AgentSpendOverlay) : Frame w (w'.setOverlay v overlay) :=
  h.trans ⟨{ CoreFrame.refl w' with }, { TimelockFrame.refl w' with }, .refl _⟩

theorem setConstraints (h : Frame w w') (c : Option (Allocated InstructionConstraints)) :
    Frame w (w'.setConstraints v c) :=
  h.trans ⟨{ CoreFrame.refl w' with }, { TimelockFrame.refl w' with }, .refl _⟩

theorem setPostAssertions (h : Frame w w') (c : Option PostExecutionAssertions) :
    Frame w (w'.setPostAssertions v c) :=
  h.trans ⟨{ CoreFrame.refl w' with }, { TimelockFrame.refl w' with }, .refl _⟩

theorem clearPendingPolicy (h : Frame w w') : Frame w (w'.setPendingPolicy v none) :=
  h.trans ⟨{ CoreFrame.refl w' with }, { TimelockFrame.refl w' with pendingPolicies := update_none_subset }, .refl _⟩

theorem clearPendingCloseConstraints (h : Frame w w') : Frame w (w'.setPendingCloseConstraints v none) :=
  h.trans ⟨{ CoreFrame.refl w' with },
    { TimelockFrame.refl w' with pendingCloseConstraints := update_none_subset }, .refl _⟩

theorem clearPendingAgentPerms (h : Frame w w') : Frame w (w'.setPendingAgentPerms v none) :=
  h.trans ⟨{ CoreFrame.refl w' with }, { TimelockFrame.refl w' with pendingAgentPerms := update_none_subset }, .refl _⟩

/-- The account of the pending constraints is closed or not populated. -/
theorem setPendingConstraints (h : Frame w w') {o : Option (Allocated PendingConstraintsUpdate)}
    (ho : o.bind Allocated.content = none) : Frame w (w'.setPendingConstraints v o) := by
  refine h.trans ⟨{ CoreFrame.refl w' with }, { TimelockFrame.refl w' with queuedConstraints := ?_ }, .refl _⟩
  intro x p hx
  rcases eq_or_ne x v with rfl | hne
  · simp [World.queuedConstraints, World.setPendingConstraints, ho] at hx
  · simpa [World.queuedConstraints, World.setPendingConstraints, Function.update_of_ne hne] using hx

theorem setLedger (h : Frame w w') {l : Ledger} (hmoves : w'.ledger.Moves (·.isVault) l)
    (hshape : w'.ledger.SameShape l) : Frame w (w'.setLedger l) :=
  h.trans ⟨{ CoreFrame.refl w' with ledger := hmoves }, { TimelockFrame.refl w' with }, hshape⟩

end Frame

/-! ## Loaded accounts -/

theorem World.loadVault_eq_ok {vault : AgentVault} :
    w.loadVault v = .ok vault ↔ w.vaults v = some vault ∧ v = vault.address := by
  simp only [loadVault, bind_eq_ok, okOr_eq_ok, require_eq_ok, exists_and_left, exists_const, pure_eq_ok]
  constructor
  · rintro ⟨_, hv, hx, rfl⟩; exact ⟨hv, hx⟩
  · rintro ⟨hv, hx⟩; exact ⟨vault, hv, hx, rfl⟩

/-- The owner signs, and the vault is the owner's. -/
structure Owned (w : World) (ctx : Ctx) (owner v : Pubkey) (vault : AgentVault) : Prop where
  signer : owner ∈ ctx.signers
  found : w.vaults v = some vault
  address : v = vault.address
  owner : vault.owner = owner

theorem World.loadOwnedVault_eq_ok {vault : AgentVault} {owner : Pubkey} :
    w.loadOwnedVault ctx owner v = .ok vault ↔ Owned w ctx owner v vault := by
  simp only [loadOwnedVault, Ctx.requireSigner, bind_eq_ok, require_eq_ok, exists_and_left, exists_const,
    pure_eq_ok, loadVault_eq_ok]
  constructor
  · rintro ⟨hs, _, ⟨hv, hx⟩, ho, rfl⟩; exact ⟨hs, hv, hx, ho⟩
  · rintro ⟨hs, hv, hx, ho⟩; exact ⟨hs, vault, ⟨hv, hx⟩, ho, rfl⟩

@[simp] theorem World.loadPolicy_eq_ok {policy : PolicyConfig} :
    w.loadPolicy v = .ok policy ↔ w.policies v = some policy := okOr_eq_ok

@[simp] theorem World.loadTracker_eq_ok {tracker : SpendTracker} :
    w.loadTracker v = .ok tracker ↔ w.trackers v = some tracker := okOr_eq_ok

@[simp] theorem World.loadOverlay_eq_ok {overlay : AgentSpendOverlay} :
    w.loadOverlay v = .ok overlay ↔ w.overlays v = some overlay := okOr_eq_ok

@[simp] theorem World.loadToken_eq_ok {account : TokenAccount} :
    w.loadToken v = .ok account ↔ w.ledger.accounts v = some account := okOr_eq_ok

@[simp] theorem World.loadMint_eq_ok {mint : Mint} :
    w.loadMint v = .ok mint ↔ w.ledger.mints v = some mint := okOr_eq_ok

@[simp] theorem bumpVersion_eq_ok {policy policy' : PolicyConfig} : bumpVersion policy = .ok policy' ↔
    policy.policyVersion + 1 ≤ uMax 64 ∧ { policy with policyVersion := policy.policyVersion + 1 } = policy' := by
  simp only [bumpVersion, bind_eq_ok, okOr_eq_ok, checkedAdd_eq_some, pure_eq_ok]
  constructor
  · rintro ⟨_, ⟨hfits, rfl⟩, rfl⟩; exact ⟨hfits, rfl⟩
  · rintro ⟨hfits, rfl⟩; exact ⟨_, ⟨hfits, rfl⟩, rfl⟩

/-! ## Populated accounts -/

theorem loadAllocated_eq_ok {α : Type} {account : Option (Allocated α)} {size : Nat} {e : SigilError} {a : α} :
    loadAllocated account size v e = .ok a ↔ ∃ acc, account = some acc ∧ acc.content = some a ∧
      size ≤ acc.size ∧ acc.vault = v := by
  simp only [loadAllocated, bind_eq_ok, okOr_eq_ok, require_eq_ok, exists_and_left, exists_const, pure_eq_ok]
  constructor
  · rintro ⟨acc, hacc, _, hcontent, hsize, hv, rfl⟩; exact ⟨acc, hacc, hcontent, hsize, hv⟩
  · rintro ⟨acc, hacc, hcontent, hsize, hv⟩; exact ⟨acc, hacc, a, hcontent, hsize, hv, rfl⟩

theorem checkUnpopulated_eq_ok {α : Type} {account : Allocated α} :
    checkUnpopulated account v = .ok () ↔ account.content = none ∧ account.vault = v := by
  simp [checkUnpopulated, bind_eq_ok]

theorem loadPopulated_ok {c : InstructionConstraints} (h : loadPopulated w v = .ok c) :
    w.constraintSet v = some c := by
  obtain ⟨account, haccount, hcontent, -⟩ := loadAllocated_eq_ok.mp h
  simp [World.constraintSet, haccount, hcontent]

theorem loadPendingConstraints_ok {p : PendingConstraintsUpdate} (h : loadPendingConstraints w v = .ok p) :
    w.queuedConstraints v = some p := by
  obtain ⟨account, haccount, hcontent, -⟩ := loadAllocated_eq_ok.mp h
  simp [World.queuedConstraints, haccount, hcontent]

end Sigil
