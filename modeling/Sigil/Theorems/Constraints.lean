import Sigil.Theorems.Policy
import Sigil.Theorems.Scan

/-!
# The flag of the constraints tells the truth

The constraints of a vault lie in an account of their own that is allocated, extended, populated and closed by
separate instructions. Whether they are in force is a flag of the policy.
-/

namespace Sigil

open Library

/-- The account of a vault's constraints is there in full: owned by the program, with its discriminator, its
length and the key of the vault. -/
def World.HasConstraintsAccount (w : World) (v : Pubkey) : Prop :=
  ∃ account c, w.constraints v = some account ∧ account.content = some c ∧
    account.size = instructionConstraintsSize ∧ account.vault = v

/-- The flag of the policy and the account of the constraints. -/
structure Config.ConstraintsInv (v : Pubkey) (c : Config) : Prop where
  flag : ∀ p, c.policy = some p → (p.hasConstraints ↔ (c.constraints.bind Allocated.content).isSome)
  dead : c.policy = none → c.constraints.bind Allocated.content = none
  sound : ∀ account, c.constraints = some account → account.content.isSome →
    account.size = instructionConstraintsSize ∧ account.vault = v

namespace Config.ConstraintsInv

variable {ctx : Ctx} {v : Pubkey} {i : Instruction} {c c' : Config} {p p' : PolicyConfig}

/-- The account is as it was, and so is the flag. -/
theorem of_policy (h : c.ConstraintsInv v) (hp : c.policy = some p) (hpolicy : c'.policy = some p')
    (hconstraints : c'.constraints = c.constraints) (hflag : p'.hasConstraints = p.hasConstraints) :
    c'.ConstraintsInv v where
  flag x hx := by
    cases hpolicy.symm.trans hx
    rw [hflag, hconstraints]
    exact h.flag p hp
  dead hnone := by rw [hpolicy] at hnone; cases hnone
  sound := hconstraints ▸ h.sound

/-- The account is not populated, before and after. -/
theorem of_unpopulated (h : c.ConstraintsInv v) (hpolicy : c'.policy = c.policy)
    (hbefore : c.constraints.bind Allocated.content = none) (hafter : c'.constraints.bind Allocated.content = none) :
    c'.ConstraintsInv v where
  flag x hx := by
    rw [hafter, ← hbefore]
    exact h.flag x (hpolicy ▸ hx)
  dead _ := hafter
  sound account haccount hcontent := by simp_all

theorem change (hinv : c.PolicyInv) (h : c.ConstraintsInv v) (hchange : ConfigChange ctx v i c c') :
    c'.ConstraintsInv v := by
  cases hchange with
  | opened a hv hdead hcheck =>
      have hnone := h.dead (by simpa [hinv.live] using hdead)
      refine ⟨?_, by simp, h.sound⟩
      rintro p ⟨rfl⟩
      simp [hnone, InitializeVault.policy]
  | closed a hv hpolicy hconstraints =>
      refine ⟨by simp, fun _ => ?_, h.sound⟩
      simpa [hconstraints] using h.flag _ hpolicy
  | queued a u executes hv hlive hpolicy => exact h.of_policy hpolicy rfl rfl rfl
  | applied a hv hpolicy => exact h.of_policy hpolicy rfl rfl rfl
  | cancelled a hv hpolicy => exact h.of_policy hpolicy rfl rfl rfl
  | permitted a address hv hpolicy => exact h.of_policy hpolicy rfl rfl rfl
  | asserted a entries hv hpolicy => exact h.of_policy hpolicy rfl rfl rfl
  | unasserted a hv hpolicy => exact h.of_policy hpolicy rfl rfl rfl
  | allocated a hv hconstraints => exact h.of_unpopulated rfl (by simp [hconstraints]) rfl
  | extended a pda target hconstraints hcontent =>
      exact h.of_unpopulated rfl (by simp [hconstraints, hcontent]) hcontent
  | cleaned a hv hconstraints hcontent => exact h.of_unpopulated rfl (by simp [hconstraints, hcontent]) rfl
  | populated a entries strictMode hv hlive hpolicy hconstraints hsize hvault =>
      refine ⟨?_, by simp, ?_⟩
      · rintro p ⟨rfl⟩
        simp [Allocated.write]
      · rintro account ⟨rfl⟩ -
        exact ⟨hsize, hvault⟩
  | @rewritten _ policy account a set hv hpolicy hconstraints hcontent =>
      refine ⟨?_, by simp, ?_⟩
      · rintro p ⟨rfl⟩
        have hflag := h.flag _ hpolicy
        simp only [hconstraints, Option.bind_some, Option.isSome_iff_ne_none] at hflag
        simp [Allocated.write, PolicyConfig.bumped, hflag, hcontent]
      · rintro _ ⟨rfl⟩ -
        exact h.sound account hconstraints (Option.isSome_iff_ne_none.mpr hcontent)
  | cleared a closesPending hv hpolicy =>
      refine ⟨?_, by simp, by simp⟩
      rintro p ⟨rfl⟩
      simp [PolicyConfig.bumped]

end Config.ConstraintsInv

section
variable {steps : List Step} {w w' : World} {v : Pubkey} {policy : PolicyConfig}

theorem constraintsInv_run (h : run Step.exec steps {} = .ok w) (v : Pubkey) : (w.config v).ConstraintsInv v := by
  refine (config_invariant (P := fun v c => c.PolicyInv ∧ c.ConstraintsInv v) (fun v => ⟨policyInv_genesis v, ?_⟩)
    (fun _ _ _ _ _ hinv hchange => ⟨hinv.1.change hchange, .change hinv.1 hinv.2 hchange⟩) h v).2
  refine ⟨?_, ?_, ?_⟩ <;> simp [World.config]

theorem hasConstraints_iff (h : run Step.exec steps {} = .ok w) (hp : w.policies v = some policy) :
    policy.hasConstraints ↔ w.HasConstraintsAccount v := by
  have hinv := constraintsInv_run h v
  rw [hinv.flag policy hp]
  constructor
  · intro hsome
    obtain ⟨c, hc⟩ := Option.isSome_iff_exists.mp hsome
    obtain ⟨account, haccount, hcontent⟩ := Option.bind_eq_some_iff.mp hc
    obtain ⟨hsize, hv⟩ := hinv.sound account haccount (by simp [hcontent])
    exact ⟨account, c, haccount, hcontent, hsize, hv⟩
  · rintro ⟨account, c, haccount, hcontent, -, -⟩
    have hset : (w.config v).constraints.bind Allocated.content = some c := by
      simp [World.config, haccount, hcontent]
    rw [hset]
    rfl

/-- Whatever accounts an agent passes, constraints that are configured are the ones that get loaded. -/
theorem loadConstraints_configured {remaining : List Pubkey} {constraints : Option InstructionConstraints}
    (hflag : policy.hasConstraints) (hload : loadConstraints w v policy remaining = .ok constraints) :
    ∃ c, w.constraintSet v = some c ∧ constraints = some c := by
  unfold loadConstraints at hload
  split at hload
  · simp only [bind_eq_ok, require_eq_ok] at hload
    obtain ⟨_, hnot, -⟩ := hload
    rw [hflag] at hnot
    cases hnot
  · simp only [bind_eq_ok, okOr_eq_ok, require_eq_ok, exists_and_left, exists_const, pure_eq_ok] at hload
    obtain ⟨-, account, haccount, -, c, hcontent, -, rfl⟩ := hload
    exact ⟨c, by simp [World.constraintSet, haccount, hcontent], rfl⟩

/-- On every live vault the flag is set exactly when the account is there; and where it is set, a session opens
only after the instructions around it were checked against the constraints in that account. -/
theorem constraints_tracked (h : run Step.exec steps {} = .ok w) {vault : AgentVault} (hv : w.vaults v = some vault) :
    ∃ policy, w.policies v = some policy ∧ (policy.hasConstraints ↔ w.HasConstraintsAccount v) ∧
      (w.HasConstraintsAccount v → ∀ ctx a w', a.vault = v → validateAndAuthorize ctx a w = .ok w' →
        ∃ c, w.constraintSet v = some c ∧ loadConstraints w v policy a.remainingAccounts = .ok (some c) ∧
          Scanned policy (some c) ctx.instructions ctx.index) := by
  obtain ⟨policy, hp⟩ : ∃ policy, w.policies v = some policy := by
    have hlive : (w.vaults v).isSome = (w.policies v).isSome := (policyInv_run h v).live
    rw [hv] at hlive
    exact Option.isSome_iff_exists.mp hlive.symm
  refine ⟨policy, hp, hasConstraints_iff h hp, ?_⟩
  rintro haccount ctx a w' rfl hvalidate
  obtain ⟨_, policy', constraints, -, hp', hrequested⟩ := validateAndAuthorize_requested hvalidate
  cases hp.symm.trans hp'
  obtain ⟨c, hc, rfl⟩ := loadConstraints_configured ((hasConstraints_iff h hp).mpr haccount) hrequested.loaded
  exact ⟨c, hc, hrequested.loaded, checkScans_scanned hrequested.scans⟩

end

/-! ### Flash trades of agent 3 are restricted to one discriminator -/

def flashEntry : ConstraintEntry :=
  { programId := flashTradeProgram
    dataConstraints := [{ offset := 0, operator := .eq, value := [1, 2, 3, 4, 5, 6, 7, 8] }]
    accountConstraints := []
    discriminatorFormat := .anchor8 }

/-- The account of the constraints reaches its full length in four steps. -/
def constrainSteps : List Instruction :=
  [.allocateConstraintsPda payAction, .extendPda payAction (.constraints payVault.vault) 20480,
   .extendPda payAction (.constraints payVault.vault) 30720, .extendPda payAction (.constraints payVault.vault) 35888,
   .createInstructionConstraints payAction [flashEntry] true]

def constrainRun : List Step :=
  payRun.take 3 ++ constrainSteps.map fun i => .ofKey payClock 1 i.toTopLevel

def constrainedValidate : ValidateAndAuthorize :=
  { payValidate with remainingAccounts := [.constraints payVault.vault] }

/-- A session with a trade that the entry admits. -/
def constrainedCtx : Ctx :=
  { clock := payClock
    signers := [.key 3]
    instructions := [(Instruction.validateAndAuthorize constrainedValidate).toTopLevel.raw,
      { programId := flashTradeProgram, accounts := [], data := [1, 2, 3, 4, 5, 6, 7, 8] },
      (Instruction.finalizeSession payFinalize).toTopLevel.raw] }

theorem constraints_tracked_flash : ∃ w policy c, run Step.exec constrainRun {} = .ok w ∧
    w.policies payVault.vault = some policy ∧ policy.hasConstraints ∧ w.constraintSet payVault.vault = some c ∧
    c.entries = [flashEntry] ∧ Scanned policy (some c) constrainedCtx.instructions 0 := by
  obtain ⟨w, vault, policy₀, hrun, hv, hp₀, hflag, hset⟩ : ∃ w vault policy, run Step.exec constrainRun {} = .ok w ∧
      w.vaults payVault.vault = some vault ∧ w.policies payVault.vault = some policy ∧ policy.hasConstraints ∧
      w.constraintSet payVault.vault = some { entries := [flashEntry], strictMode := true } :=
    ⟨_, _, _, rfl, rfl, rfl, rfl, rfl⟩
  obtain ⟨w', hvalidate⟩ : ∃ w', validateAndAuthorize constrainedCtx constrainedValidate w = .ok w' := by
    cases hrun
    exact exists_ok_of_isOk (by decide +kernel)
  obtain ⟨policy, hp, hiff, hscan⟩ := constraints_tracked hrun hv
  cases hp₀.symm.trans hp
  obtain ⟨c, hc, -, hscanned⟩ := hscan (hiff.mp hflag) constrainedCtx constrainedValidate w' rfl hvalidate
  cases hset.symm.trans hc
  exact ⟨w, policy₀, _, hrun, hp₀, hflag, hset, rfl, hscanned⟩

end Sigil
