import Sigil.Theorems.Policy

/-!
# The version of the policy

An agent passes the version of the policy it has read, and is turned away if the policy has another one. The
version tells a change of the configuration as long as the change raises it. Three instructions do not:
`create_instruction_constraints`, `create_post_assertions` and `close_post_assertions`.
-/

namespace Sigil

open Library

/-- What the agents of a vault are held to. -/
structure Enforcement where
  policy : PolicyConfig
  constraints : Option InstructionConstraints
  assertions : Option PostExecutionAssertions
  deriving DecidableEq

/-- A pending update is not in force. -/
def Config.enforcement (c : Config) : Option Enforcement :=
  c.policy.map fun p =>
    { policy := { p with hasPendingPolicy := false }
      constraints := c.constraints.bind Allocated.content
      assertions := c.assertions }

def World.enforcement (w : World) (v : Pubkey) : Option Enforcement := (w.config v).enforcement

namespace Instruction

/-- Instructions that change what is in force on a vault but not its version. -/
def changesSilently (v : Pubkey) : Instruction → Bool
  | .createInstructionConstraints a _ _ | .createPostAssertions a _ | .closePostAssertions a => a.vault = v
  | _ => false

/-- The vault and the version of its policy that an agent's instruction is for. -/
def expectedVersion : Instruction → Option (Pubkey × Nat)
  | .validateAndAuthorize a => some (a.vault, a.expectedPolicyVersion.toNat)
  | .agentTransfer a => some (a.vault, a.expectedPolicyVersion.toNat)
  | _ => none

theorem expectedVersion_ok {i : Instruction} {ctx : Ctx} {w w' : World} {v : Pubkey} {n : Nat}
    (hexpected : i.expectedVersion = some (v, n)) (h : i.exec ctx w = .ok w') :
    ∃ policy, w.policies v = some policy ∧ policy.policyVersion = n := by
  cases i with
  | validateAndAuthorize a =>
      cases hexpected
      obtain ⟨_, policy, _, -, hp, hrequested⟩ := validateAndAuthorize_requested h
      exact ⟨policy, hp, hrequested.version⟩
  | agentTransfer a =>
      cases hexpected
      obtain ⟨t⟩ := agentTransfer_trace h
      exact ⟨t.policy, t.policy_found, (checkTransfer_ok t.checked).version⟩
  | _ => cases hexpected

end Instruction

/-- Later configurations of one incarnation: another version, or the same things in force. -/
def Config.Succeeds (c c' : Config) : Prop :=
  ∃ p p', c.policy = some p ∧ c'.policy = some p' ∧
    (p.policyVersion < p'.policyVersion ∨ p.policyVersion = p'.policyVersion ∧ c'.enforcement = c.enforcement)

namespace Config.Succeeds

variable {ctx : Ctx} {v : Pubkey} {i : Instruction} {c c' c'' : Config} {p : PolicyConfig}

theorem refl (hp : c.policy = some p) : c.Succeeds c := ⟨p, p, hp, hp, .inr ⟨rfl, rfl⟩⟩

theorem trans (h : c.Succeeds c') (h' : c'.Succeeds c'') : c.Succeeds c'' := by
  obtain ⟨p, p', hp, hp', hcases⟩ := h
  obtain ⟨q, p'', hq, hp'', hcases'⟩ := h'
  cases hp'.symm.trans hq
  refine ⟨p, p'', hp, hp'', ?_⟩
  rcases hcases with hlt | ⟨heq, hsame⟩ <;> rcases hcases' with hlt' | ⟨heq', hsame'⟩
  · exact .inl (hlt.trans hlt')
  · exact .inl (hlt.trans_eq heq')
  · exact .inl (heq.trans_lt hlt')
  · exact .inr ⟨heq.trans heq', hsame'.trans hsame⟩

/-- The version is raised. -/
theorem raised {p' : PolicyConfig} (hp : c.policy = some p) (hp' : c'.policy = some p')
    (hversion : p'.policyVersion = p.policyVersion + 1) : c.Succeeds c' :=
  ⟨p, p', hp, hp', .inl (by omega)⟩

/-- Nothing changes but an account of constraints that are not in force. -/
theorem of_content (hp : c.policy = some p) (hpolicy : c'.policy = c.policy)
    (hcontent : c'.constraints.bind Allocated.content = c.constraints.bind Allocated.content)
    (hassertions : c'.assertions = c.assertions) : c.Succeeds c' :=
  ⟨p, p, hp, hpolicy.trans hp, .inr ⟨rfl, by simp [enforcement, hpolicy, hcontent, hassertions]⟩⟩

/-- Every change of a vault that stays open does one or the other, the three silent ones excepted. -/
theorem change (hinv : c.PolicyInv) (hp : c.policy = some p) (hopen : ∀ a, i = .closeVault a → a.vault ≠ v)
    (hloud : i.changesSilently v = false) (hchange : ConfigChange ctx v i c c') : c.Succeeds c' := by
  cases hchange with
  | opened a hv hdead =>
      rw [hinv.live, hp] at hdead
      cases hdead
  | closed a hv => exact absurd hv (hopen a rfl)
  | queued a u executes hv hlive hpolicy =>
      exact ⟨_, _, hpolicy, rfl, .inr ⟨rfl, by simp [enforcement, hpolicy]⟩⟩
  | applied a hv hpolicy => exact .raised hpolicy rfl rfl
  | cancelled a hv hpolicy => exact ⟨_, _, hpolicy, rfl, .inr ⟨rfl, by simp [enforcement, hpolicy]⟩⟩
  | allocated a hv hconstraints => exact .of_content hp rfl (by simp [hconstraints]) rfl
  | extended a pda target hconstraints => exact .of_content hp rfl (by simp [hconstraints]) rfl
  | cleaned a hv hconstraints hcontent => exact .of_content hp rfl (by simp [hconstraints, hcontent]) rfl
  | rewritten a set hv hpolicy => exact .raised hpolicy rfl rfl
  | cleared a closesPending hv hpolicy => exact .raised hpolicy rfl rfl
  | permitted a address hv hpolicy => exact .raised hpolicy rfl rfl
  | populated a entries strictMode hv => simp [Instruction.changesSilently, hv] at hloud
  | asserted a entries hv => simp [Instruction.changesSilently, hv] at hloud
  | unasserted a hv => simp [Instruction.changesSilently, hv] at hloud

end Config.Succeeds

section
variable {before segment : List Step} {w w₁ w₂ w₃ : World} {v : Pubkey} {policy : PolicyConfig}

/-- A vault stays open over the steps, and none of the silent changes is made to it. -/
structure Step.Loud (v : Pubkey) (st : Step) : Prop where
  stays : ∀ a, st.instruction.call = .sigil (.closeVault a) → a.vault ≠ v
  loud : ∀ i, st.instruction.call = .sigil i → i.changesSilently v = false

theorem config_succeeds (hbefore : run Step.exec before {} = .ok w₁) (hsegment : run Step.exec segment w₁ = .ok w₂)
    (hp : w₁.policies v = some policy) (hloud : ∀ st ∈ segment, st.Loud v) :
    (w₁.config v).Succeeds (w₂.config v) := by
  refine (run_invariant (P := fun w => (w.config v).PolicyInv ∧ (w₁.config v).Succeeds (w.config v))
    ⟨policyInv_run hbefore v, .refl hp⟩ ?_ hsegment).2
  rintro st hst w w' ⟨hinv, hsucceeds⟩ hexec
  rcases Step.configChange hexec v with heq | ⟨i, hcall, -, hchange⟩
  · rw [heq]
    exact ⟨hinv, hsucceeds⟩
  · obtain ⟨_, p, _, hpolicy, -⟩ := id hsucceeds
    refine ⟨hinv.change hchange, hsucceeds.trans (.change hinv hpolicy ?_ ((hloud st hst).loud i hcall) hchange)⟩
    rintro a rfl
    exact (hloud st hst).stays a hcall

/-- An agent's instruction that passes the version of an earlier moment is held to what was in force then, if no
silent change was made in between. -/
theorem version_fixes_enforcement {st : Step} {i : Instruction} (hbefore : run Step.exec before {} = .ok w₁)
    (hsegment : run Step.exec segment w₁ = .ok w₂) (hp : w₁.policies v = some policy)
    (hloud : ∀ st ∈ segment, st.Loud v) (hcall : st.instruction.call = .sigil i)
    (hexpected : i.expectedVersion = some (v, policy.policyVersion)) (hexec : st.exec w₂ = .ok w₃) :
    w₂.enforcement v = w₁.enforcement v := by
  obtain ⟨p, p', hp₁, hp₂, hcases⟩ := config_succeeds hbefore hsegment hp hloud
  cases hp.symm.trans hp₁
  rcases Step.exec_cases hexec with ⟨j, hcall', -, -, hi⟩ | ⟨ops, hcall', -⟩
  · cases hcall.symm.trans hcall'
    obtain ⟨q, hq, hversion⟩ := Instruction.expectedVersion_ok hexpected hi
    cases hp₂.symm.trans hq
    rcases hcases with hlt | ⟨-, hsame⟩
    · omega
    · exact hsame
  · cases hcall.symm.trans hcall'

end

/-! ### Agent 3 has read version 0, and the owner does something before the agent pays -/

/-- The steps between the registration of the agent and its transfer. -/
def betweenRead (ix : Instruction) : List Step := [.ofKey payClock 1 ix.toTopLevel]

def payStep : Step := .ofKey payClock 3 (Instruction.agentTransfer payTransfer).toTopLevel

/-- A queued update changes nothing that is in force. -/
theorem version_fixes_enforcement_queued : ∃ w₁ w₂ w₃, run Step.exec (payRun.take 3) {} = .ok w₁ ∧
    run Step.exec (betweenRead (.queuePolicyUpdate payAction {})) w₁ = .ok w₂ ∧ payStep.exec w₂ = .ok w₃ ∧
    w₂.enforcement payVault.vault = w₁.enforcement payVault.vault := by
  obtain ⟨w₁, h₁, hp⟩ : ∃ w₁, run Step.exec (payRun.take 3) {} = .ok w₁ ∧
      w₁.policies payVault.vault = some payVault.policy := ⟨_, rfl, rfl⟩
  obtain ⟨w₂, h₂⟩ : ∃ w₂, run Step.exec (betweenRead (.queuePolicyUpdate payAction {})) w₁ = .ok w₂ := by
    cases h₁
    exact ⟨_, rfl⟩
  obtain ⟨w₃, h₃⟩ : ∃ w₃, payStep.exec w₂ = .ok w₃ := by
    cases h₁
    cases h₂
    exact exists_ok_of_isOk (by decide +kernel)
  refine ⟨w₁, w₂, w₃, h₁, h₂, h₃, version_fixes_enforcement h₁ h₂ hp ?_ rfl rfl h₃⟩
  intro st hst
  obtain rfl := List.mem_singleton.mp hst
  exact ⟨nofun, by rintro i ⟨rfl⟩; rfl⟩

def payAssertion : PostAssertionEntry :=
  { targetAccount := .key 5, offset := 0, valueLen := 8, operator := 0, expectedValue := List.replicate 8 0,
    assertionMode := 0, crossFieldOffsetB := 0, crossFieldMultiplierBps := 0, crossFieldFlags := 0 }

/-- Assertions are created between the read of version 0 and the use of version 0. -/
theorem version_stale : ∃ w₁ w₂ w₃, run Step.exec (payRun.take 3) {} = .ok w₁ ∧
    w₁.policies payVault.vault = some payVault.policy ∧ payVault.policy.policyVersion = 0 ∧
    run Step.exec (betweenRead (.createPostAssertions payAction [payAssertion])) w₁ = .ok w₂ ∧
    (Instruction.agentTransfer payTransfer).expectedVersion = some (payVault.vault, 0) ∧ payStep.exec w₂ = .ok w₃ ∧
    w₂.enforcement payVault.vault ≠ w₁.enforcement payVault.vault := by
  obtain ⟨w₁, h₁, hp⟩ : ∃ w₁, run Step.exec (payRun.take 3) {} = .ok w₁ ∧
      w₁.policies payVault.vault = some payVault.policy := ⟨_, rfl, rfl⟩
  obtain ⟨w₂, h₂⟩ : ∃ w₂, run Step.exec (betweenRead (.createPostAssertions payAction [payAssertion])) w₁ = .ok w₂ := by
    cases h₁
    exact ⟨_, rfl⟩
  obtain ⟨w₃, h₃⟩ : ∃ w₃, payStep.exec w₂ = .ok w₃ := by
    cases h₁
    cases h₂
    exact exists_ok_of_isOk (by decide +kernel)
  refine ⟨w₁, w₂, w₃, h₁, hp, rfl, h₂, rfl, h₃, ?_⟩
  cases h₁
  cases h₂
  decide +kernel

end Sigil
