import Sigil.Lemmas.Config
import Sigil.Theorems.SpendingCap

/-!
# Every policy is well-formed

An update is checked against the policy of the time it is queued and applied to the policy of a later time. The
fields that the check looks at change in between by nothing but an update, of which there is one at a time.
-/

namespace Sigil

open Library

/-- The bounds of the single fields, and the caps that fit the protocols. -/
structure PolicyConfig.WellFormed (p : PolicyConfig) : Prop where
  protocols : p.protocols.length ≤ maxAllowedProtocols
  destinations : p.allowedDestinations.length ≤ maxAllowedDestinations
  developerFee : p.developerFeeRate ≤ maxDeveloperFeeRate
  slippage : p.maxSlippageBps ≤ Sigil.maxSlippageBps
  protocolMode : p.protocolMode ≤ protocolModeDenylist
  destinationMode : p.destinationMode ≤ destinationModeOpenWithCap
  timelock : minTimelockDuration ≤ p.timelockDuration
  sessionExpiry : p.sessionExpirySeconds = 0 ∨
    minSessionDurationSeconds ≤ p.sessionExpirySeconds ∧ p.sessionExpirySeconds ≤ maxOwnerSessionDurationSeconds
  allowlist : p.hasProtocolCaps → p.protocolMode = protocolModeAllowlist
  caps : p.hasProtocolCaps → p.protocolCaps.length = p.protocols.length

/-- The cap of an allowed protocol is one of the list, and not the zero that stands for a missing one. -/
theorem PolicyConfig.WellFormed.getProtocolCap {p : PolicyConfig} (h : p.WellFormed) (hcaps : p.hasProtocolCaps)
    {x : Pubkey} (hx : x ∈ p.protocols) :
    ∃ i cap : Nat, p.protocols[i]? = some x ∧ p.protocolCaps[i]? = some cap ∧ p.getProtocolCap x = some cap := by
  obtain ⟨i, hi⟩ : ∃ i, p.protocols.findIdx? (fun y => decide (y = x)) = some i := by
    rw [← Option.isSome_iff_exists, List.findIdx?_isSome]
    exact List.any_eq_true.mpr ⟨x, hx, by simp⟩
  obtain ⟨hlt, heq, -⟩ := List.findIdx?_eq_some_iff_getElem.mp hi
  have hcap : i < p.protocolCaps.length := by rw [h.caps hcaps]; exact hlt
  refine ⟨i, p.protocolCaps[i], ?_, List.getElem?_eq_getElem hcap, ?_⟩
  · rw [List.getElem?_eq_getElem hlt]
    exact congrArg some (of_decide_eq_true heq)
  · simp [PolicyConfig.getProtocolCap, hcaps, hi, List.getElem?_eq_getElem hcap]

theorem InitializeVault.wellFormed_policy {a : InitializeVault} (h : a.check = .ok ()) : a.policy.WellFormed := by
  simp only [check, bind_eq_ok, require_eq_ok, exists_and_left, exists_const] at h
  obtain ⟨hmode, hprotocols, hfee, hslippage, -, hdestinations, htimelock, hallowlist, hcaps⟩ := h
  exact
    { protocols := hprotocols
      destinations := hdestinations
      developerFee := hfee
      slippage := hslippage
      protocolMode := hmode
      destinationMode := Nat.zero_le _
      timelock := htimelock
      sessionExpiry := .inl rfl
      allowlist := fun h => hallowlist (by simpa [policy] using h)
      caps := fun h => by simpa [policy] using hcaps (by simpa [policy] using h) }

/-! ## Updates -/

/-- A field after an update: the new value, or the one of the policy. -/
theorem getD_of_forall {α : Type} {o : Option α} {d : α} {P : α → Prop} (ho : ∀ x, o = some x → P x) (hd : P d) :
    P (o.getD d) := by
  cases o with
  | none => exact hd
  | some x => exact ho x rfl

/-- The same where the update carries a machine word. -/
theorem getD_map_of_forall {α β : Type} {o : Option α} {f : α → β} {d : β} {P : β → Prop}
    (ho : ∀ x, o = some x → P (f x)) (hd : P d) : P ((o.map f).getD d) :=
  getD_of_forall (fun y hy => by obtain ⟨x, hx, rfl⟩ := Option.map_eq_some_iff.mp hy; exact ho x hx) hd

theorem PolicyUpdate.applyTo_wellFormed {u : PolicyUpdate} {p : PolicyConfig} {clock : Clock} {executes : Int}
    (hp : p.WellFormed) (hfields : u.checkFields = .ok ()) (hcaps : u.checkProtocolCaps p = .ok ()) :
    ((u.pending clock executes).applyTo p).WellFormed := by
  simp only [checkFields, bind_eq_ok] at hfields
  obtain ⟨_, hmode, _, hdestinationMode, _, hprotocols, _, hfee, _, hslippage, _, hdestinations, _, htimelock,
    hexpiry⟩ := hfields
  simp only [checkProtocolCaps, bind_eq_ok, require_eq_ok, exists_and_left, exists_const] at hcaps
  exact
    { protocols := getD_of_forall (P := fun l : List Pubkey => l.length ≤ maxAllowedProtocols)
        (checkField_eq_ok.mp hprotocols) hp.protocols
      destinations := getD_of_forall (P := fun l : List Pubkey => l.length ≤ maxAllowedDestinations)
        (checkField_eq_ok.mp hdestinations) hp.destinations
      developerFee := getD_map_of_forall (P := (· ≤ maxDeveloperFeeRate)) (checkField_eq_ok.mp hfee) hp.developerFee
      slippage := getD_map_of_forall (P := (· ≤ Sigil.maxSlippageBps)) (checkField_eq_ok.mp hslippage) hp.slippage
      protocolMode := getD_map_of_forall (P := (· ≤ protocolModeDenylist)) (checkField_eq_ok.mp hmode) hp.protocolMode
      destinationMode := getD_map_of_forall (P := (· ≤ destinationModeOpenWithCap))
        (checkField_eq_ok.mp hdestinationMode) hp.destinationMode
      timelock := getD_map_of_forall (P := (minTimelockDuration ≤ ·)) (checkField_eq_ok.mp htimelock) hp.timelock
      sessionExpiry := getD_map_of_forall (P := fun s => s = 0 ∨ minSessionDurationSeconds ≤ s ∧
        s ≤ maxOwnerSessionDurationSeconds) (checkField_eq_ok.mp hexpiry) hp.sessionExpiry
      allowlist := hcaps.1
      caps := hcaps.2 }

/-- The policy of a vault, and what a pending update makes of it. -/
structure Config.PolicyInv (c : Config) : Prop where
  wellFormed : ∀ p, c.policy = some p → p.WellFormed
  flag : ∀ p, c.policy = some p → p.hasPendingPolicy = c.pending.isSome
  update : ∀ p q, c.policy = some p → c.pending = some q → (q.applyTo p).WellFormed
  dead : c.policy = none → c.pending = none
  live : c.live = c.policy.isSome

namespace Config.PolicyInv

variable {ctx : Ctx} {v : Pubkey} {i : Instruction} {c c' : Config} {p p' : PolicyConfig}

/-- Changes of the flags and the version are of no concern to the bounds. -/
theorem of_flags (h : c.PolicyInv) (hp : c.policy = some p) (hpolicy : c'.policy = some p')
    (hpending : c'.pending = c.pending) (hlive : c'.live = c.live) (hflag : p'.hasPendingPolicy = p.hasPendingPolicy)
    (hwell : p.WellFormed → p'.WellFormed) (hupdate : ∀ q : PendingPolicyUpdate, (q.applyTo p).WellFormed →
      (q.applyTo p').WellFormed) : c'.PolicyInv where
  wellFormed x hx := by
    cases hpolicy.symm.trans hx
    exact hwell (h.wellFormed p hp)
  flag x hx := by
    cases hpolicy.symm.trans hx
    rw [hflag, h.flag p hp, hpending]
  update x q hx hq := by
    cases hpolicy.symm.trans hx
    exact hupdate q (h.update p q hp (hpending ▸ hq))
  dead hnone := by rw [hpolicy] at hnone; cases hnone
  live := by rw [hlive, h.live, hp, hpolicy]; rfl

theorem change (h : c.PolicyInv) (hchange : ConfigChange ctx v i c c') : c'.PolicyInv := by
  cases hchange with
  | opened a hv hdead hcheck =>
      have hnone : c.policy = none := by simpa [h.live] using hdead
      have hpending := h.dead hnone
      refine ⟨?_, ?_, ?_, by simp, rfl⟩
      · rintro p ⟨rfl⟩
        exact InitializeVault.wellFormed_policy hcheck
      · rintro p ⟨rfl⟩
        simp [hpending, InitializeVault.policy]
      · rintro p q - hq
        simp [hpending] at hq
  | @closed _ policy a hv hpolicy hconstraints =>
      refine ⟨by simp, by simp, by simp, fun _ => ?_, rfl⟩
      have hflag := h.flag policy hpolicy
      split
      · rfl
      · rename_i hnot
        rw [hflag] at hnot
        simpa using hnot
  | @queued _ policy a u executes hv hlive hpolicy hfields hcaps =>
      have hwell := h.wellFormed policy hpolicy
      refine ⟨?_, ?_, ?_, by simp, by rw [h.live, hpolicy]; rfl⟩
      · rintro p ⟨rfl⟩
        exact { hwell with }
      · rintro p ⟨rfl⟩
        rfl
      · rintro p q ⟨rfl⟩ ⟨rfl⟩
        exact { PolicyUpdate.applyTo_wellFormed hwell hfields hcaps with }
  | @applied _ policy pending a hv hpolicy hpending =>
      refine ⟨?_, ?_, by simp, by simp, by rw [h.live, hpolicy]; rfl⟩
      · rintro p ⟨rfl⟩
        exact { h.update policy pending hpolicy hpending with }
      · rintro p ⟨rfl⟩
        rfl
  | @cancelled _ policy a hv hpolicy =>
      refine ⟨?_, ?_, by simp, by simp, by rw [h.live, hpolicy]; rfl⟩
      · rintro p ⟨rfl⟩
        exact { h.wellFormed policy hpolicy with }
      · rintro p ⟨rfl⟩
        rfl
  | allocated => exact ⟨h.wellFormed, h.flag, h.update, h.dead, h.live⟩
  | extended => exact ⟨h.wellFormed, h.flag, h.update, h.dead, h.live⟩
  | cleaned => exact ⟨h.wellFormed, h.flag, h.update, h.dead, h.live⟩
  | populated a entries strictMode hv hlive hpolicy =>
      exact h.of_flags hpolicy rfl rfl rfl rfl (fun h => { h with }) fun _ h => { h with }
  | rewritten a set hv hpolicy =>
      exact h.of_flags hpolicy rfl rfl rfl rfl (fun h => { h with }) fun _ h => { h with }
  | cleared a closesPending hv hpolicy =>
      exact h.of_flags hpolicy rfl rfl rfl rfl (fun h => { h with }) fun _ h => { h with }
  | permitted a address hv hpolicy =>
      exact h.of_flags hpolicy rfl rfl rfl rfl (fun h => { h with }) fun _ h => { h with }
  | asserted a entries hv hpolicy =>
      exact h.of_flags hpolicy rfl rfl rfl rfl (fun h => { h with }) fun _ h => { h with }
  | unasserted a hv hpolicy =>
      exact h.of_flags hpolicy rfl rfl rfl rfl (fun h => { h with }) fun _ h => { h with }

end Config.PolicyInv

theorem policyInv_genesis (v : Pubkey) : (({} : World).config v).PolicyInv := by
  refine ⟨?_, ?_, ?_, ?_, ?_⟩ <;> simp [World.config]

theorem policyInv_run {steps : List Step} {w : World} (h : run Step.exec steps {} = .ok w) (v : Pubkey) :
    (w.config v).PolicyInv :=
  config_invariant (P := fun _ c => c.PolicyInv) policyInv_genesis (fun _ _ _ _ _ hinv hchange => hinv.change hchange)
    h v

/-- Every policy that any run leads to is well-formed, the cap of an allowed protocol is one of its list, and the
flag tells whether an update is pending. -/
theorem policy_wellFormed {steps : List Step} {w : World} (h : run Step.exec steps {} = .ok w) {v : Pubkey}
    {policy : PolicyConfig} (hp : w.policies v = some policy) :
    policy.WellFormed ∧ (policy.hasPendingPolicy ↔ (w.pendingPolicies v).isSome) ∧
    (policy.hasProtocolCaps → ∀ x ∈ policy.protocols, ∃ i cap : Nat, policy.protocols[i]? = some x ∧
      policy.protocolCaps[i]? = some cap ∧ policy.getProtocolCap x = some cap) := by
  have hinv := policyInv_run h v
  have hwell := hinv.wellFormed policy hp
  exact ⟨hwell, by rw [hinv.flag policy hp]; rfl, fun hcaps x hx => hwell.getProtocolCap hcaps hx⟩

/-! ### A vault with two allowed protocols, of which the first is capped -/

def capsVault : InitializeVault :=
  { payVault with protocolMode := 1, protocols := [.key 8, .key 9], protocolCaps := [1000000, 0] }

def capsAction : OwnerAction := { owner := .key 1, vault := capsVault.vault }

/-- The owner queues an update that drops the second protocol. -/
def capsRun : List Step :=
  [.ofKey payClock 1 (Instruction.initializeVault capsVault).toTopLevel,
   .ofKey payClock 1 (Instruction.queuePolicyUpdate capsAction
    { protocols := some [.key 8], protocolCaps := some [2000000] }).toTopLevel]

theorem policy_wellFormed_queued : ∃ w policy, run Step.exec capsRun {} = .ok w ∧
    w.policies capsVault.vault = some policy ∧ policy.WellFormed ∧ (w.pendingPolicies capsVault.vault).isSome ∧
    ∃ i cap : Nat, policy.protocols[i]? = some (.key 8) ∧ policy.protocolCaps[i]? = some cap ∧
      policy.getProtocolCap (.key 8) = some cap := by
  obtain ⟨w, policy, hrun, hp, hflag, hcaps, hmem⟩ : ∃ w policy, run Step.exec capsRun {} = .ok w ∧
      w.policies capsVault.vault = some policy ∧ policy.hasPendingPolicy ∧ policy.hasProtocolCaps ∧
      .key 8 ∈ policy.protocols := ⟨_, _, rfl, rfl, rfl, rfl, by decide⟩
  obtain ⟨hwell, hpending, hcap⟩ := policy_wellFormed hrun hp
  exact ⟨w, policy, hrun, hp, hwell, hpending.mp hflag, hcap hcaps _ hmem⟩

end Sigil
