import Sigil.Lemmas.Handlers

/-!
# Queued updates

The four kinds of update share their life: what is pending was queued with the timelock of the policy at that
time, and is only applied under the two time checks.
-/

namespace Sigil

open Library

/-- A queued update, by the account it lies in. -/
inductive Update where
  | policy (v : Pubkey)
  | constraints (v : Pubkey)
  | closeConstraints (v : Pubkey)
  | agentPermissions (address : Pubkey)
  deriving DecidableEq, Repr

structure UpdateTimes where
  queuedAt : Int
  executesAt : Int
  queuedAtSlot : Nat
  deriving DecidableEq, Repr

/-- Times of a pending update. -/
def World.pendingTimes (w : World) : Update → Option UpdateTimes
  | .policy v => (w.pendingPolicies v).map fun p => ⟨p.queuedAt, p.executesAt, p.queuedAtSlot⟩
  | .constraints v => (w.queuedConstraints v).map fun p => ⟨p.queuedAt, p.executesAt, p.queuedAtSlot⟩
  | .closeConstraints v => (w.pendingCloseConstraints v).map fun p => ⟨p.queuedAt, p.executesAt, p.queuedAtSlot⟩
  | .agentPermissions x => (w.pendingAgentPerms x).map fun p => ⟨p.queuedAt, p.executesAt, p.queuedAtSlot⟩

namespace Instruction

/-- The update an instruction queues and the vault it is for. -/
def queues : Instruction → Option (Update × Pubkey)
  | .queuePolicyUpdate a _ => some (.policy a.vault, a.vault)
  | .queueConstraintsUpdate a _ _ => some (.constraints a.vault, a.vault)
  | .queueCloseConstraints a => some (.closeConstraints a.vault, a.vault)
  | .queueAgentPermissionsUpdate a _ _ =>
      some (.agentPermissions (.pendingAgentPerms a.vault a.agent), a.vault)
  | _ => none

def applies : Instruction → Option Update
  | .applyPendingPolicy a => some (.policy a.vault)
  | .applyConstraintsUpdate a => some (.constraints a.vault)
  | .applyCloseConstraints a _ => some (.closeConstraints a.vault)
  | .applyAgentPermissionsUpdate _ address => some (.agentPermissions address)
  | _ => none

/-- Instructions that set a timelock or queue an update. -/
def changesTimelock (i : Instruction) : Bool :=
  match i with
  | .initializeVault _ | .applyPendingPolicy _ => true
  | _ => i.queues.isSome

end Instruction

variable {w w' : World} {ctx : Ctx} {i : Instruction} {u : Update} {v : Pubkey} {t : UpdateTimes}

/-! ## The frame of the timelock -/

theorem chargeSession_timelockFrame {clock : Clock} {vault : AgentVault} {policy : PolicyConfig}
    {session : SessionAuthority} {spend : Nat}
    (h : chargeSession w clock v vault policy session spend = .ok w') : TimelockFrame w w' := by
  rcases chargeSession_ok h with ⟨-, rfl⟩ | ⟨-, _, _, _, -, -, rfl⟩
  · exact .refl w'
  · exact { TimelockFrame.refl w with }

theorem Instruction.timelockFrame (hnot : i.changesTimelock = false)
    (hkeys : ∀ k ∈ ctx.signers, k.isKey = true) (h : i.exec ctx w = .ok w') : TimelockFrame w w' := by
  cases i with
  | initializeVault a => cases hnot
  | applyPendingPolicy a => cases hnot
  | queuePolicyUpdate a u => cases hnot
  | queueConstraintsUpdate a entries strictMode => cases hnot
  | queueCloseConstraints a => cases hnot
  | queueAgentPermissionsUpdate a capability limit => cases hnot
  | closeVault a =>
      obtain ⟨_, _, -, rfl⟩ := closeVault_ok h
      exact w.withoutVault_timelockFrame a _ _
  | validateAndAuthorize a =>
      obtain ⟨_, _, _, _, _, _, _, -, -, -, -, -, -, -, -, -, rfl⟩ := validateAndAuthorize_ok h
      exact { TimelockFrame.refl w with }
  | finalizeSession a =>
      obtain ⟨_, _, _, _, _, _, _, -, -, -, -, -, hcharge, -, rfl⟩ := finalizeSession_ok h
      exact { chargeSession_timelockFrame hcharge with }
  | agentTransfer a =>
      obtain ⟨_, _, _, _, _, _, _, _, -, -, -, -, -, -, rfl⟩ := agentTransfer_ok h
      exact { TimelockFrame.refl w with }
  | createEscrow a =>
      obtain ⟨_, _, _, _, _, _, _, _, _, _, _, _, -, -, -, -, -, -, -, -, rfl⟩ := createEscrow_ok h
      exact { TimelockFrame.refl w with }
  | settleEscrow a =>
      obtain ⟨_, _, _, -, -, -, -, -, -, -, rfl⟩ := settleEscrow_ok h
      exact { TimelockFrame.refl w with }
  | refundEscrow a =>
      obtain ⟨_, _, _, -, -, -, -, -, rfl⟩ := refundEscrow_ok h
      exact { TimelockFrame.refl w with }
  | closeSettledEscrow a =>
      obtain ⟨_, _, -, -, rfl⟩ := closeSettledEscrow_ok h
      exact { TimelockFrame.refl w with }
  | _ => exact (Instruction.frame rfl hkeys h).toTimelockFrame

theorem TimelockFrame.pendingTimes (h : TimelockFrame w w') (ht : w'.pendingTimes u = some t) :
    w.pendingTimes u = some t := by
  cases u with
  | policy v =>
      obtain ⟨p, hp, rfl⟩ := Option.map_eq_some_iff.mp ht
      exact Option.map_eq_some_iff.mpr ⟨p, h.pendingPolicies v p hp, rfl⟩
  | constraints v =>
      obtain ⟨p, hp, rfl⟩ := Option.map_eq_some_iff.mp ht
      exact Option.map_eq_some_iff.mpr ⟨p, h.queuedConstraints v p hp, rfl⟩
  | closeConstraints v =>
      obtain ⟨p, hp, rfl⟩ := Option.map_eq_some_iff.mp ht
      exact Option.map_eq_some_iff.mpr ⟨p, h.pendingCloseConstraints v p hp, rfl⟩
  | agentPermissions x =>
      obtain ⟨p, hp, rfl⟩ := Option.map_eq_some_iff.mp ht
      exact Option.map_eq_some_iff.mpr ⟨p, h.pendingAgentPerms x p hp, rfl⟩

/-! ## Queueing and applying -/

/-- Times that a queue instruction writes. -/
def queuedTimes (clock : Clock) (policy : PolicyConfig) : UpdateTimes :=
  ⟨clock.unixTimestamp, clock.unixTimestamp + asI64 policy.timelockDuration, clock.slot⟩

theorem queue_pendingTimes (hqueue : i.queues = some (u, v)) (h : i.exec ctx w = .ok w') :
    ∃ policy, w.policies v = some policy ∧ w'.pendingTimes u = some (queuedTimes ctx.clock policy) := by
  cases i with
  | queuePolicyUpdate a update =>
      cases hqueue
      obtain ⟨_, policy, executes, -, hp, -, -, -, hexecutes, rfl⟩ := queuePolicyUpdate_ok h
      obtain rfl := executesAt_ok hexecutes
      exact ⟨policy, hp, by simp [World.pendingTimes, World.setPendingPolicy, World.setPolicy,
        PolicyUpdate.pending, queuedTimes]⟩
  | queueConstraintsUpdate a entries strictMode =>
      cases hqueue
      obtain ⟨policy, _, pending, hp, -, hat, hexec, hslot, rfl⟩ := queueConstraintsUpdate_ok h
      exact ⟨policy, hp, by simp [World.pendingTimes, World.queuedConstraints, World.setPendingConstraints,
        Allocated.write, queuedTimes, hat, hexec, hslot]⟩
  | queueCloseConstraints a =>
      cases hqueue
      obtain ⟨policy, pending, hp, hat, hexec, hslot, rfl⟩ := queueCloseConstraints_ok h
      exact ⟨policy, hp, by simp [World.pendingTimes, World.setPendingCloseConstraints, queuedTimes, hat, hexec,
        hslot]⟩
  | queueAgentPermissionsUpdate a capability limit =>
      cases hqueue
      obtain ⟨policy, pending, hp, hat, hexec, hslot, rfl⟩ := queueAgentPermissionsUpdate_ok h
      exact ⟨policy, hp, by simp [World.pendingTimes, World.setPendingAgentPerms, queuedTimes, hat, hexec, hslot]⟩
  | _ => cases hqueue

/-- Queueing one update leaves the others as they were. -/
theorem queue_pendingTimes_of_ne {x : Update} (hqueue : i.queues = some (u, v)) (hne : x ≠ u)
    (h : i.exec ctx w = .ok w') : w'.pendingTimes x = w.pendingTimes x := by
  have hupdate : ∀ {α : Type} {f : Pubkey → Option α} {y z : Pubkey} {o : Option α}, z ≠ y →
      Function.update f y o z = f z := fun h => Function.update_of_ne h _ _
  cases i with
  | queuePolicyUpdate a update =>
      cases hqueue
      obtain ⟨_, policy, executes, -, -, -, -, -, -, rfl⟩ := queuePolicyUpdate_ok h
      cases x with
      | policy z =>
          have hz : z ≠ a.vault := fun heq => hne (heq ▸ rfl)
          simp [World.pendingTimes, World.setPendingPolicy, World.setPolicy, hupdate hz]
      | _ => rfl
  | queueConstraintsUpdate a entries strictMode =>
      cases hqueue
      obtain ⟨policy, _, pending, -, -, -, -, -, rfl⟩ := queueConstraintsUpdate_ok h
      cases x with
      | constraints z =>
          have hz : z ≠ a.vault := fun heq => hne (heq ▸ rfl)
          simp [World.pendingTimes, World.queuedConstraints, World.setPendingConstraints, hupdate hz]
      | _ => rfl
  | queueCloseConstraints a =>
      cases hqueue
      obtain ⟨policy, pending, -, -, -, -, rfl⟩ := queueCloseConstraints_ok h
      cases x with
      | closeConstraints z =>
          have hz : z ≠ a.vault := fun heq => hne (heq ▸ rfl)
          simp [World.pendingTimes, World.setPendingCloseConstraints, hupdate hz]
      | _ => rfl
  | queueAgentPermissionsUpdate a capability limit =>
      cases hqueue
      obtain ⟨policy, pending, -, -, -, -, rfl⟩ := queueAgentPermissionsUpdate_ok h
      cases x with
      | agentPermissions z =>
          have hz : z ≠ .pendingAgentPerms a.vault a.agent := fun heq => hne (heq ▸ rfl)
          simp [World.pendingTimes, World.setPendingAgentPerms, hupdate hz]
      | _ => rfl
  | _ => cases hqueue

/-- What is pending after an instruction was pending before it or is queued by it. -/
theorem Instruction.pendingTimes_cases (hkeys : ∀ k ∈ ctx.signers, k.isKey = true)
    (h : i.exec ctx w = .ok w') (ht : w'.pendingTimes u = some t) :
    w.pendingTimes u = some t ∧ (∀ v, i.queues ≠ some (u, v)) ∨
    ∃ v policy, i.queues = some (u, v) ∧ w.policies v = some policy ∧ t = queuedTimes ctx.clock policy := by
  cases hqueue : i.queues with
  | none =>
      refine .inl ⟨?_, by simp⟩
      cases hchanges : i.changesTimelock with
      | false => exact (i.timelockFrame hchanges hkeys h).pendingTimes ht
      | true =>
          cases i with
          | initializeVault a =>
              obtain ⟨-, -, rfl⟩ := initializeVault_ok h
              exact ht
          | applyPendingPolicy a =>
              obtain ⟨_, _, _, -, -, -, -, rfl⟩ := applyPendingPolicy_ok h
              exact TimelockFrame.pendingTimes (Frame.clearPendingPolicy (.refl w)).toTimelockFrame ht
          | _ => simp [Instruction.changesTimelock, Instruction.queues] at hchanges hqueue
  | some q =>
      obtain ⟨x, v⟩ := q
      rcases eq_or_ne u x with rfl | hne
      · obtain ⟨policy, hp, hx⟩ := queue_pendingTimes hqueue h
        exact .inr ⟨v, policy, rfl, hp, Option.some.inj (ht.symm.trans hx)⟩
      · refine .inl ⟨by rw [← queue_pendingTimes_of_ne hqueue hne h]; exact ht, fun v' heq => hne ?_⟩
        cases heq
        rfl

theorem Instruction.apply_time (happly : i.applies = some u) (h : i.exec ctx w = .ok w') :
    ∃ t, w.pendingTimes u = some t ∧ t.executesAt ≤ ctx.clock.unixTimestamp ∧
      ctx.clock.slot - t.queuedAtSlot < maxApplyAgeSlots := by
  cases i with
  | applyPendingPolicy a =>
      cases happly
      obtain ⟨_, _, p, -, -, hp, htime, -⟩ := applyPendingPolicy_ok h
      exact ⟨_, Option.map_eq_some_iff.mpr ⟨p, hp, rfl⟩, checkApplyTime_ok htime⟩
  | applyConstraintsUpdate a =>
      cases happly
      obtain ⟨_, _, _, p, -, -, -, hp, htime, -⟩ := applyConstraintsUpdate_ok h
      exact ⟨_, Option.map_eq_some_iff.mpr ⟨p, hp, rfl⟩, checkApplyTime_ok htime⟩
  | applyCloseConstraints a closesPending =>
      cases happly
      obtain ⟨_, _, p, -, -, hp, htime, -⟩ := applyCloseConstraints_ok h
      exact ⟨_, Option.map_eq_some_iff.mpr ⟨p, hp, rfl⟩, checkApplyTime_ok htime⟩
  | applyAgentPermissionsUpdate a address =>
      cases happly
      obtain ⟨_, _, p, _, _, _, -, -, hp, -, htime, -⟩ := applyAgentPermissionsUpdate_ok h
      exact ⟨_, Option.map_eq_some_iff.mpr ⟨p, hp, rfl⟩, checkApplyTime_ok htime⟩
  | _ => cases happly

end Sigil
