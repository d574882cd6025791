import Sigil.Sdk.ConstraintBuilders
import Sigil.Lemmas.SessionTrace
import Sigil.Theorems.Setup

/-!
# Instruction chains of the SDK

The chain that creates constraints ends at the length of their account. The chain that queues an update ends eight
bytes short of it.
-/

namespace Sigil.Sdk

open Library

section
variable {w w' : World} {tx : Transaction} {v : Pubkey} {vault : AgentVault} {policy : PolicyConfig}
  {input : BuildCreateConstraintsInput} {byteLength : List Instruction → Nat} {ixs : List Instruction}
  {steps : List Step} {i : Instruction} {b : Builder}

theorem step_toTopLevel (tx : Transaction) (i : Instruction) (k : Nat) (w : World) :
    (tx.step i.toTopLevel k).exec w = i.exec (tx.step i.toTopLevel k).ctx w := by
  have hdisc : crateId = crateId ∧ i.discriminator.take 8 = i.discriminator := by cases i <;> exact ⟨rfl, rfl⟩
  show (require (crateId = crateId ∧ i.discriminator.take 8 = i.discriminator)
    (AnchorError.instructionFallbackNotFound : ProgramError) >>= fun _ => i.exec (tx.step i.toTopLevel k).ctx w) = _
  rw [require, if_pos hdisc]
  rfl

/-- The steps of a chain are within the bounds of `extend_pda` and end at the full size. -/
theorem run_extends {f : Nat → World} {a : OwnerAction} {pda : Pubkey} {top : Nat}
    (hexec : ∀ n m k, maxCpiAccountSize ≤ n → n < m → m ≤ n + maxCpiAccountSize → m ≤ top →
      extendPda (tx.step (Instruction.extendPda a pda (.ofNat m)).toTopLevel k).ctx a pda (.ofNat m) (f n) =
        .ok (f m)) {n : Nat} (hge : maxCpiAccountSize ≤ n) (hle : n ≤ top) (k : Nat) :
    run Step.exec (tx.stepsFrom (((extendStepsFrom top n).map fun m =>
      Instruction.extendPda a pda (.ofNat m)).map Instruction.toTopLevel) k) (f n) = .ok (f top) := by
  fun_induction extendStepsFrom top n generalizing k with
  | case1 n hlt m ih =>
      have hm : n < m ∧ m ≤ n + maxCpiAccountSize ∧ m ≤ top := by
        refine ⟨?_, min_le_left .., min_le_right ..⟩
        exact lt_min (Nat.lt_add_of_pos_right (by decide)) hlt
      simp only [List.map_cons, Transaction.stepsFrom, run_cons_eq_ok]
      refine ⟨f m, ?_, ih (hge.trans (Nat.le_of_lt hm.1)) hm.2.2 (k + 1)⟩
      rw [step_toTopLevel]
      exact hexec n m k hge hm.1 hm.2.1 hm.2.2
  | case2 n hnot =>
      obtain rfl : n = top := by omega
      rfl

theorem buildIxs_ok {pda : Pubkey} {size : Nat} {allocateIx populateIx : Instruction}
    (h : buildIxs byteLength input pda size allocateIx populateIx = .ok ixs) :
    ixs = allocateIx :: (((extendStepsFrom size maxCpiAccountSize).map fun m =>
      Instruction.extendPda input.action pda (.ofNat m)) ++ [populateIx]) := by
  simp only [buildIxs, bind_eq_ok, pure_eq_ok] at h
  obtain ⟨_, -, _, -, rfl⟩ := h
  rfl

/-- Whatever the chain extends has the full size at its end. -/
theorem extends_size {a : OwnerAction} {top : Nat} (htop : top ≤ pendingConstraintsUpdateSize) {n k : Nat}
    (hlt : n < top)
    (h : run Step.exec (tx.stepsFrom (((extendStepsFrom top n).map fun m =>
      Instruction.extendPda a (.pendingConstraints v) (.ofNat m)).map Instruction.toTopLevel) k) w = .ok w') :
    ∃ account, w'.pendingConstraints v = some account ∧ account.size = top := by
  fun_induction extendStepsFrom top n generalizing k w with
  | case1 n _ m =>
      rename_i ih
      simp only [List.map_cons, Transaction.stepsFrom, run_cons_eq_ok] at h
      obtain ⟨w₁, hextend, hrest⟩ := h
      have hm : m ≤ top := min_le_right ..
      rw [step_toTopLevel] at hextend
      simp only [Instruction.exec, extendPda, bind_eq_ok, pure_eq_ok] at hextend
      obtain ⟨_, -, extended, hextended, rfl⟩ := hextend
      obtain ⟨account, -, -, -, -, rfl⟩ := extendAllocated_ok hextended
      rcases Nat.lt_or_eq_of_le hm with hlt | heq
      · exact ih hlt hrest
      · rw [heq, extendStepsFrom, if_neg (Nat.lt_irrefl top)] at hrest
        cases run_nil_eq_ok.mp hrest
        refine ⟨_, setPendingConstraints_self, ?_⟩
        exact toNat_ofNat_le htop
  | case2 n hnot => exact absurd hlt hnot

/-- Where a chain starts: without the account that it creates, and for an update with constraints to update. -/
def Builder.Starts (b : Builder) (w : World) (v : Pubkey) : Prop :=
  match b with
  | .create => w.constraints v = none
  | .queue => (w.constraintSet v).isSome ∧ w.pendingConstraints v = none

/-- What a chain leads to: the account at its full length, populated with the entries. -/
def Builder.Finishes (b : Builder) (input : BuildCreateConstraintsInput) (w : World) : Prop :=
  match b with
  | .create => w.constraints input.vault =
      some { size := instructionConstraintsSize, vault := input.vault,
             content := some { entries := input.entries, strictMode := input.strictMode } }
  | .queue => ∃ pending : PendingConstraintsUpdate, w.pendingConstraints input.vault =
      some { size := pendingConstraintsUpdateSize, vault := input.vault, content := some pending } ∧
      pending.entries = input.entries ∧ pending.strictMode = input.strictMode

/-- A transaction of the owner with the instructions of a chain. -/
structure Sends (tx : Transaction) (ixs : List Instruction) (input : BuildCreateConstraintsInput) : Prop where
  instructions : tx.instructions = ixs.map Instruction.toTopLevel
  signer : input.owner ∈ tx.signers

theorem create_runs (hv : w.vaults input.vault = some vault) (haddress : input.vault = vault.address)
    (howner : input.owner = vault.owner) (hp : w.policies input.vault = some policy)
    (hflag : policy.hasConstraints = false) (hnone : w.constraints input.vault = none)
    (hvalid : InstructionConstraints.validateEntries input.entries = .ok ())
    (hbuilt : buildCreateConstraintsIxs byteLength input = .ok ixs) (hsends : Sends tx ixs input) :
    ∃ w', tx.run w = .ok w' ∧ Builder.create.Finishes input w' := by
  have howned (ix : Instruction) (k : Nat) : Owned w (tx.step ix.toTopLevel k).ctx input.owner input.vault vault :=
    ⟨hsends.signer, hv, haddress, howner.symm⟩
  let allocated (n : Nat) : World := w.setConstraints input.vault (some { size := n, vault := input.vault })
  have hallocate (k : Nat) : (tx.step (Instruction.allocateConstraintsPda input.action).toTopLevel k).exec w =
      .ok (allocated maxCpiAccountSize) := by
    rw [step_toTopLevel]
    exact allocateConstraintsPda_eq (howned _ _) hp hflag hnone rfl
  have hextends (k : Nat) : run Step.exec (tx.stepsFrom (((extendStepsFrom constraintsSize maxCpiAccountSize).map
      fun m => Instruction.extendPda input.action (.constraints input.vault) (.ofNat m)).map Instruction.toTopLevel) k)
      (allocated maxCpiAccountSize) = .ok (allocated constraintsSize) := by
    refine run_extends (fun n m k hge hlt hstep hle => ?_) le_rfl (by decide) k
    exact extendPda_constraints (howned _ _) hge hlt hstep (hle.trans (by decide))
  let populated : Allocated InstructionConstraints :=
    { size := constraintsSize, vault := input.vault,
      content := some { entries := input.entries, strictMode := input.strictMode } }
  have hpopulate (k : Nat) : (tx.step (Instruction.createInstructionConstraints input.action input.entries
      input.strictMode).toTopLevel k).exec (allocated constraintsSize) =
      .ok (((allocated constraintsSize).setConstraints input.vault (some populated)).setPolicy input.vault
        { policy with hasConstraints := true }) := by
    rw [step_toTopLevel]
    exact createInstructionConstraints_eq ((howned _ _).setConstraints _) hp hvalid setConstraints_self rfl rfl rfl
  refine ⟨((allocated constraintsSize).setConstraints input.vault (some populated)).setPolicy input.vault
    { policy with hasConstraints := true }, ?_, setConstraints_self⟩
  · rw [Transaction.run, Transaction.steps, hsends.instructions, buildIxs_ok hbuilt, List.map_cons, List.map_append,
      Transaction.stepsFrom, run_cons_eq_ok]
    refine ⟨_, hallocate 0, ?_⟩
    rw [Transaction.stepsFrom_append, run_append_eq_ok]
    exact ⟨_, hextends _, run_cons_eq_ok.mpr ⟨_, hpopulate _, rfl⟩⟩

/-- The length at which the chain ends is not the one that `queue_constraints_update` requires. -/
theorem queue_stops (hbuilt : buildQueueConstraintsUpdateIxs byteLength input = .ok ixs) (hsends : Sends tx ixs input) :
    tx.run w ≠ .ok w' := by
  intro h
  rw [Transaction.run, Transaction.steps, hsends.instructions, buildIxs_ok hbuilt, List.map_cons, List.map_append,
    Transaction.stepsFrom, run_cons_eq_ok] at h
  obtain ⟨w₁, -, hrest⟩ := h
  rw [Transaction.stepsFrom_append, run_append_eq_ok] at hrest
  obtain ⟨w₂, hextends, hqueue⟩ := hrest
  obtain ⟨account, haccount, hsize⟩ := extends_size (by decide) (by decide) hextends
  simp only [List.map_cons, Transaction.stepsFrom, run_cons_eq_ok] at hqueue
  obtain ⟨w₃, hqueued, -⟩ := hqueue
  rw [step_toTopLevel] at hqueued
  obtain ⟨_, account', _, -, ⟨haccount', hsize'⟩, -⟩ := queueConstraintsUpdate_ok hqueued
  cases haccount.symm.trans haccount'
  rw [hsize] at hsize'
  exact absurd hsize' (by decide)

/-- A chain that the SDK returns executes exactly if it is one that creates constraints. -/
theorem sdk_chains_execute_iff (hrun : run Step.exec steps {} = .ok w) (hv : w.vaults input.vault = some vault)
    (howner : input.owner = vault.owner) (hvalid : InstructionConstraints.validateEntries input.entries = .ok ())
    (hstarts : b.Starts w input.vault) (hbuilt : b.build byteLength input = .ok ixs) (hsends : Sends tx ixs input) :
    (∃ w', tx.run w = .ok w' ∧ b.Finishes input w') ↔ b = .create := by
  cases b with
  | create =>
      refine iff_of_true ?_ rfl
      have haddress := run_vaults_address (by rintro _ _ ⟨⟩) hrun _ vault hv
      obtain ⟨policy, hp⟩ : ∃ policy, w.policies input.vault = some policy := by
        have hlive : (w.vaults input.vault).isSome = (w.policies input.vault).isSome :=
          (policyInv_run hrun input.vault).live
        rw [hv] at hlive
        exact Option.isSome_iff_exists.mp hlive.symm
      have hflag : policy.hasConstraints = false := by
        have hunset := ((constraintsInv_run hrun input.vault).flag policy hp).not.mpr
        have hnone : w.constraints input.vault = none := hstarts
        simpa [World.config, World.constraintSet, hnone] using hunset
      exact create_runs hv haddress howner hp hflag hstarts hvalid hbuilt hsends
  | queue =>
      refine iff_of_false ?_ (by decide)
      rintro ⟨w', h, -⟩
      exact queue_stops hbuilt hsends h

end

/-! ### One entry for the first vault -/

def flashInput : BuildCreateConstraintsInput :=
  { owner := .key 1, vault := payVault.vault, entries := [flashEntry], strictMode := true }

def flashTransaction (ixs : List Instruction) : Transaction := .ofKey payClock 1 (ixs.map Instruction.toTopLevel)

theorem flash_sends (ixs : List Instruction) : Sends (flashTransaction ixs) ixs flashInput :=
  ⟨rfl, List.mem_singleton_self _⟩

theorem sdk_chains_execute_create : ∃ w ixs w', run Step.exec (payRun.take 3) {} = .ok w ∧
    buildCreateConstraintsIxs (fun _ => 900) flashInput = .ok ixs ∧ (flashTransaction ixs).run w = .ok w' := by
  obtain ⟨w, vault, hrun, hv, howner, hnone⟩ : ∃ w vault, run Step.exec (payRun.take 3) {} = .ok w ∧
      w.vaults flashInput.vault = some vault ∧ flashInput.owner = vault.owner ∧
      w.constraints flashInput.vault = none := ⟨_, _, rfl, rfl, rfl, rfl⟩
  obtain ⟨ixs, hbuilt⟩ : ∃ ixs, Builder.create.build (fun _ => 900) flashInput = .ok ixs := ⟨_, rfl⟩
  obtain ⟨w', h, -⟩ := (sdk_chains_execute_iff (b := .create) hrun hv howner rfl hnone hbuilt (flash_sends ixs)).mpr rfl
  exact ⟨w, ixs, w', hrun, hbuilt, h⟩

/-- The vault has constraints, no update is queued, and its timelock is half an hour. -/
theorem sdk_queue_chain_stops : ∃ w policy ixs, run Step.exec constrainRun {} = .ok w ∧
    InstructionConstraints.validateEntries flashInput.entries = .ok () ∧
    w.policies flashInput.vault = some policy ∧ 0 < policy.timelockDuration ∧
    Builder.queue.Starts w flashInput.vault ∧
    buildQueueConstraintsUpdateIxs (fun _ => 900) flashInput = .ok ixs ∧
    (flashTransaction ixs).run w = .error SigilError.invalidPendingConstraintsPda := by
  obtain ⟨w, policy, hrun, hp, htimelock, hset, hnone⟩ : ∃ w policy, run Step.exec constrainRun {} = .ok w ∧
      w.policies flashInput.vault = some policy ∧ policy.timelockDuration = 1800 ∧
      w.constraintSet flashInput.vault = some { entries := [flashEntry], strictMode := true } ∧
      w.pendingConstraints flashInput.vault = none := ⟨_, _, rfl, rfl, rfl, rfl, rfl⟩
  have hsteps : extendSteps pendingConstraintsSize = [20480, 30720, 35904] := by decide +kernel
  refine ⟨w, policy, _, hrun, rfl, hp, by rw [htimelock]; decide, ⟨by rw [hset]; rfl, hnone⟩, rfl, ?_⟩
  rw [hsteps]
  cases hrun
  rfl

end Sigil.Sdk
