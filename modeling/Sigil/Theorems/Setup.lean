import Sigil.Lemmas.EscrowInv
import Sigil.Lemmas.Pending
import Sigil.Theorems.Constraints

/-!
# Constraints can be set up

The account of the constraints and that of a queued update are allocated, extended and populated by instructions of
their own. Anybody can send lamports to an address at which there is no account yet.
-/

namespace Sigil

open Library

/-- The accounts of the program, and the lamports at addresses that hold none of them. -/
structure Funded where
  world : World
  lamports : Pubkey → Nat

/-- Whether one of the two accounts that are allocated in steps lies at an address. -/
def World.isAllocated (w : World) : Pubkey → Bool
  | .constraints v => (w.constraints v).isSome
  | .pendingConstraints v => (w.pendingConstraints v).isSome
  | _ => false

def ownerCtx (clock : Clock) (owner : Pubkey) (lamports : Pubkey → Nat) : Ctx :=
  { clock := clock, signers := [owner], lamports := lamports }

/-- An instruction that the owner signs. An account that it closes leaves no lamports behind. -/
def Instruction.execFunded (clock : Clock) (owner : Pubkey) (i : Instruction) (s : Funded) : Result Funded := do
  let w' ← i.exec (ownerCtx clock owner s.lamports) s.world
  pure { world := w', lamports := fun p => if s.world.isAllocated p ∧ ¬ w'.isAllocated p then 0 else s.lamports p }

/-- The instructions that lead to constraints in force. -/
def Instruction.setsUp (a : OwnerAction) : Instruction → Prop
  | .cleanupOrphanConstraintsPda b | .allocateConstraintsPda b | .extendPda b _ _
  | .createInstructionConstraints b _ _ => b = a
  | _ => False

/-- The instructions that lead to a queued update. -/
def Instruction.queuesConstraints (a : OwnerAction) : Instruction → Prop
  | .allocatePendingConstraintsPda b | .extendPda b _ _ | .queueConstraintsUpdate b _ _ => b = a
  | _ => False

section
variable {w w' : World} {ctx : Ctx} {clock : Clock} {owner v : Pubkey} {vault : AgentVault} {policy : PolicyConfig}
  {entries : List ConstraintEntry} {strictMode : Bool} {lamports : Pubkey → Nat} {s s' : Funded} {i : Instruction}
  {A : Instruction → Prop} {steps : List Step}

theorem Instruction.execFunded_eq_ok : i.execFunded clock owner s = .ok s' ↔
    ∃ w', i.exec (ownerCtx clock owner s.lamports) s.world = .ok w' ∧
      { world := w', lamports := fun p =>
        if s.world.isAllocated p ∧ ¬ w'.isAllocated p then 0 else s.lamports p } = s' := by
  simp only [Instruction.execFunded, bind_eq_ok, pure_eq_ok]

/-- An instruction after which the accounts are still there. -/
theorem Instruction.reaches (hi : A i)
    (h : i.exec (ownerCtx clock owner lamports) w = .ok w')
    (hkeep : ∀ p, w.isAllocated p → w'.isAllocated p) :
    Reaches (Instruction.execFunded clock owner) A ⟨w, lamports⟩ ⟨w', lamports⟩ := by
  refine .one hi (Instruction.execFunded_eq_ok.mpr ⟨w', h, ?_⟩)
  simp only [Funded.mk.injEq, true_and]
  funext p
  rw [if_neg fun hnot => hnot.2 (hkeep p hnot.1)]

theorem isAllocated_setConstraints {account : Allocated InstructionConstraints} (p : Pubkey) (hp : w.isAllocated p) :
    (w.setConstraints v (some account)).isAllocated p := by
  cases p with
  | constraints y =>
      rcases eq_or_ne y v with rfl | hne
      · simp [World.isAllocated, World.setConstraints]
      · simpa [World.isAllocated, World.setConstraints, Function.update_of_ne hne] using hp
  | _ => exact hp

theorem isAllocated_setPendingConstraints {account : Allocated PendingConstraintsUpdate} (p : Pubkey)
    (hp : w.isAllocated p) : (w.setPendingConstraints v (some account)).isAllocated p := by
  cases p with
  | pendingConstraints y =>
      rcases eq_or_ne y v with rfl | hne
      · simp [World.isAllocated, World.setPendingConstraints]
      · simpa [World.isAllocated, World.setPendingConstraints, Function.update_of_ne hne] using hp
  | _ => exact hp

/-! ## The way to constraints in force -/

theorem setPendingConstraints_self {account : Option (Allocated PendingConstraintsUpdate)} :
    (w.setPendingConstraints v account).pendingConstraints v = account := Function.update_self ..

theorem setPendingConstraints_setPendingConstraints (account : Option (Allocated PendingConstraintsUpdate))
    {account' : Option (Allocated PendingConstraintsUpdate)} :
    (w.setPendingConstraints v account).setPendingConstraints v account' = w.setPendingConstraints v account' := by
  simp [World.setPendingConstraints]

theorem setConstraints_self {account : Option (Allocated InstructionConstraints)} :
    (w.setConstraints v account).constraints v = account := Function.update_self ..

theorem setConstraints_setConstraints (account : Option (Allocated InstructionConstraints))
    {account' : Option (Allocated InstructionConstraints)} :
    (w.setConstraints v account).setConstraints v account' = w.setConstraints v account' := by
  simp [World.setConstraints]

theorem Owned.of_signer (clock : Clock) (lamports : Pubkey → Nat) (hv : w.vaults v = some vault)
    (haddress : v = vault.address) :
    Owned w (ownerCtx clock vault.owner lamports) vault.owner v vault :=
  ⟨by simp [ownerCtx], hv, haddress, rfl⟩

theorem extendAllocated_eq {α : Type} (account : Allocated α) {target : Nat} (hv : account.vault = v)
    (hcontent : account.content = none) (hge : maxCpiAccountSize ≤ account.size) (hlt : account.size < target)
    (hstep : target ≤ account.size + maxCpiAccountSize) (hle : target ≤ pendingConstraintsUpdateSize) :
    extendAllocated (some account) v target = .ok { account with size := target } := by
  have hmin : 40 ≤ account.size := le_trans (by decide) hge
  have hunpopulated := checkUnpopulated_eq_ok.mpr ⟨hcontent, hv⟩
  have htarget := checkTargetSize_eq_ok.mpr ⟨hle, hlt, Nat.sub_le_iff_le_add'.mpr hstep⟩
  simp only [extendAllocated, bind_eq_ok, okOr_eq_ok, require_eq_ok, exists_and_left, exists_const, pure_eq_ok]
  exact ⟨account, rfl, hmin, (), hunpopulated, (), htarget, rfl⟩

theorem toNat_ofNat_le {n : Nat} (h : n ≤ pendingConstraintsUpdateSize) : (UInt32.ofNat n).toNat = n := by
  have : pendingConstraintsUpdateSize < 2 ^ 32 := by decide
  rw [UInt32.toNat_ofNat']
  exact Nat.mod_eq_of_lt (by omega)

/-- An account that is extended can get any length up to the largest. -/
theorem extendPda_reaches (lamports : Pubkey → Nat) {f : Nat → World} {a : OwnerAction} {pda : Pubkey}
    (hi : ∀ target, A (.extendPda a pda target))
    (hexec : ∀ n m, maxCpiAccountSize ≤ n → n < m → m ≤ n + maxCpiAccountSize →
      m ≤ pendingConstraintsUpdateSize →
      extendPda (ownerCtx clock owner lamports) a pda (.ofNat m) (f n) = .ok (f m))
    (hkeep : ∀ n m p, (f n).isAllocated p → (f m).isAllocated p) {n top : Nat} (hge : maxCpiAccountSize ≤ n)
    (hle : n ≤ top) (htop : top ≤ pendingConstraintsUpdateSize) :
    Reaches (Instruction.execFunded clock owner) A ⟨f n, lamports⟩ ⟨f top, lamports⟩ := by
  refine Reaches.climb (d := maxCpiAccountSize) (f := fun n => (⟨f n, lamports⟩ : Funded)) (by decide) ?_ hge hle
  intro n m hn hlt hstep hm
  exact Instruction.reaches (i := .extendPda a pda (.ofNat m)) (hi _) (hexec n m hn hlt hstep (hm.trans htop))
    (hkeep n m)

theorem extendPda_constraints (howned : Owned w ctx owner v vault) {n m : Nat} (hge : maxCpiAccountSize ≤ n)
    (hlt : n < m) (hstep : m ≤ n + maxCpiAccountSize) (hle : m ≤ pendingConstraintsUpdateSize) :
    extendPda ctx ⟨owner, v⟩ (.constraints v) (.ofNat m) (w.setConstraints v (some { size := n, vault := v })) =
      .ok (w.setConstraints v (some { size := m, vault := v })) := by
  have hextend := extendAllocated_eq (α := InstructionConstraints) { size := n, vault := v } rfl rfl hge hlt hstep hle
  have hload : (w.setConstraints v (some { size := n, vault := v })).loadOwnedVault ctx owner v = .ok vault :=
    World.loadOwnedVault_eq_ok.mpr ⟨howned.signer, howned.found, howned.address, howned.owner⟩
  simp only [extendPda, bind_eq_ok, pure_eq_ok, toNat_ofNat_le hle, setConstraints_self]
  exact ⟨vault, hload, _, hextend, setConstraints_setConstraints _⟩

theorem extendPda_pendingConstraints (howned : Owned w ctx owner v vault) {n m : Nat} (hge : maxCpiAccountSize ≤ n)
    (hlt : n < m) (hstep : m ≤ n + maxCpiAccountSize) (hle : m ≤ pendingConstraintsUpdateSize) :
    extendPda ctx ⟨owner, v⟩ (.pendingConstraints v) (.ofNat m)
        (w.setPendingConstraints v (some { size := n, vault := v })) =
      .ok (w.setPendingConstraints v (some { size := m, vault := v })) := by
  have hextend := extendAllocated_eq (α := PendingConstraintsUpdate) { size := n, vault := v } rfl rfl hge hlt hstep
    hle
  have hload : (w.setPendingConstraints v (some { size := n, vault := v })).loadOwnedVault ctx owner v = .ok vault :=
    World.loadOwnedVault_eq_ok.mpr ⟨howned.signer, howned.found, howned.address, howned.owner⟩
  simp only [extendPda, bind_eq_ok, pure_eq_ok, toNat_ofNat_le hle, setPendingConstraints_self]
  exact ⟨vault, hload, _, hextend, setPendingConstraints_setPendingConstraints _⟩

/-! ## Instructions that are accepted -/

theorem Owned.setConstraints (h : Owned w ctx owner v vault) (account : Option (Allocated InstructionConstraints)) :
    Owned (w.setConstraints v account) ctx owner v vault := ⟨h.signer, h.found, h.address, h.owner⟩

theorem Owned.setPendingConstraints (h : Owned w ctx owner v vault)
    (account : Option (Allocated PendingConstraintsUpdate)) :
    Owned (w.setPendingConstraints v account) ctx owner v vault :=
  ⟨h.signer, h.found, h.address, h.owner⟩

theorem allocateConstraintsPda_eq (howned : Owned w ctx owner v vault) (hp : w.policies v = some policy)
    (hflag : policy.hasConstraints = false) (hnone : w.constraints v = none)
    (hzero : ctx.lamports (.constraints v) = 0) : allocateConstraintsPda ctx ⟨owner, v⟩ w =
      .ok (w.setConstraints v (some { size := maxCpiAccountSize, vault := v })) := by
  simp only [allocateConstraintsPda, bind_eq_ok, require_eq_ok, exists_and_left, exists_const, pure_eq_ok,
    World.loadOwnedVault_eq_ok, World.loadPolicy_eq_ok]
  exact ⟨vault, howned, policy, hp, hflag, ⟨by simp [hnone], hzero⟩, trivial⟩

theorem createInstructionConstraints_eq (howned : Owned w ctx owner v vault) (hp : w.policies v = some policy)
    (hvalid : InstructionConstraints.validateEntries entries = .ok ()) {account : Allocated InstructionConstraints}
    (haccount : w.constraints v = some account) (hsize : account.size = instructionConstraintsSize)
    (hcontent : account.content = none) (hvault : account.vault = v) :
    createInstructionConstraints ctx ⟨owner, v⟩ entries strictMode w =
      .ok ((w.setConstraints v (some (account.write { entries := entries, strictMode := strictMode }))).setPolicy v
        { policy with hasConstraints := true }) := by
  simp only [createInstructionConstraints, bind_eq_ok, okOr_eq_ok, require_eq_ok, exists_and_left, exists_const,
    pure_eq_ok, World.loadOwnedVault_eq_ok, World.loadPolicy_eq_ok]
  exact ⟨vault, howned, policy, hp, (), hvalid, account, haccount, hsize, (),
    checkUnpopulated_eq_ok.mpr ⟨hcontent, hvault⟩, rfl⟩

theorem cleanupOrphanConstraintsPda_eq (howned : Owned w ctx owner v vault) (hp : w.policies v = some policy)
    (hflag : policy.hasConstraints = false) {account : Allocated InstructionConstraints}
    (haccount : w.constraints v = some account) (hcontent : account.content = none) :
    cleanupOrphanConstraintsPda ctx ⟨owner, v⟩ w = .ok (w.setConstraints v none) := by
  simp only [cleanupOrphanConstraintsPda, bind_eq_ok, okOr_eq_ok, require_eq_ok, exists_and_left, exists_const,
    pure_eq_ok, World.loadOwnedVault_eq_ok, World.loadPolicy_eq_ok]
  exact ⟨vault, howned, policy, hp, hflag, account, haccount, by simp [hcontent], trivial⟩

theorem allocatePendingConstraintsPda_eq (howned : Owned w ctx owner v vault) (hp : w.policies v = some policy)
    (hflag : policy.hasConstraints) {c : InstructionConstraints} (hset : loadPopulated w v = .ok c)
    (htimelock : 0 < policy.timelockDuration) (hnone : w.pendingConstraints v = none)
    (hzero : ctx.lamports (.pendingConstraints v) = 0) :
    allocatePendingConstraintsPda ctx ⟨owner, v⟩ w =
      .ok (w.setPendingConstraints v (some { size := maxCpiAccountSize, vault := v })) := by
  simp only [allocatePendingConstraintsPda, bind_eq_ok, require_eq_ok, exists_and_left, exists_const, pure_eq_ok,
    World.loadOwnedVault_eq_ok, World.loadPolicy_eq_ok]
  exact ⟨vault, howned, policy, hp, hflag, c, hset, htimelock, ⟨by simp [hnone], hzero⟩, trivial⟩

theorem queueConstraintsUpdate_eq (howned : Owned w ctx owner v vault) (hp : w.policies v = some policy)
    {c : InstructionConstraints} (hset : loadPopulated w v = .ok c) (htimelock : 0 < policy.timelockDuration)
    (hvalid : InstructionConstraints.validateEntries entries = .ok ()) {t : Int}
    (hexecutes : executesAt ctx.clock policy = .ok t) {account : Allocated PendingConstraintsUpdate}
    (haccount : w.pendingConstraints v = some account) (hsize : account.size = pendingConstraintsUpdateSize)
    (hcontent : account.content = none) (hvault : account.vault = v) :
    queueConstraintsUpdate ctx ⟨owner, v⟩ entries strictMode w = .ok (w.setPendingConstraints v (some (account.write
      { entries := entries, strictMode := strictMode, queuedAt := ctx.clock.unixTimestamp, executesAt := t,
        queuedAtSlot := ctx.clock.slot }))) := by
  simp only [queueConstraintsUpdate, bind_eq_ok, okOr_eq_ok, require_eq_ok, exists_and_left, exists_const, pure_eq_ok,
    World.loadOwnedVault_eq_ok, World.loadPolicy_eq_ok]
  exact ⟨vault, howned, policy, hp, c, hset, htimelock, (), hvalid, account, haccount, hsize, t, hexecutes, (),
    checkUnpopulated_eq_ok.mpr ⟨hcontent, hvault⟩, rfl⟩

/-! ## Constraints in force -/

/-- Constraints are in force as they were given, and the flag of the policy says so. -/
def World.Constrained (w : World) (v : Pubkey) (entries : List ConstraintEntry) (strictMode : Bool) : Prop :=
  w.constraintSet v = some { entries := entries, strictMode := strictMode } ∧
    ∃ policy, w.policies v = some policy ∧ policy.hasConstraints

/-- The owner's instructions lead to constraints in force. -/
def SetsUp (clock : Clock) (a : OwnerAction) (entries : List ConstraintEntry) (strictMode : Bool) (s : Funded) : Prop :=
  ∃ s', Reaches (Instruction.execFunded clock a.owner) (Instruction.setsUp a) s s' ∧
    s'.world.Constrained a.vault entries strictMode

/-- Where there is no account and there are no lamports, any valid constraints can be set up. -/
theorem setsUp_of_none (hv : w.vaults v = some vault) (haddress : v = vault.address)
    (hp : w.policies v = some policy) (hflag : policy.hasConstraints = false)
    (hvalid : InstructionConstraints.validateEntries entries = .ok ()) (hnone : w.constraints v = none)
    (hzero : lamports (.constraints v) = 0) : SetsUp clock ⟨vault.owner, v⟩ entries strictMode ⟨w, lamports⟩ := by
  have howned := Owned.of_signer clock lamports hv haddress
  let full : Allocated InstructionConstraints := { size := instructionConstraintsSize, vault := v }
  have hkeep (n m : Nat) (p : Pubkey) (hp : (w.setConstraints v (some { size := n, vault := v })).isAllocated p) :
      (w.setConstraints v (some { size := m, vault := v })).isAllocated p := by
    rw [← setConstraints_setConstraints (some { size := n, vault := v })]
    exact isAllocated_setConstraints p hp
  have hallocate := Instruction.reaches (i := .allocateConstraintsPda ⟨vault.owner, v⟩)
    (A := Instruction.setsUp ⟨vault.owner, v⟩) rfl
    (allocateConstraintsPda_eq howned hp hflag hnone hzero) isAllocated_setConstraints
  have hextend := extendPda_reaches lamports (A := Instruction.setsUp ⟨vault.owner, v⟩)
    (f := fun n => w.setConstraints v (some { size := n, vault := v })) (fun _ => rfl)
    (fun n m => extendPda_constraints howned) hkeep le_rfl
    (by decide : maxCpiAccountSize ≤ instructionConstraintsSize) (by decide)
  have hpopulate := Instruction.reaches (i := .createInstructionConstraints ⟨vault.owner, v⟩ entries strictMode)
    (A := Instruction.setsUp ⟨vault.owner, v⟩) rfl
    (createInstructionConstraints_eq (howned.setConstraints (some full)) hp hvalid
      setConstraints_self rfl rfl rfl) isAllocated_setConstraints
  refine ⟨_, hallocate.trans (hextend.trans hpopulate), ?_, _, Function.update_self .., rfl⟩
  simp only [World.constraintSet, World.setPolicy, setConstraints_self, Option.bind_some, Allocated.write]

/-- An account that is in the way is closed first, and takes its lamports with it. -/
theorem setsUp_of_unpopulated (hv : w.vaults v = some vault) (haddress : v = vault.address)
    (hp : w.policies v = some policy) (hflag : policy.hasConstraints = false)
    (hvalid : InstructionConstraints.validateEntries entries = .ok ()) {account : Allocated InstructionConstraints}
    (haccount : w.constraints v = some account) (hcontent : account.content = none) :
    SetsUp clock ⟨vault.owner, v⟩ entries strictMode ⟨w, lamports⟩ := by
  have howned := Owned.of_signer clock lamports hv haddress
  have hcleanup := Instruction.execFunded_eq_ok (i := .cleanupOrphanConstraintsPda ⟨vault.owner, v⟩)
    (s := ⟨w, lamports⟩) |>.mpr ⟨_, cleanupOrphanConstraintsPda_eq howned hp hflag haccount hcontent, rfl⟩
  have hzero : (if w.isAllocated (.constraints v) ∧ ¬ (w.setConstraints v none).isAllocated (.constraints v) then 0
      else lamports (.constraints v)) = 0 :=
    if_pos ⟨by simp [World.isAllocated, haccount], by simp [World.isAllocated, setConstraints_self]⟩
  have hrest : SetsUp clock ⟨vault.owner, v⟩ entries strictMode ⟨w.setConstraints v none, fun p =>
      if w.isAllocated p ∧ ¬ (w.setConstraints v none).isAllocated p then 0 else lamports p⟩ :=
    setsUp_of_none (w := w.setConstraints v none) hv haddress hp hflag hvalid setConstraints_self hzero
  obtain ⟨s, hreaches, hset⟩ := hrest
  have hallowed : (Instruction.cleanupOrphanConstraintsPda ⟨vault.owner, v⟩).setsUp ⟨vault.owner, v⟩ := rfl
  have hfirst := Reaches.one hallowed hcleanup
  exact ⟨s, hfirst.trans hreaches, hset⟩

theorem allocateConstraintsPda_lamports {a : OwnerAction} (h : allocateConstraintsPda ctx a w = .ok w') :
    ctx.lamports (.constraints a.vault) = 0 := by
  simp only [allocateConstraintsPda, bind_eq_ok, require_eq_ok, exists_and_left, exists_const] at h
  obtain ⟨_, -, _, -, -, ⟨-, hzero⟩, -⟩ := h
  exact hzero

/-- Lamports at the empty address stay there, and no account gets there. -/
theorem execFunded_constraints (hnone : s.world.constraints v = none) (hlamports : s.lamports (.constraints v) ≠ 0)
    (h : i.execFunded clock owner s = .ok s') :
    s'.world.constraints v = none ∧ s'.lamports (.constraints v) ≠ 0 := by
  obtain ⟨w', hexec, rfl⟩ := Instruction.execFunded_eq_ok.mp h
  have hkept : w'.constraints v = none := by
    rcases i.configStep hexec v with heq | hchange
    · exact (congrArg Config.constraints heq).trans hnone
    · have hbefore : (s.world.config v).constraints = none := hnone
      generalize hc : w'.config v = c at hchange
      refine (congrArg Config.constraints hc).trans ?_
      cases hchange with
      | allocated a hv => exact absurd (hv ▸ allocateConstraintsPda_lamports hexec) hlamports
      | extended a pda target hconstraints => cases hbefore.symm.trans hconstraints
      | populated a entries strictMode hv hlive hpolicy hconstraints => cases hbefore.symm.trans hconstraints
      | rewritten a set hv hpolicy hconstraints => cases hbefore.symm.trans hconstraints
      | cleaned a hv hconstraints => rfl
      | cleared a closesPending hv hpolicy => rfl
      | _ => exact hbefore
  refine ⟨hkept, ?_⟩
  have hempty : s.world.isAllocated (.constraints v) = false := by simp [World.isAllocated, hnone]
  simpa [hempty] using hlamports

theorem setsUp_iff (hrun : run Step.exec steps {} = .ok w) (hv : w.vaults v = some vault)
    (hp : w.policies v = some policy) (hflag : policy.hasConstraints = false)
    (hvalid : InstructionConstraints.validateEntries entries = .ok ()) (clock : Clock) (lamports : Pubkey → Nat)
    (strictMode : Bool) : SetsUp clock ⟨vault.owner, v⟩ entries strictMode ⟨w, lamports⟩ ↔
      (w.constraints v).isSome ∨ lamports (.constraints v) = 0 := by
  have haddress := run_vaults_address (by rintro _ _ ⟨⟩) hrun v vault hv
  constructor
  · rintro ⟨s, hreaches, hset, -⟩
    by_contra hnot
    push Not at hnot
    obtain ⟨hnone, hlamports⟩ := hnot
    have hkept := hreaches.invariant (P := fun s => s.world.constraints v = none ∧ s.lamports (.constraints v) ≠ 0)
      ⟨by simpa using hnone, hlamports⟩ fun i s₁ s₂ _ h hi => execFunded_constraints h.1 h.2 hi
    simp [World.constraintSet, hkept.1] at hset
  · intro h
    cases haccount : w.constraints v with
    | none =>
        have hzero := h.resolve_left (by simp [haccount])
        exact setsUp_of_none hv haddress hp hflag hvalid haccount hzero
    | some account =>
        have hunset := ((constraintsInv_run hrun v).flag policy hp).not.mp (by simp [hflag])
        have hcontent : account.content = none := by simpa [World.config, haccount] using hunset
        exact setsUp_of_unpopulated hv haddress hp hflag hvalid haccount hcontent

/-! ## A queued update -/

/-- An update is queued as it was given. -/
def World.Queued (w : World) (v : Pubkey) (entries : List ConstraintEntry) (strictMode : Bool) : Prop :=
  ∃ pending, w.queuedConstraints v = some pending ∧ pending.entries = entries ∧ pending.strictMode = strictMode

/-- The owner's instructions lead to a queued update. -/
def Queues (clock : Clock) (a : OwnerAction) (entries : List ConstraintEntry) (strictMode : Bool) (s : Funded) : Prop :=
  ∃ s', Reaches (Instruction.execFunded clock a.owner) (Instruction.queuesConstraints a) s s' ∧
    s'.world.Queued a.vault entries strictMode

/-- An account that is there can be extended and populated. -/
theorem queues_of_unpopulated (hv : w.vaults v = some vault) (haddress : v = vault.address)
    (hp : w.policies v = some policy) {c : InstructionConstraints} (hset : loadPopulated w v = .ok c)
    (htimelock : 0 < policy.timelockDuration) (hvalid : InstructionConstraints.validateEntries entries = .ok ())
    {t : Int} (hexecutes : executesAt clock policy = .ok t) {n : Nat} (hge : maxCpiAccountSize ≤ n)
    (hle : n ≤ pendingConstraintsUpdateSize) :
    Queues clock ⟨vault.owner, v⟩ entries strictMode
      ⟨w.setPendingConstraints v (some { size := n, vault := v }), lamports⟩ := by
  have howned := Owned.of_signer clock lamports hv haddress
  let full : Allocated PendingConstraintsUpdate := { size := pendingConstraintsUpdateSize, vault := v }
  have hkeep (n m : Nat) (p : Pubkey)
      (hp : (w.setPendingConstraints v (some { size := n, vault := v })).isAllocated p) :
      (w.setPendingConstraints v (some { size := m, vault := v })).isAllocated p := by
    rw [← setPendingConstraints_setPendingConstraints (some { size := n, vault := v })]
    exact isAllocated_setPendingConstraints p hp
  have hextend := extendPda_reaches lamports (A := Instruction.queuesConstraints ⟨vault.owner, v⟩)
    (f := fun n => w.setPendingConstraints v (some { size := n, vault := v })) (fun _ => rfl)
    (fun n m => extendPda_pendingConstraints howned) hkeep hge hle le_rfl
  have hqueue := Instruction.reaches (i := .queueConstraintsUpdate ⟨vault.owner, v⟩ entries strictMode)
    (A := Instruction.queuesConstraints ⟨vault.owner, v⟩) rfl
    (queueConstraintsUpdate_eq (howned.setPendingConstraints (some full)) hp hset
      htimelock hvalid hexecutes setPendingConstraints_self rfl rfl rfl) isAllocated_setPendingConstraints
  let pending : PendingConstraintsUpdate :=
    { entries := entries, strictMode := strictMode, queuedAt := clock.unixTimestamp, executesAt := t,
      queuedAtSlot := clock.slot }
  refine ⟨_, hextend.trans hqueue, pending, ?_, rfl, rfl⟩
  simp only [World.queuedConstraints, setPendingConstraints_self, Option.bind_some, Allocated.write, ownerCtx, pending]

theorem executesAt_eq_ok (htimelock : 0 < policy.timelockDuration) : (∃ t, executesAt clock policy = .ok t) ↔
    i64Min ≤ clock.unixTimestamp + asI64 policy.timelockDuration ∧
      clock.unixTimestamp + asI64 policy.timelockDuration ≤ i64Max := by
  simp only [executesAt, bind_eq_ok, okOr_eq_ok, checkedAddI64_eq_some, require_eq_ok, exists_and_left, exists_const,
    exists_eq, and_true]
  exact ⟨fun h => h.2, fun h => ⟨htimelock, h⟩⟩

theorem queueConstraintsUpdate_executes {a : OwnerAction}
    (h : queueConstraintsUpdate ctx a entries strictMode w = .ok w') :
    ∃ policy, w.policies a.vault = some policy ∧ ∃ t, executesAt ctx.clock policy = .ok t := by
  simp only [queueConstraintsUpdate, bind_eq_ok, World.loadPolicy_eq_ok] at h
  obtain ⟨_, -, policy, hp, _, -, _, -, _, -, _, -, _, -, t, ht, -⟩ := h
  exact ⟨policy, hp, t, ht⟩

theorem allocatePendingConstraintsPda_lamports {a : OwnerAction} (h : allocatePendingConstraintsPda ctx a w = .ok w') :
    ctx.lamports (.pendingConstraints a.vault) = 0 := by
  simp only [allocatePendingConstraintsPda, bind_eq_ok, require_eq_ok, exists_and_left, exists_const] at h
  obtain ⟨_, -, _, -, -, _, -, -, ⟨-, hzero⟩, -⟩ := h
  exact hzero

/-- The policy is none of what these instructions write. -/
theorem Instruction.queuesConstraints_policies {a : OwnerAction} (hi : i.queuesConstraints a)
    (h : i.exec ctx w = .ok w') :
    w'.policies = w.policies := by
  cases i with
  | allocatePendingConstraintsPda b =>
      obtain ⟨-, rfl⟩ := allocatePendingConstraintsPda_ok h
      rfl
  | extendPda b pda target => rcases extendPda_ok h with ⟨_, _, -, -, -, rfl⟩ | ⟨_, _, -, -, -, rfl⟩ <;> rfl
  | queueConstraintsUpdate b entries strictMode =>
      obtain ⟨_, _, _, -, -, -, -, -, rfl⟩ := queueConstraintsUpdate_ok h
      rfl
  | _ => cases hi

/-- Lamports at the empty address stay there, and no account gets there. -/
theorem execFunded_pendingConstraints (hnone : s.world.pendingConstraints v = none)
    (hlamports : s.lamports (.pendingConstraints v) ≠ 0) (h : i.execFunded clock owner s = .ok s') :
    s'.world.pendingConstraints v = none ∧ s'.lamports (.pendingConstraints v) ≠ 0 := by
  obtain ⟨w', hexec, rfl⟩ := Instruction.execFunded_eq_ok.mp h
  have hkept : w'.pendingConstraints v = none := by
    rcases i.pendingStep hexec v with heq | hchange
    · exact heq.trans hnone
    · generalize w'.pendingConstraints v = account at hchange
      cases hchange with
      | allocated a hv => exact absurd (hv ▸ allocatePendingConstraintsPda_lamports hexec) hlamports
      | extended a pda target haccount => cases hnone.symm.trans haccount
      | queued a entries strictMode pending hv haccount => cases hnone.symm.trans haccount
      | applied a hv => rfl
      | cancelled a hv => rfl
      | cleared a hv => rfl
  refine ⟨hkept, ?_⟩
  have hempty : s.world.isAllocated (.pendingConstraints v) = false := by simp [World.isAllocated, hnone]
  simpa [hempty] using hlamports

/-- What it takes to queue an update. -/
theorem execFunded_queued (hqueued : s.world.queuedConstraints v = none) (h : i.execFunded clock owner s = .ok s')
    {pending : PendingConstraintsUpdate} (hpending : s'.world.queuedConstraints v = some pending) :
    (s.world.pendingConstraints v).isSome ∧
      ∃ policy, s.world.policies v = some policy ∧ ∃ t, executesAt clock policy = .ok t := by
  obtain ⟨w', hexec, rfl⟩ := Instruction.execFunded_eq_ok.mp h
  rcases i.pendingStep hexec v with heq | hchange
  · rw [World.queuedConstraints, heq, ← World.queuedConstraints, hqueued] at hpending
    cases hpending
  · rw [World.queuedConstraints] at hpending
    generalize w'.pendingConstraints v = account at hchange hpending
    cases hchange with
    | queued a entries strictMode _ hv haccount =>
        exact ⟨by simp [haccount], hv ▸ queueConstraintsUpdate_executes hexec⟩
    | extended a pda target haccount hcontent => simp [hcontent] at hpending
    | allocated a hv hpolicy hnone => cases hpending
    | applied a hv => cases hpending
    | cancelled a hv => cases hpending
    | cleared a hv => cases hpending

/-- A vault whose updates cannot be queued. -/
structure UpdateBlocked (clock : Clock) (v : Pubkey) (policy : PolicyConfig) (s : Funded) : Prop where
  found : s.world.policies v = some policy
  unqueued : s.world.queuedConstraints v = none
  cause : (s.world.pendingConstraints v = none ∧ s.lamports (.pendingConstraints v) ≠ 0) ∨
    ¬ ∃ t, executesAt clock policy = .ok t

theorem UpdateBlocked.execFunded {a : OwnerAction} (hs : UpdateBlocked clock v policy s) (hi : i.queuesConstraints a)
    (h : i.execFunded clock owner s = .ok s') : UpdateBlocked clock v policy s' where
  found := by
    obtain ⟨w', hexec, rfl⟩ := Instruction.execFunded_eq_ok.mp h
    exact (congrFun (i.queuesConstraints_policies hi hexec) v).trans hs.found
  unqueued := by
    cases hpending : s'.world.queuedConstraints v with
    | none => rfl
    | some pending =>
        obtain ⟨haccount, policy', hpolicy, hexecutes⟩ := execFunded_queued hs.unqueued h hpending
        cases hs.found.symm.trans hpolicy
        rcases hs.cause with ⟨hnone, -⟩ | hnot
        · simp [hnone] at haccount
        · exact absurd hexecutes hnot
  cause := hs.cause.imp_left fun ⟨hnone, hlamports⟩ => execFunded_pendingConstraints hnone hlamports h

theorem queues_iff (hrun : run Step.exec steps {} = .ok w) (hv : w.vaults v = some vault)
    (hp : w.policies v = some policy) (hflag : policy.hasConstraints) (hqueued : w.queuedConstraints v = none)
    (hvalid : InstructionConstraints.validateEntries entries = .ok ()) (clock : Clock) (lamports : Pubkey → Nat)
    (strictMode : Bool) : Queues clock ⟨vault.owner, v⟩ entries strictMode ⟨w, lamports⟩ ↔
      ((w.pendingConstraints v).isSome ∨ lamports (.pendingConstraints v) = 0) ∧
        ∃ t, executesAt clock policy = .ok t := by
  have haddress := run_vaults_address (by rintro _ _ ⟨⟩) hrun v vault hv
  have htimelock : 0 < policy.timelockDuration :=
    lt_of_lt_of_le (by decide : 0 < minTimelockDuration) ((policyInv_run hrun v).wellFormed policy hp).timelock
  constructor
  · rintro ⟨s, hreaches, pending, hpending, -⟩
    by_contra hnot
    have hcause : (w.pendingConstraints v = none ∧ lamports (.pendingConstraints v) ≠ 0) ∨
        ¬ ∃ t, executesAt clock policy = .ok t := by
      by_cases hexecutes : ∃ t, executesAt clock policy = .ok t
      · have hneither := not_or.mp fun haccount => hnot ⟨haccount, hexecutes⟩
        exact .inl ⟨Option.not_isSome_iff_eq_none.mp hneither.1, hneither.2⟩
      · exact .inr hexecutes
    have hblocked := hreaches.invariant (P := UpdateBlocked clock v policy) ⟨hp, hqueued, hcause⟩
      fun i s₁ s₂ hi hs h => hs.execFunded hi h
    cases hblocked.unqueued.symm.trans hpending
  · rintro ⟨haccount, t, hexecutes⟩
    obtain ⟨account, c, hconstraints, hcontent, hsize, hvault⟩ := (hasConstraints_iff hrun hp).mp hflag
    have hset : loadPopulated w v = .ok c :=
      loadAllocated_eq_ok.mpr ⟨account, hconstraints, hcontent, hsize.ge, hvault⟩
    cases hpending : w.pendingConstraints v with
    | none =>
        have howned := Owned.of_signer clock lamports hv haddress
        have hzero := haccount.resolve_left (by simp [hpending])
        have hallocate := Instruction.reaches (i := .allocatePendingConstraintsPda ⟨vault.owner, v⟩)
          (A := Instruction.queuesConstraints ⟨vault.owner, v⟩) rfl
          (allocatePendingConstraintsPda_eq howned hp hflag hset htimelock hpending hzero)
          isAllocated_setPendingConstraints
        have hallocated : Queues clock ⟨vault.owner, v⟩ entries strictMode
            ⟨w.setPendingConstraints v (some { size := maxCpiAccountSize, vault := v }), lamports⟩ :=
          queues_of_unpopulated hv haddress hp hset htimelock hvalid hexecutes le_rfl
            (by decide : maxCpiAccountSize ≤ pendingConstraintsUpdateSize)
        obtain ⟨s, hreaches, hdone⟩ := hallocated
        exact ⟨s, hallocate.trans hreaches, hdone⟩
    | some account =>
        have hinv := pendingAccountInv_run hrun hpending
        have hcontent : account.content = none := by simpa [World.queuedConstraints, hpending] using hqueued
        have hsame : w.setPendingConstraints v (some { size := account.size, vault := v }) = w := by
          have heq : account = { size := account.size, vault := v } := by rw [← hinv.vault, ← hcontent]
          rw [← heq, ← hpending, World.setPendingConstraints, Function.update_eq_self]
        have hreached : Queues clock ⟨vault.owner, v⟩ entries strictMode
            ⟨w.setPendingConstraints v (some { size := account.size, vault := v }), lamports⟩ :=
          queues_of_unpopulated hv haddress hp hset htimelock hvalid hexecutes hinv.size_ge hinv.size_le
        rwa [hsame] at hreached

/-- Setting up constraints is possible for all valid entries unless somebody has sent lamports to the address before
there was an account. The same holds of an update, for which there has to be time as well. -/
theorem constraints_never_wedged_iff (hrun : run Step.exec steps {} = .ok w) (hv : w.vaults v = some vault)
    (hp : w.policies v = some policy) (clock : Clock) (lamports : Pubkey → Nat) {entries : List ConstraintEntry}
    (hvalid : InstructionConstraints.validateEntries entries = .ok ()) (strictMode : Bool) :
    (policy.hasConstraints = false → (SetsUp clock ⟨vault.owner, v⟩ entries strictMode ⟨w, lamports⟩ ↔
      (w.constraints v).isSome ∨ lamports (.constraints v) = 0)) ∧
    (policy.hasConstraints → w.queuedConstraints v = none →
      (Queues clock ⟨vault.owner, v⟩ entries strictMode ⟨w, lamports⟩ ↔
        ((w.pendingConstraints v).isSome ∨ lamports (.pendingConstraints v) = 0) ∧
          i64Min ≤ clock.unixTimestamp + asI64 policy.timelockDuration ∧
          clock.unixTimestamp + asI64 policy.timelockDuration ≤ i64Max)) := by
  have htimelock : 0 < policy.timelockDuration :=
    lt_of_lt_of_le (by decide : 0 < minTimelockDuration) ((policyInv_run hrun v).wellFormed policy hp).timelock
  refine ⟨fun hflag => setsUp_iff hrun hv hp hflag hvalid clock lamports strictMode, fun hflag hqueued => ?_⟩
  rw [queues_iff hrun hv hp hflag hqueued hvalid, executesAt_eq_ok htimelock]

end

/-! ### Lamports at the addresses of the first vault's accounts -/

theorem constraints_wedged :
    (∃ w policy, run Step.exec (payRun.take 3) {} = .ok w ∧ w.policies payVault.vault = some policy ∧
      policy.hasConstraints = false ∧ InstructionConstraints.validateEntries [flashEntry] = .ok () ∧
      ¬ SetsUp payClock payAction [flashEntry] true ⟨w, fun _ => 1000000⟩) ∧
    ∃ w policy, run Step.exec constrainRun {} = .ok w ∧ w.policies payVault.vault = some policy ∧
      policy.hasConstraints ∧ w.queuedConstraints payVault.vault = none ∧
      ¬ Queues payClock payAction [flashEntry] true ⟨w, fun _ => 1000000⟩ := by
  have hvalid : InstructionConstraints.validateEntries [flashEntry] = .ok () := rfl
  refine ⟨?_, ?_⟩
  · obtain ⟨w, vault, policy, hrun, hv, howner, hp, hflag, hnone⟩ : ∃ w vault policy,
        run Step.exec (payRun.take 3) {} = .ok w ∧ w.vaults payVault.vault = some vault ∧ vault.owner = .key 1 ∧
        w.policies payVault.vault = some policy ∧ policy.hasConstraints = false ∧
        w.constraints payVault.vault = none :=
      ⟨_, _, _, rfl, rfl, rfl, rfl, rfl, rfl⟩
    refine ⟨w, policy, hrun, hp, hflag, hvalid, ?_⟩
    have hiff := setsUp_iff hrun hv hp hflag hvalid payClock (fun _ => 1000000) true
    rw [howner] at hiff
    exact hiff.not.mpr (by simp [hnone])
  · obtain ⟨w, vault, policy, hrun, hv, howner, hp, hflag, hqueued, hnone⟩ : ∃ w vault policy,
        run Step.exec constrainRun {} = .ok w ∧ w.vaults payVault.vault = some vault ∧ vault.owner = .key 1 ∧
        w.policies payVault.vault = some policy ∧ policy.hasConstraints ∧
        w.queuedConstraints payVault.vault = none ∧ w.pendingConstraints payVault.vault = none :=
      ⟨_, _, _, rfl, rfl, rfl, rfl, rfl, rfl, rfl⟩
    refine ⟨w, policy, hrun, hp, hflag, hqueued, ?_⟩
    have hiff := queues_iff hrun hv hp hflag hqueued hvalid payClock (fun _ => 1000000) true
    rw [howner] at hiff
    exact hiff.not.mpr (by simp [hnone])

theorem constraints_never_wedged_flash : ∃ w policy, run Step.exec (payRun.take 3) {} = .ok w ∧
    w.policies payVault.vault = some policy ∧ policy.hasConstraints = false ∧
    SetsUp payClock payAction [flashEntry] true ⟨w, fun _ => 0⟩ := by
  obtain ⟨w, vault, policy, hrun, hv, howner, hp, hflag⟩ : ∃ w vault policy,
      run Step.exec (payRun.take 3) {} = .ok w ∧ w.vaults payVault.vault = some vault ∧ vault.owner = .key 1 ∧
      w.policies payVault.vault = some policy ∧ policy.hasConstraints = false :=
    ⟨_, _, _, rfl, rfl, rfl, rfl, rfl⟩
  have hvalid : InstructionConstraints.validateEntries [flashEntry] = .ok () := rfl
  have hiff := (constraints_never_wedged_iff hrun hv hp payClock (fun _ => 0) hvalid true).1 hflag
  rw [howner] at hiff
  exact ⟨w, policy, hrun, hp, hflag, hiff.mpr (.inr rfl)⟩

end Sigil
