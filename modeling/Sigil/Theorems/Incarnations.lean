import Sigil.Lemmas.Pending
import Sigil.Lemmas.Timelock
import Sigil.Theorems.Constraints

/-!
# What a closed vault leaves behind

A vault that is closed can be created again under the same owner and id, and finds every account of its predecessor
that was not closed with it. Likewise a new set of constraints finds the update that was queued for the old one.
-/

namespace Sigil

open Library

/-- Accounts that lie beside a vault and are opened and closed by instructions of their own. -/
inductive Auxiliary where
  | pendingConstraints | pendingCloseConstraints | postAssertions
  | pendingAgentPerms (agent : Pubkey)
  deriving DecidableEq, Repr

def World.holds (w : World) (v : Pubkey) : Auxiliary → Bool
  | .pendingConstraints => (w.pendingConstraints v).isSome
  | .pendingCloseConstraints => (w.pendingCloseConstraints v).isSome
  | .postAssertions => (w.postAssertions v).isSome
  | .pendingAgentPerms agent => (w.pendingAgentPerms (.pendingAgentPerms v agent)).isSome

def Bare (w : World) (v : Pubkey) : Prop := ∀ x, w.holds v x = false

/-- The vault that a step creates. -/
def Step.opens (st : Step) : Option Pubkey :=
  match st.instruction.call with
  | .sigil (.initializeVault a) => some a.vault
  | _ => none

/-- The vault that a step gives a set of constraints. -/
def Step.constrains (st : Step) : Option Pubkey :=
  match st.instruction.call with
  | .sigil (.createInstructionConstraints a _ _) => some a.vault
  | _ => none

/-- One of the steps made the account. -/
def MadeIn (steps : List Step) (w : World) (v : Pubkey) (x : Auxiliary) : Prop :=
  ∃ before st after w₁ w₂, steps = before ++ st :: after ∧ run Step.exec before w = .ok w₁ ∧ st.exec w₁ = .ok w₂ ∧
    w₁.holds v x = false ∧ w₂.holds v x

/-- One of the steps queued the update, while a set of constraints was in place, and no set came after it. -/
def QueuedUnder (steps : List Step) (v : Pubkey) (pending : PendingConstraintsUpdate) : Prop :=
  ∃ before st after w w' a entries strictMode, steps = before ++ st :: after ∧ run Step.exec before {} = .ok w ∧
    st.exec w = .ok w' ∧ st.instruction.call = .sigil (.queueConstraintsUpdate a entries strictMode) ∧ a.vault = v ∧
    w'.queuedConstraints v = some pending ∧ (w.constraintSet v).isSome ∧ ∀ s ∈ after, s.constrains ≠ some v

/-- A closing after which nothing of the vault is there: the assertions and a pending constraints update are closed
before, the other updates are passed, and those for agents are for agents that are still registered. -/
structure CloseVault.LeavesNothing (a : CloseVault) (w : World) : Prop where
  postAssertions : w.postAssertions a.vault = none
  pendingConstraints : w.pendingConstraints a.vault = none
  pendingCloseConstraints : (w.pendingCloseConstraints a.vault).isSome → a.closesPendingCloseConstraints
  pendingAgentPerms : ∀ agent, (w.pendingAgentPerms (.pendingAgentPerms a.vault agent)).isSome →
    agent ∈ a.closesPendingAgentPerms ∧ ∃ vault, w.vaults a.vault = some vault ∧ vault.isAgent agent

/-- Vaults that the run creates again are closed cleanly. -/
def ClosesCleanly (steps : List Step) : Prop :=
  ∀ before st after w a, steps = before ++ st :: after → run Step.exec before {} = .ok w →
    st.instruction.call = .sigil (.closeVault a) → (∃ s ∈ after, s.opens = some a.vault) → a.LeavesNothing w

/-- A set of constraints is created only where no update is queued. -/
def ConstrainsFreshly (steps : List Step) : Prop :=
  Always Step.exec (fun st w _ => ∀ v ∈ st.constrains, (w.queuedConstraints v).isNone) steps {}

section
variable {w w' w₁ w₂ : World} {st : Step} {v : Pubkey} {x : Auxiliary} {steps before after : List Step}

/-! ## Accounts of a vault that is not there -/

theorem pendingTimes_policy {u : Update} {t : UpdateTimes} (hexec : st.exec w = .ok w')
    (hnone : w.pendingTimes u = none) (h : w'.pendingTimes u = some t) :
    ∃ i v policy, st.instruction.call = .sigil i ∧ i.queues = some (u, v) ∧ w.policies v = some policy := by
  rcases Step.exec_cases hexec with ⟨i, hcall, -, -, hi⟩ | ⟨_, -, -, _, -, rfl, -⟩
  · rcases i.pendingTimes_cases st.signers_isKey hi h with ⟨hsome, -⟩ | ⟨v, policy, hqueue, hp, -⟩
    · cases hnone.symm.trans hsome
    · exact ⟨i, v, policy, hcall, hqueue, hp⟩
  · cases hnone.symm.trans h

/-- The address of a queued permission names its vault. -/
theorem queues_vault {i : Instruction} {agent y : Pubkey}
    (h : i.queues = some (.agentPermissions (.pendingAgentPerms v agent), y)) : y = v := by
  cases i <;> simp only [Instruction.queues, Option.some.injEq, Prod.mk.injEq, Update.agentPermissions.injEq,
    Pubkey.pendingAgentPerms.injEq, reduceCtorEq, false_and] at h
  obtain ⟨⟨rfl, -⟩, rfl⟩ := h
  rfl

/-- Each of the accounts is made for a vault that is there. -/
theorem Step.makes_policy (hexec : st.exec w = .ok w') (hnot : w.holds v x = false) (h : w'.holds v x) :
    ∃ policy, w.policies v = some policy := by
  cases x with
  | pendingConstraints =>
      simp only [World.holds, Option.isSome_eq_false_iff, Option.isNone_iff_eq_none] at hnot
      rcases Step.pendingChange hexec v with heq | ⟨i, -, -, hchange⟩
      · simp [World.holds, heq, hnot] at h
      · simp only [World.holds] at h
        generalize w'.pendingConstraints v = o at h hchange
        cases hchange with
        | allocated a hv hpolicy hnone => exact ⟨_, hpolicy⟩
        | extended a pda target haccount hcontent hlt hle => cases hnot.symm.trans haccount
        | queued a entries strictMode pending hv haccount hsize => cases hnot.symm.trans haccount
        | applied a hv => cases h
        | cancelled a hv => cases h
        | cleared a hv => cases h
  | pendingCloseConstraints =>
      obtain ⟨p, hp⟩ := Option.isSome_iff_exists.mp h
      simp only [World.holds, Option.isSome_eq_false_iff, Option.isNone_iff_eq_none] at hnot
      obtain ⟨i, y, policy, -, hqueue, hpolicy⟩ := pendingTimes_policy (u := .closeConstraints v) hexec
        (by simp [World.pendingTimes, hnot]) (by simp only [World.pendingTimes, hp, Option.map_some]; rfl)
      cases i <;> simp only [Instruction.queues, Option.some.injEq, Prod.mk.injEq, Update.closeConstraints.injEq,
        reduceCtorEq, false_and] at hqueue
      obtain ⟨rfl, rfl⟩ := hqueue
      exact ⟨policy, hpolicy⟩
  | postAssertions =>
      simp only [World.holds, Option.isSome_eq_false_iff, Option.isNone_iff_eq_none] at hnot
      rcases Step.configChange hexec v with heq | ⟨i, -, -, hchange⟩
      · have hsame : w'.postAssertions v = w.postAssertions v := congrArg Config.assertions heq
        simp [World.holds, hsame, hnot] at h
      · have hbefore : (w.config v).assertions = none := hnot
        have hafter : (w'.config v).assertions.isSome := h
        generalize w'.config v = c at hchange hafter
        cases hchange with
        | asserted a entries hv hpolicy => exact ⟨_, hpolicy⟩
        | unasserted a hv hpolicy => cases hafter
        | _ => simp [hbefore] at hafter
  | pendingAgentPerms agent =>
      obtain ⟨p, hp⟩ := Option.isSome_iff_exists.mp h
      simp only [World.holds, Option.isSome_eq_false_iff, Option.isNone_iff_eq_none] at hnot
      obtain ⟨i, y, policy, -, hqueue, hpolicy⟩ :=
        pendingTimes_policy (u := .agentPermissions (.pendingAgentPerms v agent)) hexec
          (by simp [World.pendingTimes, hnot]) (by simp only [World.pendingTimes, hp, Option.map_some]; rfl)
      obtain rfl := queues_vault hqueue
      exact ⟨policy, hpolicy⟩

theorem Bare.step (h : Bare w v) (hdead : w.policies v = none) (hexec : st.exec w = .ok w') : Bare w' v := by
  intro x
  by_contra hx
  obtain ⟨policy, hp⟩ := Step.makes_policy hexec (h x) (by simpa using hx)
  cases hdead.symm.trans hp

/-! ## Closing a vault -/

/-- A vault disappears by being closed. -/
theorem Step.closes {policy : PolicyConfig} (hexec : st.exec w = .ok w') (hp : w.policies v = some policy)
    (hdead : w'.policies v = none) :
    ∃ a, st.instruction.call = .sigil (.closeVault a) ∧ a.vault = v ∧ closeVault st.ctx a w = .ok w' := by
  have hbefore : (w.config v).policy = some policy := hp
  have hafter : (w'.config v).policy = none := hdead
  rcases Step.configChange hexec v with heq | ⟨i, hcall, hi, hchange⟩
  · rw [heq, hbefore] at hafter
    cases hafter
  · generalize w'.config v = c at hchange hafter
    cases hchange with
    | closed a hv hpolicy hconstraints => exact ⟨a, hcall, hv, hi⟩
    | _ => simp [hbefore] at hafter

theorem CloseVault.LeavesNothing.bare {a : CloseVault} (h : a.LeavesNothing w) {ctx : Ctx}
    (hclose : Sigil.closeVault ctx a w = .ok w') : Bare w' a.vault := by
  obtain ⟨vault, policy, hclosable, rfl⟩ := closeVault_ok hclose
  intro x
  cases x with
  | pendingConstraints => simp [World.holds, World.withoutVault, h.pendingConstraints]
  | postAssertions => simp [World.holds, World.withoutVault, h.postAssertions]
  | pendingCloseConstraints =>
      simp only [World.holds, World.withoutVault]
      split
      · simp
      · rename_i hnot
        simpa using fun hsome => hnot (h.pendingCloseConstraints (Option.isSome_iff_ne_none.mpr hsome))
  | pendingAgentPerms agent =>
      simp only [World.holds, World.withoutVault]
      split
      · rfl
      · rename_i hnot
        by_contra hsome
        have hpending := Option.isSome_iff_ne_none.mpr (by simpa using hsome)
        obtain ⟨hmem, vault', hv, hagent⟩ := h.pendingAgentPerms agent hpending
        cases hclosable.owned.found.symm.trans hv
        exact hnot (List.any_eq_true.mpr ⟨agent, hmem, by simp [hagent]⟩)

/-- A vault that is not there and that the rest of the run creates has left nothing behind. -/
theorem bare_of_dead (hclean : ClosesCleanly steps) (hrun : run Step.exec before {} = .ok w)
    (hsplit : steps = before ++ after) (hdead : w.policies v = none) (hopens : ∃ s ∈ after, s.opens = some v) :
    Bare w v := by
  refine run_history (P := fun before w => ∀ after, steps = before ++ after → w.policies v = none →
    (∃ s ∈ after, s.opens = some v) → Bare w v) ?_ ?_ hrun after hsplit hdead hopens
  · intro _ _ _ _ x
    cases x <;> rfl
  · intro before st _ w₁ w₂ _ hrun₁ ih hexec after hsplit hdead hopens
    have hsplit' : steps = before ++ st :: after := by simp [hsplit]
    cases hp : w₁.policies v with
    | none =>
        obtain ⟨s, hs, hv⟩ := hopens
        exact (ih (st :: after) hsplit' hp ⟨s, List.mem_cons_of_mem _ hs, hv⟩).step hp hexec
    | some policy =>
        obtain ⟨a, hcall, rfl, hclose⟩ := Step.closes hexec hp hdead
        exact (hclean before st after w₁ a hsplit' hrun₁ hcall hopens).bare hclose

/-- A vault starts with none of the accounts, so that each of them is made for the vault itself. -/
theorem madeIn_of_holds {a : InitializeVault} (hclean : ClosesCleanly steps) (hsplit : steps = before ++ st :: after)
    (hcall : st.instruction.call = .sigil (.initializeVault a)) (hrun : run Step.exec before {} = .ok w)
    (hexec : st.exec w = .ok w₁) {mid : List Step} (hmid : run Step.exec mid w₁ = .ok w₂) (hx : w₂.holds a.vault x) :
    MadeIn mid w₁ a.vault x := by
  have hdead : w.policies a.vault = none := by
    rcases Step.exec_cases hexec with ⟨i, hi, -, -, hinit⟩ | ⟨_, hi, -⟩
    · cases hcall.symm.trans hi
      exact (initializeVault_ok hinit).1.2.1
    · cases hcall.symm.trans hi
  have hopens : st.opens = some a.vault := by simp [Step.opens, hcall]
  have hbare := (bare_of_dead hclean hrun hsplit hdead ⟨st, List.mem_cons_self .., hopens⟩).step hdead hexec
  obtain ⟨m₁, s, m₂, u, u', hmid', hrun', hs, hnot, hmade⟩ := exists_step_of_run (P := fun w => w.holds a.vault x) hmid
    (by simp [hbare x]) hx
  exact ⟨m₁, s, m₂, u, u', hmid', hrun', hs, by simpa using hnot, hmade⟩

/-! ## Updates of the constraints -/

theorem queueConstraintsUpdate_set {ctx : Ctx} {a : OwnerAction} {entries : List ConstraintEntry} {strictMode : Bool}
    (h : queueConstraintsUpdate ctx a entries strictMode w = .ok w') : (w.constraintSet a.vault).isSome := by
  simp only [queueConstraintsUpdate, bind_eq_ok] at h
  obtain ⟨_, -, _, -, c, hc, -⟩ := h
  rw [loadPopulated_ok hc]
  rfl

theorem QueuedUnder.concat {pending : PendingConstraintsUpdate} (h : QueuedUnder before v pending)
    (hst : st.constrains ≠ some v) : QueuedUnder (before ++ [st]) v pending := by
  obtain ⟨b, q, c, w, w', a, entries, strictMode, rfl, hrun, hexec, hcall, hv, hqueued, hset, hafter⟩ := h
  refine ⟨b, q, c ++ [st], w, w', a, entries, strictMode, by simp, hrun, hexec, hcall, hv, hqueued, hset, ?_⟩
  intro s hs
  rcases List.mem_append.mp hs with hs | hs
  · exact hafter s hs
  · obtain rfl := List.mem_singleton.mp hs
    exact hst

/-- What is queued was queued for the set that is in place. -/
theorem queuedUnder_run {pending : PendingConstraintsUpdate} (hfresh : ConstrainsFreshly steps)
    (hsplit : steps = before ++ after) (hrun : run Step.exec before {} = .ok w)
    (hpending : w.queuedConstraints v = some pending) : QueuedUnder before v pending := by
  refine run_history (P := fun before w => ∀ after, steps = before ++ after → ∀ pending,
    w.queuedConstraints v = some pending → QueuedUnder before v pending) ?_ ?_ hrun after hsplit pending hpending
  · intro _ _ _ h
    cases h
  · intro before st _ w₁ w₂ _ hrun₁ ih hexec after hsplit pending hpending
    have hsplit' : steps = before ++ st :: after := by simp [hsplit]
    rcases Step.pendingChange hexec v with heq | ⟨i, hcall, hi, hchange⟩
    · rw [World.queuedConstraints, heq] at hpending
      refine (ih (st :: after) hsplit' pending hpending).concat fun hconstrains => ?_
      -- a set that is created now would have found the update
      have hnone := always_iff.mp hfresh before st after w₁ w₂ hsplit' hrun₁ hexec v hconstrains
      simp [World.queuedConstraints, hpending] at hnone
    · have hbind : (w₂.pendingConstraints v).bind Allocated.content = some pending := hpending
      generalize ho : w₂.pendingConstraints v = o at hchange hbind
      cases hchange with
      | allocated a hv hpolicy hnone => cases hbind
      | extended a pda target haccount hcontent hlt hle =>
          rw [Option.bind_some, hcontent] at hbind
          cases hbind
      | queued a entries strictMode pending' hv haccount hsize =>
          exact ⟨before, st, [], w₁, w₂, a, entries, strictMode, rfl, hrun₁, hexec, hcall, hv, hpending,
            hv ▸ queueConstraintsUpdate_set hi, by simp⟩
      | applied a hv => cases hbind
      | cancelled a hv => cases hbind
      | cleared a hv => cases hbind

/-- In a run that closes the vaults it creates again cleanly and creates constraints only where no update is queued,
every account beside a vault that is there was made after the vault was created: what is applied was queued for
this vault, and what is in the way of an instruction was made for it. And every constraints update that is applied
was queued under the set of constraints that it is applied to. -/
theorem nothing_left_over (hclean : ClosesCleanly steps) (hfresh : ConstrainsFreshly steps) :
    (∀ before st mid rest w w₁ w₂ a x, steps = before ++ st :: (mid ++ rest) →
      st.instruction.call = .sigil (.initializeVault a) → run Step.exec before {} = .ok w → st.exec w = .ok w₁ →
      run Step.exec mid w₁ = .ok w₂ → w₂.holds a.vault x → MadeIn mid w₁ a.vault x) ∧
    (∀ before st after w w' a, steps = before ++ st :: after → run Step.exec before {} = .ok w →
      st.instruction.call = .sigil (.applyConstraintsUpdate a) → st.exec w = .ok w' →
      ∃ pending, w.queuedConstraints a.vault = some pending ∧ QueuedUnder before a.vault pending) := by
  refine ⟨fun before st mid rest w w₁ w₂ a x hsplit hcall hrun hexec hmid hx =>
    madeIn_of_holds hclean hsplit hcall hrun hexec hmid hx, fun before st after w w' a hsplit hrun hcall hexec => ?_⟩
  rcases Step.exec_cases hexec with ⟨i, hi, -, -, happly⟩ | ⟨_, hi, -⟩
  · cases hcall.symm.trans hi
    obtain ⟨_, _, _, pending, -, -, -, hpending, -, -⟩ := applyConstraintsUpdate_ok happly
    exact ⟨pending, hpending, queuedUnder_run hfresh hsplit hrun hpending⟩
  · cases hcall.symm.trans hi

end

/-! ### The vault of owner 1 with assertions and constraints, closed and created again -/

def ownerAssertion : PostAssertionEntry :=
  { targetAccount := .key 70, offset := 0, valueLen := 1, operator := 0, expectedValue := [1], assertionMode := 0,
    crossFieldOffsetB := 0, crossFieldMultiplierBps := 0, crossFieldFlags := 0 }

def payCreation : Step := .ofKey payClock 1 (Instruction.initializeVault payVault).toTopLevel

def payAsserted : Step := .ofKey payClock 1 (Instruction.createPostAssertions payAction [ownerAssertion]).toTopLevel

def payClosing : Step :=
  .ofKey payClock 1 (Instruction.closeVault { owner := .key 1, vault := payVault.vault }).toTopLevel

def payUnasserted : Step := .ofKey payClock 1 (Instruction.closePostAssertions payAction).toTopLevel

/-- The assertions are closed before the vault is. -/
def cleanRun : List Step := [payCreation, payAsserted, payUnasserted, payClosing, payCreation, payAsserted]

theorem nothing_left_over_clean : ∃ w₀ w₁ w₂, run Step.exec (cleanRun.take 4) {} = .ok w₀ ∧
    payCreation.exec w₀ = .ok w₁ ∧ run Step.exec [payAsserted] w₁ = .ok w₂ ∧ w₂.holds payVault.vault .postAssertions ∧
    MadeIn [payAsserted] w₁ payVault.vault .postAssertions := by
  obtain ⟨w, hw, hassertions, hconstraints, hclose, hperms⟩ : ∃ w, run Step.exec (cleanRun.take 3) {} = .ok w ∧
      w.postAssertions payVault.vault = none ∧ w.pendingConstraints payVault.vault = none ∧
      w.pendingCloseConstraints payVault.vault = none ∧ w.pendingAgentPerms = fun _ => none :=
    ⟨_, rfl, rfl, rfl, rfl, rfl⟩
  obtain ⟨w₀, w₁, w₂, h₀, h₁, h₂, hx⟩ : ∃ w₀ w₁ w₂, run Step.exec (cleanRun.take 4) {} = .ok w₀ ∧
      payCreation.exec w₀ = .ok w₁ ∧ run Step.exec [payAsserted] w₁ = .ok w₂ ∧
      w₂.holds payVault.vault .postAssertions := ⟨_, _, _, rfl, rfl, rfl, rfl⟩
  have hclean : ClosesCleanly cleanRun := by
    intro before st after u a hsplit hrun hcall _
    -- the fourth step is the only one that closes a vault
    have hlength : before = cleanRun.take 3 ∧ st = payClosing := by
      rcases before with _ | ⟨_, _ | ⟨_, _ | ⟨_, _ | ⟨_, _ | ⟨_, _ | ⟨_, before⟩⟩⟩⟩⟩⟩ <;>
        first
          | (cases hsplit; exact ⟨rfl, rfl⟩)
          | (cases hsplit; cases hcall)
          | simp [cleanRun] at hsplit
    obtain ⟨rfl, rfl⟩ := hlength
    cases hcall
    cases hw.symm.trans hrun
    exact ⟨hassertions, hconstraints, by simp [hclose], by simp [hperms]⟩
  have hfresh : ConstrainsFreshly cleanRun := by
    unfold ConstrainsFreshly
    decide +kernel
  exact ⟨w₀, w₁, w₂, h₀, h₁, h₂, hx, (nothing_left_over hclean hfresh).1 (cleanRun.take 4) payCreation [payAsserted] []
    w₀ w₁ w₂ payVault .postAssertions rfl rfl h₀ h₁ h₂ hx⟩

/-- The assertions stay behind. -/
def leftoverRun : List Step := [payCreation, payAsserted, payClosing, payCreation]

def constrainedAt (clock : Clock) (entries : List ConstraintEntry) : List Step :=
  [.ofKey clock 1 (Instruction.allocateConstraintsPda payAction).toTopLevel,
   .ofKey clock 1 (Instruction.extendPda payAction (.constraints payVault.vault) 20480).toTopLevel,
   .ofKey clock 1 (Instruction.extendPda payAction (.constraints payVault.vault) 30720).toTopLevel,
   .ofKey clock 1 (Instruction.extendPda payAction (.constraints payVault.vault) 35888).toTopLevel,
   .ofKey clock 1 (Instruction.createInstructionConstraints payAction entries true).toTopLevel]

/-- The removal of the constraints is queued next to an update without entries. -/
def removalQueued : List Step :=
  [.ofKey payClock 1 (Instruction.allocatePendingConstraintsPda payAction).toTopLevel,
   .ofKey payClock 1 (Instruction.extendPda payAction (.pendingConstraints payVault.vault) 20480).toTopLevel,
   .ofKey payClock 1 (Instruction.extendPda payAction (.pendingConstraints payVault.vault) 30720).toTopLevel,
   .ofKey payClock 1 (Instruction.extendPda payAction (.pendingConstraints payVault.vault) 35912).toTopLevel,
   .ofKey payClock 1 (Instruction.queueConstraintsUpdate payAction [] false).toTopLevel,
   .ofKey payClock 1 (Instruction.queueCloseConstraints payAction).toTopLevel]

def removalClock : Clock := { unixTimestamp := 602500, slot := 1300 }

/-- A new set is created and the update of the old one is applied to it. -/
def staleRun : List Step :=
  payCreation :: constrainedAt payClock [flashEntry] ++ removalQueued ++
    .ofKey removalClock 1 (Instruction.applyCloseConstraints payAction false).toTopLevel ::
      constrainedAt removalClock [flashEntry]

/-- The assertions of the first vault keep the second from having any; and an update queued under the first set of
constraints empties the second. -/
theorem leftovers_interfere :
    (∃ w, run Step.exec leftoverRun {} = .ok w ∧ w.holds payVault.vault .postAssertions ∧
      payAsserted.exec w = .error AnchorError.accountAlreadyInUse) ∧
    (∃ w w', run Step.exec staleRun {} = .ok w ∧
      w.constraintSet payVault.vault = some { entries := [flashEntry], strictMode := true } ∧
      (Step.ofKey removalClock 1 (Instruction.applyConstraintsUpdate payAction).toTopLevel).exec w = .ok w' ∧
      w'.constraintSet payVault.vault = some { entries := [], strictMode := false }) :=
  ⟨⟨_, rfl, rfl, rfl⟩, _, _, rfl, rfl, rfl, rfl⟩

end Sigil
