import Sigil.Theorems.Session

/-!
# The scan leaves no instruction out

An accepted `validate_and_authorize` has seen every instruction of its transaction up to the next
`finalize_session`. The two loops over the later instructions check the same, so the amount does not matter.
-/

namespace Sigil

open Library

section
variable {w w' : World} {ctx : Ctx} {a : ValidateAndAuthorize} {policy : PolicyConfig}
  {constraints : Option InstructionConstraints} {l : List RawInstruction}

/-- What is known of a transaction whose instruction `i` opens a session. -/
structure Scanned (policy : PolicyConfig) (constraints : Option InstructionConstraints) (l : List RawInstruction)
    (i : Nat) : Prop where
  before : ∀ k ix, k < i → l[k]? = some ix → isInfrastructure ix.programId
  closed : ∃ j fin, i < j ∧ l[j]? = some fin ∧ isFinalizeSession fin ∧
    ∀ k ix, i < k → k < j → l[k]? = some ix → isFinalizeSession ix = false ∧
      (isInfrastructure ix.programId ∨ Vetted policy constraints ix)

/-- The positions of a scan that starts after `i`. -/
theorem FindsFinalize.positions {i : Nat} (h : FindsFinalize policy constraints (l.drop (i + 1))) :
    ∃ j fin, i < j ∧ l[j]? = some fin ∧ isFinalizeSession fin ∧
      ∀ k ix, i < k → k < j → l[k]? = some ix → isFinalizeSession ix = false ∧
        (isInfrastructure ix.programId ∨ Vetted policy constraints ix) := by
  obtain ⟨before, fin, after, heq, hfin, hpasses⟩ := h
  have hget : ∀ k, l[i + 1 + k]? = (before ++ fin :: after)[k]? := by
    intro k
    rw [← heq, List.getElem?_drop]
  refine ⟨i + 1 + before.length, fin, by omega, ?_, hfin, ?_⟩
  · rw [hget]
    simp
  · intro k ix hik hkj hk
    obtain ⟨d, rfl⟩ := Nat.exists_eq_add_of_le hik
    rw [Nat.succ_eq_add_one, hget, List.getElem?_append_left (by omega)] at hk
    have hpass := hpasses ix (List.mem_of_getElem? hk)
    exact ⟨hpass.not_finalize, hpass.vetted⟩

theorem checkScans_scanned (h : checkScans ctx a policy constraints = .ok ()) :
    Scanned policy constraints ctx.instructions ctx.index := by
  obtain ⟨hbefore, hfinds⟩ := checkScans_ok h
  refine ⟨?_, hfinds.positions⟩
  intro k ix hk hget
  have htake : (ctx.instructions.take ctx.index)[k]? = some ix := by
    rw [List.getElem?_take_of_lt hk, hget]
  exact hbefore ix (List.mem_of_getElem? htake)

/-- Every instruction is checked, whatever the transaction, the policy and the amount. -/
theorem scan_complete (h : validateAndAuthorize ctx a w = .ok w') :
    ∃ policy constraints, w.policies a.vault = some policy ∧
      loadConstraints w a.vault policy a.remainingAccounts = .ok constraints ∧
      Scanned policy constraints ctx.instructions ctx.index := by
  obtain ⟨_, policy, constraints, -, hp, hrequested⟩ := validateAndAuthorize_requested h
  exact ⟨policy, constraints, hp, hrequested.loaded, checkScans_scanned hrequested.scans⟩

end

/-- A session with one trade between its two instructions. -/
theorem scan_complete_trade :
    ∃ policy constraints, (chain paySetup {}).policies payVault.vault = some policy ∧
      loadConstraints (chain paySetup {}) payVault.vault policy [] = .ok constraints ∧
      Scanned policy constraints ((paySession [payTrade 500000]).instructions.map TopLevel.raw) 0 := by
  let step := (paySession [payTrade 500000]).step (Instruction.validateAndAuthorize payValidate).toTopLevel 0
  obtain ⟨w', h⟩ : ∃ w', validateAndAuthorize step.ctx payValidate (chain paySetup {}) = .ok w' := ⟨_, rfl⟩
  exact scan_complete h

end Sigil
