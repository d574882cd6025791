import Sigil.Lemmas.Core

/-!
# What the scans find
-/

namespace Sigil

open Library

variable {policy : PolicyConfig} {constraints : Option InstructionConstraints} {ix : RawInstruction}
  {l : List RawInstruction}

/-- An instruction that a scan passes over. -/
def ScanPasses (policy : PolicyConfig) (constraints : Option InstructionConstraints) (ix : RawInstruction) : Prop :=
  ∃ action, scanInstructionShared ix policy constraints = .ok action ∧ action ≠ .foundFinalize ∧
    (action = .passedSharedChecks → enforceJupiterSlippageIfJupiter ix policy.maxSlippageBps = .ok ())

/-- An entry of the constraints that an instruction meets. -/
def ConstraintEntry.Meets (entry : ConstraintEntry) (ix : RawInstruction) : Prop :=
  entry.programId = ix.programId ∧ verifyAccountConstraints ix.accounts entry = .ok () ∧
    verifyDataConstraints ix.data entry = .ok ()

/-- Some entry is met. Without an entry for its program an instruction is free, unless the mode is strict. -/
def InstructionConstraints.Admits (c : InstructionConstraints) (ix : RawInstruction) : Prop :=
  (∃ entry ∈ c.entries, entry.Meets ix) ∨
    (c.strictMode = false ∧ ∀ entry ∈ c.entries, entry.programId ≠ ix.programId)

/-- What a session may call beyond infrastructure. -/
structure Vetted (policy : PolicyConfig) (constraints : Option InstructionConstraints) (ix : RawInstruction) :
    Prop where
  opcode : blockedTokenOpcode ix = none
  synchronous : ix.programId ∉ knownAsyncFulfillmentPrograms
  protocol : policy.isProtocolAllowed ix.programId
  constrained : ∀ c, constraints = some c → c.Admits ix
  slippage : ix.programId = jupiterProgram → verifyJupiterSlippage ix.data policy.maxSlippageBps = .ok ()

/-- The scan reaches a `finalize_session` and passes over everything before it. -/
def FindsFinalize (policy : PolicyConfig) (constraints : Option InstructionConstraints)
    (l : List RawInstruction) : Prop :=
  ∃ before fin after, l = before ++ fin :: after ∧ isFinalizeSession fin ∧
    ∀ ix ∈ before, ScanPasses policy constraints ix

/-! ## One instruction -/

theorem verifyEntries_ok {entries : List ConstraintEntry} {i : Nat} {found writability : Bool} {matched : Option Nat}
    (h : verifyEntries ix entries i found writability = .ok matched) :
    (matched.isSome ∧ ∃ entry ∈ entries, entry.Meets ix) ∨
      (matched = none ∧ found = false ∧ ∀ entry ∈ entries, entry.programId ≠ ix.programId) := by
  induction entries generalizing i found writability with
  | nil =>
      cases found with
      | false => exact .inr ⟨(pure_eq_ok.mp h).symm, rfl, by simp⟩
      | true => cases writability <;> cases h
  | cons entry entries ih =>
      rw [verifyEntries] at h
      split at h
      · rename_i hne
        rcases ih h with ⟨hsome, e, he, hmeets⟩ | ⟨hnone, hfound, hall⟩
        · exact .inl ⟨hsome, e, by simp [he], hmeets⟩
        · exact .inr ⟨hnone, hfound, by simpa using ⟨hne, hall⟩⟩
      · rename_i hprogram
        split at h
        · rename_i haccounts hdata
          obtain rfl := pure_eq_ok.mp h
          exact .inl ⟨rfl, entry, by simp, not_not.mp hprogram, haccounts, hdata⟩
        all_goals
          -- an entry of the program has failed, so a later one has to be met
          rcases ih h with ⟨hsome, e, he, hmeets⟩ | ⟨-, hfound, -⟩
          · exact .inl ⟨hsome, e, by simp [he], hmeets⟩
          · cases hfound

theorem verifyAgainstEntries_ok {c : InstructionConstraints} {matched : Option Nat}
    (h : verifyAgainstEntries c ix = .ok matched) (hstrict : matched.isSome ∨ c.strictMode = false) : c.Admits ix := by
  rcases verifyEntries_ok h with ⟨-, hmeets⟩ | ⟨rfl, -, hall⟩
  · exact .inl hmeets
  · exact .inr ⟨by simpa using hstrict, hall⟩

theorem enforceJupiterSlippageIfJupiter_ok {maxBps : Nat} (h : enforceJupiterSlippageIfJupiter ix maxBps = .ok ())
    (hprogram : ix.programId = jupiterProgram) : verifyJupiterSlippage ix.data maxBps = .ok () := by
  rwa [enforceJupiterSlippageIfJupiter, if_pos hprogram] at h

theorem scanInstructionShared_cases {action : ScanAction}
    (h : scanInstructionShared ix policy constraints = .ok action) :
    (action = .foundFinalize ∧ isFinalizeSession ix) ∨
    (action = .infrastructure ∧ isFinalizeSession ix = false ∧ isInfrastructure ix.programId) ∨
    (action = .passedSharedChecks ∧ isFinalizeSession ix = false ∧
      (enforceJupiterSlippageIfJupiter ix policy.maxSlippageBps = .ok () → Vetted policy constraints ix)) := by
  unfold scanInstructionShared at h
  split at h
  · rename_i hfin
    exact .inl ⟨(pure_eq_ok.mp h).symm, hfin⟩
  · rename_i hfin
    right
    split at h
    · cases h
    · rename_i hopcode
      split at h
      · rename_i hinfra
        exact .inl ⟨(pure_eq_ok.mp h).symm, by simpa using hfin, hinfra⟩
      · simp only [bind_eq_ok, require_eq_ok, exists_and_left, exists_const] at h
        obtain ⟨hasync, hallowed, h⟩ := h
        right
        split at h
        · refine ⟨(pure_eq_ok.mp h).symm, by simpa using hfin, fun hslippage => ?_⟩
          exact ⟨hopcode, hasync, hallowed, by simp, enforceJupiterSlippageIfJupiter_ok hslippage⟩
        · simp only [bind_eq_ok, require_eq_ok, exists_and_left, exists_const, pure_eq_ok] at h
          obtain ⟨matched, hmatched, hstrict, rfl⟩ := h
          refine ⟨rfl, by simpa using hfin, fun hslippage => ?_⟩
          refine ⟨hopcode, hasync, hallowed, ?_, enforceJupiterSlippageIfJupiter_ok hslippage⟩
          rintro c ⟨rfl⟩
          exact verifyAgainstEntries_ok hmatched hstrict

theorem ScanPasses.not_finalize (h : ScanPasses policy constraints ix) : isFinalizeSession ix = false := by
  obtain ⟨action, hscan, hne, -⟩ := h
  rcases scanInstructionShared_cases hscan with ⟨heq, -⟩ | ⟨-, hfin, -⟩ | ⟨-, hfin, -⟩
  · exact absurd heq hne
  · exact hfin
  · exact hfin

theorem ScanPasses.vetted (h : ScanPasses policy constraints ix) :
    isInfrastructure ix.programId ∨ Vetted policy constraints ix := by
  obtain ⟨action, hscan, hne, hslippage⟩ := h
  rcases scanInstructionShared_cases hscan with ⟨heq, -⟩ | ⟨-, -, hinfra⟩ | ⟨heq, -, hvetted⟩
  · exact absurd heq hne
  · exact .inl hinfra
  · exact .inr (hvetted (hslippage heq))

/-- Another program that a session may call is infrastructure or allowed by the policy. -/
theorem ScanPasses.allowed (h : ScanPasses policy constraints ix) :
    isInfrastructure ix.programId ∨ policy.isProtocolAllowed ix.programId :=
  h.vetted.imp_right Vetted.protocol

/-! ## The loops -/

theorem FindsFinalize.cons (hpass : ScanPasses policy constraints ix) (h : FindsFinalize policy constraints l) :
    FindsFinalize policy constraints (ix :: l) := by
  obtain ⟨before, fin, after, rfl, hfin, hbefore⟩ := h
  refine ⟨ix :: before, fin, after, rfl, hfin, ?_⟩
  intro y hy
  rcases List.mem_cons.mp hy with rfl | hy
  · exact hpass
  · exact hbefore y hy

theorem FindsFinalize.head (hfin : isFinalizeSession ix) : FindsFinalize policy constraints (ix :: l) :=
  ⟨[], ix, l, rfl, hfin, by simp⟩

/-- The scan passes over everything in front of the first `finalize_session`. -/
theorem FindsFinalize.passes {before after : List RawInstruction} {fin : RawInstruction}
    (h : FindsFinalize policy constraints (before ++ fin :: after))
    (hbefore : ∀ ix ∈ before, isFinalizeSession ix = false) :
    ∀ ix ∈ before, ScanPasses policy constraints ix := by
  obtain ⟨before', fin', after', heq, hfin', hpasses⟩ := h
  induction before generalizing before' with
  | nil => simp
  | cons ix before ih =>
      cases before' with
      | nil =>
          obtain ⟨rfl, -⟩ := List.cons.inj heq
          rw [hbefore _ (by simp)] at hfin'
          cases hfin'
      | cons ix' before' =>
          obtain ⟨rfl, htail⟩ := List.cons.inj heq
          intro y hy
          rcases List.mem_cons.mp hy with rfl | hy
          · exact hpasses _ (by simp)
          · exact ih (fun z hz => hbefore z (by simp [hz])) before' htail (fun z hz => hpasses z (by simp [hz])) y hy

/-- Both loops, without the count of the spending one. -/
def scanWith (policy : PolicyConfig) (constraints : Option InstructionConstraints)
    (check : RawInstruction → Result Unit) : List RawInstruction → Nat → Result Bool
  | [], _ => pure false
  | ix :: rest, iterCount => do
      require (iterCount < maxSysvarScanIterations) SigilError.sysvarScanBoundExceeded
      let action ← scanInstructionShared ix policy constraints
      if action = .foundFinalize then
        pure true
      else do
        if action = .passedSharedChecks then check ix else pure ()
        scanWith policy constraints check rest (iterCount + 1)

/-- What a spending session asks of an instruction beyond the shared checks. -/
def checkDeclared (policy : PolicyConfig) (target : Pubkey) (ix : RawInstruction) : Result Unit := do
  require (isRecognizedDefi ix.programId → ix.programId = target) SigilError.protocolMismatch
  enforceJupiterSlippageIfJupiter ix policy.maxSlippageBps

theorem scanSpending_map {target : Pubkey} {iter count : Nat} :
    Prod.snd <$> scanSpending policy constraints target l iter count =
      scanWith policy constraints (checkDeclared policy target) l iter := by
  induction l generalizing iter count with
  | nil => rfl
  | cons ix l ih =>
      simp only [scanSpending, scanWith, map_bind]
      congr 1
      funext _
      congr 1
      funext action
      cases action with
      | foundFinalize => rfl
      | infrastructure => simpa using ih
      | passedSharedChecks => simp [checkDeclared, ih]

theorem scanNonSpending_eq {iter : Nat} : scanNonSpending policy constraints l iter =
    scanWith policy constraints (enforceJupiterSlippageIfJupiter · policy.maxSlippageBps) l iter := by
  induction l generalizing iter with
  | nil => rfl
  | cons ix l ih =>
      simp only [scanNonSpending, scanWith]
      congr 1
      funext _
      congr 1
      funext action
      cases action with
      | foundFinalize => rfl
      | infrastructure => simpa using ih
      | passedSharedChecks => simp [ih]

theorem scanWith_finds {check : RawInstruction → Result Unit} {iter : Nat}
    (hcheck : ∀ ix, check ix = .ok () → enforceJupiterSlippageIfJupiter ix policy.maxSlippageBps = .ok ())
    (h : scanWith policy constraints check l iter = .ok true) : FindsFinalize policy constraints l := by
  induction l generalizing iter with
  | nil =>
      cases pure_eq_ok.mp h
  | cons ix l ih =>
      simp only [scanWith, bind_eq_ok, require_eq_ok, exists_and_left, exists_const] at h
      obtain ⟨-, action, hscan, h⟩ := h
      rcases scanInstructionShared_cases hscan with ⟨rfl, hfin⟩ | ⟨rfl, -⟩ | ⟨rfl, -⟩
      · exact .head hfin
      · exact .cons ⟨_, hscan, by simp, by simp⟩ (ih h)
      · obtain ⟨_, hchecked, h⟩ := bind_eq_ok.mp h
        exact .cons ⟨_, hscan, by simp, fun _ => hcheck ix hchecked⟩ (ih h)

theorem scanBefore_infrastructure {iter : Nat} (h : scanBefore l iter = .ok ()) :
    ∀ ix ∈ l, isInfrastructure ix.programId := by
  induction l generalizing iter with
  | nil => simp
  | cons ix l ih =>
      simp only [scanBefore, bind_eq_ok, require_eq_ok, exists_and_left, exists_const] at h
      obtain ⟨-, hinfra, h⟩ := h
      intro y hy
      rcases List.mem_cons.mp hy with rfl | hy
      · exact hinfra
      · exact ih h y hy

theorem checkScans_ok {ctx : Ctx} {a : ValidateAndAuthorize} (h : checkScans ctx a policy constraints = .ok ()) :
    (∀ ix ∈ ctx.instructions.take ctx.index, isInfrastructure ix.programId) ∧
      FindsFinalize policy constraints (ctx.instructions.drop (ctx.index + 1)) := by
  simp only [checkScans, bind_eq_ok] at h
  obtain ⟨_, hbefore, h⟩ := h
  refine ⟨scanBefore_infrastructure hbefore, ?_⟩
  split at h
  · simp only [bind_eq_ok, require_eq_ok] at h
    obtain ⟨⟨count, found⟩, hscan, _, -, hfound⟩ := h
    cases hfound
    have hfinds : scanWith policy constraints (checkDeclared policy a.targetProtocol)
        (ctx.instructions.drop (ctx.index + 1)) 0 = .ok true := by
      rw [← scanSpending_map, hscan]
      rfl
    exact scanWith_finds (fun ix hix => (require_bind_eq_ok.mp hix).2) hfinds
  · simp only [bind_eq_ok, require_eq_ok] at h
    obtain ⟨found, hscan, hfound⟩ := h
    cases hfound
    exact scanWith_finds (fun _ hix => hix) (scanNonSpending_eq.symm.trans hscan)

theorem isRecognizedDefi_not_infrastructure {programId : Pubkey} (h : isRecognizedDefi programId) :
    isInfrastructure programId = false := by
  simp only [isRecognizedDefi, decide_eq_true_eq, List.mem_cons, List.not_mem_nil, or_false] at h
  rcases h with rfl | rfl | rfl | rfl | rfl <;> decide +kernel

/-- In front of the `finalize_session` a recognized program is the declared one. -/
theorem scanSpending_protocol {protocol : Pubkey} {before rest : List RawInstruction} {iter count : Nat}
    {result : Nat × Bool}
    (h : scanSpending policy constraints protocol (before ++ rest) iter count = .ok result)
    (hbefore : ∀ ix ∈ before, isFinalizeSession ix = false) :
    ∀ ix ∈ before, isRecognizedDefi ix.programId → ix.programId = protocol := by
  induction before generalizing iter count with
  | nil => simp
  | cons ix before ih =>
      have htail : ∀ y ∈ before, isFinalizeSession y = false := fun y hy => hbefore y (List.mem_cons_of_mem _ hy)
      simp only [List.cons_append, scanSpending, bind_eq_ok, require_eq_ok, exists_and_left, exists_const] at h
      obtain ⟨-, action, hscan, h⟩ := h
      rcases scanInstructionShared_cases hscan with ⟨rfl, hfin⟩ | ⟨rfl, -, hinfra⟩ | ⟨rfl, -⟩
      · rw [hbefore ix (by simp)] at hfin
        cases hfin
      · intro y hy hrecognized
        rcases List.mem_cons.mp hy with rfl | hy
        · rw [isRecognizedDefi_not_infrastructure hrecognized] at hinfra
          cases hinfra
        · exact ih h htail y hy hrecognized
      · simp only [bind_eq_ok, require_eq_ok, exists_and_left, exists_const] at h
        obtain ⟨hdeclared, _, -, h⟩ := h
        intro y hy hrecognized
        rcases List.mem_cons.mp hy with rfl | hy
        · exact hdeclared hrecognized
        · exact ih h htail y hy hrecognized

/-- This program is no infrastructure. -/
theorem crateId_not_infrastructure : isInfrastructure crateId = false := by decide +kernel

theorem eq_finalizeSession_of_discriminator {i : Instruction}
    (h : i.discriminator = finalizeSessionDiscriminator) : ∃ a, i = .finalizeSession a := by
  cases i with
  | finalizeSession a => exact ⟨a, rfl⟩
  | _ => simp [Instruction.discriminator, finalizeSessionDiscriminator] at h

/-- An accepted instruction that looks like `finalize_session` is one. -/
theorem Step.finalize_of_raw {st : Step} {w w' : World} (hraw : isFinalizeSession st.instruction.raw)
    (h : st.exec w = .ok w') :
    ∃ a, st.instruction.call = .sigil (.finalizeSession a) ∧ finalizeSession st.ctx a w = .ok w' := by
  simp only [isFinalizeSession, Bool.and_eq_true, decide_eq_true_eq] at hraw
  rcases Step.exec_cases h with ⟨i, hcall, -, hdisc, hi⟩ | ⟨ops, -, hallowed, -⟩
  · obtain ⟨a, rfl⟩ := eq_finalizeSession_of_discriminator (hdisc.symm.trans hraw.2)
    exact ⟨a, hcall, hi⟩
  · simp [foreignAllowed, hraw.1] at hallowed

end Sigil
