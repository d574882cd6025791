import Sigil.Program.Transaction

/-!
# Instruction chains for constraints

`constraint-builders.ts`: an account is allocated, extended step by step and populated, all in one transaction. The
size of the compiled transaction is a parameter.
-/

namespace Sigil.Sdk

open Library

abbrev constraintsSize : Nat := 35888
abbrev pendingConstraintsSize : Nat := 35904
abbrev maxCpiAccountSize : Nat := 10240
abbrev maxTxSize : Nat := 1232

inductive BuildError where
  /-- "Constraint entries must be a non-empty array" -/
  | emptyEntries
  /-- `SIGIL_ERROR__RPC__TX_TOO_LARGE` -/
  | txTooLarge (byteLength limit : Nat)
  deriving DecidableEq, Repr

/-- The `while` loop of `extendSteps`. -/
def extendStepsFrom (fullSize current : Nat) : List Nat :=
  if current < fullSize then
    let next := min (current + maxCpiAccountSize) fullSize
    next :: extendStepsFrom fullSize next
  else
    []
termination_by fullSize - current
decreasing_by simp only [maxCpiAccountSize]; omega

def extendSteps (fullSize : Nat) : List Nat := extendStepsFrom fullSize maxCpiAccountSize

structure BuildCreateConstraintsInput where
  owner : Pubkey
  vault : Pubkey
  entries : List ConstraintEntry
  strictMode : Bool

def BuildCreateConstraintsInput.action (input : BuildCreateConstraintsInput) : OwnerAction :=
  { owner := input.owner, vault := input.vault }

def assertWithinTxSize (byteLength : List Instruction → Nat) (instructions : List Instruction) :
    Except BuildError Unit :=
  require (byteLength instructions ≤ maxTxSize) (.txTooLarge (byteLength instructions) maxTxSize)

/-- What the two builders share. -/
def buildIxs (byteLength : List Instruction → Nat) (input : BuildCreateConstraintsInput) (pda : Pubkey) (size : Nat)
    (allocateIx populateIx : Instruction) : Except BuildError (List Instruction) := do
  require (input.entries ≠ []) .emptyEntries
  let extendIxs := (extendSteps size).map fun targetSize =>
    Instruction.extendPda input.action pda (.ofNat targetSize)
  let ixs := allocateIx :: (extendIxs ++ [populateIx])
  assertWithinTxSize byteLength ixs
  pure ixs

def buildCreateConstraintsIxs (byteLength : List Instruction → Nat) (input : BuildCreateConstraintsInput) :
    Except BuildError (List Instruction) :=
  buildIxs byteLength input (.constraints input.vault) constraintsSize (.allocateConstraintsPda input.action)
    (.createInstructionConstraints input.action input.entries input.strictMode)

def buildQueueConstraintsUpdateIxs (byteLength : List Instruction → Nat) (input : BuildCreateConstraintsInput) :
    Except BuildError (List Instruction) :=
  buildIxs byteLength input (.pendingConstraints input.vault) pendingConstraintsSize
    (.allocatePendingConstraintsPda input.action)
    (.queueConstraintsUpdate input.action input.entries input.strictMode)

/-- Which of the two lists. -/
inductive Builder where
  | create | queue
  deriving DecidableEq, Repr

def Builder.build : Builder → (List Instruction → Nat) → BuildCreateConstraintsInput →
    Except BuildError (List Instruction)
  | .create => buildCreateConstraintsIxs
  | .queue => buildQueueConstraintsUpdateIxs

end Sigil.Sdk
