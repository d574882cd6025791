import Sigil.State.Constants

/-!
# Instruction constraints and post-execution assertions

The entries of `state/constraints.rs`, `state/pending_constraints.rs` and `state/post_assertions.rs` in the
form the instructions carry them. The packed arrays of the accounts hold the same entries, so an account
keeps the list of its active entries.
-/

namespace Sigil

open Library

abbrev maxConstraintEntries : Nat := 64
abbrev maxDataConstraintsPerEntry : Nat := 8
abbrev maxConstraintValueLen : Nat := 32
abbrev maxAccountConstraintsPerEntry : Nat := 5
abbrev maxPostAssertionEntries : Nat := 4

/-- `InstructionConstraints::SIZE` and `PendingConstraintsUpdate::SIZE`. -/
abbrev instructionConstraintsSize : Nat := 35888
abbrev pendingConstraintsUpdateSize : Nat := 35912

inductive ConstraintOperator where
  | eq | ne | gte | lte | gteSigned | lteSigned | bitmask
  deriving DecidableEq, Repr

inductive DiscriminatorFormat where
  | anchor8 | spl1
  deriving DecidableEq, Repr

def DiscriminatorFormat.minDiscriminatorLen : DiscriminatorFormat → Nat
  | .anchor8 => 8
  | .spl1 => 1

structure DataConstraint where
  offset : Nat
  operator : ConstraintOperator
  value : List UInt8
  deriving DecidableEq, Repr

/-- `isWritableRequired`: 0 is any, 1 read-only, 2 writable. -/
structure AccountConstraint where
  index : Nat
  isWritableRequired : Nat
  expected : Pubkey
  deriving DecidableEq, Repr

structure ConstraintEntry where
  programId : Pubkey
  dataConstraints : List DataConstraint
  accountConstraints : List AccountConstraint
  discriminatorFormat : DiscriminatorFormat
  deriving DecidableEq, Repr

structure InstructionConstraints where
  entries : List ConstraintEntry
  strictMode : Bool
  deriving DecidableEq, Repr

structure PendingConstraintsUpdate where
  entries : List ConstraintEntry
  strictMode : Bool
  queuedAt : Int
  executesAt : Int
  queuedAtSlot : Nat
  deriving DecidableEq, Repr

namespace InstructionConstraints

/-- All entries of one program share one discriminator format. -/
def consistentFormats : List ConstraintEntry → Bool
  | [] => true
  | entry :: entries =>
      entries.all (fun e => e.programId = entry.programId → e.discriminatorFormat = entry.discriminatorFormat) &&
        consistentFormats entries

def blockedSplOpcodes : List UInt8 := [3, 4, 6, 8, 9, 12, 13, 15, 26]

def validateDataConstraint (dc : DataConstraint) : Result Unit := do
  require (dc.value.length ≤ maxConstraintValueLen) SigilError.invalidConstraintConfig
  require (dc.value ≠ []) SigilError.invalidConstraintConfig
  require (dc.operator = .bitmask → dc.value.any (· ≠ 0)) SigilError.invalidConstraintConfig

/-- The first data constraint pins the discriminator of the instruction. -/
def validateAnchor (entry : ConstraintEntry) (first : DataConstraint) : Result Unit := do
  require (first.offset = 0) SigilError.invalidConstraintConfig
  require (first.operator = .eq) SigilError.invalidConstraintConfig
  require (entry.discriminatorFormat.minDiscriminatorLen ≤ first.value.length) SigilError.invalidConstraintConfig
  require (first.value.any (· ≠ 0)) SigilError.invalidConstraintConfig
  require (entry.discriminatorFormat = .spl1 →
    entry.programId = splTokenProgramId ∨ entry.programId = token2022ProgramId) SigilError.invalidConstraintConfig
  require (entry.discriminatorFormat = .spl1 → first.value.head? ∉ blockedSplOpcodes.map some)
    SigilError.blockedSplOpcode

def validateEntry (entry : ConstraintEntry) : Result Unit := do
  require (entry.dataConstraints.length ≤ maxDataConstraintsPerEntry) SigilError.invalidConstraintConfig
  require (entry.accountConstraints.length ≤ maxAccountConstraintsPerEntry) SigilError.invalidConstraintConfig
  require (entry.accountConstraints.all (·.isWritableRequired ≤ 2)) SigilError.invalidConstraintConfig
  let first ← okOr entry.dataConstraints.head? SigilError.invalidConstraintConfig
  validateAnchor entry first
  entry.dataConstraints.forM validateDataConstraint

def validateEntries (entries : List ConstraintEntry) : Result Unit := do
  require (entries.length ≤ maxConstraintEntries) SigilError.invalidConstraintConfig
  require (consistentFormats entries) SigilError.invalidConstraintConfig
  entries.forM validateEntry

end InstructionConstraints

/-- An account of the program that is allocated and extended before it is populated: its length, the vault that
its allocation wrote into it, and the content that comes with the discriminator. -/
structure Allocated (α : Type) where
  size : Nat
  vault : Pubkey
  content : Option α := none
  deriving DecidableEq, Repr

/-- `load_mut`: only the content changes. -/
def Allocated.write {α : Type} (account : Allocated α) (a : α) : Allocated α := { account with content := some a }

/-! ## Post-execution assertions -/

inductive AssertionMode where
  | absolute | maxDecrease | maxIncrease | noChange
  deriving DecidableEq, Repr

/-- Entry as the instruction carries it, with operator and mode as raw bytes. -/
structure PostAssertionEntry where
  targetAccount : Pubkey
  offset : Nat
  valueLen : Nat
  operator : Nat
  expectedValue : List UInt8
  assertionMode : Nat
  crossFieldOffsetB : Nat
  crossFieldMultiplierBps : Nat
  crossFieldFlags : Nat
  deriving DecidableEq, Repr

structure PostExecutionAssertions where
  entries : List PostAssertionEntry
  deriving DecidableEq, Repr

def ConstraintOperator.ofByte : Nat → Option ConstraintOperator
  | 0 => some .eq
  | 1 => some .ne
  | 2 => some .gte
  | 3 => some .lte
  | 4 => some .gteSigned
  | 5 => some .lteSigned
  | 6 => some .bitmask
  | _ => none

def AssertionMode.ofByte : Nat → Option AssertionMode
  | 0 => some .absolute
  | 1 => some .maxDecrease
  | 2 => some .maxIncrease
  | 3 => some .noChange
  | _ => none

namespace PostExecutionAssertions

/-- Checks of the cross-field comparison, whose flag is bit 0 of the flags. -/
def validateCrossField (entry : PostAssertionEntry) : Result Unit :=
  if entry.crossFieldFlags % 2 = 1 then do
    require (entry.valueLen ≤ 8) SigilError.invalidConstraintConfig
    require (entry.assertionMode = 0) SigilError.invalidConstraintConfig
    require (0 < entry.crossFieldMultiplierBps) SigilError.invalidConstraintConfig
    require (entry.crossFieldFlags = 1) SigilError.invalidConstraintConfig
  else
    require (entry.crossFieldOffsetB = 0 ∧ entry.crossFieldMultiplierBps = 0) SigilError.invalidConstraintConfig

def validateEntry (entry : PostAssertionEntry) : Result Unit := do
  require (0 < entry.valueLen ∧ entry.valueLen ≤ maxConstraintValueLen) SigilError.invalidConstraintConfig
  require (entry.valueLen ≤ entry.expectedValue.length) SigilError.invalidConstraintConfig
  require (ConstraintOperator.ofByte entry.operator).isSome SigilError.invalidConstraintOperator
  require (AssertionMode.ofByte entry.assertionMode).isSome SigilError.invalidConstraintConfig
  require (1 ≤ entry.assertionMode ∧ entry.assertionMode ≤ 3 → entry.valueLen ≤ 8)
    SigilError.invalidConstraintConfig
  validateCrossField entry

def validateEntries (entries : List PostAssertionEntry) : Result Unit := do
  require (entries ≠ [] ∧ entries.length ≤ maxPostAssertionEntries) SigilError.invalidConstraintConfig
  entries.forM validateEntry

end PostExecutionAssertions

end Sigil
