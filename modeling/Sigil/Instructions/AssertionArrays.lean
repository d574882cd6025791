import Sigil.Library.LittleEndian
import Sigil.Library.Panic
import Sigil.Instructions.Session

/-!
# Assertions in arrays

`create_post_assertions` packs its entries into arrays of a fixed size, `validate_and_authorize` copies the snapshots
into arrays of the session, and `finalize_session` evaluates the one with the other. Indices, slices and copies can
panic here.
-/

namespace Sigil

open Library

/-! ## Comparisons of `generic_constraints.rs` -/

/-- `if i < bytes.len() { bytes[i] } else { pad }`. -/
def byteOr (bytes : List UInt8) (i : Nat) (pad : UInt8) : Eval ProgramError UInt8 :=
  if i < bytes.length then indexAt bytes i else pure pad

/-- The loop from byte `n - 1` down. -/
def compareDown (a b : List UInt8) (aPad bPad : UInt8) : Nat → Eval ProgramError Int
  | 0 => pure 0
  | i + 1 => do
      let aByte ← byteOr a i aPad
      let bByte ← byteOr b i bPad
      if aByte > bByte then pure 1
      else if aByte < bByte then pure (-1)
      else compareDown a b aPad bPad i

def evalNegative (a : List UInt8) : Eval ProgramError Bool :=
  if a.isEmpty then pure false
  else do
    let top ← indexAt a (a.length - 1)
    pure (top &&& 0x80 ≠ 0)

def evalUnsigned (a b : List UInt8) : Eval ProgramError Int := compareDown a b 0 0 (max a.length b.length)

def evalSigned (a b : List UInt8) : Eval ProgramError Int := do
  let aNegative ← evalNegative a
  let bNegative ← evalNegative b
  if aNegative && !bNegative then pure (-1)
  else if !aNegative && bNegative then pure 1
  else
    compareDown a b (if aNegative then 0xFF else 0) (if bNegative then 0xFF else 0) (max a.length b.length)

/-- The loop over the bytes of the mask, from byte `i` on. -/
def evalBitmask (actual : List UInt8) : List UInt8 → Nat → Eval ProgramError Bool
  | [], _ => pure true
  | m :: mask, i => do
      let a ← byteOr actual i 0
      if a &&& m ≠ m then pure false else evalBitmask actual mask (i + 1)

def evalBytesMatch (actual : List UInt8) (operator : ConstraintOperator) (expected : List UInt8) :
    Eval ProgramError Bool :=
  match operator with
  | .eq => pure (actual = expected)
  | .ne => pure (actual ≠ expected)
  | .gte => do
      let order ← evalUnsigned actual expected
      pure (order ≥ 0)
  | .lte => do
      let order ← evalUnsigned actual expected
      pure (order ≤ 0)
  | .gteSigned => do
      let order ← evalSigned actual expected
      pure (order ≥ 0)
  | .lteSigned => do
      let order ← evalSigned actual expected
      pure (order ≤ 0)
  | .bitmask => evalBitmask actual expected 0

/-! ## Packing -/

structure PostAssertionEntryZC where
  targetAccount : Pubkey
  offset : UInt16
  valueLen : UInt8
  operator : UInt8
  expectedValue : Vector UInt8 32
  assertionMode : UInt8
  crossFieldOffsetB : Vector UInt8 2
  crossFieldMultiplierBps : Vector UInt8 4
  crossFieldFlags : UInt8

/-- As it is allocated. -/
def PostAssertionEntryZC.zeroed : PostAssertionEntryZC :=
  { targetAccount := .default
    offset := 0
    valueLen := 0
    operator := 0
    expectedValue := .replicate 32 0
    assertionMode := 0
    crossFieldOffsetB := .replicate 2 0
    crossFieldMultiplierBps := .replicate 4 0
    crossFieldFlags := 0 }

structure PostExecutionAssertionsZC where
  entries : Vector PostAssertionEntryZC 4 := .replicate 4 .zeroed
  entryCount : UInt8 := 0

def packEntry (entry : PostAssertionEntry) (zc : PostAssertionEntryZC) : Eval ProgramError PostAssertionEntryZC := do
  let len := min entry.expectedValue.length maxConstraintValueLen
  let source ← slice entry.expectedValue 0 len
  let expected ← copyFromSlice zc.expectedValue len source
  pure
    { targetAccount := entry.targetAccount
      offset := .ofNat entry.offset
      valueLen := .ofNat entry.valueLen
      operator := .ofNat entry.operator
      expectedValue := expected
      assertionMode := .ofNat entry.assertionMode
      crossFieldOffsetB := leBytes 2 entry.crossFieldOffsetB
      crossFieldMultiplierBps := leBytes 4 entry.crossFieldMultiplierBps
      crossFieldFlags := .ofNat entry.crossFieldFlags }

/-- The loop over the entries, from index `i` on. -/
def packFrom (zcs : Vector PostAssertionEntryZC 4) :
    List PostAssertionEntry → Nat → Eval ProgramError (Vector PostAssertionEntryZC 4)
  | [], _ => pure zcs
  | entry :: entries, i => do
      let zc ← indexAt zcs.toList i
      let packed ← packEntry entry zc
      let zcs' ← assignAt zcs i packed
      packFrom zcs' entries (i + 1)

def packEntries (entries : List PostAssertionEntry) : Eval ProgramError PostExecutionAssertionsZC := do
  let zcs ← packFrom (.replicate 4 .zeroed) entries 0
  pure { entries := zcs, entryCount := .ofNat entries.length }

/-! ## Snapshots -/

structure SnapshotArrays where
  assertionSnapshots : Vector (Vector UInt8 32) 4 := .replicate 4 (.replicate 32 0)
  snapshotLens : Vector UInt8 4 := .replicate 4 0

/-- The bytes of the target of an entry. -/
def evalTarget (ctx : Ctx) (remaining : List Pubkey) (entry : PostAssertionEntryZC) (missing : SigilError) :
    Eval ProgramError (List UInt8) := do
  require (entry.targetAccount ∈ remaining) (Fault.error (missing : ProgramError))
  let data := ctx.accountData entry.targetAccount
  let stop ← okOr (checkedAdd 64 entry.offset.toNat entry.valueLen.toNat) SigilError.postAssertionFailed
  require (stop ≤ data.length) SigilError.postAssertionFailed
  slice data entry.offset.toNat stop

def evalCaptureEntry (ctx : Ctx) (remaining : List Pubkey) (assertions : PostExecutionAssertionsZC) (i : Nat)
    (arrays : SnapshotArrays) : Eval ProgramError SnapshotArrays := do
  let entry ← indexAt assertions.entries.toList i
  if entry.assertionMode = 0 then pure arrays
  else do
    let bytes ← evalTarget ctx remaining entry .postAssertionFailed
    let snapshot ← indexAt arrays.assertionSnapshots.toList i
    let snapshot' ← copyFromSlice snapshot entry.valueLen.toNat bytes
    let snapshots ← assignAt arrays.assertionSnapshots i snapshot'
    let lens ← assignAt arrays.snapshotLens i entry.valueLen
    pure { assertionSnapshots := snapshots, snapshotLens := lens }

def evalCapture (ctx : Ctx) (remaining : List Pubkey) (assertions : PostExecutionAssertionsZC) :
    Eval ProgramError SnapshotArrays :=
  forRange (evalCaptureEntry ctx remaining assertions) assertions.entryCount.toNat 0 {}

/-! ## Evaluation -/

/-- `u64::from_le_bytes` of a buffer that starts with the bytes. -/
def evalU64 (len : Nat) (bytes : List UInt8) : Eval ProgramError Nat := do
  let buffer ← copyFromSlice (Vector.replicate 8 0) len bytes
  pure (leValue buffer.toList)

def evalCrossField (data actual : List UInt8) (entry : PostAssertionEntryZC) : Eval ProgramError Unit := do
  let len := entry.valueLen.toNat
  let offsetB := leValue entry.crossFieldOffsetB.toList
  let stopB ← okOr (checkedAdd 64 offsetB len) SigilError.postAssertionFailed
  require (stopB ≤ data.length) SigilError.postAssertionFailed
  let fieldBBytes ← slice data offsetB stopB
  let fieldA ← evalU64 len actual
  let fieldB ← evalU64 len fieldBBytes
  let multiplier := leValue entry.crossFieldMultiplierBps.toList
  if fieldB = 0 then
    require (fieldA = 0) SigilError.postAssertionFailed
  else do
    let lhs ← okOr (checkedMul 128 fieldA 10000) SigilError.overflow
    let rhs ← okOr (checkedMul 128 multiplier fieldB) SigilError.overflow
    require (lhs ≤ rhs) SigilError.postAssertionFailed

/-- Snapshot `i`, which must have been taken at the length of the entry. -/
def evalSnapshot (arrays : SnapshotArrays) (entry : PostAssertionEntryZC) (i : Nat) :
    Eval ProgramError (List UInt8) := do
  let len ← indexAt arrays.snapshotLens.toList i
  require (len = entry.valueLen) SigilError.snapshotNotCaptured
  let snapshot ← indexAt arrays.assertionSnapshots.toList i
  slice snapshot.toList 0 entry.valueLen.toNat

/-- Snapshot, present value and expected value as numbers. -/
def evalDelta (arrays : SnapshotArrays) (entry : PostAssertionEntryZC) (i : Nat) (actual : List UInt8) :
    Eval ProgramError (Nat × Nat × Nat) := do
  let len := entry.valueLen.toNat
  let snapshot ← evalSnapshot arrays entry i
  let expected ← slice entry.expectedValue.toList 0 len
  let snapVal ← evalU64 len snapshot
  let currVal ← evalU64 len actual
  let expVal ← evalU64 len expected
  pure (snapVal, currVal, expVal)

def evalEntry (ctx : Ctx) (remaining : List Pubkey) (assertions : PostExecutionAssertionsZC)
    (arrays : SnapshotArrays) (i : Nat) : Eval ProgramError Unit := do
  let entry ← indexAt assertions.entries.toList i
  let actual ← evalTarget ctx remaining entry .invalidPostAssertionIndex
  let mode ← okOr (AssertionMode.ofByte entry.assertionMode.toNat) SigilError.invalidConstraintConfig
  match mode with
  | .absolute => do
      let expected ← slice entry.expectedValue.toList 0 entry.valueLen.toNat
      let operator ← okOr (ConstraintOperator.ofByte entry.operator.toNat) SigilError.invalidConstraintOperator
      if entry.crossFieldFlags &&& 0x01 ≠ 0 then
        evalCrossField (ctx.accountData entry.targetAccount) actual entry
      else do
        let passed ← evalBytesMatch actual operator expected
        require passed SigilError.postAssertionFailed
  | .maxDecrease => do
      let (snapVal, currVal, expVal) ← evalDelta arrays entry i actual
      require (snapVal - currVal ≤ expVal) SigilError.postAssertionFailed
  | .maxIncrease => do
      let (snapVal, currVal, expVal) ← evalDelta arrays entry i actual
      require (currVal - snapVal ≤ expVal) SigilError.postAssertionFailed
  | .noChange => do
      let snapshot ← evalSnapshot arrays entry i
      require (actual = snapshot) SigilError.postAssertionFailed

def evalAssertions (ctx : Ctx) (remaining : List Pubkey) (assertions : PostExecutionAssertionsZC)
    (arrays : SnapshotArrays) : Eval ProgramError Unit :=
  forRange (fun i _ => evalEntry ctx remaining assertions arrays i) assertions.entryCount.toNat 0 ()

end Sigil
