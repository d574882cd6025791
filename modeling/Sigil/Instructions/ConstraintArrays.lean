import Sigil.Library.Layout
import Sigil.Instructions.AssertionArrays

/-!
# Constraints in arrays

The accounts of the constraints hold their entries in arrays of a fixed size, over whatever was there before, and
`apply_constraints_update` copies the bytes of all of them. The matcher reads the arrays. Indices, slices and copies can
panic here.
-/

namespace Sigil

open Library

/-! ## The Borsh matcher -/

/-- The turns over the entries of the program: whether one was found, passed, or failed on a writable flag alone. -/
def verifyBorsh (ix : RawInstruction) : List ConstraintEntry → Bool → Bool → Result Bool
  | [], foundAny, writabilityFailureSeen =>
      if !foundAny then pure false
      else if writabilityFailureSeen then .error SigilError.accountWritabilityMismatch
      else .error SigilError.constraintViolated
  | entry :: entries, _, writabilityFailureSeen =>
      let dataOk := (verifyDataConstraints ix.data entry).isOk
      let acctResult := verifyAccountConstraints ix.accounts entry
      if acctResult.isOk && dataOk then pure true
      else
        let mismatch := dataOk && acctResult = .error SigilError.accountWritabilityMismatch
        verifyBorsh ix entries true (writabilityFailureSeen || mismatch)

/-- `verify_against_entries` -/
def verifyAgainstEntriesBorsh (entries : List ConstraintEntry) (ix : RawInstruction) : Result Bool :=
  verifyBorsh ix (entries.filter (·.programId = ix.programId)) false false

/-! ## Arrays -/

structure DataConstraintZC where
  offset : UInt16
  operator : UInt8
  valueLen : UInt8
  value : Vector UInt8 32
  padding : Vector UInt8 4

structure AccountConstraintZC where
  expected : Pubkey
  index : UInt8
  isWritableRequired : UInt8
  padding : Vector UInt8 6

structure ConstraintEntryZC where
  programId : Pubkey
  dataConstraints : Vector DataConstraintZC 8
  accountConstraints : Vector AccountConstraintZC 5
  dataCount : UInt8
  accountCount : UInt8
  reservedWasIsSpending : UInt8
  discriminatorFormat : UInt8
  padding : Vector UInt8 4

structure InstructionConstraintsZC where
  discriminator : Vector UInt8 8
  vault : Pubkey
  entries : Vector ConstraintEntryZC 64
  entryCount : UInt8
  strictMode : UInt8
  bump : UInt8
  constraintVersion : UInt8
  padding : Vector UInt8 4

structure PendingConstraintsUpdateZC where
  discriminator : Vector UInt8 8
  vault : Pubkey
  entries : Vector ConstraintEntryZC 64
  entryCount : UInt8
  strictMode : UInt8
  bump : UInt8
  padding : Vector UInt8 5
  queuedAt : Int64
  executesAt : Int64
  queuedAtSlot : UInt64

def DataConstraintZC.zeroed : DataConstraintZC :=
  { offset := 0, operator := 0, valueLen := 0, value := .replicate 32 0, padding := .replicate 4 0 }

def AccountConstraintZC.zeroed : AccountConstraintZC :=
  { expected := .default, index := 0, isWritableRequired := 0, padding := .replicate 6 0 }

def ConstraintEntryZC.zeroed : ConstraintEntryZC :=
  { programId := .default
    dataConstraints := .replicate 8 .zeroed
    accountConstraints := .replicate 5 .zeroed
    dataCount := 0
    accountCount := 0
    reservedWasIsSpending := 0
    discriminatorFormat := 0
    padding := .replicate 4 0 }

/-! ## Packing -/

def ConstraintOperator.toByte : ConstraintOperator → UInt8
  | .eq => 0
  | .ne => 1
  | .gte => 2
  | .lte => 3
  | .gteSigned => 4
  | .lteSigned => 5
  | .bitmask => 6

def DiscriminatorFormat.toByte : DiscriminatorFormat → UInt8
  | .anchor8 => 0
  | .spl1 => 1

def packDataConstraint (dc : DataConstraint) (zc : DataConstraintZC) : Eval ProgramError DataConstraintZC := do
  let value ← copyFromSlice zc.value dc.value.length dc.value
  pure { zc with
    offset := .ofNat dc.offset
    operator := dc.operator.toByte
    valueLen := .ofNat dc.value.length
    value := value }

def packAccountConstraint (ac : AccountConstraint) (zc : AccountConstraintZC) :
    Eval ProgramError AccountConstraintZC :=
  pure { zc with
    expected := ac.expected
    index := .ofNat ac.index
    isWritableRequired := .ofNat ac.isWritableRequired }

/-- What the slot held before is zeroed. -/
def packConstraintEntry (entry : ConstraintEntry) (_ : ConstraintEntryZC) : Eval ProgramError ConstraintEntryZC := do
  let zeroed := ConstraintEntryZC.zeroed
  let dataConstraints ← packInto packDataConstraint zeroed.dataConstraints entry.dataConstraints 0
  let accountConstraints ← packInto packAccountConstraint zeroed.accountConstraints entry.accountConstraints 0
  pure { zeroed with
    programId := entry.programId
    dataConstraints := dataConstraints
    accountConstraints := accountConstraints
    dataCount := .ofNat entry.dataConstraints.length
    accountCount := .ofNat entry.accountConstraints.length
    discriminatorFormat := entry.discriminatorFormat.toByte }

/-- The entries over the previous ones, and their number. -/
def packConstraintEntries (entries : List ConstraintEntry) (dst : Vector ConstraintEntryZC 64) :
    Eval ProgramError (Vector ConstraintEntryZC 64 × UInt8) := do
  let packed ← packInto packConstraintEntry dst entries 0
  pure (packed, .ofNat entries.length)

/-! ## The zero-copy matcher -/

def evalDataConstraint (data : List UInt8) (entry : ConstraintEntryZC) (j : Nat) : Eval ProgramError Unit := do
  let dc ← indexAt entry.dataConstraints.toList j
  let offset := dc.offset.toNat
  let len := dc.valueLen.toNat
  let stop ← okOr (checkedAdd 64 offset len) SigilError.constraintViolated
  require (stop ≤ data.length) SigilError.constraintViolated
  let actual ← slice data offset stop
  let expected ← slice dc.value.toList 0 len
  let operator ← okOr (ConstraintOperator.ofByte dc.operator.toNat) SigilError.invalidConstraintOperator
  let passed ← evalBytesMatch actual operator expected
  require passed SigilError.constraintViolated

def evalDataConstraints (data : List UInt8) (entry : ConstraintEntryZC) : Eval ProgramError Unit :=
  forRange (fun j _ => evalDataConstraint data entry j) entry.dataCount.toNat 0 ()

def evalAccountConstraint (accounts : List AccountMeta) (entry : ConstraintEntryZC) (k : Nat) :
    Eval ProgramError Unit := do
  let ac ← indexAt entry.accountConstraints.toList k
  require (ac.index.toNat < accounts.length) SigilError.constraintViolated
  let account ← indexAt accounts ac.index.toNat
  require (account.pubkey = ac.expected) SigilError.constraintViolated
  lift (checkWritableFlag account.isWritable ac.isWritableRequired.toNat)

def evalAccountConstraints (accounts : List AccountMeta) (entry : ConstraintEntryZC) : Eval ProgramError Unit :=
  forRange (fun k _ => evalAccountConstraint accounts entry k) entry.accountCount.toNat 0 ()

/-- The turns over `n` entries from entry `i` on. -/
def evalEntries (ix : RawInstruction) (constraints : InstructionConstraintsZC) :
    Nat → Nat → Bool → Bool → Eval ProgramError (Option Nat)
  | 0, _, foundAny, writabilityFailureSeen =>
      if !foundAny then pure none
      else if writabilityFailureSeen then .error SigilError.accountWritabilityMismatch
      else .error SigilError.constraintViolated
  | n + 1, i, foundAny, writabilityFailureSeen => do
      let entry ← indexAt constraints.entries.toList i
      if entry.programId ≠ ix.programId then
        evalEntries ix constraints n (i + 1) foundAny writabilityFailureSeen
      else do
        let dataResult ← caught (evalDataConstraints ix.data entry)
        let acctResult ← caught (evalAccountConstraints ix.accounts entry)
        if acctResult.isOk && dataResult.isOk then
          pure (some i)
        else
          let mismatch := dataResult.isOk && acctResult = .error SigilError.accountWritabilityMismatch
          evalEntries ix constraints n (i + 1) true (writabilityFailureSeen || mismatch)

/-- `verify_against_entries_zc` -/
def evalAgainstEntries (constraints : InstructionConstraintsZC) (ix : RawInstruction) :
    Eval ProgramError (Option Nat) :=
  evalEntries ix constraints constraints.entryCount.toNat 0 false false

/-! ## Memory -/

/-- A byte of an account. The bytes of an address are symbolic, as the address is. -/
inductive Cell where
  | byte (b : UInt8)
  | address (k : Pubkey) (i : Nat)
  deriving DecidableEq, Repr

namespace Cell

def byteLayout : Layout Cell UInt8 where
  size := 1
  cells b := [.byte b]
  read
    | .byte b :: _ => some b
    | _ => none
  length_cells _ := rfl
  read_cells _ _ := rfl

def addressLayout : Layout Cell Pubkey where
  size := 32
  cells k := (List.range 32).map (.address k)
  read cells :=
    match cells.head? with
    | some (.address k _) => if cells.take 32 = (List.range 32).map (.address k) then some k else none
    | _ => none
  length_cells _ := by simp
  read_cells k rest := by
    have hhead : ((List.range 32).map (Cell.address k) ++ rest).head? = some (.address k 0) := rfl
    have htake : ((List.range 32).map (Cell.address k) ++ rest).take 32 = (List.range 32).map (.address k) := by
      rw [List.take_left' (by simp)]
    simp only [hhead, htake, if_true]

abbrev bytesLayout (n : Nat) : Layout Cell (Vector UInt8 n) := byteLayout.array n

/-- `n` bytes, the lowest first. -/
def u16Layout : Layout Cell UInt16 :=
  (bytesLayout 2).map (fun x => leBytes 2 x.toNat) (fun v => .ofNat (leValue v.toList)) fun x => by
    rw [leValue_leBytes x.toNat_lt, UInt16.ofNat_toNat]

def u64Layout : Layout Cell UInt64 :=
  (bytesLayout 8).map (fun x => leBytes 8 x.toNat) (fun v => .ofNat (leValue v.toList)) fun x => by
    rw [leValue_leBytes x.toNat_lt, UInt64.ofNat_toNat]

def i64Layout : Layout Cell Int64 :=
  u64Layout.map Int64.toUInt64 UInt64.toInt64 fun x => by simp

end Cell

open Cell in
def DataConstraintZC.layout : Layout Cell DataConstraintZC :=
  (u16Layout.pair (byteLayout.pair (byteLayout.pair ((bytesLayout 32).pair (bytesLayout 4))))).map
    (fun z => (z.offset, z.operator, z.valueLen, z.value, z.padding))
    (fun f => { offset := f.1, operator := f.2.1, valueLen := f.2.2.1, value := f.2.2.2.1, padding := f.2.2.2.2 })
    fun _ => rfl

open Cell in
def AccountConstraintZC.layout : Layout Cell AccountConstraintZC :=
  (addressLayout.pair (byteLayout.pair (byteLayout.pair (bytesLayout 6)))).map
    (fun z => (z.expected, z.index, z.isWritableRequired, z.padding))
    (fun f => { expected := f.1, index := f.2.1, isWritableRequired := f.2.2.1, padding := f.2.2.2 })
    fun _ => rfl

open Cell in
def ConstraintEntryZC.layout : Layout Cell ConstraintEntryZC :=
  (addressLayout.pair ((DataConstraintZC.layout.array 8).pair ((AccountConstraintZC.layout.array 5).pair
    (byteLayout.pair (byteLayout.pair (byteLayout.pair (byteLayout.pair (bytesLayout 4)))))))).map
    (fun z => (z.programId, z.dataConstraints, z.accountConstraints, z.dataCount, z.accountCount,
      z.reservedWasIsSpending, z.discriminatorFormat, z.padding))
    (fun f => { programId := f.1, dataConstraints := f.2.1, accountConstraints := f.2.2.1, dataCount := f.2.2.2.1
                accountCount := f.2.2.2.2.1, reservedWasIsSpending := f.2.2.2.2.2.1
                discriminatorFormat := f.2.2.2.2.2.2.1, padding := f.2.2.2.2.2.2.2 })
    fun _ => rfl

/-- Discriminator and vault, which both accounts begin with. -/
def headerLayout : Layout Cell (Vector UInt8 8 × Pubkey) := (Cell.bytesLayout 8).pair Cell.addressLayout

def entriesLayout : Layout Cell (Vector ConstraintEntryZC 64) := ConstraintEntryZC.layout.array 64

open Cell in
def constraintsTailLayout : Layout Cell (UInt8 × UInt8 × UInt8 × UInt8 × Vector UInt8 4) :=
  byteLayout.pair (byteLayout.pair (byteLayout.pair (byteLayout.pair (bytesLayout 4))))

open Cell in
def pendingTailLayout : Layout Cell (UInt8 × UInt8 × UInt8 × Vector UInt8 5 × Int64 × Int64 × UInt64) :=
  byteLayout.pair (byteLayout.pair (byteLayout.pair ((bytesLayout 5).pair (i64Layout.pair (i64Layout.pair u64Layout)))))

def InstructionConstraintsZC.layout : Layout Cell InstructionConstraintsZC :=
  (headerLayout.pair (entriesLayout.pair constraintsTailLayout)).map
    (fun z => ((z.discriminator, z.vault), z.entries, z.entryCount, z.strictMode, z.bump, z.constraintVersion,
      z.padding))
    (fun f => { discriminator := f.1.1, vault := f.1.2, entries := f.2.1, entryCount := f.2.2.1
                strictMode := f.2.2.2.1, bump := f.2.2.2.2.1, constraintVersion := f.2.2.2.2.2.1
                padding := f.2.2.2.2.2.2 })
    fun _ => rfl

def PendingConstraintsUpdateZC.layout : Layout Cell PendingConstraintsUpdateZC :=
  (headerLayout.pair (entriesLayout.pair pendingTailLayout)).map
    (fun z => ((z.discriminator, z.vault), z.entries, z.entryCount, z.strictMode, z.bump, z.padding, z.queuedAt,
      z.executesAt, z.queuedAtSlot))
    (fun f => { discriminator := f.1.1, vault := f.1.2, entries := f.2.1, entryCount := f.2.2.1
                strictMode := f.2.2.2.1, bump := f.2.2.2.2.1, padding := f.2.2.2.2.2.1, queuedAt := f.2.2.2.2.2.2.1
                executesAt := f.2.2.2.2.2.2.2.1, queuedAtSlot := f.2.2.2.2.2.2.2.2 })
    fun _ => rfl

/-! ## Queueing and applying -/

/-- What `queue_constraints_update` writes into its account, which may hold anything but the entries. -/
def evalQueueConstraints (entries : List ConstraintEntry) (strictMode : Bool) (queuedAt executesAt : Int64)
    (slot : UInt64) (pending : PendingConstraintsUpdateZC) : Eval ProgramError PendingConstraintsUpdateZC := do
  let packed ← packConstraintEntries entries pending.entries
  pure { pending with
    entries := packed.1
    entryCount := packed.2
    strictMode := if strictMode then 1 else 0
    queuedAt := queuedAt
    executesAt := executesAt
    queuedAtSlot := slot }

/-- `8 + 32` -/
def entriesOffset : Nat := 8 + 32

/-- `size_of::<ConstraintEntryZC>() * MAX_CONSTRAINT_ENTRIES` -/
def entriesSize : Nat := 560 * maxConstraintEntries

/-- The bytes that `apply_constraints_update` copies, and the two numbers that it writes afterwards. -/
def evalApplyConstraints (pending : PendingConstraintsUpdateZC) (constraints : InstructionConstraintsZC) :
    Eval ProgramError InstructionConstraintsZC := do
  let data ← Layout.copyBetween (PendingConstraintsUpdateZC.layout.cells pending)
    (InstructionConstraintsZC.layout.cells constraints) entriesOffset (entriesOffset + entriesSize)
  let copied ← okOr (InstructionConstraintsZC.layout.read data) .panic
  pure { copied with entryCount := pending.entryCount, strictMode := pending.strictMode }

end Sigil
