import Sigil.Runtime.World

/-!
# Instruction scan

What `validate_and_authorize` checks of the other instructions of its transaction: the constraint entries of
`integrations/generic_constraints.rs`, the slippage of `integrations/jupiter.rs`, and the scans themselves.
-/

namespace Sigil

open Library

/-! ## Constraint entries -/

/-- Bytes of equal length, most significant first: 1, -1 or 0. -/
def compareBytes : List UInt8 → List UInt8 → Int
  | a :: as, b :: bs => if a > b then 1 else if a < b then -1 else compareBytes as bs
  | _, _ => 0

def padTo (n : Nat) (fill : UInt8) (bytes : List UInt8) : List UInt8 :=
  bytes ++ List.replicate (n - bytes.length) fill

def compareLeUnsigned (a b : List UInt8) : Int :=
  let n := max a.length b.length
  compareBytes (padTo n 0 a).reverse (padTo n 0 b).reverse

/-- Sign bit of a little-endian number. -/
def isNegative (a : List UInt8) : Bool :=
  match a.getLast? with
  | some b => b ≥ 0x80
  | none => false

def compareLeSigned (a b : List UInt8) : Int :=
  if isNegative a && !isNegative b then -1
  else if !isNegative a && isNegative b then 1
  else
    let n := max a.length b.length
    let fill (bytes : List UInt8) : UInt8 := if isNegative bytes then 0xFF else 0
    compareBytes (padTo n (fill a) a).reverse (padTo n (fill b) b).reverse

def bitmaskCheck : List UInt8 → List UInt8 → Bool
  | _, [] => true
  | [], m :: ms => m = 0 && bitmaskCheck [] ms
  | a :: as, m :: ms => a &&& m = m && bitmaskCheck as ms

def bytesMatch (actual : List UInt8) (operator : ConstraintOperator) (expected : List UInt8) : Bool :=
  match operator with
  | .eq => actual = expected
  | .ne => actual ≠ expected
  | .gte => compareLeUnsigned actual expected ≥ 0
  | .lte => compareLeUnsigned actual expected ≤ 0
  | .gteSigned => compareLeSigned actual expected ≥ 0
  | .lteSigned => compareLeSigned actual expected ≤ 0
  | .bitmask => bitmaskCheck actual expected

def verifyDataConstraint (data : List UInt8) (dc : DataConstraint) : Result Unit := do
  require (dc.offset + dc.value.length ≤ data.length) SigilError.constraintViolated
  require (bytesMatch ((data.drop dc.offset).take dc.value.length) dc.operator dc.value)
    SigilError.constraintViolated

def verifyDataConstraints (data : List UInt8) (entry : ConstraintEntry) : Result Unit :=
  entry.dataConstraints.forM (verifyDataConstraint data)

def checkWritableFlag (actualWritable : Bool) (required : Nat) : Result Unit :=
  match required with
  | 0 => pure ()
  | 1 => require (actualWritable = false) SigilError.accountWritabilityMismatch
  | 2 => require (actualWritable = true) SigilError.accountWritabilityMismatch
  | _ => .error SigilError.invalidConstraintConfig

def verifyAccountConstraint (accounts : List AccountMeta) (ac : AccountConstraint) : Result Unit := do
  let account ← okOr accounts[ac.index]? SigilError.constraintViolated
  require (account.pubkey = ac.expected) SigilError.constraintViolated
  checkWritableFlag account.isWritable ac.isWritableRequired

def verifyAccountConstraints (accounts : List AccountMeta) (entry : ConstraintEntry) : Result Unit :=
  entry.accountConstraints.forM (verifyAccountConstraint accounts)

/-- The entries of one program are alternatives. A mismatch of writability is reported only if no entry
passes and some entry failed on nothing else. -/
def verifyEntries (ix : RawInstruction) : List ConstraintEntry → Nat → Bool → Bool → Result (Option Nat)
  | [], _, foundAny, writabilityFailureSeen =>
      if !foundAny then pure none
      else if writabilityFailureSeen then .error SigilError.accountWritabilityMismatch
      else .error SigilError.constraintViolated
  | entry :: entries, i, foundAny, writabilityFailureSeen =>
      if entry.programId ≠ ix.programId then
        verifyEntries ix entries (i + 1) foundAny writabilityFailureSeen
      else
        match verifyAccountConstraints ix.accounts entry, verifyDataConstraints ix.data entry with
        | .ok (), .ok () => pure (some i)
        | .error e, .ok () => verifyEntries ix entries (i + 1) true
            (writabilityFailureSeen || e = .sigil .accountWritabilityMismatch)
        | _, .error _ => verifyEntries ix entries (i + 1) true writabilityFailureSeen

def verifyAgainstEntries (constraints : InstructionConstraints) (ix : RawInstruction) : Result (Option Nat) :=
  verifyEntries ix constraints.entries 0 false false

/-! ## Jupiter slippage -/

def sharedAccountsRouteDisc : List UInt8 := [193, 32, 155, 51, 65, 214, 156, 129]
def routeDisc : List UInt8 := [229, 23, 203, 151, 122, 227, 173, 42]
def exactOutRouteDisc : List UInt8 := [208, 51, 239, 151, 123, 43, 237, 92]
def sharedAccountsExactOutRouteDisc : List UInt8 := [176, 209, 105, 168, 154, 125, 69, 62]

def maxRouteSteps : Nat := 10
def v1SuffixSize : Nat := 19

/-- Field sizes of the swap variants: `-1` has a variable length, `-2` is rejected. -/
def swapVariantSizes : List Int :=
  [0, 0, 0, 0, 0, 0, 0, 0, 1, 0, 0, 0, 1, 0, 0, 1, 1, 1, 1, 0, 0, 1, 0, 1, 1, 0, 0, 1, 1, 16, 0,
   0, 0, 4, 0, 0, 0, 0, 0, 1, 0, 4, 3, 10, 5, 5, 0, -1, 0, 0, 0, 0, 0, 0, 0, 0, 0, 0, 1, 0, 1, 1,
   0, 0, 1, 0, 0, 0, 0, 0, 0, 2, 0, 0, 0, -1, 0, 0, 0, 0, 0, 8, 8, 0, 0, 1, 2, 9, 0, 1, 0, 0, 0,
   0, 1, 1, 0, 0, 0, 0, 0, 0, 0, -1, 1, 0, 1, 1, 0, 0, 1, -2, 0, 0, 0, 0, 1, 1, 9, 1, -2, 1, 16,
   48, 0, 1, 17]

def leNat (bytes : List UInt8) : Nat := bytes.foldr (fun b n => b.toNat + 256 * n) 0

/-- A little-endian number of `size` bytes at `cursor`. -/
def readLe (data : List UInt8) (cursor size : Nat) : Result Nat := do
  require (cursor + size ≤ data.length) SigilError.invalidJupiterInstruction
  pure (leNat ((data.drop cursor).take size))

def skipRemainingAccountsInfo (data : List UInt8) (cursor : Nat) : Result Nat := do
  let vecLen ← readLe data cursor 4
  let next := cursor + 4 + vecLen * 2
  require (next ≤ data.length) SigilError.invalidJupiterInstruction
  pure next

def skipOptionRemainingAccountsInfo (data : List UInt8) (cursor : Nat) : Result Nat := do
  let tag ← readLe data cursor 1
  if tag = 1 then
    skipRemainingAccountsInfo data (cursor + 1)
  else do
    require (tag = 0) SigilError.invalidJupiterInstruction
    pure (cursor + 1)

def skipVariableSwapFields (data : List UInt8) (cursor variant : Nat) : Result Nat :=
  if variant = 47 ∨ variant = 103 then skipOptionRemainingAccountsInfo data (cursor + 1)
  else if variant = 75 then skipRemainingAccountsInfo data cursor
  else .error SigilError.invalidJupiterInstruction

/-- One step of the route: variant, its fields, percent, input index and output index. -/
def skipRouteStep (data : List UInt8) (cursor : Nat) : Result Nat := do
  let variant ← readLe data cursor 1
  let size ← okOr swapVariantSizes[variant]? SigilError.invalidJupiterInstruction
  if size ≥ 0 then
    pure (cursor + 1 + size.toNat + 3)
  else if size = -1 then do
    let next ← skipVariableSwapFields data (cursor + 1) variant
    pure (next + 3)
  else
    .error SigilError.invalidJupiterInstruction

def skipRouteSteps (data : List UInt8) : Nat → Nat → Result Nat
  | 0, cursor => pure cursor
  | n + 1, cursor => do
      let next ← skipRouteStep data cursor
      skipRouteSteps data n next

def verifyJupiterSlippage (data : List UInt8) (maxSlippageBps : Nat) : Result Unit := do
  require (24 ≤ data.length) SigilError.invalidJupiterInstruction
  let disc := data.take 8
  let hasId := disc = sharedAccountsRouteDisc ∨ disc = sharedAccountsExactOutRouteDisc
  require (hasId ∨ disc = routeDisc ∨ disc = exactOutRouteDisc) SigilError.invalidJupiterInstruction
  let start := if hasId then 9 else 8
  let vecLen ← readLe data start 4
  require (vecLen ≤ maxRouteSteps) SigilError.invalidJupiterInstruction
  let cursor ← skipRouteSteps data vecLen (start + 4)
  require (data.length = cursor + v1SuffixSize) SigilError.invalidJupiterInstruction
  let quotedOut ← readLe data (cursor + 8) 8
  let slippageBps ← readLe data (cursor + 16) 2
  require (0 < quotedOut) SigilError.swapSlippageExceeded
  require (slippageBps ≤ maxSlippageBps) SigilError.swapSlippageExceeded

/-! ## The scans -/

abbrev maxSysvarScanIterations : Nat := 64

def finalizeSessionDiscriminator : List UInt8 := [34, 148, 144, 47, 37, 130, 206, 161]

inductive ScanAction where
  | foundFinalize | infrastructure | passedSharedChecks
  deriving DecidableEq, Repr

def isInfrastructure (programId : Pubkey) : Bool :=
  programId = computeBudgetProgramId || programId = systemProgramId

/-- Top-level instructions of the token programs that move tokens or hand out authority. -/
def blockedTokenOpcode (ix : RawInstruction) : Option SigilError :=
  match ix.data.head? with
  | none => none
  | some opcode =>
      if ix.programId = splTokenProgramId then
        if opcode = 4 ∨ opcode = 13 then some .unauthorizedTokenApproval
        else if opcode ∈ ([3, 12, 6, 8, 9, 15] : List UInt8) then some .unauthorizedTokenTransfer
        else none
      else if ix.programId = token2022ProgramId then
        if opcode = 4 ∨ opcode = 13 then some .unauthorizedTokenApproval
        else if opcode ∈ ([3, 12, 26, 6, 8, 9, 15] : List UInt8) then some .unauthorizedTokenTransfer
        else if opcode = 27 ∨ opcode = 42 then some .confidentialTransferBlocked
        else if opcode = 35 then some .permanentDelegateBlocked
        else if opcode = 36 then some .transferHookBlocked
        else if opcode ∈ ([38, 45, 46] : List UInt8) then some .lamportDrainBlocked
        else if opcode = 255 then some .batchInstructionBlocked
        else none
      else none

def isFinalizeSession (ix : RawInstruction) : Bool :=
  ix.programId = crateId && ix.data.take 8 = finalizeSessionDiscriminator

def scanInstructionShared (ix : RawInstruction) (policy : PolicyConfig)
    (constraints : Option InstructionConstraints) : Result ScanAction :=
  if isFinalizeSession ix then
    pure .foundFinalize
  else
    match blockedTokenOpcode ix with
    | some e => .error e
    | none =>
        if isInfrastructure ix.programId then
          pure .infrastructure
        else do
          require (ix.programId ∉ knownAsyncFulfillmentPrograms) SigilError.asyncFulfillmentNotPermitted
          require (policy.isProtocolAllowed ix.programId) SigilError.protocolNotAllowed
          match constraints with
          | none => pure .passedSharedChecks
          | some c => do
              let matched ← verifyAgainstEntries c ix
              require (matched.isSome ∨ c.strictMode = false) SigilError.unconstrainedProgramBlocked
              pure .passedSharedChecks

def enforceJupiterSlippageIfJupiter (ix : RawInstruction) (maxSlippageBps : Nat) : Result Unit :=
  if ix.programId = jupiterProgram then verifyJupiterSlippage ix.data maxSlippageBps else pure ()

def isRecognizedDefi (programId : Pubkey) : Bool :=
  programId ∈ [jupiterProgram, flashTradeProgram, jupiterLendProgram, jupiterEarnProgram, jupiterBorrowProgram]

/-- Instructions before `validate_and_authorize`. -/
def scanBefore : List RawInstruction → Nat → Result Unit
  | [], _ => pure ()
  | ix :: rest, iterCount => do
      require (iterCount < maxSysvarScanIterations) SigilError.sysvarScanBoundExceeded
      require (isInfrastructure ix.programId) SigilError.unauthorizedPreValidateInstruction
      scanBefore rest (iterCount + 1)

/-- Instructions after `validate_and_authorize` of a spending session: the number of recognized DeFi
instructions up to `finalize_session`, and whether that was found. -/
def scanSpending (policy : PolicyConfig) (constraints : Option InstructionConstraints) (targetProtocol : Pubkey) :
    List RawInstruction → Nat → Nat → Result (Nat × Bool)
  | [], _, defiIxCount => pure (defiIxCount, false)
  | ix :: rest, iterCount, defiIxCount => do
      require (iterCount < maxSysvarScanIterations) SigilError.sysvarScanBoundExceeded
      let action ← scanInstructionShared ix policy constraints
      match action with
      | .foundFinalize => pure (defiIxCount, true)
      | .infrastructure => scanSpending policy constraints targetProtocol rest (iterCount + 1) defiIxCount
      | .passedSharedChecks => do
          require (isRecognizedDefi ix.programId → ix.programId = targetProtocol) SigilError.protocolMismatch
          enforceJupiterSlippageIfJupiter ix policy.maxSlippageBps
          let defiIxCount' := if isRecognizedDefi ix.programId then saturatingAdd 8 defiIxCount 1 else defiIxCount
          scanSpending policy constraints targetProtocol rest (iterCount + 1) defiIxCount'

def scanNonSpending (policy : PolicyConfig) (constraints : Option InstructionConstraints) :
    List RawInstruction → Nat → Result Bool
  | [], _ => pure false
  | ix :: rest, iterCount => do
      require (iterCount < maxSysvarScanIterations) SigilError.sysvarScanBoundExceeded
      let action ← scanInstructionShared ix policy constraints
      match action with
      | .foundFinalize => pure true
      | .infrastructure => scanNonSpending policy constraints rest (iterCount + 1)
      | .passedSharedChecks => do
          enforceJupiterSlippageIfJupiter ix policy.maxSlippageBps
          scanNonSpending policy constraints rest (iterCount + 1)

/-- Instructions after `finalize_session`. The scan stops at its bound without an error. -/
def scanAfter : List RawInstruction → Nat → Result Unit
  | [], _ => pure ()
  | ix :: rest, iterCount =>
      if iterCount < maxSysvarScanIterations then do
        require (isInfrastructure ix.programId) SigilError.unauthorizedPostFinalizeInstruction
        scanAfter rest (iterCount + 1)
      else
        pure ()

end Sigil
