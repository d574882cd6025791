import Sigil.Library.LittleEndian
import Sigil.Library.Panic
import Sigil.Instructions.Scan

/-!
# Jupiter instructions

The instructions of the first version as their encoder writes them, and `verify_jupiter_slippage` on a slice, where an
index or a range beyond its end and a number beyond 64 bits panic.
-/

namespace Sigil

open Library

/-! ## Encoding -/

/-- `RemainingAccountsInfo`: type and length of every slice. -/
structure RemainingAccountsInfo where
  slices : List (UInt8 × UInt8)
  countable : slices.length < 2 ^ 32

def RemainingAccountsInfo.encode (info : RemainingAccountsInfo) : List UInt8 :=
  (leBytes 4 info.slices.length).toList ++ info.slices.flatMap fun s => [s.1, s.2]

/-- The fields of a swap variant. -/
inductive SwapFields : Nat → List UInt8 → Prop where
  | fixed {variant size : Nat} {fields : List UInt8} (hsize : swapVariantSizes[variant]? = some (size : Int))
      (hfields : fields.length = size) : SwapFields variant fields
  | absent {variant : Nat} (hvariant : variant = 47 ∨ variant = 103) (flag : UInt8) : SwapFields variant [flag, 0]
  | present {variant : Nat} (hvariant : variant = 47 ∨ variant = 103) (flag : UInt8) (info : RemainingAccountsInfo) :
      SwapFields variant (flag :: 1 :: info.encode)
  | remaining (info : RemainingAccountsInfo) : SwapFields 75 info.encode

structure RoutePlanStep where
  variant : UInt8
  fields : List UInt8
  percent : UInt8
  inputIndex : UInt8
  outputIndex : UInt8
  supported : SwapFields variant.toNat fields

def RoutePlanStep.encode (step : RoutePlanStep) : List UInt8 :=
  step.variant :: step.fields ++ [step.percent, step.inputIndex, step.outputIndex]

/-- The instructions with shared accounts carry an id. -/
inductive V1Method where
  | sharedAccountsRoute (id : UInt8)
  | route
  | exactOutRoute
  | sharedAccountsExactOutRoute (id : UInt8)

def V1Method.encode : V1Method → List UInt8
  | .sharedAccountsRoute id => sharedAccountsRouteDisc ++ [id]
  | .route => routeDisc
  | .exactOutRoute => exactOutRouteDisc
  | .sharedAccountsExactOutRoute id => sharedAccountsExactOutRouteDisc ++ [id]

structure V1Instruction where
  method : V1Method
  steps : List RoutePlanStep
  inAmount : UInt64
  quotedOut : UInt64
  slippageBps : UInt16
  platformFeeBps : UInt8
  bounded : steps.length ≤ maxRouteSteps

/-- `in_amount`, `quoted_out`, `slippage_bps` and `platform_fee_bps`. -/
def V1Instruction.suffix (ix : V1Instruction) : List UInt8 :=
  (leBytes 8 ix.inAmount.toNat).toList ++ (leBytes 8 ix.quotedOut.toNat).toList ++
    (leBytes 2 ix.slippageBps.toNat).toList ++ [ix.platformFeeBps]

def V1Instruction.encode (ix : V1Instruction) : List UInt8 :=
  ix.method.encode ++ ((leBytes 4 ix.steps.length).toList ++ (ix.steps.flatMap RoutePlanStep.encode ++ ix.suffix))

/-! ## The parser on a slice -/

/-- A slice has at most `isize::MAX` bytes. -/
abbrev ByteSlice : Type := { data : List UInt8 // data.length < 2 ^ 63 }

/-- `a + b`. -/
def addUsize (a b : Nat) : Eval ProgramError Nat := okOr (checkedAdd 64 a b) .panic

/-- `cursor.checked_add(n)`. -/
def advance (cursor n : Nat) : Eval ProgramError Nat :=
  okOr (checkedAdd 64 cursor n) SigilError.invalidJupiterInstruction

/-- `from_le_bytes` of a slice that is converted into an array. -/
def fromLeBytes (size : Nat) (bytes : List UInt8) : Eval ProgramError Nat := do
  require (bytes.length = size) SigilError.invalidJupiterInstruction
  pure (leValue bytes)

/-- `u32::from_le_bytes(data[cursor..cursor + 4])` and the cursor behind it. -/
def evalVecLen (data : List UInt8) (cursor : Nat) : Eval ProgramError (Nat × Nat) := do
  let stop ← advance cursor 4
  require (stop ≤ data.length) SigilError.invalidJupiterInstruction
  let bytes ← slice data cursor stop
  let vecLen ← fromLeBytes 4 bytes
  pure (vecLen, stop)

def evalSkipRemaining (data : List UInt8) (cursor : Nat) : Eval ProgramError Nat := do
  let counted ← evalVecLen data cursor
  let skip ← okOr (checkedMul 64 counted.1 2) SigilError.invalidJupiterInstruction
  let next ← advance counted.2 skip
  require (next ≤ data.length) SigilError.invalidJupiterInstruction
  pure next

def evalSkipOption (data : List UInt8) (cursor : Nat) : Eval ProgramError Nat := do
  require (data.length > cursor) SigilError.invalidJupiterInstruction
  let tag ← indexAt data cursor
  let next ← advance cursor 1
  if tag = 1 then
    evalSkipRemaining data next
  else do
    require (tag = 0) SigilError.invalidJupiterInstruction
    pure next

def evalSkipVariable (data : List UInt8) (cursor variant : Nat) : Eval ProgramError Nat :=
  if variant = 47 ∨ variant = 103 then do
    let next ← advance cursor 1
    evalSkipOption data next
  else if variant = 75 then
    evalSkipRemaining data cursor
  else
    .error SigilError.invalidJupiterInstruction

/-- The fields of a variant, by its size in the table. -/
def evalSkipFields (data : List UInt8) (cursor variant : Nat) (size : Int) : Eval ProgramError Nat :=
  if size ≥ 0 then advance cursor size.toNat
  else if size = -1 then evalSkipVariable data cursor variant
  else .error SigilError.invalidJupiterInstruction

def evalRouteStep (data : List UInt8) (cursor : Nat) : Eval ProgramError Nat := do
  require (data.length > cursor) SigilError.invalidJupiterInstruction
  let variant ← indexAt data cursor
  let fields ← advance cursor 1
  require (variant.toNat < swapVariantSizes.length) SigilError.invalidJupiterInstruction
  let size ← indexAt swapVariantSizes variant.toNat
  let next ← evalSkipFields data fields variant.toNat size
  advance next 3

def evalQuotedOut (data : List UInt8) (cursor : Nat) : Eval ProgramError Nat := do
  let start ← addUsize cursor 8
  let stop ← addUsize cursor 16
  let bytes ← slice data start stop
  fromLeBytes 8 bytes

def evalSlippageBps (data : List UInt8) (cursor : Nat) : Eval ProgramError Nat := do
  let low ← addUsize cursor 16
  let lowByte ← indexAt data low
  let high ← addUsize cursor 17
  let highByte ← indexAt data high
  pure (leValue [lowByte, highByte])

def evalJupiterSlippage (data : List UInt8) (maxSlippageBps : Nat) : Eval ProgramError Unit := do
  require (24 ≤ data.length) SigilError.invalidJupiterInstruction
  let disc ← slice data 0 8
  let hasId := disc = sharedAccountsRouteDisc ∨ disc = sharedAccountsExactOutRouteDisc
  require (hasId ∨ disc = routeDisc ∨ disc = exactOutRouteDisc) SigilError.invalidJupiterInstruction
  let counted ← evalVecLen data (if hasId then 9 else 8)
  require (counted.1 ≤ maxRouteSteps) SigilError.invalidJupiterInstruction
  let cursor ← forRange (fun _ cursor => evalRouteStep data cursor) counted.1 0 counted.2
  let expectedLen ← advance cursor v1SuffixSize
  require (data.length = expectedLen) SigilError.invalidJupiterInstruction
  let quotedOut ← evalQuotedOut data cursor
  let slippageBps ← evalSlippageBps data cursor
  require (0 < quotedOut) SigilError.swapSlippageExceeded
  require (slippageBps ≤ maxSlippageBps) SigilError.swapSlippageExceeded

end Sigil
