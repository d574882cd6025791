import Sigil.Instructions.ConstraintArrays
import Sigil.Sdk.Events

/-!
# Summaries of constraints

`inspectConstraints` of `inspector.ts`, with the names of protocols.
-/

namespace Sigil.Sdk

open Library

/-! ## Names of protocols -/

/-- `SUPPORTED_PROTOCOLS` -/
def protocolNames : List (String × String) :=
  [("JUP6LkbZbjS1jKKwapdHNy74zcZ3tLUZoi5QNyVTaV4", "Jupiter"),
   ("FLASH6Lo6h3iasJKWDs2F8TkW2UKf3s15C8PMGuVfgBn", "Flash Trade"),
   ("JLend2fEim9xUFcaHsyGePEoBzFLvkjMi3MnPcSuCdu", "Jupiter Lend"),
   ("jup3YeL8QhtSx1e253b2FDvsMNC87fDrgQZivbrndc9", "Jupiter Earn"),
   ("jupr81YtYssSyPt8jbnGuiWon5f6x9TcDEFxYe3Bdzi", "Jupiter Borrow"),
   ("dRiftyHA39MWEi3m9aunc5MzRF1JYuBsbn6VPcn33UH", "Drift"),
   ("KLend2g3cP87ber8CzRaqeECGwNvLFM9acPVcRkRHvM", "Kamino")]

/-- The first and the last four characters of a long address. -/
def formatAddress (address : String) : String :=
  let cs := address.toList
  if cs.length ≤ 4 * 2 + 3 then address
  else .ofList (cs.take 4 ++ "...".toList ++ cs.drop (cs.length - 4))

def resolveProtocolName (protocol : String) : String :=
  (protocolNames.lookup protocol).getD (formatAddress protocol)

/-! ## Decoded entries -/

structure DecodedDataConstraint where
  offset : Nat
  /-- `none` is an operator that is no number. -/
  operator : Option Nat
  value : List UInt8
  deriving DecidableEq, Repr

structure DecodedAccountConstraint where
  index : Nat
  isWritableRequired : Nat
  expected : String
  deriving DecidableEq, Repr

structure DecodedConstraintEntry where
  programId : String
  dataConstraints : Option (List DecodedDataConstraint)
  accountConstraints : Option (List DecodedAccountConstraint)
  deriving DecidableEq, Repr

/-- The decoders of the generated types: an operator is decoded to its number. -/
def decodeDataConstraint (dc : Sigil.DataConstraint) : DecodedDataConstraint :=
  { offset := dc.offset, operator := some dc.operator.toByte.toNat, value := dc.value }

def decodeConstraintEntry (base58 : Pubkey → String) (entry : Sigil.ConstraintEntry) : DecodedConstraintEntry :=
  { programId := base58 entry.programId
    dataConstraints := some (entry.dataConstraints.map decodeDataConstraint)
    accountConstraints := some (entry.accountConstraints.map fun ac =>
      { index := ac.index, isWritableRequired := ac.isWritableRequired, expected := base58 ac.expected }) }

/-! ## Summaries -/

structure ConstraintSummary where
  index : Nat
  program : String
  programName : String
  dataConstraintCount : Nat
  accountConstraintCount : Nat
  rules : List String
  deriving DecidableEq, Repr

/-- `OPERATOR_NAMES` -/
def operatorNames : List (Nat × String) :=
  [(0, "=="), (1, "!="), (2, "<"), (3, "<="), (4, ">"), (5, ">="), (6, "contains")]

/-- An operator that is no number counts as 0. -/
def operatorName (operator : Option Nat) : String :=
  let opNum := operator.getD 0
  (operatorNames.lookup opNum).getD ("op(" ++ toString opNum ++ ")")

def dataRule (dc : DecodedDataConstraint) : String :=
  "data[" ++ toString dc.offset ++ "..+" ++ toString dc.value.length ++ "] " ++ operatorName dc.operator ++ " 0x" ++
    bytesToHex dc.value

def accountRule (ac : DecodedAccountConstraint) : String :=
  "account[" ++ toString ac.index ++ "] == " ++ ac.expected

def inspectConstraint (entry : DecodedConstraintEntry) (index : Nat) : ConstraintSummary :=
  let dataConstraints := entry.dataConstraints.getD []
  let accountConstraints := entry.accountConstraints.getD []
  { index := index
    program := entry.programId
    programName := resolveProtocolName entry.programId
    dataConstraintCount := dataConstraints.length
    accountConstraintCount := accountConstraints.length
    rules := dataConstraints.map dataRule ++ accountConstraints.map accountRule }

def inspectConstraints (entries : List DecodedConstraintEntry) : List ConstraintSummary :=
  (entries.zipIdx.map fun p => inspectConstraint p.1 p.2).filter fun s => s.rules.length > 0

end Sigil.Sdk
