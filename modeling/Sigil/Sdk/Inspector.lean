import Sigil.Library.LittleEndian
import Sigil.State.Pubkey

/-!
# Inspection of instructions

`analyzeInstructions` of `inspector.ts`.
-/

namespace Sigil.Sdk

open Library

structure InspectableInstruction where
  programAddress : Pubkey
  accounts : List Pubkey := []
  data : List UInt8 := []
  deriving DecidableEq, Repr

structure TokenTransferInfo where
  /-- A plain transfer does not name it. -/
  mint : Option Pubkey
  amount : Int
  source : Pubkey
  destination : Pubkey
  authority : Pubkey
  deriving DecidableEq, Repr

inductive DangerousOperation where
  | approve | setAuthority | closeAccount | revoke
  deriving DecidableEq, Repr

structure DangerousTokenOperation where
  type : DangerousOperation
  account : Pubkey
  deriving DecidableEq, Repr

structure InstructionAnalysis where
  programIds : List Pubkey
  tokenTransfers : List TokenTransferInfo
  /-- The sum of the transfers of the signer. -/
  estimatedValue : Int
  dangerousOperations : List DangerousTokenOperation
  deriving DecidableEq, Repr

def readU64LE (data : List UInt8) (offset : Nat) : Int := leValue ((data.drop offset).take 8)

namespace InspectableInstruction

variable (ix : InspectableInstruction)

/-- First byte of an instruction of a token program. -/
def tokenDiscriminator : Option UInt8 :=
  if ix.programAddress = splTokenProgramId ∨ ix.programAddress = token2022ProgramId then ix.data.head? else none

def tokenTransfer : Option TokenTransferInfo :=
  match ix.tokenDiscriminator, ix.accounts with
  | some 3, source :: destination :: authority :: _ =>
      if ix.data.length < 9 then none
      else some { mint := none, amount := readU64LE ix.data 1, source, destination, authority }
  | some 12, source :: mint :: destination :: authority :: _ =>
      if ix.data.length < 10 then none
      else some { mint := some mint, amount := readU64LE ix.data 1, source, destination, authority }
  | _, _ => none

def dangerousOperation : Option DangerousTokenOperation :=
  match ix.tokenDiscriminator, ix.accounts.head? with
  | some 4, some account => some ⟨.approve, account⟩
  | some 13, some account => some ⟨.approve, account⟩
  | some 6, some account => some ⟨.setAuthority, account⟩
  | some 9, some account => some ⟨.closeAccount, account⟩
  | some 5, some account => some ⟨.revoke, account⟩
  | _, _ => none

end InspectableInstruction

def analyzeInstructions (instructions : List InspectableInstruction) (signerAddress : Pubkey) : InstructionAnalysis :=
  let tokenTransfers := instructions.filterMap InspectableInstruction.tokenTransfer
  { programIds := (instructions.map InspectableInstruction.programAddress).eraseDups
    tokenTransfers := tokenTransfers
    estimatedValue := ((tokenTransfers.filter fun t => t.authority = signerAddress).map TokenTransferInfo.amount).sum
    dangerousOperations := instructions.filterMap InspectableInstruction.dangerousOperation }

/-! ## What the amounts are -/

theorem InspectableInstruction.tokenTransfer_amount_nonneg {ix : InspectableInstruction} {t : TokenTransferInfo}
    (h : ix.tokenTransfer = some t) : 0 ≤ t.amount := by
  unfold tokenTransfer at h
  split at h
  · split at h
    · cases h
    · obtain rfl := Option.some.inj h
      exact Int.natCast_nonneg _
  · split at h
    · cases h
    · obtain rfl := Option.some.inj h
      exact Int.natCast_nonneg _
  · cases h

theorem analyzeInstructions_amount_nonneg {instructions : List InspectableInstruction} {signerAddress : Pubkey}
    {t : TokenTransferInfo} (h : t ∈ (analyzeInstructions instructions signerAddress).tokenTransfers) :
    0 ≤ t.amount := by
  obtain ⟨ix, -, htransfer⟩ := List.mem_filterMap.mp h
  exact ix.tokenTransfer_amount_nonneg htransfer

end Sigil.Sdk
