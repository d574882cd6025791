import Sigil.Library.Base64
import Sigil.Library.JsValue
import Sigil.Program.Events

/-!
# Reading events

`events.ts` of the kit: events are found by their discriminators and decoded by their names.
-/

namespace Sigil.Sdk

open Library

/-- `EVENT_DISCRIMINATOR_MAP`. -/
def eventDiscriminatorMap : List (String × String) :=
  [("555a3bda7e08b33f", "ActionAuthorized"),
   ("274a945ec6a67917", "AgentPausedEvent"),
   ("e9f7671e82adc4b7", "AgentPermissionsChangeApplied"),
   ("6b15814d018844d8", "AgentPermissionsChangeCancelled"),
   ("d3f2edd948349650", "AgentPermissionsChangeQueued"),
   ("bf4ed936e864bd55", "AgentRegistered"),
   ("0cfbf9a67a53a274", "AgentRevoked"),
   ("6b803c90a3532dd7", "AgentSpendLimitChecked"),
   ("583475457098a728", "AgentTransferExecuted"),
   ("dabbfd7c4fc02ab5", "AgentUnpausedEvent"),
   ("ba3e196d90cf530d", "CloseConstraintsApplied"),
   ("66e2abbf6362ff86", "CloseConstraintsCancelled"),
   ("4d17e8996c2ef335", "CloseConstraintsQueued"),
   ("70966f7df3852337", "ConstraintsChangeApplied"),
   ("0f4b68de68c14191", "ConstraintsChangeCancelled"),
   ("6fdd6495341758d4", "ConstraintsChangeQueued"),
   ("3b9e8e31a474dc08", "DelegationRevoked"),
   ("467f69665c6107ad", "EscrowCreated"),
   ("84d1316d878a1c51", "EscrowRefunded"),
   ("611b9637cbb3ad17", "EscrowSettled"),
   ("e91775e16bb2fe08", "FeesCollected"),
   ("9dd1645f3b640344", "FundsDeposited"),
   ("3882e69a235c0b76", "FundsWithdrawn"),
   ("08aa63e81fd8391a", "InstructionConstraintsCreated"),
   ("a1ea93831fa39119", "OrphanConstraintsPdaCleaned"),
   ("1b63c3c6ee3503b5", "PdaAllocated"),
   ("43975f4f0c0b33f2", "PdaExtended"),
   ("68590564b4ca3449", "PolicyChangeApplied"),
   ("c89ee2ff19d31e97", "PolicyChangeCancelled"),
   ("49e7b6888d78204f", "PolicyChangeQueued"),
   ("a66a5c0ac33cf77d", "PostAssertionChecked"),
   ("0714e066503c4e0b", "PostAssertionsClosed"),
   ("3159986e3a14441f", "PostAssertionsCreated"),
   ("210cf25bce2aa3eb", "SessionFinalized"),
   ("ee8126e4e376f9d7", "VaultClosed"),
   ("751978fe4bec4e73", "VaultCreated"),
   ("0dc7ac6f580a97f7", "VaultFrozen"),
   ("c534a0939f595a1c", "VaultReactivated")]

def hexDigit (n : Nat) : Char := if n < 10 then Char.ofNat (48 + n) else Char.ofNat (87 + n)

def bytesToHex (bytes : List UInt8) : String :=
  String.ofList (bytes.flatMap fun b => [hexDigit (b.toNat / 16), hexDigit (b.toNat % 16)])

structure SigilEvent where
  name : String
  /-- Bytes after the discriminator. -/
  data : List UInt8

/-- The event that data begin with. -/
def eventNameOf (bytes : List UInt8) : Option String :=
  if bytes.length < 8 then none else eventDiscriminatorMap.lookup (bytesToHex (bytes.take 8))

/-- One line; a line without an event is skipped. -/
def parseSigilEvent (line : LogLine) : Option SigilEvent :=
  line.bind fun bytes => (eventNameOf bytes).map fun name => { name := name, data := bytes.drop 8 }

def parseSigilEvents (logs : List LogLine) : List SigilEvent := logs.filterMap parseSigilEvent

/-- Names with a decoder in `EVENT_DECODER_MAP`. -/
def eventDecoderNames : List String :=
  ["ActionAuthorized", "SessionFinalized", "FeesCollected", "FundsDeposited", "FundsWithdrawn",
   "AgentTransferExecuted", "VaultCreated", "VaultFrozen", "VaultReactivated", "VaultClosed", "AgentRegistered",
   "AgentRevoked", "AgentPausedEvent", "AgentUnpausedEvent", "AgentSpendLimitChecked", "EscrowCreated",
   "EscrowSettled", "EscrowRefunded", "PolicyChangeQueued", "PolicyChangeApplied", "PolicyChangeCancelled",
   "ConstraintsChangeQueued", "ConstraintsChangeApplied", "ConstraintsChangeCancelled",
   "InstructionConstraintsCreated", "AgentPermissionsChangeQueued", "AgentPermissionsChangeApplied",
   "AgentPermissionsChangeCancelled", "CloseConstraintsQueued", "CloseConstraintsApplied",
   "CloseConstraintsCancelled", "DelegationRevoked", "PdaAllocated", "PdaExtended", "PostAssertionChecked",
   "PostAssertionsCreated", "PostAssertionsClosed", "OrphanConstraintsPdaCleaned"]

/-- The generated decoder of a name: the fields of an event, or nothing where the bytes do not decode. -/
abbrev EventDecoders := String → List UInt8 → Option JsValue

structure DecodedSigilEvent where
  name : String
  data : List UInt8
  fields : Option JsValue

def decodeSigilEvent (decoders : EventDecoders) (event : SigilEvent) : DecodedSigilEvent :=
  { name := event.name
    data := event.data
    fields := if event.name ∈ eventDecoderNames then decoders event.name event.data else none }

def parseAndDecodeSigilEvents (decoders : EventDecoders) (logs : List LogLine) : List DecodedSigilEvent :=
  (parseSigilEvents logs).map (decodeSigilEvent decoders)

/-! ## Lines of a log

`parseSigilEvents` on the texts that a node answers. Any line that has the prefix of event data is read, from the
first place where it has it. -/

def programDataPrefix : List Char := "Program data: ".toList

/-- What follows the first occurrence of a part, if there is one: `includes`, `indexOf` and `slice`. -/
def afterFirst (part : List Char) : List Char → Option (List Char)
  | [] => if part = [] then some [] else none
  | c :: cs =>
      if part.isPrefixOf (c :: cs) then some ((c :: cs).drop part.length) else afterFirst part cs

/-- The data of a line; `none` is a line that is skipped. -/
def logData (log : String) : LogLine := (afterFirst programDataPrefix log.toList).bind Base64.decode

/-- `parseSigilEvents` of the texts. -/
def parseLogs (logs : List String) : List SigilEvent := parseSigilEvents (logs.map logData)

def parseAndDecodeLogs (decoders : EventDecoders) (logs : List String) : List DecodedSigilEvent :=
  (parseLogs logs).map (decodeSigilEvent decoders)

end Sigil.Sdk
