import Sigil.State.Pubkey

/-!
# Instructions of compiled transactions

`_extractInstructionsFromCompiled` of `shield.ts`. An address that is `undefined` is `none`.
-/

namespace Sigil.Sdk

structure AddressTableLookup where
  lookupTableAddress : Pubkey
  writableIndexes : List Nat
  readonlyIndexes : List Nat
  deriving DecidableEq, Repr

structure CompiledInstruction where
  programAddressIndex : Nat
  accountIndices : List Nat
  data : List UInt8
  deriving DecidableEq, Repr

structure CompiledMessage where
  staticAccounts : List Pubkey
  addressTableLookups : List AddressTableLookup
  instructions : List CompiledInstruction
  deriving DecidableEq, Repr

/-- `getCachedAddresses`: the lookup tables that are cached and have not expired. -/
abbrev AltCache : Type := Pubkey → Option (List Pubkey)

inductive ExtractionWarning where
  /-- "ALT index … out of bounds (table has … entries) — account substituted with system program for analysis" -/
  | indexOutOfBounds (index entries : Nat)
  /-- "[ShieldedSigner] ALT-compressed accounts cannot be resolved without AltCache" -/
  | noCache
  deriving DecidableEq, Repr

structure ExtractedInstruction where
  programAddress : Option Pubkey
  accounts : List (Option Pubkey)
  data : List UInt8
  deriving DecidableEq, Repr

structure Extraction where
  instructions : List ExtractedInstruction
  warnings : List ExtractionWarning
  deriving DecidableEq, Repr

/-- An entry that is read from a lookup table. -/
structure TableRead where
  resolved : List Pubkey
  index : Nat

def TableRead.address (read : TableRead) : Pubkey := (read.resolved[read.index]?).getD systemProgramId

def TableRead.warning (read : TableRead) : List ExtractionWarning :=
  if read.index < read.resolved.length then [] else [.indexOutOfBounds read.index read.resolved.length]

namespace CompiledMessage

/-- One pass over the lookups, which skips the tables that are not cached. -/
def passReads (altCache : AltCache) (indexes : AddressTableLookup → List Nat) (lookups : List AddressTableLookup) :
    List TableRead :=
  lookups.flatMap fun lookup =>
    match altCache lookup.lookupTableAddress with
    | some resolved => (indexes lookup).map fun index => { resolved, index }
    | none => []

variable (msg : CompiledMessage)

/-- All writable entries come first. -/
def tableReads (altCache : Option AltCache) : List TableRead :=
  match altCache with
  | some altCache =>
      passReads altCache AddressTableLookup.writableIndexes msg.addressTableLookups ++
        passReads altCache AddressTableLookup.readonlyIndexes msg.addressTableLookups
  | none => []

def accountTable (altCache : Option AltCache) : List Pubkey :=
  msg.staticAccounts ++ (msg.tableReads altCache).map TableRead.address

/-- Warnings about an index are collected only for a caller that asks for them. -/
def warnings (altCache : Option AltCache) (collected : Bool) : List ExtractionWarning :=
  match altCache with
  | some _ => if collected then (msg.tableReads altCache).flatMap TableRead.warning else []
  | none => if msg.addressTableLookups = [] then [] else [.noCache]

def extractInstruction (altCache : Option AltCache) (ix : CompiledInstruction) : ExtractedInstruction :=
  { programAddress := (msg.accountTable altCache)[ix.programAddressIndex]?
    accounts := ix.accountIndices.map fun i => (msg.accountTable altCache)[i]?
    data := ix.data }

def extractInstructions (altCache : Option AltCache) (collected : Bool) : Extraction :=
  if msg.staticAccounts = [] ∨ msg.instructions = [] then { instructions := [], warnings := [] }
  else
    { instructions := msg.instructions.map (msg.extractInstruction altCache)
      warnings := msg.warnings altCache collected }

end CompiledMessage

end Sigil.Sdk
