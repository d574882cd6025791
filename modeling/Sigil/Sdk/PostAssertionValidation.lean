import Sigil.Library.Double
import Sigil.Library.Result
import Sigil.State.Constraints

/-!
# Validation of assertions in the kit

`dashboard/post-assertion-validation.ts`. A field of type `number` can hold anything that is a number at run time.
-/

namespace Sigil.Sdk

open Library

/-! ## Numbers -/

inductive JsNumber where
  | finite (x : Double)
  | nan
  | infinity (negative : Bool)
  deriving DecidableEq

namespace JsNumber

/-- `Number.isInteger` -/
def isInteger : JsNumber → Bool
  | finite x => x.value.den = 1
  | nan => false
  | infinity _ => false

/-- `x < n` -/
def lt (n : ℚ) : JsNumber → Bool
  | finite x => x.value < n
  | nan => false
  | infinity negative => negative

/-- `x > n` -/
def gt (n : ℚ) : JsNumber → Bool
  | finite x => n < x.value
  | nan => false
  | infinity negative => !negative

/-- `x === n` -/
def eq (n : ℚ) : JsNumber → Bool
  | finite x => x.value = n
  | nan => false
  | infinity _ => false

/-- `x <= n` -/
def le (n : ℚ) (x : JsNumber) : Bool := x.lt n || x.eq n

/-- `x >= n` -/
def ge (n : ℚ) (x : JsNumber) : Bool := x.gt n || x.eq n

/-- `ToUint32`: towards zero, modulo 2^32. -/
def toUint32 : JsNumber → Nat
  | finite x => ((x.value.num.tdiv x.value.den) % 2 ^ 32).toNat
  | nan => 0
  | infinity _ => 0

/-- `x & mask` for a mask below 2^31. -/
def bitAnd (mask : Nat) (x : JsNumber) : Nat := x.toUint32 &&& mask

def ofUInt32 (n : UInt32) : JsNumber :=
  .finite ⟨n.toNat, Double.round_natCast (n.toNat_lt.le.trans (by decide))⟩

end JsNumber

/-! ## Errors -/

inductive PostAssertionValidationCode where
  /-- "PostAssertion entries must be an array, got …" -/
  | entriesNotAnArray
  /-- "PostAssertion[…]: entry is …" -/
  | entriesContainNull
  /-- "PostAssertion entry count must be 1..=4, got …" -/
  | entryCountOutOfRange
  /-- "PostAssertion[…]: value_len must be 1..=32, got 0", or "… must be an integer 0..=32, got …" -/
  | valueLenOutOfRange
  /-- "PostAssertion[…]: expected_value has … bytes but value_len=… (must be >= value_len)" -/
  | expectedValueTooShort
  | operatorOutOfRange
  | assertionModeOutOfRange
  | offsetOutOfRange
  | crossFieldOffsetBOutOfRange
  | crossFieldMultiplierBpsOutOfRange
  | crossFieldFlagsOutOfRange
  /-- "PostAssertion[…]: delta assertion_mode=… requires value_len <= 8, got …" -/
  | deltaModeValueLenTooLarge
  /-- "PostAssertion[…]: CrossFieldLte requires value_len <= 8, got …" -/
  | crossFieldValueLenTooLarge
  /-- "PostAssertion[…]: CrossFieldLte requires assertion_mode=0 (Absolute), got …" -/
  | crossFieldRequiresAbsoluteMode
  /-- "PostAssertion[…]: CrossFieldLte multiplier_bps must be > 0" -/
  | crossFieldMultiplierMustBePositive
  /-- "PostAssertion[…]: cross_field_flags has reserved bits set: … (only bit 0 is defined)" -/
  | crossFieldUnknownFlags
  /-- "PostAssertion[…]: CrossFieldLte disabled but cross_field_offset_b=…, cross_field_multiplier_bps=… …" -/
  | crossFieldDisabledFieldsMustBeZero
  deriving DecidableEq, Repr

/-- `entryIndex` is absent where the batch as a whole is at fault. -/
structure PostAssertionValidationError where
  validationCode : PostAssertionValidationCode
  entryIndex : Option Nat
  deriving DecidableEq, Repr

/-! ## Checks -/

structure PostAssertionEntry where
  targetAccount : Pubkey
  offset : JsNumber
  valueLen : JsNumber
  operator : JsNumber
  expectedValue : List UInt8
  assertionMode : JsNumber
  crossFieldOffsetB : JsNumber
  crossFieldMultiplierBps : JsNumber
  crossFieldFlags : JsNumber

def maxOperatorValue : Nat := 6
def maxAssertionModeValue : Nat := 3
def crossFieldLteFlag : Nat := 0x01
def crossFieldMaxValueLen : Nat := 8
def deltaMaxValueLen : Nat := 8

/-- "PostAssertion[…]: … must be an integer 0..=…, got … (…)" -/
def requireUintInRange (value : JsNumber) (max : Nat) (code : PostAssertionValidationCode) (index : Nat) :
    Except PostAssertionValidationError Unit :=
  require (value.isInteger ∧ value.lt 0 = false ∧ value.gt max = false)
    { validationCode := code, entryIndex := some index }

def validateCrossField (entry : PostAssertionEntry) (index : Nat) : Except PostAssertionValidationError Unit :=
  if entry.crossFieldFlags.bitAnd crossFieldLteFlag ≠ 0 then do
    require (entry.valueLen.gt crossFieldMaxValueLen = false)
      { validationCode := .crossFieldValueLenTooLarge, entryIndex := some index }
    require (entry.assertionMode.eq 0) { validationCode := .crossFieldRequiresAbsoluteMode, entryIndex := some index }
    require (entry.crossFieldMultiplierBps.eq 0 = false)
      { validationCode := .crossFieldMultiplierMustBePositive, entryIndex := some index }
    require (entry.crossFieldFlags.bitAnd 0xfe = 0)
      { validationCode := .crossFieldUnknownFlags, entryIndex := some index }
  else
    require (entry.crossFieldOffsetB.eq 0 ∧ entry.crossFieldMultiplierBps.eq 0)
      { validationCode := .crossFieldDisabledFieldsMustBeZero, entryIndex := some index }

def validateSingleEntry (entry : PostAssertionEntry) (index : Nat) : Except PostAssertionValidationError Unit := do
  requireUintInRange entry.offset 0xffff .offsetOutOfRange index
  requireUintInRange entry.valueLen maxConstraintValueLen .valueLenOutOfRange index
  requireUintInRange entry.operator maxOperatorValue .operatorOutOfRange index
  requireUintInRange entry.assertionMode maxAssertionModeValue .assertionModeOutOfRange index
  requireUintInRange entry.crossFieldOffsetB 0xffff .crossFieldOffsetBOutOfRange index
  requireUintInRange entry.crossFieldMultiplierBps 0xffffffff .crossFieldMultiplierBpsOutOfRange index
  requireUintInRange entry.crossFieldFlags 0xff .crossFieldFlagsOutOfRange index
  require (entry.valueLen.eq 0 = false) { validationCode := .valueLenOutOfRange, entryIndex := some index }
  require (entry.valueLen.gt entry.expectedValue.length = false)
    { validationCode := .expectedValueTooShort, entryIndex := some index }
  require (entry.assertionMode.ge 1 ∧ entry.assertionMode.le 3 → entry.valueLen.gt deltaMaxValueLen = false)
    { validationCode := .deltaModeValueLenTooLarge, entryIndex := some index }
  validateCrossField entry index

/-- What an array holds at an index. -/
inductive Slot where
  | hole
  | nullish
  | entry (e : PostAssertionEntry)

/-- The turn of `forEach`, which skips the holes. -/
def validateSlot (index : Nat) : Slot → Except PostAssertionValidationError Unit
  | .hole => pure ()
  | .nullish => .error { validationCode := .entriesContainNull, entryIndex := some index }
  | .entry e => validateSingleEntry e index

def validateSlots : List Slot → Nat → Except PostAssertionValidationError Unit
  | [], _ => pure ()
  | slot :: slots, index => do
      validateSlot index slot
      validateSlots slots (index + 1)

/-- The argument is `none` if it is no array. -/
def validatePostAssertionEntries (entries : Option (List Slot)) : Except PostAssertionValidationError Unit := do
  let slots ← okOr entries { validationCode := .entriesNotAnArray, entryIndex := none }
  require (slots ≠ [] ∧ slots.length ≤ maxPostAssertionEntries)
    { validationCode := .entryCountOutOfRange, entryIndex := none }
  validateSlots slots 0

end Sigil.Sdk
