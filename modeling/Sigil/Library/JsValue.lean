import Sigil.Library.Double

/-!
# Values of a dynamic language, and their copies through a text

`copy` is `JSON.parse(JSON.stringify(v))` on values without methods. Finite numbers and strings survive; a field that is
`undefined` is left out, an element of an array that is `undefined` becomes `null`, and a `bigint` is an error.
-/

namespace Sigil.Library

inductive JsValue where
  | undefined
  | null
  | bool (b : Bool)
  | number (x : Double)
  | string (s : String)
  | bigint (n : Int)
  | array (items : List JsValue)
  | object (fields : List (String × JsValue))

namespace JsValue

/-! ## Properties -/

/-- A property that is absent reads as `undefined`. -/
def get (v : JsValue) (key : String) : JsValue :=
  match v with
  | object fields => (fields.lookup key).getD undefined
  | _ => undefined

/-- The field of an object literal that is there only if it has a value. -/
def optionalField (key : String) (v : Option JsValue) : List (String × JsValue) :=
  v.toList.map (key, ·)

def isUndefined : JsValue → Bool
  | undefined => true
  | _ => false

def isNull : JsValue → Bool
  | null => true
  | _ => false

def truthy : JsValue → Bool
  | undefined => false
  | null => false
  | bool b => b
  | number x => x.value ≠ 0
  | string s => s ≠ ""
  | bigint n => n ≠ 0
  | array _ => true
  | object _ => true

/-! ## Readings of a property at its type -/

def asString : JsValue → Option String
  | string s => some s
  | _ => none

def asNumber : JsValue → Option Double
  | number x => some x
  | _ => none

def asBool : JsValue → Option Bool
  | bool b => some b
  | _ => none

def asBigint : JsValue → Option Int
  | bigint n => some n
  | _ => none

def asArray : JsValue → Option (List JsValue)
  | array items => some items
  | _ => none

/-- A text or `undefined`. -/
def asOptionalString : JsValue → Option (Option String)
  | undefined => some none
  | string s => some (some s)
  | _ => none

/-- A text of an enumeration. -/
def asOneOf {α : Type} (all : List α) (text : α → String) (v : JsValue) : Option α :=
  v.asString.bind fun s => all.find? fun a => text a = s

/-- An array, its elements read one by one. -/
def asListOf {α : Type} (read : JsValue → Option α) (v : JsValue) : Option (List α) :=
  v.asArray.bind fun items => items.mapM read

/-! ## Copies -/

def orNull : JsValue → JsValue
  | undefined => null
  | v => v

mutual

/-- What is left of a value in the text. -/
def clean : JsValue → JsValue
  | array items => array (cleanItems items)
  | object fields => object (cleanFields fields)
  | undefined => undefined
  | null => null
  | bool b => bool b
  | number x => number x
  | string s => string s
  | bigint n => bigint n

def cleanItems : List JsValue → List JsValue
  | [] => []
  | v :: items => v.clean.orNull :: cleanItems items

def cleanFields : List (String × JsValue) → List (String × JsValue)
  | [] => []
  | (key, v) :: fields =>
      if v.isUndefined then cleanFields fields else (key, v.clean) :: cleanFields fields

end

mutual

def hasBigint : JsValue → Bool
  | bigint _ => true
  | array items => anyBigint items
  | object fields => anyFieldBigint fields
  | undefined => false
  | null => false
  | bool _ => false
  | number _ => false
  | string _ => false

def anyBigint : List JsValue → Bool
  | [] => false
  | v :: items => v.hasBigint || anyBigint items

def anyFieldBigint : List (String × JsValue) → Bool
  | [] => false
  | (_, v) :: fields => v.hasBigint || anyFieldBigint fields

end

/-- `JSON.parse(JSON.stringify(v))`; `none` stands for an error. -/
def copy (v : JsValue) : Option JsValue :=
  if v.hasBigint || v.isUndefined then none else some v.clean

/-- Equal but for fields that are `undefined`. -/
def Same (v w : JsValue) : Prop := v.clean = w.clean

/-! ## Lemmas -/

theorem get_object (fields : List (String × JsValue)) (key : String) :
    (object fields).get key = (fields.lookup key).getD undefined := rfl

@[simp] theorem get_nil (key : String) : (object []).get key = undefined := rfl

@[simp] theorem get_cons_self (key : String) (v : JsValue) (fields : List (String × JsValue)) :
    (object ((key, v) :: fields)).get key = v := by simp [get_object]

@[simp] theorem get_cons_of_ne {key key' : String} (h : key' ≠ key) (v : JsValue) (fields : List (String × JsValue)) :
    (object ((key, v) :: fields)).get key' = (object fields).get key' := by
  simp [get_object, List.lookup_cons, beq_false_of_ne h]

theorem lookup_optionalField (key key' : String) (v : Option JsValue) :
    (optionalField key v).lookup key' = if key' = key then v else none := by
  cases v with
  | none => simp [optionalField]
  | some v =>
      by_cases h : key' = key
      · simp [optionalField, h]
      · simp [optionalField, List.lookup_cons, beq_false_of_ne h, h]

@[simp] theorem isUndefined_string (s : String) : (string s).isUndefined = false := rfl

@[simp] theorem isUndefined_number (x : Double) : (number x).isUndefined = false := rfl

@[simp] theorem isUndefined_bool (b : Bool) : (bool b).isUndefined = false := rfl

@[simp] theorem isUndefined_array (items : List JsValue) : (array items).isUndefined = false := rfl

@[simp] theorem isUndefined_object (fields : List (String × JsValue)) : (object fields).isUndefined = false := rfl

@[simp] theorem clean_undefined : undefined.clean = undefined := rfl

@[simp] theorem clean_string (s : String) : (string s).clean = string s := rfl

@[simp] theorem clean_number (x : Double) : (number x).clean = number x := rfl

@[simp] theorem clean_bool (b : Bool) : (bool b).clean = bool b := rfl

@[simp] theorem clean_object (fields : List (String × JsValue)) :
    (object fields).clean = object (cleanFields fields) := rfl

@[simp] theorem hasBigint_string (s : String) : (string s).hasBigint = false := rfl

@[simp] theorem hasBigint_number (x : Double) : (number x).hasBigint = false := rfl

@[simp] theorem hasBigint_bool (b : Bool) : (bool b).hasBigint = false := rfl

@[simp] theorem hasBigint_undefined : undefined.hasBigint = false := rfl

@[simp] theorem hasBigint_object (fields : List (String × JsValue)) :
    (object fields).hasBigint = anyFieldBigint fields := rfl

@[simp] theorem anyFieldBigint_nil : anyFieldBigint [] = false := rfl

@[simp] theorem anyFieldBigint_cons (key : String) (v : JsValue) (fields : List (String × JsValue)) :
    anyFieldBigint ((key, v) :: fields) = (v.hasBigint || anyFieldBigint fields) := rfl

@[simp] theorem asString_string (s : String) : (string s).asString = some s := rfl

@[simp] theorem asNumber_number (x : Double) : (number x).asNumber = some x := rfl

@[simp] theorem asBool_bool (b : Bool) : (bool b).asBool = some b := rfl

@[simp] theorem asOptionalString_undefined : undefined.asOptionalString = some none := rfl

@[simp] theorem asOptionalString_string (s : String) : (string s).asOptionalString = some (some s) := rfl

@[simp] theorem isUndefined_clean (v : JsValue) : v.clean.isUndefined = v.isUndefined := by
  cases v <;> simp [clean, isUndefined]

theorem orNull_of_defined {v : JsValue} (h : v.isUndefined = false) : v.orNull = v := by
  cases v <;> simp_all [orNull, isUndefined]

@[simp] theorem orNull_orNull (v : JsValue) : v.orNull.orNull = v.orNull := by
  cases v <;> rfl

@[simp] theorem hasBigint_orNull (v : JsValue) : v.orNull.hasBigint = v.hasBigint := by
  cases v <;> simp [orNull, hasBigint]

@[simp] theorem clean_orNull (v : JsValue) : v.orNull.clean = v.clean.orNull := by
  cases v <;> simp [orNull, clean]

mutual

/-- A copy of a copy is the copy. -/
theorem clean_clean : ∀ v : JsValue, v.clean.clean = v.clean
  | array items => by simp [clean, cleanItems_cleanItems items]
  | object fields => by simp [clean, cleanFields_cleanFields fields]
  | undefined => rfl
  | null => rfl
  | bool _ => rfl
  | number _ => rfl
  | string _ => rfl
  | bigint _ => rfl

theorem cleanItems_cleanItems : ∀ items : List JsValue, cleanItems (cleanItems items) = cleanItems items
  | [] => rfl
  | v :: items => by simp [cleanItems, clean_clean v, cleanItems_cleanItems items]

theorem cleanFields_cleanFields : ∀ fields : List (String × JsValue),
    cleanFields (cleanFields fields) = cleanFields fields
  | [] => rfl
  | (key, v) :: fields => by
      cases h : v.isUndefined <;> simp [cleanFields, h, clean_clean v, cleanFields_cleanFields fields]

end

theorem same_clean (v : JsValue) : v.clean.Same v := clean_clean v

mutual

theorem hasBigint_clean : ∀ v : JsValue, v.clean.hasBigint = v.hasBigint
  | array items => by simp [clean, hasBigint, anyBigint_cleanItems items]
  | object fields => by simp [clean, hasBigint, anyFieldBigint_cleanFields fields]
  | undefined => rfl
  | null => rfl
  | bool _ => rfl
  | number _ => rfl
  | string _ => rfl
  | bigint _ => rfl

theorem anyBigint_cleanItems : ∀ items : List JsValue, anyBigint (cleanItems items) = anyBigint items
  | [] => rfl
  | v :: items => by simp [cleanItems, anyBigint, hasBigint_clean v, anyBigint_cleanItems items]

theorem anyFieldBigint_cleanFields : ∀ fields : List (String × JsValue),
    anyFieldBigint (cleanFields fields) = anyFieldBigint fields
  | [] => rfl
  | (key, v) :: fields => by
      have ih := anyFieldBigint_cleanFields fields
      cases h : v.isUndefined with
      | true =>
          have hplain : v.hasBigint = false := by cases v <;> simp_all [isUndefined]
          simp [cleanFields, h, hplain, ih]
      | false => simp [cleanFields, h, hasBigint_clean v, ih]

end

/-! ### Fields -/

@[simp] theorem cleanFields_nil : cleanFields [] = [] := rfl

@[simp] theorem cleanFields_undefined (key : String) (fields : List (String × JsValue)) :
    cleanFields ((key, undefined) :: fields) = cleanFields fields := rfl

@[simp] theorem cleanFields_cons {key : String} {v : JsValue} {fields : List (String × JsValue)}
    (h : ¬ v.isUndefined) : cleanFields ((key, v) :: fields) = (key, v.clean) :: cleanFields fields := by
  simp [cleanFields, h]

theorem cleanFields_append (fields fields' : List (String × JsValue)) :
    cleanFields (fields ++ fields') = cleanFields fields ++ cleanFields fields' := by
  induction fields with
  | nil => rfl
  | cons field fields ih =>
      obtain ⟨key, v⟩ := field
      cases h : v.isUndefined <;> simp [cleanFields, h, ih]

/-- Values that a copy does not change. -/
structure Stable {α : Type} (write : α → JsValue) : Prop where
  defined : ∀ x, (write x).isUndefined = false
  clean : ∀ x, (write x).clean = write x

theorem Stable.optionalField {α : Type} {write : α → JsValue} (h : Stable write) (key : String) (x : Option α) :
    cleanFields (optionalField key (x.map write)) = optionalField key (x.map write) := by
  cases x with
  | none => rfl
  | some x => simp [JsValue.optionalField, h.defined, h.clean]

theorem anyFieldBigint_append (fields fields' : List (String × JsValue)) :
    anyFieldBigint (fields ++ fields') = (anyFieldBigint fields || anyFieldBigint fields') := by
  induction fields with
  | nil => rfl
  | cons field fields ih => simp [anyFieldBigint, ih, Bool.or_assoc]

theorem anyFieldBigint_optionalField (key : String) (v : Option JsValue) :
    anyFieldBigint (optionalField key v) = v.any hasBigint := by
  cases v <;> simp [optionalField, anyFieldBigint]

/-! ### Values that survive the copy -/

/-- `read` reads back what `write` has written, out of a copy. -/
structure RoundTrips {α : Type} (write : α → JsValue) (read : JsValue → Option α) : Prop where
  defined : ∀ x, (write x).isUndefined = false
  plain : ∀ x, (write x).hasBigint = false
  reads : ∀ x, read (write x).clean = some x

theorem roundTrips_string : RoundTrips string asString :=
  ⟨fun _ => rfl, fun _ => rfl, fun _ => by simp [clean, asString]⟩

section
variable {α : Type} {write : α → JsValue} {read : JsValue → Option α}

theorem cleanItems_map (hdefined : ∀ x, (write x).isUndefined = false) (l : List α) :
    cleanItems (l.map write) = l.map fun x => (write x).clean := by
  induction l with
  | nil => rfl
  | cons x l ih =>
      simp only [List.map_cons, cleanItems, ih]
      rw [orNull_of_defined (by rw [isUndefined_clean, hdefined])]

theorem anyBigint_map (l : List α) : anyBigint (l.map write) = l.any fun x => (write x).hasBigint := by
  induction l with
  | nil => rfl
  | cons x l ih => simp [anyBigint, ih]

theorem Stable.list (h : Stable write) : Stable fun l : List α => array (l.map write) where
  defined _ := rfl
  clean l := by simp [JsValue.clean, cleanItems_map h.defined, h.clean]

variable (write) in
/-- An array is read element by element. -/
theorem asListOf_clean {β : Type} {read : JsValue → Option β} {g : α → β}
    (hdefined : ∀ x, (write x).isUndefined = false) (hreads : ∀ x, read (write x).clean = some (g x)) (l : List α) :
    asListOf read (array (l.map write)).clean = some (l.map g) := by
  rw [clean, cleanItems_map hdefined]
  change (l.map fun x => (write x).clean).mapM read = some (l.map g)
  induction l with
  | nil => rfl
  | cons x l ih => simp [List.mapM_cons, hreads, ih]

theorem RoundTrips.list (h : RoundTrips write read) : RoundTrips (fun l => array (l.map write)) (asListOf read) where
  defined _ := rfl
  plain l := by simp [hasBigint, anyBigint_map, h.plain]
  reads l := by simpa using asListOf_clean write h.defined h.reads l

theorem roundTrips_oneOf {all : List α} {text : α → String}
    (h : ∀ a, all.find? (fun b => text b = text a) = some a) :
    RoundTrips (fun a => string (text a)) (asOneOf all text) :=
  ⟨fun _ => rfl, fun _ => rfl, fun a => by rw [clean]; exact h a⟩

end

end JsValue

end Sigil.Library
