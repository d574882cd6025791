import Sigil.Lemmas.Bytes
import Sigil.Sdk.Strings
import Sigil.Sdk.ConstraintSummaries

/-!
# What the summaries of constraints say

A rule is read back from its text, its sign as a comparison of little-endian numbers.
-/

namespace Sigil.Sdk

open Library

/-! ## Reading a rule -/

structure RuleReading where
  offset : Nat
  length : Nat
  sign : String
  value : List UInt8
  deriving DecidableEq, Repr

def expect (start : String) (cs : List Char) : Option (List Char) :=
  if start.toList.isPrefixOf cs then some (cs.drop start.toList.length) else none

def readNat (cs : List Char) : Option (Nat × List Char) :=
  if cs.takeWhile Char.isDigit = [] then none
  else some (Nat.ofDigitChars 10 (cs.takeWhile Char.isDigit) 0, cs.dropWhile Char.isDigit)

def readHex : List Char → Option (List UInt8)
  | [] => some []
  | [_] => none
  | a :: b :: cs =>
      (digitOf 16 a).bind fun x =>
        (digitOf 16 b).bind fun y => (readHex cs).map fun bytes => UInt8.ofNat (x * 16 + y) :: bytes

/-- A rule about data: `data[<offset>..+<length>] <sign> 0x<value>`. -/
def readRule (rule : String) : Option RuleReading :=
  (expect "data[" rule.toList).bind fun cs =>
    (readNat cs).bind fun offset =>
      (expect "..+" offset.2).bind fun cs =>
        (readNat cs).bind fun length =>
          (expect "] " length.2).bind fun cs =>
            (expect " 0x" (cs.dropWhile fun c => c ≠ ' ')).bind fun digits =>
              (readHex digits).map fun value =>
                { offset := offset.1, length := length.1
                  sign := String.ofList (cs.takeWhile fun c => c ≠ ' '), value := value }

section
variable {start : String} {cs : List Char} {n : Nat}

theorem expect_append (start : String) (cs : List Char) : expect start (start.toList ++ cs) = some cs := by
  have hprefix : start.toList.isPrefixOf (start.toList ++ cs) = true :=
    List.isPrefixOf_iff_prefix.mpr (List.prefix_append _ _)
  rw [expect, if_pos hprefix, List.drop_left]

theorem readNat_append (n : Nat) {c : Char} (hc : c.isDigit = false) (cs : List Char) :
    readNat ((toString n).toList ++ c :: cs) = some (n, c :: cs) := by
  have hdigits : ∀ d ∈ (toString n).toList, d.isDigit = true := fun d hd => isDigit_of_mem_repr hd
  have htake : ((toString n).toList ++ c :: cs).takeWhile Char.isDigit = (toString n).toList := by
    rw [List.takeWhile_append_of_pos hdigits, List.takeWhile_cons_of_neg (by simp [hc]), List.append_nil]
  have hdrop : ((toString n).toList ++ c :: cs).dropWhile Char.isDigit = c :: cs := by
    rw [List.dropWhile_append_of_pos hdigits, List.dropWhile_cons_of_neg (by simp [hc])]
  have hne : (toString n).toList ≠ [] := by
    show n.repr.toList ≠ []
    simp
  have hvalue : Nat.ofDigitChars 10 (toString n).toList 0 = n := by
    show Nat.ofDigitChars 10 n.repr.toList 0 = n
    simp
  rw [readNat, htake, hdrop, if_neg hne, hvalue]

theorem digitOf_hexDigit : ∀ n < 16, digitOf 16 (hexDigit n) = some n := by decide

theorem readHex_bytesToHex (bytes : List UInt8) : readHex (bytesToHex bytes).toList = some bytes := by
  rw [bytesToHex, String.toList_ofList]
  induction bytes with
  | nil => rfl
  | cons b bytes ih =>
      have hb := b.toNat_lt
      have hbyte : b.toNat / 16 * 16 + b.toNat % 16 = b.toNat := Nat.div_add_mod' ..
      rw [List.flatMap_cons, List.cons_append, List.cons_append, List.nil_append, readHex,
        digitOf_hexDigit _ (by omega), Option.bind_some, digitOf_hexDigit _ (by omega), Option.bind_some, ih,
        Option.map_some, hbyte, UInt8.ofNat_toNat]

theorem readRule_dataRule (dc : DecodedDataConstraint) (hsign : ∀ c ∈ (operatorName dc.operator).toList, c ≠ ' ') :
    readRule (dataRule dc) = some { offset := dc.offset, length := dc.value.length
                                    sign := operatorName dc.operator, value := dc.value } := by
  have hrest : " 0x".toList = ' ' :: "0x".toList := rfl
  have hdots : "..+".toList = '.' :: ".+".toList := rfl
  have hbracket : "] ".toList = ']' :: " ".toList := rfl
  have hsign' : ∀ c ∈ (operatorName dc.operator).toList, (decide (c ≠ ' ')) = true := by simpa using hsign
  have htake (cs : List Char) : ((operatorName dc.operator).toList ++ (" 0x".toList ++ cs)).takeWhile
      (fun c => decide (c ≠ ' ')) = (operatorName dc.operator).toList := by
    rw [List.takeWhile_append_of_pos hsign', hrest, List.cons_append, List.takeWhile_cons_of_neg (by decide),
      List.append_nil]
  have hdrop (cs : List Char) : ((operatorName dc.operator).toList ++ (" 0x".toList ++ cs)).dropWhile
      (fun c => decide (c ≠ ' ')) = " 0x".toList ++ cs := by
    rw [List.dropWhile_append_of_pos hsign', hrest, List.cons_append, List.dropWhile_cons_of_neg (by decide)]
  have htext : (dataRule dc).toList = "data[".toList ++ ((toString dc.offset).toList ++ ("..+".toList ++
      ((toString dc.value.length).toList ++ ("] ".toList ++ ((operatorName dc.operator).toList ++
        (" 0x".toList ++ (bytesToHex dc.value).toList)))))) := by
    simp only [dataRule, String.toList_append, List.append_assoc]
  have hoffset (cs : List Char) : readNat ((toString dc.offset).toList ++ ("..+".toList ++ cs)) =
      some (dc.offset, "..+".toList ++ cs) := by
    rw [hdots, List.cons_append]
    exact readNat_append dc.offset (by decide) _
  have hlength (cs : List Char) : readNat ((toString dc.value.length).toList ++ ("] ".toList ++ cs)) =
      some (dc.value.length, "] ".toList ++ cs) := by
    rw [hbracket, List.cons_append]
    exact readNat_append dc.value.length (by decide) _
  rw [readRule, htext, expect_append, Option.bind_some, hoffset, Option.bind_some, expect_append, Option.bind_some,
    hlength, Option.bind_some, expect_append, Option.bind_some, hdrop, expect_append, Option.bind_some,
    readHex_bytesToHex, Option.map_some, htake, String.ofList_toList]

theorem readRule_accountRule (ac : DecodedAccountConstraint) : readRule (accountRule ac) = none := by
  have htext : (accountRule ac).toList = 'a' :: ("ccount[".toList ++ (toString ac.index).toList ++ "] == ".toList ++
      ac.expected.toList) := by
    simp only [accountRule, String.toList_append]
    rfl
  rw [readRule, htext]
  rfl

theorem sign_noSpace (op : ConstraintOperator) : ∀ c ∈ (operatorName (some op.toByte.toNat)).toList, c ≠ ' ' := by
  intro c hc heq
  have hsign : ' ' ∉ (operatorName (some op.toByte.toNat)).toList := by cases op <;> decide
  exact hsign (heq ▸ hc)

end

/-! ## The meaning of a rule -/

/-- What a sign says of little-endian numbers; `contains` is that every bit of the mask is set. -/
def SignRelates (sign : String) (actual expected : List UInt8) : Prop :=
  if sign = "==" then leValue actual = leValue expected
  else if sign = "!=" then leValue actual ≠ leValue expected
  else if sign = "<" then leValue actual < leValue expected
  else if sign = "<=" then leValue actual ≤ leValue expected
  else if sign = ">" then leValue actual > leValue expected
  else if sign = ">=" then leValue actual ≥ leValue expected
  else if sign = "contains" then BitsSubset (leValue expected) (leValue actual)
  else False

def RuleReading.Holds (r : RuleReading) (data : List UInt8) : Prop :=
  SignRelates r.sign ((data.drop r.offset).take r.length) r.value

/-- Every rule about data of summary `i` holds. -/
def SummaryHolds (summaries : List ConstraintSummary) (i : Nat) (data : List UInt8) : Prop :=
  ∀ s ∈ summaries, s.index = i → ∀ rule ∈ s.rules, ∀ r, readRule rule = some r → r.Holds data

/-- The sign that stands for an operator, on numbers. -/
def Shows (op : ConstraintOperator) (actual expected : List UInt8) : Prop :=
  match op with
  | .eq => leValue actual = leValue expected
  | .ne => leValue actual ≠ leValue expected
  | .gte => leValue actual < leValue expected
  | .lte => leValue actual ≤ leValue expected
  | .gteSigned => leValue actual > leValue expected
  | .lteSigned => leValue actual ≥ leValue expected
  | .bitmask => BitsSubset (leValue expected) (leValue actual)

theorem signRelates_iff (op : ConstraintOperator) (actual expected : List UInt8) :
    SignRelates (operatorName (some op.toByte.toNat)) actual expected ↔ Shows op actual expected := by
  cases op <;> rfl

variable {base58 : Pubkey → String} {entries : List ConstraintEntry} {entry : ConstraintEntry} {i : Nat}
  {data : List UInt8}

/-- The bytes that a constraint is about. -/
def actualOf (dc : DataConstraint) (data : List UInt8) : List UInt8 := (data.drop dc.offset).take dc.value.length

/-- The data is long enough for every constraint. -/
def Covers (data : List UInt8) (entry : ConstraintEntry) : Prop :=
  ∀ dc ∈ entry.dataConstraints, dc.offset + dc.value.length ≤ data.length

theorem readRule_decoded (dc : DataConstraint) : readRule (dataRule (decodeDataConstraint dc)) =
    some { offset := dc.offset, length := dc.value.length
           sign := operatorName (some dc.operator.toByte.toNat), value := dc.value } :=
  readRule_dataRule (decodeDataConstraint dc) (sign_noSpace dc.operator)

theorem rules_inspectConstraint (base58 : Pubkey → String) (entry : ConstraintEntry) (i : Nat) :
    (inspectConstraint (decodeConstraintEntry base58 entry) i).rules =
      entry.dataConstraints.map (dataRule ∘ decodeDataConstraint) ++
        (entry.accountConstraints.map fun ac => accountRule
          { index := ac.index, isWritableRequired := ac.isWritableRequired, expected := base58 ac.expected }) := by
  simp only [inspectConstraint, decodeConstraintEntry, Option.getD_some, List.map_map]
  rfl

/-- What is read among the rules of an entry comes from its data constraints. -/
theorem mem_readRules {r : RuleReading} :
    (∃ rule ∈ (inspectConstraint (decodeConstraintEntry base58 entry) i).rules, readRule rule = some r) ↔
      ∃ dc ∈ entry.dataConstraints, readRule (dataRule (decodeDataConstraint dc)) = some r := by
  rw [rules_inspectConstraint]
  constructor
  · intro h
    obtain ⟨rule, hrule, hr⟩ := h
    rcases List.mem_append.mp hrule with hdata | haccount
    · obtain ⟨dc, hdc, rfl⟩ := List.mem_map.mp hdata
      exact ⟨dc, hdc, hr⟩
    · obtain ⟨ac, -, rfl⟩ := List.mem_map.mp haccount
      rw [readRule_accountRule] at hr
      cases hr
  · intro h
    obtain ⟨dc, hdc, hr⟩ := h
    exact ⟨_, List.mem_append_left _ (List.mem_map_of_mem (f := dataRule ∘ decodeDataConstraint) hdc), hr⟩

/-- The summary with an index is that of the entry there, if it has rules. -/
theorem mem_inspectConstraints (hentry : entries[i]? = some entry) {s : ConstraintSummary} :
    s ∈ inspectConstraints (entries.map (decodeConstraintEntry base58)) ∧ s.index = i ↔
      s = inspectConstraint (decodeConstraintEntry base58 entry) i ∧ s.rules.length > 0 := by
  rw [inspectConstraints, List.mem_filter, decide_eq_true_eq]
  constructor
  · intro h
    obtain ⟨⟨hs, hrules⟩, hindex⟩ := h
    obtain ⟨p, hp, rfl⟩ := List.mem_map.mp hs
    obtain rfl : p.2 = i := hindex
    rw [List.mem_zipIdx_iff_getElem?, List.getElem?_map, hentry] at hp
    rw [← Option.some.inj hp] at hrules ⊢
    exact ⟨rfl, hrules⟩
  · intro h
    obtain ⟨rfl, hrules⟩ := h
    refine ⟨⟨List.mem_map.mpr ⟨(decodeConstraintEntry base58 entry, i), ?_, rfl⟩, hrules⟩, rfl⟩
    rw [List.mem_zipIdx_iff_getElem?, List.getElem?_map, hentry]
    rfl

theorem summaryHolds_iff (hentry : entries[i]? = some entry) :
    SummaryHolds (inspectConstraints (entries.map (decodeConstraintEntry base58))) i data ↔
      ∀ dc ∈ entry.dataConstraints, Shows dc.operator (actualOf dc data) dc.value := by
  constructor
  · intro h dc hdc
    obtain ⟨rule, hrule, hr⟩ := mem_readRules.mpr ⟨dc, hdc, readRule_decoded dc⟩
    obtain ⟨hs, hindex⟩ := (mem_inspectConstraints hentry).mpr ⟨rfl, List.length_pos_of_mem hrule⟩
    exact (signRelates_iff ..).mp (h _ hs hindex rule hrule _ hr)
  · intro h s hs hindex rule hrule r hr
    obtain ⟨rfl, -⟩ := (mem_inspectConstraints hentry).mp ⟨hs, hindex⟩
    obtain ⟨dc, hdc, hread⟩ := mem_readRules.mp ⟨rule, hrule, hr⟩
    cases (readRule_decoded dc).symm.trans hread
    exact (signRelates_iff ..).mpr (h dc hdc)

theorem length_actualOf {dc : DataConstraint} (hcovers : Covers data entry) (hdc : dc ∈ entry.dataConstraints) :
    (actualOf dc data).length = dc.value.length := by
  have hlong := hcovers dc hdc
  rw [actualOf, List.length_take, List.length_drop]
  omega

theorem verifyDataConstraints_iff (hcovers : Covers data entry) :
    verifyDataConstraints data entry = .ok () ↔
      ∀ dc ∈ entry.dataConstraints, dc.operator.Relates (actualOf dc data) dc.value := by
  rw [verifyDataConstraints, forM_eq_ok]
  apply forall₂_congr
  intro dc hdc
  rw [verifyDataConstraint, require_bind_eq_ok, require_eq_ok, ← bytesMatch_iff (length_actualOf hcovers hdc)]
  exact and_iff_right (hcovers dc hdc)

/-! ## Where reading and checking agree -/

/-- The sign of a constraint says what the program checks, whatever the bytes. -/
def signRight (dc : DataConstraint) : Bool :=
  match dc.operator with
  | .eq | .ne | .lte | .bitmask => true
  | .gte | .gteSigned => false
  | .lteSigned => dc.value = []

/-- Every sign is right, or those that are contradict one another. -/
def SignsRight (entry : ConstraintEntry) : Prop :=
  (∀ dc ∈ entry.dataConstraints, signRight dc) ∨
    ∀ data, Covers data entry →
      ∃ dc ∈ entry.dataConstraints, signRight dc ∧ ¬ dc.operator.Relates (actualOf dc data) dc.value

/-- Two constraints have no byte in common. -/
def Apart (a b : DataConstraint) : Prop :=
  a.offset + a.value.length ≤ b.offset ∨ b.offset + b.value.length ≤ a.offset

instance : DecidableRel Apart := fun _ _ => inferInstanceAs (Decidable (_ ∨ _))

/-- A constraint whose sign is wrong reads bytes of its own. -/
def WrongApart (entry : ConstraintEntry) : Prop :=
  entry.dataConstraints.Pairwise fun a b => signRight a ∧ signRight b ∨ Apart a b

/-- The rules of an entry hold of the data that the program accepts, and of no other. -/
def Truthful (base58 : Pubkey → String) (entries : List ConstraintEntry) (i : Nat) (entry : ConstraintEntry) : Prop :=
  ∀ data, Covers data entry →
    (SummaryHolds (inspectConstraints (entries.map (decodeConstraintEntry base58))) i data ↔
      verifyDataConstraints data entry = .ok ())

theorem truthful_iff (hentry : entries[i]? = some entry) :
    Truthful base58 entries i entry ↔ ∀ data, Covers data entry →
      ((∀ dc ∈ entry.dataConstraints, Shows dc.operator (actualOf dc data) dc.value) ↔
        ∀ dc ∈ entry.dataConstraints, dc.operator.Relates (actualOf dc data) dc.value) := by
  apply forall₂_congr
  intro data hcovers
  rw [summaryHolds_iff hentry, verifyDataConstraints_iff hcovers]

section
variable {dc : DataConstraint} {actual : List UInt8}

theorem shows_iff_relates (hright : signRight dc) (hlength : actual.length = dc.value.length) :
    Shows dc.operator actual dc.value ↔ dc.operator.Relates actual dc.value := by
  cases hop : dc.operator with
  | gte => simp [signRight, hop] at hright
  | gteSigned => simp [signRight, hop] at hright
  | lteSigned =>
      have hvalue : dc.value = [] := by simpa [signRight, hop] using hright
      rw [hvalue] at hlength ⊢
      rw [List.length_eq_zero_iff.mp hlength]
      simp [Shows, ConstraintOperator.Relates]
  | _ => rfl

/-- The value of a constraint whose sign is wrong meets it. -/
theorem relates_self (hwrong : ¬ signRight dc) : dc.operator.Relates dc.value dc.value := by
  cases hop : dc.operator with
  | gte => exact le_refl _
  | gteSigned => exact le_refl _
  | lteSigned => exact le_refl _
  | _ => simp [signRight, hop] at hwrong

/-- A number next to the value is on one side of it, and is shown on the other. -/
theorem exists_shown_wrong (hop : dc.operator = .lteSigned) (hwrong : ¬ signRight dc) :
    ∃ actual, actual.length = dc.value.length ∧
      ¬ (Shows dc.operator actual dc.value ↔ dc.operator.Relates actual dc.value) := by
  have hvalue : dc.value ≠ [] := by simpa [signRight, hop] using hwrong
  obtain ⟨k, hk⟩ := Nat.exists_eq_add_one_of_ne_zero (List.length_pos_of_ne_nil hvalue).ne'
  have hlt := leValue_lt dc.value
  have hpos : 0 < 256 ^ k := Nat.pow_pos (by decide)
  have hpow : 256 ^ dc.value.length = 256 * 256 ^ k := by rw [hk, pow_succ, Nat.mul_comm]
  let near := if leValue dc.value = 0 ∨ 2 * leValue dc.value = 256 ^ dc.value.length
    then leValue dc.value + 1 else leValue dc.value - 1
  have hnear : leValue (leDigits dc.value.length near) = near := leValue_leBytes (by grind)
  have hcast : (256 : Int) ^ dc.value.length = ((256 ^ dc.value.length : Nat) : Int) := (Nat.cast_pow 256 _).symm
  have hsigned : leSigned (leDigits dc.value.length near) =
      if 2 * near < 256 ^ dc.value.length then (near : Int) else near - ((256 ^ dc.value.length : Nat) : Int) := by
    rw [leSigned, hnear, leDigits_length, hcast]
  have hself : leSigned dc.value = if 2 * leValue dc.value < 256 ^ dc.value.length then (leValue dc.value : Int)
      else leValue dc.value - ((256 ^ dc.value.length : Nat) : Int) := by
    rw [leSigned, hcast]
  refine ⟨leDigits dc.value.length near, leDigits_length .., ?_⟩
  rw [hop]
  show ¬ (leValue (leDigits dc.value.length near) ≥ leValue dc.value ↔
    leSigned (leDigits dc.value.length near) ≤ leSigned dc.value)
  rw [hnear, hsigned, hself]
  grind

end

/-! ### Data with given bytes at places apart -/

/-- The bytes that a function of positions puts at `n` positions. -/
def load (bytes : Nat → UInt8) (offset n : Nat) : List UInt8 := (List.range n).map fun k => bytes (offset + k)

def store (bytes : Nat → UInt8) (offset : Nat) (value : List UInt8) (k : Nat) : UInt8 :=
  if offset ≤ k ∧ k < offset + value.length then value.getD (k - offset) 0 else bytes k

section
variable {bytes : Nat → UInt8} {dcs : List DataConstraint} {given : DataConstraint → List UInt8}
  {dc : DataConstraint}

theorem load_store (bytes : Nat → UInt8) (offset : Nat) (value : List UInt8) :
    load (store bytes offset value) offset value.length = value := by
  apply List.ext_getElem
  · simp [load]
  · intro k _ hk
    simp [load, store, hk]

theorem load_store_apart {offset o n : Nat} {value : List UInt8}
    (h : offset + value.length ≤ o ∨ o + n ≤ offset) :
    load (store bytes offset value) o n = load bytes o n := by
  rw [load, load, List.map_inj_left]
  intro k hk
  have hlt := List.mem_range.mp hk
  exact if_neg (by omega)

/-- The bytes of constraints, stored one after the other. -/
def storeAll (bytes : Nat → UInt8) (given : DataConstraint → List UInt8) (dcs : List DataConstraint) : Nat → UInt8 :=
  dcs.foldr (fun dc stored => store stored dc.offset (given dc)) bytes

theorem load_storeAll_apart (hgiven : ∀ b ∈ dcs, (given b).length = b.value.length) (h : ∀ b ∈ dcs, Apart b dc) :
    load (storeAll bytes given dcs) dc.offset dc.value.length = load bytes dc.offset dc.value.length := by
  induction dcs with
  | nil => rfl
  | cons b dcs ih =>
      have hb := h b List.mem_cons_self
      rw [Apart, ← hgiven b List.mem_cons_self] at hb
      rw [storeAll, List.foldr_cons, load_store_apart hb]
      exact ih (fun c hc => hgiven c (List.mem_cons_of_mem b hc)) fun c hc => h c (List.mem_cons_of_mem b hc)

theorem load_storeAll (hgiven : ∀ b ∈ dcs, (given b).length = b.value.length) (hapart : dcs.Pairwise Apart)
    (hdc : dc ∈ dcs) : load (storeAll bytes given dcs) dc.offset dc.value.length = given dc := by
  induction dcs with
  | nil => cases hdc
  | cons b dcs ih =>
      have hlength := hgiven b List.mem_cons_self
      rw [storeAll, List.foldr_cons]
      rcases List.mem_cons.mp hdc with rfl | hdc
      · rw [← hlength, load_store]
      · have hb := List.rel_of_pairwise_cons hapart hdc
        rw [Apart, ← hlength] at hb
        rw [load_store_apart hb]
        exact ih (fun c hc => hgiven c (List.mem_cons_of_mem b hc)) hapart.of_cons hdc

theorem actualOf_load {n : Nat} (h : dc.offset + dc.value.length ≤ n) :
    actualOf dc (load bytes 0 n) = load bytes dc.offset dc.value.length := by
  apply List.ext_getElem
  · simp only [actualOf, load, List.length_take, List.length_drop, List.length_map, List.length_range]
    omega
  · intro k _ hk
    simp [actualOf, load]

theorem load_getD (h : dc.offset + dc.value.length ≤ data.length) :
    load (fun k => data.getD k 0) dc.offset dc.value.length = actualOf dc data := by
  apply List.ext_getElem
  · simp only [actualOf, load, List.length_take, List.length_drop, List.length_map, List.length_range]
    omega
  · intro k hk _
    have hlt : k < dc.value.length := by simpa [load] using hk
    have hinside : dc.offset + k < data.length := by omega
    simp [actualOf, load, List.getD_eq_getElem?_getD, List.getElem?_eq_getElem hinside]

end

/-- Where the wrong signs are apart, their bytes can be replaced, and the others left as they are. -/
theorem exists_data_with (given : DataConstraint → List UInt8) (hcovers : Covers data entry)
    (hapart : WrongApart entry) (hgiven : ∀ dc ∈ entry.dataConstraints, (given dc).length = dc.value.length) :
    ∃ data', Covers data' entry ∧ ∀ dc ∈ entry.dataConstraints,
      actualOf dc data' = if signRight dc then actualOf dc data else given dc := by
  let wrong := entry.dataConstraints.filter fun dc => ¬ signRight dc
  have hwrong (dc : DataConstraint) : dc ∈ wrong ↔ dc ∈ entry.dataConstraints ∧ ¬ signRight dc := by
    simp [wrong]
  have hlength (dc : DataConstraint) (hdc : dc ∈ wrong) : (given dc).length = dc.value.length :=
    hgiven dc ((hwrong dc).mp hdc).1
  have hpairwise : wrong.Pairwise Apart := by
    refine (hapart.filter _).imp_of_mem fun ha _ hab => ?_
    rcases hab with hright | hab
    · exact absurd hright.1 ((hwrong _).mp ha).2
    · exact hab
  let stored := storeAll (fun k => data.getD k 0) given wrong
  have hlong : (load stored 0 data.length).length = data.length := by simp [load]
  refine ⟨load stored 0 data.length, fun dc hdc => (hcovers dc hdc).trans_eq hlong.symm, ?_⟩
  intro dc hdc
  rw [actualOf_load (hcovers dc hdc)]
  split
  · rename_i hright
    rw [load_storeAll_apart hlength, load_getD (hcovers dc hdc)]
    intro b hb
    obtain ⟨hb, hnot⟩ := (hwrong b).mp hb
    have hsymm : Std.Symm fun a b => signRight a ∧ signRight b ∨ Apart a b := ⟨fun _ _ h => h.imp And.symm Or.symm⟩
    have hne : b ≠ dc := fun heq => hnot (heq ▸ hright)
    rcases hapart.forall hb hdc hne with hboth | happart
    · exact absurd hboth.1 hnot
    · exact happart
  · rename_i hnot
    exact load_storeAll hlength hpairwise ((hwrong dc).mpr ⟨hdc, hnot⟩)

/-- The data meet the constraints whose signs are right. -/
def MeetsRight (entry : ConstraintEntry) (data : List UInt8) : Prop :=
  ∀ dc ∈ entry.dataConstraints, signRight dc → dc.operator.Relates (actualOf dc data) dc.value

/-- The value of a lower bound is accepted, and the sign shown for it does not hold. -/
theorem exists_hidden (hcovers : Covers data entry) (hapart : WrongApart entry) (hmet : MeetsRight entry data)
    {bound : DataConstraint} (hbound : bound ∈ entry.dataConstraints)
    (hop : bound.operator = .gte ∨ bound.operator = .gteSigned) :
    ∃ data', Covers data' entry ∧ (∀ dc ∈ entry.dataConstraints, dc.operator.Relates (actualOf dc data') dc.value) ∧
      ¬ Shows bound.operator (actualOf bound data') bound.value := by
  obtain ⟨data', hcovers', hactual⟩ := exists_data_with DataConstraint.value hcovers hapart fun _ _ => rfl
  have hwrong : ¬ signRight bound := by
    rcases hop with hop | hop
    · simp [signRight, hop]
    · simp [signRight, hop]
  refine ⟨data', hcovers', ?_, ?_⟩
  · intro dc hdc
    rw [hactual dc hdc]
    split
    · rename_i hright
      exact hmet dc hdc hright
    · rename_i hnot
      exact relates_self hnot
  · rw [hactual bound hbound, if_neg hwrong]
    rcases hop with hop | hop
    · rw [hop]
      exact Nat.lt_irrefl _
    · rw [hop]
      exact Nat.lt_irrefl _

/-- Where only signed upper bounds are shown wrong, one of them decides and the others hold both ways. -/
theorem exists_differing (hcovers : Covers data entry) (hapart : WrongApart entry) (hmet : MeetsRight entry data)
    (hsigned : ∀ dc ∈ entry.dataConstraints, ¬ signRight dc → dc.operator = .lteSigned)
    {bound : DataConstraint} (hbound : bound ∈ entry.dataConstraints) (hwrong : ¬ signRight bound) :
    ∃ data', Covers data' entry ∧
      (∀ dc ∈ entry.dataConstraints, dc ≠ bound →
        Shows dc.operator (actualOf dc data') dc.value ∧ dc.operator.Relates (actualOf dc data') dc.value) ∧
      ¬ (Shows bound.operator (actualOf bound data') bound.value ↔
        bound.operator.Relates (actualOf bound data') bound.value) := by
  obtain ⟨near, hnear, hdiffers⟩ := exists_shown_wrong (hsigned bound hbound hwrong) hwrong
  have hgiven (dc : DataConstraint) : (if dc = bound then near else dc.value).length = dc.value.length := by
    split
    · rename_i heq
      rw [heq, hnear]
    · rfl
  obtain ⟨data', hcovers', hactual⟩ := exists_data_with (fun dc => if dc = bound then near else dc.value) hcovers
    hapart fun dc _ => hgiven dc
  refine ⟨data', hcovers', ?_, ?_⟩
  · intro dc hdc hne
    rw [hactual dc hdc]
    split
    · rename_i hright
      have hrelates := hmet dc hdc hright
      exact ⟨(shows_iff_relates hright (length_actualOf hcovers hdc)).mpr hrelates, hrelates⟩
    · rename_i hnot
      rw [hsigned dc hdc hnot]
      exact ⟨le_refl _, le_refl _⟩
  · rw [hactual bound hbound, if_neg hwrong, if_pos rfl]
    exact hdiffers

theorem forall_iff_of_others {α : Type} {l : List α} {p : α → Prop} {a : α} (ha : a ∈ l)
    (hothers : ∀ b ∈ l, b ≠ a → p b) : (∀ b ∈ l, p b) ↔ p a := by
  constructor
  · intro h
    exact h a ha
  · intro h b hb
    by_cases heq : b = a
    · exact heq ▸ h
    · exact hothers b hb heq

theorem Truthful.signsRight (hentry : entries[i]? = some entry) (htrue : Truthful base58 entries i entry)
    (hapart : WrongApart entry) : SignsRight entry := by
  by_contra hnot
  simp only [SignsRight, not_or, not_forall, not_exists, not_and, not_not] at hnot
  obtain ⟨⟨wrong, hmem, hwrong⟩, data, hcovers, hmet⟩ := hnot
  rw [truthful_iff hentry] at htrue
  by_cases hbound : ∃ dc ∈ entry.dataConstraints, dc.operator = .gte ∨ dc.operator = .gteSigned
  · obtain ⟨bound, hbound, hop⟩ := hbound
    obtain ⟨data', hcovers', haccepted, hhidden⟩ := exists_hidden hcovers hapart hmet hbound hop
    exact hhidden ((htrue data' hcovers').mpr haccepted bound hbound)
  · have hsigned (dc : DataConstraint) (hdc : dc ∈ entry.dataConstraints) (hnot : ¬ signRight dc) :
        dc.operator = .lteSigned := by
      cases hop : dc.operator with
      | gte => exact absurd ⟨dc, hdc, .inl hop⟩ hbound
      | gteSigned => exact absurd ⟨dc, hdc, .inr hop⟩ hbound
      | lteSigned => rfl
      | _ => simp [signRight, hop] at hnot
    obtain ⟨data', hcovers', hothers, hdiffers⟩ := exists_differing hcovers hapart hmet hsigned hmem hwrong
    have hiff := htrue data' hcovers'
    rw [forall_iff_of_others hmem fun dc hdc hne => (hothers dc hdc hne).1,
      forall_iff_of_others hmem fun dc hdc hne => (hothers dc hdc hne).2] at hiff
    exact hdiffers hiff

theorem SignsRight.truthful (hentry : entries[i]? = some entry) (hright : SignsRight entry) :
    Truthful base58 entries i entry := by
  rw [truthful_iff hentry]
  intro data hcovers
  rcases hright with hright | hcontradict
  · apply forall₂_congr
    intro dc hdc
    exact shows_iff_relates (hright dc hdc) (length_actualOf hcovers hdc)
  · obtain ⟨dc, hdc, hright, hnot⟩ := hcontradict data hcovers
    have hshows : ¬ Shows dc.operator (actualOf dc data) dc.value := by
      rw [shows_iff_relates hright (length_actualOf hcovers hdc)]
      exact hnot
    exact ⟨fun h => absurd (h dc hdc) hshows, fun h => absurd (h dc hdc) hnot⟩

/-- The route of a swap, of at least 100. -/
def routeEntry : ConstraintEntry :=
  { programId := jupiterProgram
    dataConstraints :=
      [{ offset := 0, operator := .eq, value := routeDisc }, { offset := 8, operator := .gte, value := [100, 0] }]
    accountConstraints := []
    discriminatorFormat := .anchor8 }

/-- The route of a swap, of at most 100. -/
def cappedEntry : ConstraintEntry :=
  { routeEntry with
    dataConstraints :=
      [{ offset := 0, operator := .eq, value := routeDisc }, { offset := 8, operator := .lte, value := [100, 0] }] }

def routeData : List UInt8 := routeDisc ++ [200, 0]

/-- The summary of an entry is right for all data if the signs of its operators are, and only then where what is
shown wrong reads bytes of its own. A lower bound is shown right only where nothing meets the entry either way. -/
theorem summary_truthful_iff (base58 : Pubkey → String) (entries : List ConstraintEntry) (i : Nat)
    (entry : ConstraintEntry) (hentry : entries[i]? = some entry) :
    (SignsRight entry → Truthful base58 entries i entry) ∧
    (WrongApart entry → (Truthful base58 entries i entry ↔ SignsRight entry)) ∧
    ((∃ dc ∈ entry.dataConstraints, dc.operator = .gte) →
      (Truthful base58 entries i entry ↔ ∀ data, Covers data entry →
        ¬ SummaryHolds (inspectConstraints (entries.map (decodeConstraintEntry base58))) i data ∧
          verifyDataConstraints data entry ≠ .ok ())) := by
  refine ⟨fun hright => hright.truthful hentry,
    fun hapart => ⟨fun htrue => htrue.signsRight hentry hapart, fun hright => hright.truthful hentry⟩, ?_⟩
  intro hgte
  obtain ⟨dc, hdc, hop⟩ := hgte
  apply forall₂_congr
  intro data hcovers
  -- What the sign of a lower bound allows, the program refuses.
  have hnever : ¬ (SummaryHolds (inspectConstraints (entries.map (decodeConstraintEntry base58))) i data ∧
      verifyDataConstraints data entry = .ok ()) := by
    rw [summaryHolds_iff hentry, verifyDataConstraints_iff hcovers]
    intro h
    obtain ⟨hshows, hrelates⟩ := h
    have hless := hshows dc hdc
    have hleast := hrelates dc hdc
    rw [hop] at hless hleast
    exact absurd hleast (Nat.not_le.mpr hless)
  tauto

theorem summary_truthful_iff_route :
    ¬ Truthful (fun _ => "") [routeEntry, cappedEntry] 0 routeEntry ∧
      Truthful (fun _ => "") [routeEntry, cappedEntry] 1 cappedEntry := by
  have hroute := summary_truthful_iff (fun _ => "") [routeEntry, cappedEntry] 0 routeEntry rfl
  have hcapped := summary_truthful_iff (fun _ => "") [routeEntry, cappedEntry] 1 cappedEntry rfl
  constructor
  · rw [hroute.2.1 (by unfold WrongApart; decide), SignsRight, not_or]
    constructor
    · decide
    · intro h
      obtain ⟨dc, hdc, hright, hnot⟩ := h routeData (by unfold Covers; decide)
      rcases List.mem_pair.mp hdc with rfl | rfl
      · exact hnot rfl
      · cases hright
  · exact hcapped.1 (.inl (by decide))

/-! ## A lower bound that is shown as an upper bound -/

theorem summary_misleads : ¬ (SummaryHolds (inspectConstraints [decodeConstraintEntry (fun _ => "") routeEntry]) 0
    routeData ↔ verifyDataConstraints routeData routeEntry = .ok ()) := by
  intro h
  have hverify : verifyDataConstraints routeData routeEntry = .ok () := by decide
  have hrule := h.mpr hverify (inspectConstraint (decodeConstraintEntry (fun _ => "") routeEntry) 0) (by decide) rfl
    "data[8..+2] < 0x6400" (by decide) ⟨8, 2, "<", [100, 0]⟩ (by decide)
  have hless : leValue [200, 0] < leValue [100, 0] := (signRelates_iff .gte _ _).mp hrule
  exact absurd hless (by decide)

end Sigil.Sdk
