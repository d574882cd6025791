import Sigil.Lemmas.ShieldState
import Sigil.Sdk.Strings
import Sigil.Sdk.X402

/-!
# What a replay key tells apart

Two payments with one key are one payment: the same resource, the same payee, the same amount. A slash at the end of
the URL and the query do not count. One payment has one key as far as its amount and its fragment are spelled in one
way.
-/

namespace Sigil.Sdk

open Library

/-! ## Separators

A key is split again at its last two separators, if none of them belongs to an address. No separator belongs to an
amount.
-/

section
variable {α : Type} {a : α} {x₁ x₂ z₁ z₂ : List α}

/-- Two lists are split at the first separator. -/
theorem append_cons_inj_of_notMem_left (h₁ : a ∉ x₁) (h₂ : a ∉ x₂) :
    x₁ ++ a :: z₁ = x₂ ++ a :: z₂ ↔ x₁ = x₂ ∧ z₁ = z₂ := by
  induction x₁ generalizing x₂ with
  | nil =>
      cases x₂ with
      | nil => simp
      | cons c cs => simp [List.ne_of_not_mem_cons h₂]
  | cons b bs ih =>
      cases x₂ with
      | nil => simp [Ne.symm (List.ne_of_not_mem_cons h₁)]
      | cons c cs => simp [ih (List.not_mem_of_not_mem_cons h₁) (List.not_mem_of_not_mem_cons h₂), and_assoc]

/-- Two lists are split at the last separator. -/
theorem append_cons_inj_of_notMem_right (h₁ : a ∉ z₁) (h₂ : a ∉ z₂) :
    x₁ ++ a :: z₁ = x₂ ++ a :: z₂ ↔ x₁ = x₂ ∧ z₁ = z₂ := by
  have hsplit : z₁.reverse ++ a :: x₁.reverse = z₂.reverse ++ a :: x₂.reverse ↔
      z₁.reverse = z₂.reverse ∧ x₁.reverse = x₂.reverse :=
    append_cons_inj_of_notMem_left (List.mem_reverse.not.mpr h₁) (List.mem_reverse.not.mpr h₂)
  rw [← List.reverse_inj]
  simpa [and_comm] using hsplit

end

/-! ## Amounts -/

theorem mem_dropWhile_isWhiteSpace {c : Char} {cs : List Char} (hc : isWhiteSpace c = false) (h : c ∈ cs) :
    c ∈ cs.dropWhile isWhiteSpace := by
  induction cs with
  | nil => exact h
  | cons b bs ih =>
      cases hb : isWhiteSpace b with
      | false => simpa [hb] using h
      | true =>
          rcases List.mem_cons.mp h with rfl | h
          · simp [hc] at hb
          · simpa [hb] using ih h

theorem mem_trim {c : Char} {cs : List Char} (hc : isWhiteSpace c = false) (h : c ∈ cs) : c ∈ trim cs := by
  have hhead := mem_dropWhile_isWhiteSpace hc h
  have hlast := mem_dropWhile_isWhiteSpace hc (List.mem_reverse.mpr hhead)
  exact List.mem_reverse.mpr hlast

/-- Each of the characters is a digit. -/
theorem digitOf_of_foldlM {radix n m : Nat} {cs : List Char}
    (h : cs.foldlM (fun n c => (digitOf radix c).map (n * radix + ·)) n = some m) :
    ∀ c ∈ cs, (digitOf radix c).isSome := by
  induction cs generalizing n with
  | nil => simp
  | cons c cs ih =>
      rw [List.foldlM_cons] at h
      obtain ⟨_, hfirst, hrest⟩ := Option.bind_eq_some_iff.mp h
      obtain ⟨digit, hdigit, _⟩ := Option.map_eq_some_iff.mp hfirst
      rw [List.forall_mem_cons]
      exact ⟨by simp [hdigit], ih hrest⟩

theorem digitOf_separator (radix : Nat) : digitOf radix '|' = none := by
  simp [digitOf, show '|'.toNat = 124 from rfl]

theorem separator_notMem_of_parseDigits {radix : Nat} {cs : List Char} {n : Int}
    (h : parseDigits radix cs = some n) : '|' ∉ cs := by
  intro hmem
  rw [parseDigits] at h
  split at h
  · simp at h
  · obtain ⟨m, hm, _⟩ := Option.map_eq_some_iff.mp h
    have hdigit := digitOf_of_foldlM hm '|' hmem
    simp [digitOf_separator] at hdigit

/-- A text that is read as an integer has no separator. -/
theorem separator_notMem_of_bigInt {s : String} {n : Int} (h : bigInt s = some n) : '|' ∉ s.toList := by
  intro hmem
  have htrim : '|' ∈ trim s.toList := mem_trim (by decide) hmem
  rw [bigInt] at h
  split at h
  case h_1 heq => simp [heq] at htrim
  case h_2 heq => exact separator_notMem_of_parseDigits h (by simpa [heq] using htrim)
  case h_3 heq =>
      obtain ⟨m, hm, _⟩ := Option.map_eq_some_iff.mp h
      exact separator_notMem_of_parseDigits hm (by simpa [heq] using htrim)
  case h_10 => exact separator_notMem_of_parseDigits h htrim
  all_goals exact separator_notMem_of_parseDigits h (by simp_all)

/-! ## Locations -/

/-- The text without a slash at its end. -/
def withoutSlash (cs : List Char) : List Char := if cs.getLast? = some '/' then cs.dropLast else cs

theorem withoutSlash_append {cs ds : List Char} (h : ds ≠ []) :
    withoutSlash (cs ++ ds) = cs ++ withoutSlash ds := by
  have hlast : (cs ++ ds).getLast? = ds.getLast? := by simp [List.getLast?_append, List.getLast?_eq_some_getLast h]
  simp only [withoutSlash, hlast, List.dropLast_append_of_ne_nil h]
  split <;> rfl

/-- The mark of a fragment is no slash. -/
theorem withoutSlash_mark (cs : List Char) : withoutSlash ('#' :: cs) = '#' :: withoutSlash cs := by
  cases cs with
  | nil => rfl
  | cons c cs =>
      show withoutSlash (['#'] ++ c :: cs) = ['#'] ++ withoutSlash (c :: cs)
      exact withoutSlash_append (List.cons_ne_nil c cs)

theorem mem_of_mem_withoutSlash {c : Char} {cs : List Char} (h : c ∈ withoutSlash cs) : c ∈ cs := by
  rw [withoutSlash] at h
  split at h
  · exact List.dropLast_subset _ h
  · exact h

/-- What `new URL` reads: the text up to the query, in which no fragment is marked, and the fragment. -/
structure ParsedUrl where
  location : List Char
  fragment : Option (List Char)
  location_plain : '#' ∉ location

namespace ParsedUrl

/-- The fragment with its mark. -/
def hash (fragment : Option (List Char)) : List Char := fragment.elim [] ('#' :: ·)

/-- `toString` with an empty query. -/
def text (u : ParsedUrl) : String := String.ofList (u.location ++ hash u.fragment)

/-- What the key takes from a URL before the slash is taken off. -/
def read (parseUrl : String → Option ParsedUrl) (url : String) : Option String := (parseUrl url).map text

/-- The location without the slash at the end of the text. -/
def resource (u : ParsedUrl) : List Char := u.fragment.elim (withoutSlash u.location) fun _ => u.location

theorem resource_plain (u : ParsedUrl) : '#' ∉ u.resource := by
  cases h : u.fragment with
  | none => simpa [resource, h] using fun hmem => u.location_plain (mem_of_mem_withoutSlash hmem)
  | some fragment => simpa [resource, h] using u.location_plain

theorem withoutSlash_text (u : ParsedUrl) :
    withoutSlash u.text.toList = u.resource ++ hash (u.fragment.map withoutSlash) := by
  cases h : u.fragment with
  | none => simp [text, resource, hash, h]
  | some fragment =>
      simp [text, resource, hash, h, withoutSlash_append (List.cons_ne_nil '#' fragment), withoutSlash_mark]

/-- A normalised text is the resource and the fragment. -/
theorem withoutSlash_text_inj {u v : ParsedUrl} :
    withoutSlash u.text.toList = withoutSlash v.text.toList ↔
      u.resource = v.resource ∧ u.fragment.map withoutSlash = v.fragment.map withoutSlash := by
  rw [withoutSlash_text, withoutSlash_text]
  have hu := u.resource_plain
  have hv := v.resource_plain
  cases u.fragment with
  | none =>
      cases v.fragment with
      | none => simp [hash]
      | some fragment =>
          have hne : u.resource ≠ v.resource ++ '#' :: withoutSlash fragment := by
            intro heq
            simp [heq] at hu
          simp [hash, hne]
  | some fragment =>
      cases v.fragment with
      | none =>
          have hne : u.resource ++ '#' :: withoutSlash fragment ≠ v.resource := by
            intro heq
            simp [← heq] at hv
          simp [hash, hne]
      | some other => simp [hash, append_cons_inj_of_notMem_left hu hv]

end ParsedUrl

/-! ## The key -/

theorem NonceTracker.toList_buildKey {parseUrl : String → Option String} {url text payTo amount : String}
    (h : parseUrl url = some text) :
    (buildKey parseUrl url payTo amount).toList =
      (withoutSlash text.toList ++ '|' :: payTo.toList) ++ '|' :: amount.toList := by
  simp only [buildKey, h, withoutSlash]
  split <;> simp

theorem NonceTracker.buildKey_inj {parseUrl : String → Option String}
    {url text payTo amount url' text' payTo' amount' : String}
    (h : parseUrl url = some text) (h' : parseUrl url' = some text')
    (hamount : '|' ∉ amount.toList) (hamount' : '|' ∉ amount'.toList)
    (hpayTo : '|' ∉ payTo.toList) (hpayTo' : '|' ∉ payTo'.toList) :
    buildKey parseUrl url payTo amount = buildKey parseUrl url' payTo' amount' ↔
      withoutSlash text.toList = withoutSlash text'.toList ∧ payTo = payTo' ∧ amount = amount' := by
  rw [← String.toList_inj, toList_buildKey h, toList_buildKey h',
    append_cons_inj_of_notMem_right hamount hamount', append_cons_inj_of_notMem_right hpayTo hpayTo',
    String.toList_inj, String.toList_inj, and_assoc]

/-! ## Payments -/

/-- A payment that a server has asked for in answer to a request, let through by the checks of the header and of the
amount. -/
structure AcceptedPayment (parseUrl : String → Option ParsedUrl) where
  url : String
  request : ParsedUrl
  parseUrl_url : parseUrl url = some request
  header : Option (List PaymentRequirements)
  accepts : List PaymentRequirements
  decoded : decodePaymentRequiredHeader header = .ok accepts
  selected : PaymentRequirements
  selected_mem : selected ∈ accepts
  recentPayments : List Int
  config : X402Config
  value : Int
  validated : validatePaymentAmount recentPayments selected.amount config = .ok value

namespace AcceptedPayment

variable {parseUrl : String → Option ParsedUrl}

def key (p : AcceptedPayment parseUrl) : String :=
  NonceTracker.buildKey (ParsedUrl.read parseUrl) p.url p.selected.payTo p.selected.amount

/-- The payee holds no separator, as no address does. -/
def PlainPayee (p : AcceptedPayment parseUrl) : Prop := '|' ∉ p.selected.payTo.toList

/-- The amount is the decimal text of a number. -/
def PlainAmount (p : AcceptedPayment parseUrl) : Prop := ∃ n : Nat, p.selected.amount = n.repr

/-- The same URL up to the query, the fragment and a slash at its end, the same payee and equal amounts. -/
structure SamePayment (p q : AcceptedPayment parseUrl) : Prop where
  resource : p.request.resource = q.request.resource
  payTo : p.selected.payTo = q.selected.payTo
  value : p.value = q.value

/-- The fragments are the same, and the amounts have one spelling. -/
structure SameSpelling (p q : AcceptedPayment parseUrl) : Prop where
  fragment : p.request.fragment = q.request.fragment
  amount : p.selected.amount = q.selected.amount ∨ p.PlainAmount ∧ q.PlainAmount

variable {p q : AcceptedPayment parseUrl}

theorem bigInt_amount (p : AcceptedPayment parseUrl) : bigInt p.selected.amount = some p.value :=
  (validatePaymentAmount_eq_ok p.validated).1

theorem read_url (p : AcceptedPayment parseUrl) : ParsedUrl.read parseUrl p.url = some p.request.text := by
  simp [ParsedUrl.read, p.parseUrl_url]

/-- A plain amount is the text of its value. -/
theorem PlainAmount.amount_eq (h : p.PlainAmount) : p.selected.amount = p.value.toNat.repr := by
  obtain ⟨n, hn⟩ := h
  have hread := p.bigInt_amount
  rw [hn, bigInt_repr] at hread
  simp [hn, ← Option.some_inj.mp hread]

theorem SameSpelling.amount_eq (h : p.SameSpelling q) (hvalue : p.value = q.value) :
    p.selected.amount = q.selected.amount := by
  rcases h.amount with hamount | ⟨hp, hq⟩
  · exact hamount
  · rw [hp.amount_eq, hq.amount_eq, hvalue]

theorem key_inj (hp : p.PlainPayee) (hq : q.PlainPayee) :
    p.key = q.key ↔
      (p.request.resource = q.request.resource ∧
        p.request.fragment.map withoutSlash = q.request.fragment.map withoutSlash) ∧
      p.selected.payTo = q.selected.payTo ∧ p.selected.amount = q.selected.amount := by
  have hinj := NonceTracker.buildKey_inj p.read_url q.read_url (separator_notMem_of_bigInt p.bigInt_amount)
    (separator_notMem_of_bigInt q.bigInt_amount) hp hq
  rw [ParsedUrl.withoutSlash_text_inj] at hinj
  exact hinj

end AcceptedPayment

/-! ## Soundness and completeness -/

theorem payment_key_identifies {parseUrl : String → Option ParsedUrl} (p q : AcceptedPayment parseUrl)
    (hp : p.PlainPayee) (hq : q.PlainPayee) :
    (p.key = q.key → p.SamePayment q) ∧ (p.SamePayment q → p.SameSpelling q → p.key = q.key) := by
  rw [AcceptedPayment.key_inj hp hq]
  constructor
  · rintro ⟨⟨hresource, _⟩, hpayTo, hamount⟩
    have hvalue := p.bigInt_amount
    rw [hamount, q.bigInt_amount] at hvalue
    exact ⟨hresource, hpayTo, (Option.some_inj.mp hvalue).symm⟩
  · intro hsame hspelling
    have hfragment := congrArg (Option.map withoutSlash) hspelling.fragment
    exact ⟨⟨hsame.resource, hfragment⟩, hsame.payTo, hspelling.amount_eq hsame.value⟩

/-- A URL without a fragment, written as `new URL` writes it. -/
def readPlainUrl (url : String) : Option ParsedUrl :=
  if h : '#' ∈ url.toList then none
  else some { location := url.toList.takeWhile (· ≠ '?'), fragment := none,
              location_plain := fun hmem => h (List.takeWhile_subset _ hmem) }

def dataPayment : PaymentRequirements :=
  { network := "solana:mainnet"
    asset := "EPjFWdd5AufqSSqeM2qN1xzybapC8G4wEGGkZwyTDt1v"
    amount := "1000"
    payTo := "9WzDXwBbmkg8ZTbNMqUxvQRAyrZzDsGYdLVL9zYtAWWM" }

def paidFor {url : String} {request : ParsedUrl} (h : readPlainUrl url = some request) : AcceptedPayment readPlainUrl :=
  { url
    request
    parseUrl_url := h
    header := some [dataPayment]
    accepts := [dataPayment]
    decoded := rfl
    selected := dataPayment
    selected_mem := List.mem_singleton_self dataPayment
    recentPayments := []
    config := X402Config.default
    value := 1000
    validated := rfl }

def dataUrl : ParsedUrl :=
  { location := "https://api.com/data".toList, fragment := none, location_plain := by decide +kernel }

def slashUrl : ParsedUrl :=
  { location := "https://api.com/data/".toList, fragment := none, location_plain := by decide +kernel }

theorem readPlainUrl_data : readPlainUrl "https://api.com/data" = some dataUrl := rfl

theorem readPlainUrl_slash : readPlainUrl "https://api.com/data/" = some slashUrl := rfl

theorem payment_key_identifies_slash : (paidFor readPlainUrl_data).key = (paidFor readPlainUrl_slash).key := by
  have hpayee : '|' ∉ dataPayment.payTo.toList := by decide +kernel
  apply (payment_key_identifies (paidFor readPlainUrl_data) (paidFor readPlainUrl_slash) hpayee hpayee).2
  · exact ⟨by decide +kernel, rfl, rfl⟩
  · exact ⟨rfl, .inl rfl⟩

/-- A slash at the end of the URL does not count. -/
theorem slash_key_shared :
    ¬ ((paidFor readPlainUrl_data).key = (paidFor readPlainUrl_slash).key ↔
      (paidFor readPlainUrl_data).request.location = (paidFor readPlainUrl_slash).request.location ∧
      (paidFor readPlainUrl_data).selected.payTo = (paidFor readPlainUrl_slash).selected.payTo ∧
      (paidFor readPlainUrl_data).value = (paidFor readPlainUrl_slash).value) := by
  intro h
  have hkey : (paidFor readPlainUrl_data).key = (paidFor readPlainUrl_slash).key := by decide +kernel
  have hlocation : dataUrl.location ≠ slashUrl.location := by decide +kernel
  exact hlocation (h.mp hkey).1

end Sigil.Sdk
