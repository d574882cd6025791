import Mathlib.Data.Fintype.EquivFin
import Mathlib.Data.Fintype.Option
import Sigil.Library.Acyclic
import Sigil.Sdk.NetworkErrors

/-!
# What the classification of errors decides

The recursion into wrapped errors keeps no record of where it has been. It returns iff it pursues no cycle, and then
decides whether a transport-shaped error can be found.
-/

namespace Sigil.Sdk

open Library

variable {Ref : Type}

/-! ## Transport-shaped errors -/

/-- The documented signals of a plain error. -/
inductive TransportSignal (host : Host Ref) (v : HostValue Ref) : Prop where
  | name {s : String} (h : host.safeGetName v = some s) (hs : s ∈ ["AbortError", "TimeoutError"])
  | causeName {s : String} (hcause : (host.safeGetCause v).isNullish = false)
      (h : host.safeGetName (host.safeGetCause v) = some s) (hs : s ∈ transportCauseNames)
  | causeCode {s : String} (hcause : (host.safeGetCause v).isNullish = false)
      (h : host.safeGetCode (host.safeGetCause v) = some s) (hs : s ∈ transportCodes)
  | code {s : String} (h : host.safeGetCode v = some s) (hs : s ∈ transportCodes)
  | status {x : Double} (h : host.safeGetStatusCode v = some x) (hlow : 500 ≤ x.value) (hhigh : x.value < 600)
  | fetchFailed (h : host.fetchFailed v = true)

/-- An error with a signal, without the name of a denial. -/
inductive TransportShaped (host : Host Ref) (v : HostValue Ref) : Prop where
  | domException {s : String} (hdenied : host.isDenied v = false) (hdom : host.safeInstanceOf v .domException = true)
      (h : host.safeGetName v = some s) (hs : s ∈ ["AbortError", "TimeoutError"])
  | error (hdenied : host.isDenied v = false) (hdom : host.safeInstanceOf v .domException = false)
      (haggregate : host.safeInstanceOf v .aggregateError = false) (herror : host.safeInstanceOf v .error = true)
      (h : TransportSignal host v)

/-- An `AggregateError` without the name of a denial, and the elements of its array. -/
structure Wraps (host : Host Ref) (v : HostValue Ref) (items : List (Element Ref)) : Prop where
  denied : host.isDenied v = false
  domException : host.safeInstanceOf v .domException = false
  aggregateError : host.safeInstanceOf v .aggregateError = true
  errors : host.wrappedErrors v = .ok (some items)

/-- A transport-shaped error can be reached along the links of such errors. -/
inductive Reaches (host : Host Ref) : HostValue Ref → Prop where
  | shaped {v : HostValue Ref} (h : TransportShaped host v) : Reaches host v
  | wrapped {v w : HostValue Ref} {items : List (Element Ref)} (h : Wraps host v items) (hw : .value w ∈ items)
      (hreaches : Reaches host w) : Reaches host v

/-- The value stands before every element whose read throws. -/
inductive ReadIn : List (Element Ref) → HostValue Ref → Prop where
  | here (w : HostValue Ref) (rest : List (Element Ref)) : ReadIn (.value w :: rest) w
  | hole {rest : List (Element Ref)} {w : HostValue Ref} (h : ReadIn rest w) : ReadIn (.hole :: rest) w
  | next (v : HostValue Ref) {rest : List (Element Ref)} {w : HostValue Ref} (h : ReadIn rest w) :
      ReadIn (.value v :: rest) w

/-- A transport-shaped error can be reached along links that are read. -/
inductive Found (host : Host Ref) : HostValue Ref → Prop where
  | shaped {v : HostValue Ref} (h : TransportShaped host v) : Found host v
  | wrapped {v w : HostValue Ref} {items : List (Element Ref)} (h : Wraps host v items) (hw : ReadIn items w)
      (hfound : Found host w) : Found host v

/-- The value is read before anything with the property. -/
inductive PursuedIn (P : HostValue Ref → Prop) : List (Element Ref) → HostValue Ref → Prop where
  | here (w : HostValue Ref) (rest : List (Element Ref)) : PursuedIn P (.value w :: rest) w
  | hole {rest : List (Element Ref)} {w : HostValue Ref} (h : PursuedIn P rest w) : PursuedIn P (.hole :: rest) w
  | next {v : HostValue Ref} {rest : List (Element Ref)} {w : HostValue Ref} (hv : ¬ P v) (h : PursuedIn P rest w) :
      PursuedIn P (.value v :: rest) w

/-- The search comes from one object to another. -/
def Pursues (host : Host Ref) (r s : Ref) : Prop :=
  ∃ items, Wraps host (.object r) items ∧ PursuedIn (Found host) items (.object s)

/-! ## Searching an array -/

section
variable {P : HostValue Ref → Prop} {call call' : HostValue Ref → Option (Guarded Bool)} {items : List (Element Ref)}
  {returned : Guarded Bool}

/-- What returns decides a property. -/
def Decides (call : HostValue Ref → Option (Guarded Bool)) (P : HostValue Ref → Prop) : Prop :=
  ∀ v returned, call v = some returned → ∃ b, returned = .ok b ∧ (b = true ↔ P v)

theorem someElement_decides (hcall : Decides call P) (h : someElement call items = some returned) :
    recover returned false = true ↔ ∃ w, ReadIn items w ∧ P w := by
  induction items with
  | nil =>
      cases h
      exact iff_of_false (by simp [recover]) fun ⟨_, hw, _⟩ => by cases hw
  | cons item rest ih =>
      cases item with
      | hole =>
          rw [ih h]
          constructor
          · rintro ⟨w, hw, hp⟩
            exact ⟨w, .hole hw, hp⟩
          · rintro ⟨w, hw, hp⟩
            cases hw with
            | hole hw => exact ⟨w, hw, hp⟩
      | unreadable =>
          cases h
          exact iff_of_false (by simp [recover]) fun ⟨_, hw, _⟩ => by cases hw
      | value v =>
          obtain ⟨inner, hinner, h⟩ := Option.bind_eq_some_iff.mp h
          obtain ⟨b, rfl, hb⟩ := hcall v inner hinner
          cases b with
          | true =>
              cases h
              exact iff_of_true rfl ⟨v, .here v rest, hb.mp rfl⟩
          | false =>
              have hv : ¬ P v := fun hp => by cases hb.mpr hp
              rw [ih h]
              constructor
              · rintro ⟨w, hw, hp⟩
                exact ⟨w, .next v hw, hp⟩
              · rintro ⟨w, hw, hp⟩
                cases hw with
                | here => exact absurd hp hv
                | next _ hw => exact ⟨w, hw, hp⟩

/-- The search of an array returns iff every call that it makes returns. -/
theorem someElement_isSome_iff (hcall : Decides call P) :
    (someElement call items).isSome ↔ ∀ w, PursuedIn P items w → (call w).isSome := by
  induction items with
  | nil => exact iff_of_true rfl fun _ hw => by cases hw
  | cons item rest ih =>
      cases item with
      | hole =>
          rw [someElement, ih]
          constructor
          · intro h w hw
            cases hw with
            | hole hw => exact h w hw
          · exact fun h w hw => h w (.hole hw)
      | unreadable => exact iff_of_true rfl fun _ hw => by cases hw
      | value v =>
          rw [someElement]
          cases hv : call v with
          | none =>
              refine iff_of_false (by simp) fun h => ?_
              have := h v (.here v rest)
              simp [hv] at this
          | some inner =>
              obtain ⟨b, rfl, hb⟩ := hcall v inner hv
              cases b with
              | true =>
                  refine iff_of_true rfl fun w hw => ?_
                  cases hw with
                  | here => simp [hv]
                  | next hnot => exact absurd (hb.mp rfl) hnot
              | false =>
                  have hnot : ¬ P v := fun hp => by cases hb.mpr hp
                  rw [Option.bind_some, ih]
                  constructor
                  · intro h w hw
                    cases hw with
                    | here => simp [hv]
                    | next _ hw => exact h w hw
                  · exact fun h w hw => h w (.next hnot hw)

theorem someElement_mono (hmono : ∀ v returned, call v = some returned → call' v = some returned)
    (h : someElement call items = some returned) : someElement call' items = some returned := by
  induction items with
  | nil => exact h
  | cons item rest ih =>
      cases item with
      | hole => exact ih h
      | unreadable => exact h
      | value v =>
          obtain ⟨inner, hinner, h⟩ := Option.bind_eq_some_iff.mp h
          rw [someElement, hmono v inner hinner, Option.bind_some]
          cases inner with
          | error e => exact h
          | ok b =>
              cases b with
              | true => exact h
              | false => exact ih h

end

/-! ## One call -/

variable {host : Host Ref} {v w : HostValue Ref} {items : List (Element Ref)} {calls : Nat} {r s : Ref}

theorem errorSignals_iff : host.errorSignals v = true ↔ TransportSignal host v := by
  simp only [Host.errorSignals, Host.isTimeout, Host.causeSignals, Bool.or_eq_true, Bool.and_eq_true,
    Option.any_eq_true, Bool.not_eq_true', decide_eq_true_eq]
  constructor
  · rintro ((((⟨s, hs, hmem⟩ | ⟨hcause, ⟨s, hs, hmem⟩ | ⟨s, hs, hmem⟩⟩) | ⟨s, hs, hmem⟩) | ⟨x, hx, hlow, hhigh⟩) | h)
    · exact .name hs hmem
    · exact .causeName hcause hs hmem
    · exact .causeCode hcause hs hmem
    · exact .code hs hmem
    · exact .status hx hlow hhigh
    · exact .fetchFailed h
  · intro h
    cases h with
    | name hs hmem => exact .inl (.inl (.inl (.inl ⟨_, hs, hmem⟩)))
    | causeName hcause hs hmem => exact .inl (.inl (.inl (.inr ⟨hcause, .inl ⟨_, hs, hmem⟩⟩)))
    | causeCode hcause hs hmem => exact .inl (.inl (.inl (.inr ⟨hcause, .inr ⟨_, hs, hmem⟩⟩)))
    | code hs hmem => exact .inl (.inl (.inr ⟨_, hs, hmem⟩))
    | status hx hlow hhigh => exact .inl (.inr ⟨_, hx, hlow, hhigh⟩)
    | fetchFailed h => exact .inr h

theorem safeInstanceOf_of_nullish (hv : v.isNullish = true) (c : ErrorClass) : host.safeInstanceOf v c = false := by
  cases v <;> first | rfl | cases hv

theorem TransportShaped.not_nullish (h : TransportShaped host v) : v.isNullish = false := by
  by_contra hnot
  have hclass (c : ErrorClass) : host.safeInstanceOf v c = false :=
    safeInstanceOf_of_nullish (Bool.not_eq_false _ ▸ hnot) c
  cases h with
  | domException _ hdom => cases hdom.symm.trans (hclass _)
  | error _ _ _ herror => cases herror.symm.trans (hclass _)

theorem TransportShaped.not_denied (h : TransportShaped host v) : host.isDenied v = false := by
  cases h with
  | domException h => exact h
  | error h => exact h

theorem TransportShaped.not_aggregateError (h : TransportShaped host v)
    (hdom : host.safeInstanceOf v .domException = false) : host.safeInstanceOf v .aggregateError = false := by
  cases h with
  | domException _ hnot => cases hdom.symm.trans hnot
  | error _ _ haggregate => exact haggregate

theorem transportShaped_domException (hdenied : host.isDenied v = false)
    (hdom : host.safeInstanceOf v .domException = true) : host.isTimeout v = true ↔ TransportShaped host v := by
  rw [Host.isTimeout, Option.any_eq_true]
  constructor
  · rintro ⟨s, hs, hmem⟩
    exact .domException hdenied hdom hs (of_decide_eq_true hmem)
  · intro h
    cases h with
    | domException _ _ hs hmem => exact ⟨_, hs, decide_eq_true hmem⟩
    | error _ hnot => cases hdom.symm.trans hnot

theorem transportShaped_error (hdenied : host.isDenied v = false)
    (hdom : host.safeInstanceOf v .domException = false) (haggregate : host.safeInstanceOf v .aggregateError = false) :
    (host.safeInstanceOf v .error && host.errorSignals v) = true ↔ TransportShaped host v := by
  rw [Bool.and_eq_true, errorSignals_iff]
  constructor
  · exact fun h => .error hdenied hdom haggregate h.1 h.2
  · intro h
    cases h with
    | domException _ hnot => cases hdom.symm.trans hnot
    | error _ _ _ herror hsignal => exact ⟨herror, hsignal⟩

theorem Wraps.not_shaped (h : Wraps host v items) : ¬ TransportShaped host v := by
  intro hshaped
  cases h.aggregateError.symm.trans (hshaped.not_aggregateError h.domException)

theorem Wraps.found_iff (h : Wraps host v items) : Found host v ↔ ∃ w, ReadIn items w ∧ Found host w := by
  constructor
  · intro hfound
    cases hfound with
    | shaped hshaped => exact absurd hshaped h.not_shaped
    | wrapped h' hw hfound =>
        obtain rfl := Option.some.inj (Except.ok.inj (h.errors.symm.trans h'.errors))
        exact ⟨_, hw, hfound⟩
  · rintro ⟨w, hw, hfound⟩
    exact .wrapped h hw hfound

theorem Wraps.not_nullish (h : Wraps host v items) : v.isNullish = false := by
  by_contra hnot
  cases h.aggregateError.symm.trans (safeInstanceOf_of_nullish (Bool.not_eq_false _ ▸ hnot) _)

theorem Wraps.isTransportError (h : Wraps host v items) (calls : Nat) : host.isTransportError (calls + 1) v =
    (someElement (host.isTransportError calls) items).map fun returned => .ok (recover returned false) := by
  simp only [Host.isTransportError, h.not_nullish, h.denied, h.domException, h.aggregateError, h.errors,
    Bool.false_eq_true, if_true, if_false]

/-- Where nothing is wrapped one call is enough. -/
theorem isTransportError_of_not_wraps (h : ∀ items, ¬ Wraps host v items) : ∃ b,
    (∀ calls, host.isTransportError (calls + 1) v = some (.ok b)) ∧ (b = true ↔ TransportShaped host v) := by
  cases hnullish : v.isNullish with
  | true =>
      refine ⟨false, fun calls => by rw [Host.isTransportError, if_pos hnullish], iff_of_false (by simp) ?_⟩
      intro hshaped
      cases hnullish.symm.trans hshaped.not_nullish
  | false =>
  cases hdenied : host.isDenied v with
  | true =>
      refine ⟨false, fun calls => ?_, iff_of_false (by simp) ?_⟩
      · simp only [Host.isTransportError, hnullish, hdenied, Bool.false_eq_true, if_true, if_false]
      · intro hshaped
        cases hdenied.symm.trans hshaped.not_denied
  | false =>
  cases hdom : host.safeInstanceOf v .domException with
  | true =>
      refine ⟨host.isTimeout v, fun calls => ?_, transportShaped_domException hdenied hdom⟩
      simp only [Host.isTransportError, hnullish, hdenied, hdom, Bool.false_eq_true, if_true, if_false]
  | false =>
  cases haggregate : host.safeInstanceOf v .aggregateError with
  | true =>
      refine ⟨false, fun calls => ?_, iff_of_false (by simp) ?_⟩
      · simp only [Host.isTransportError, hnullish, hdenied, hdom, haggregate, Bool.false_eq_true, if_true, if_false]
        cases herrors : host.wrappedErrors v with
        | error e => rfl
        | ok wrapped =>
            cases wrapped with
            | none => rfl
            | some items => exact absurd ⟨hdenied, hdom, haggregate, herrors⟩ (h items)
      · intro hshaped
        cases haggregate.symm.trans (hshaped.not_aggregateError hdom)
  | false =>
      refine ⟨_, fun calls => ?_, transportShaped_error hdenied hdom haggregate⟩
      simp only [Host.isTransportError, hnullish, hdenied, hdom, haggregate, Bool.false_eq_true, if_false]

theorem found_of_not_wraps (h : ∀ items, ¬ Wraps host v items) : Found host v ↔ TransportShaped host v := by
  constructor
  · intro hfound
    cases hfound with
    | shaped hshaped => exact hshaped
    | wrapped hwraps => exact absurd hwraps (h _)
  · exact .shaped

/-! ## All calls -/

/-- What returns has not thrown, and says whether a transport-shaped error was found. -/
theorem isTransportError_decides (calls : Nat) : Decides (host.isTransportError calls) (Found host) := by
  induction calls with
  | zero => exact fun v returned h => by cases h
  | succ calls ih =>
      intro v returned h
      by_cases hwraps : ∃ items, Wraps host v items
      · obtain ⟨items, hwraps⟩ := hwraps
        rw [hwraps.isTransportError] at h
        obtain ⟨inner, hinner, rfl⟩ := Option.map_eq_some_iff.mp h
        exact ⟨_, rfl, (someElement_decides ih hinner).trans hwraps.found_iff.symm⟩
      · obtain ⟨b, hcall, hb⟩ := isTransportError_of_not_wraps (not_exists.mp hwraps)
        rw [hcall] at h
        cases h
        exact ⟨b, rfl, hb.trans (found_of_not_wraps (not_exists.mp hwraps)).symm⟩

theorem isTransportError_mono {more : Nat} (hle : calls ≤ more) {returned : Guarded Bool}
    (h : host.isTransportError calls v = some returned) : host.isTransportError more v = some returned := by
  induction calls generalizing more v returned with
  | zero => cases h
  | succ calls ih =>
      obtain ⟨more, rfl⟩ : ∃ m, more = m + 1 := ⟨more - 1, by omega⟩
      by_cases hwraps : ∃ items, Wraps host v items
      · obtain ⟨items, hwraps⟩ := hwraps
        rw [hwraps.isTransportError] at h ⊢
        obtain ⟨inner, hinner, rfl⟩ := Option.map_eq_some_iff.mp h
        rw [someElement_mono (fun _ _ => ih (by omega)) hinner, Option.map_some]
      · obtain ⟨b, hcall, -⟩ := isTransportError_of_not_wraps (not_exists.mp hwraps)
        rw [hcall] at h ⊢
        exact h

theorem isSome_mono {more : Nat} (hle : calls ≤ more) (h : (host.isTransportError calls v).isSome) :
    (host.isTransportError more v).isSome := by
  obtain ⟨returned, hcall⟩ := Option.isSome_iff_exists.mp h
  rw [isTransportError_mono hle hcall]
  rfl

/-- One bound is enough for all calls of a search. -/
theorem uniform_calls {P : HostValue Ref → Prop}
    (h : ∀ w, PursuedIn P items w → ∃ calls, (host.isTransportError calls w).isSome) :
    ∃ calls, ∀ w, PursuedIn P items w → (host.isTransportError calls w).isSome := by
  induction items with
  | nil => exact ⟨0, fun _ hw => by cases hw⟩
  | cons item rest ih =>
      cases item with
      | hole =>
          obtain ⟨calls, hall⟩ := ih fun w hw => h w (.hole hw)
          refine ⟨calls, fun w hw => ?_⟩
          cases hw with
          | hole hw => exact hall w hw
      | unreadable => exact ⟨0, fun _ hw => by cases hw⟩
      | value v =>
          obtain ⟨first, hfirst⟩ := h v (.here v rest)
          by_cases hp : P v
          · refine ⟨first, fun w hw => ?_⟩
            cases hw with
            | here => exact hfirst
            | next hnot => exact absurd hp hnot
          · obtain ⟨calls, hall⟩ := ih fun w hw => h w (.next hp hw)
            refine ⟨max first calls, fun w hw => ?_⟩
            cases hw with
            | here => exact isSome_mono (le_max_left ..) hfirst
            | next _ hw => exact isSome_mono (le_max_right ..) (hall w hw)

theorem isSome_of_not_object (h : ∀ r, v ≠ .object r) : (host.isTransportError 1 v).isSome := by
  have hnot : ∀ items, ¬ Wraps host v items := by
    intro items hwraps
    cases v with
    | object r => exact h r rfl
    | _ => cases hwraps.aggregateError
  obtain ⟨b, hcall, -⟩ := isTransportError_of_not_wraps hnot
  rw [hcall]
  rfl

theorem returns_of_acc (h : Acc (fun s r => Pursues host r s) r) :
    ∃ calls, (host.isTransportError calls (.object r)).isSome := by
  induction h with
  | intro r _ ih =>
      by_cases hwraps : ∃ items, Wraps host (.object r) items
      · obtain ⟨items, hwraps⟩ := hwraps
        have hinner : ∀ w, PursuedIn (Found host) items w → ∃ calls, (host.isTransportError calls w).isSome := by
          intro w hw
          cases w with
          | object s => exact ih s ⟨items, hwraps, hw⟩
          | _ => exact ⟨1, isSome_of_not_object fun _ => by simp⟩
        obtain ⟨calls, hall⟩ := uniform_calls hinner
        refine ⟨calls + 1, ?_⟩
        rw [hwraps.isTransportError, Option.isSome_map, someElement_isSome_iff (isTransportError_decides calls)]
        exact hall
      · obtain ⟨b, hcall, -⟩ := isTransportError_of_not_wraps (not_exists.mp hwraps)
        exact ⟨1, by rw [hcall]; rfl⟩

theorem acc_of_returns (h : (host.isTransportError calls (.object r)).isSome) :
    Acc (fun s r => Pursues host r s) r := by
  induction calls generalizing r with
  | zero => cases h
  | succ calls ih =>
      constructor
      rintro s ⟨items, hwraps, hs⟩
      rw [hwraps.isTransportError, Option.isSome_map, someElement_isSome_iff (isTransportError_decides calls)] at h
      exact ih (h _ hs)

theorem returns_iff [Finite Ref] :
    (∃ calls, (host.isTransportError calls v).isSome) ↔ ∀ r, v = .object r → AcyclicFrom (Pursues host) r := by
  constructor
  · rintro ⟨calls, h⟩ r rfl
    exact acc_iff_acyclicFrom.mp (acc_of_returns h)
  · intro h
    cases v with
    | object r => exact returns_of_acc (acc_iff_acyclicFrom.mpr (h r rfl))
    | _ => exact ⟨1, isSome_of_not_object fun _ => by simp⟩

theorem ReadIn.mem (h : ReadIn items w) : .value w ∈ items := by
  induction h with
  | here => exact List.mem_cons_self
  | hole _ ih => exact List.mem_cons_of_mem _ ih
  | next _ _ ih => exact List.mem_cons_of_mem _ ih

theorem Found.reaches (h : Found host v) : Reaches host v := by
  induction h with
  | shaped h => exact .shaped h
  | wrapped h hw _ ih => exact .wrapped h hw.mem ih

theorem redactCause_ok [DecidableEq Ref] (err : HostValue Ref) : ∃ out, host.redactCause err = .ok out := by
  cases err with
  | object r =>
      rw [Host.redactCause]
      split
      · exact ⟨_, rfl⟩
      · exact ⟨_, rfl⟩
  | _ => exact ⟨_, rfl⟩

/-- Both functions return without throwing, and the classification is the documented one. -/
structure Classifies [DecidableEq Ref] (host : Host Ref) (err : HostValue Ref) : Prop where
  returns : ∃ calls b, host.isTransportError calls err = some (.ok b)
  exact : ∀ calls b, host.isTransportError calls err = some (.ok b) → (b = true ↔ Reaches host err)
  redacts : ∃ out, host.redactCause err = .ok out

/-- Errors are classified iff no cycle is pursued, and what can be reached is not hidden behind an element that cannot
be read. -/
theorem classifies_iff [Finite Ref] [DecidableEq Ref] (host : Host Ref) (err : HostValue Ref) :
    Classifies host err ↔
      (∀ r, err = .object r → AcyclicFrom (Pursues host) r) ∧ (Reaches host err → Found host err) := by
  rw [← returns_iff]
  constructor
  · intro h
    obtain ⟨calls, b, hcall⟩ := h.returns
    obtain ⟨b', hb', hfound⟩ := isTransportError_decides calls err _ hcall
    cases hb'
    exact ⟨⟨calls, by rw [hcall]; rfl⟩, fun hreaches => hfound.mp ((h.exact calls b hcall).mpr hreaches)⟩
  · rintro ⟨⟨calls, hsome⟩, hhidden⟩
    obtain ⟨returned, hcall⟩ := Option.isSome_iff_exists.mp hsome
    obtain ⟨b, rfl, -⟩ := isTransportError_decides calls err _ hcall
    refine ⟨⟨calls, b, hcall⟩, fun calls b hcall => ?_, redactCause_ok err⟩
    obtain ⟨b', hb', hfound⟩ := isTransportError_decides calls err _ hcall
    cases hb'
    rw [hfound]
    exact ⟨Found.reaches, hhidden⟩

/-! ### Two attempts that failed, and an error that wraps itself twice -/

/-- A failed connection with two attempts: the second one timed out, and its message cannot be read. -/
def twoAttempts : Host (Option Bool) where
  object r :=
    if r = none then
      { instanceOf := fun c => .ok (c = .aggregateError ∨ c = .error)
        name := .ok (some (.string "AggregateError"))
        errors := .ok (some [.value (.object (some false)), .value (.object (some true))]) }
    else if r = some false then { instanceOf := fun c => .ok (c = .error), name := .ok (some (.string "Error")) }
    else
      { instanceOf := fun c => .ok (c = .error), name := .ok (some (.string "TimeoutError"))
        message := .error () }
  numberText x := toString ⌊x.value⌋

def wrapsItself : Host Unit where
  object _ :=
    { instanceOf := fun c => .ok (c = .aggregateError ∨ c = .error)
      name := .ok (some (.string "AggregateError"))
      errors := .ok (some [.value (.object ()), .value (.object ())]) }
  numberText x := toString ⌊x.value⌋

theorem classifies_iff_attempts : Classifies twoAttempts (.object none) := by
  apply (classifies_iff twoAttempts (.object none)).mpr
  constructor
  · intro r hr
    cases hr
    have hreturns : (twoAttempts.isTransportError 2 (.object none)).isSome := by decide
    exact acyclicFrom_of_acc (acc_of_returns hreturns)
  · intro _
    have hsecond : TransportShaped twoAttempts (.object (some true)) := .error rfl rfl rfl rfl (.name rfl (by simp))
    exact .wrapped ⟨rfl, rfl, rfl, rfl⟩ (.next _ (.here _ _)) (.shaped hsecond)

theorem isTransportError_wrapsItself (calls : Nat) : wrapsItself.isTransportError calls (.object ()) = none := by
  induction calls with
  | zero => rfl
  | succ calls ih =>
      have hwraps : Wraps wrapsItself (.object ()) [.value (.object ()), .value (.object ())] := ⟨rfl, rfl, rfl, rfl⟩
      rw [hwraps.isTransportError, someElement, ih]
      rfl

/-- Its classification does not return, though the other function breaks the cycle. -/
theorem cyclic_errors_not_classified : wrapsItself.redactCause (.object ()) = .ok { name := some "AggregateError" } ∧
    ¬ Classifies wrapsItself (.object ()) := by
  refine ⟨rfl, fun h => ?_⟩
  obtain ⟨calls, b, hcall⟩ := h.returns
  rw [isTransportError_wrapsItself] at hcall
  cases hcall

end Sigil.Sdk
