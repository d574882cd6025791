import Sigil.Library.Result
import Mathlib.Tactic.Common

/-!
# Computations on arrays

An index, a slice or a copy out of range panics. A computation on arrays follows a computation on lists if it returns
the same errors, values that stand for the same things, and does not panic.
-/

namespace Sigil.Library

/-- What stops a computation: an error that it returns, or a panic. -/
inductive Fault (ε : Type) where
  | error (e : ε)
  | panic
  deriving DecidableEq, Repr

abbrev Eval (ε α : Type) : Type := Except (Fault ε) α

instance {ε δ : Type} [Coe δ ε] : Coe δ (Fault ε) := ⟨fun e => .error e⟩

/-- `items[i]`. -/
def indexAt {ε α : Type} (items : List α) (i : Nat) : Eval ε α := okOr items[i]? .panic

/-- `items[start..stop]`. -/
def slice {ε α : Type} (items : List α) (start stop : Nat) : Eval ε (List α) := do
  require (start ≤ stop ∧ stop ≤ items.length) .panic
  pure ((items.drop start).take (stop - start))

/-- `array[..len].copy_from_slice(source)`. -/
def copyFromSlice {ε α : Type} {n : Nat} (array : Vector α n) (len : Nat) (source : List α) : Eval ε (Vector α n) :=
  if h : len ≤ n ∧ source.length = len then
    .ok ⟨(source ++ array.toList.drop len).toArray, by simp [h]⟩
  else
    .error .panic

/-- `array[i] = a`. -/
def assignAt {ε α : Type} {n : Nat} (array : Vector α n) (i : Nat) (a : α) : Eval ε (Vector α n) :=
  if h : i < n then .ok (array.set i a) else .error .panic

/-- The loop that writes what `pack` makes of every element into an array, from index `i` on. -/
def packInto {ε α β : Type} {n : Nat} (pack : α → β → Eval ε β) (array : Vector β n) :
    List α → Nat → Eval ε (Vector β n)
  | [], _ => pure array
  | a :: l, i => do
      let b ← indexAt array.toList i
      let b' ← pack a b
      let array' ← assignAt array i b'
      packInto pack array' l (i + 1)

/-- A result that the caller looks at before it goes on. -/
def caught {ε α : Type} : Eval ε α → Eval ε (Except ε α)
  | .ok a => .ok (.ok a)
  | .error (.error e) => .ok (.error e)
  | .error .panic => .error .panic

/-- A computation without arrays. -/
def lift {ε α : Type} : Except ε α → Eval ε α
  | .ok a => .ok a
  | .error e => .error (.error e)

/-- `for i in start..start + n`. -/
def forRange {ε σ : Type} (body : Nat → σ → Eval ε σ) : Nat → Nat → σ → Eval ε σ
  | 0, _, s => pure s
  | n + 1, i, s => do
      let s' ← body i s
      forRange body n (i + 1) s'

/-- `x` does without a panic what `y` does. -/
def Follows {ε α β : Type} (R : α → β → Prop) : Eval ε α → Except ε β → Prop
  | .ok a, .ok b => R a b
  | .error (.error e), .error e' => e = e'
  | _, _ => False

section
variable {ε α β γ δ σ : Type} {R : α → β → Prop} {S : γ → δ → Prop} {x : Eval ε α} {y : Except ε β} {n : Nat}

theorem Follows.ne_panic (h : Follows R x y) : x ≠ .error .panic := by
  rintro rfl
  cases y <;> exact h

theorem Follows.ok_iff {x : Eval ε Unit} {y : Except ε Unit} {R : Unit → Unit → Prop} (h : Follows R x y) :
    x = .ok () ↔ y = .ok () := by
  match x, y with
  | .ok (), .ok () => simp
  | .error (.error e), .error e' => simp

theorem Follows.mono {S : α → β → Prop} (h : Follows R x y) (hRS : ∀ a b, R a b → S a b) : Follows S x y := by
  match x, y with
  | .ok a, .ok b => exact hRS a b h
  | .error (.error e), .error e' => exact h

theorem follows_pure {a : α} {b : β} (h : R a b) : Follows (ε := ε) R (pure a) (pure b) := h

theorem Follows.bind {f : α → Eval ε γ} {g : β → Except ε δ} (h : Follows R x y)
    (hf : ∀ a b, y = .ok b → R a b → Follows S (f a) (g b)) : Follows S (x >>= f) (y >>= g) := by
  match x, y with
  | .ok a, .ok b => exact hf a b rfl h
  | .error (.error e), .error e' => exact h

theorem Follows.map_right {S : α → δ → Prop} {f : β → δ} (h : Follows R x y) (hf : ∀ a b, R a b → S a (f b)) :
    Follows S x (y >>= fun b => pure (f b)) := by
  match x, y with
  | .ok a, .ok b => exact hf a b h
  | .error (.error e), .error e' => exact h

/-- Steps that only the computation on arrays takes. -/
theorem Follows.map_left {S : γ → β → Prop} {f : α → Eval ε γ} (h : Follows R x y)
    (hf : ∀ a b, y = .ok b → R a b → ∃ c, f a = .ok c ∧ S c b) : Follows S (x >>= f) y := by
  match x, y with
  | .ok a, .ok b =>
      obtain ⟨c, hc, hS⟩ := hf a b rfl h
      show Follows S (f a) (.ok b)
      rw [hc]
      exact hS
  | .error (.error e), .error e' => exact h

theorem Follows.bind_left {a : α} {f : α → Eval ε γ} {z : Except ε δ} (hx : x = .ok a) (hf : Follows S (f a) z) :
    Follows S (x >>= f) z := by
  subst hx
  exact hf

/-- A check that only the computation on arrays makes, and passes. -/
theorem Follows.passed {c : Prop} [Decidable c] {e : Fault ε} {f : Unit → Eval ε γ} {z : Except ε δ} (hc : c)
    (hf : Follows S (f ()) z) : Follows S (require c e >>= f) z :=
  Follows.bind_left (require_eq_ok.mpr hc) hf

theorem Follows.failed {c : Prop} [Decidable c] {e : ε} {f : Unit → Eval ε γ} (hc : ¬ c) :
    Follows S (require c (.error e) >>= f) (.error e : Except ε δ) := by
  unfold require
  rw [if_neg hc]
  exact rfl

theorem follows_require {c d : Prop} [Decidable c] [Decidable d] {e : ε} {f : Unit → Eval ε γ} {g : Unit → Except ε δ}
    (hcd : c ↔ d) (h : d → Follows S (f ()) (g ())) :
    Follows S (require c (.error e) >>= f) (require d e >>= g) := by
  unfold require
  by_cases hd : d
  · rw [if_pos (hcd.mpr hd), if_pos hd]
    exact h hd
  · rw [if_neg fun hc => hd (hcd.mp hc), if_neg hd]
    exact rfl

theorem follows_require_last {c d : Prop} [Decidable c] [Decidable d] {e : ε} (hcd : c ↔ d) :
    Follows (fun _ _ => True) (require c (.error e)) (require d e) := by
  unfold require
  by_cases hd : d
  · rw [if_pos (hcd.mpr hd), if_pos hd]
    trivial
  · rw [if_neg fun hc => hd (hcd.mp hc), if_neg hd]
    exact rfl

theorem follows_okOr {o : Option α} {e : ε} {f : α → Eval ε γ} {g : α → Except ε δ}
    (h : ∀ a, o = some a → Follows S (f a) (g a)) : Follows S (okOr o (.error e) >>= f) (okOr o e >>= g) := by
  cases o with
  | none => exact rfl
  | some a => exact h a rfl

/-! ## Steps that do not panic -/

theorem indexAt_eq_ok {items : List α} {i : Nat} {a : α} : indexAt (ε := ε) items i = .ok a ↔ items[i]? = some a :=
  okOr_eq_ok

theorem slice_eq {items : List α} {start stop : Nat} (hstart : start ≤ stop) (hstop : stop ≤ items.length) :
    slice (ε := ε) items start stop = .ok ((items.drop start).take (stop - start)) := by
  rw [slice, require, if_pos ⟨hstart, hstop⟩]
  rfl

theorem copyFromSlice_eq_ok {array array' : Vector α n} {len : Nat} {source : List α} :
    copyFromSlice (ε := ε) array len source = .ok array' ↔
      (len ≤ n ∧ source.length = len) ∧ array'.toList = source ++ array.toList.drop len := by
  unfold copyFromSlice
  split
  · rename_i h
    simp only [h, and_self, true_and, Except.ok.injEq]
    rw [← Vector.toArray_inj, ← Array.toList_inj, eq_comm]
    rfl
  · rename_i h
    simp [h]

theorem exists_copyFromSlice {len : Nat} {source : List α} (array : Vector α n) (hlen : len ≤ n)
    (hsource : source.length = len) :
    ∃ array', copyFromSlice (ε := ε) array len source = .ok array' ∧
      array'.toList = source ++ array.toList.drop len := by
  have hok : ∃ array', copyFromSlice (ε := ε) array len source = .ok array' := ⟨_, dif_pos ⟨hlen, hsource⟩⟩
  exact hok.imp fun array' h => ⟨h, (copyFromSlice_eq_ok.mp h).2⟩

theorem assignAt_eq {array : Vector α n} {i : Nat} {a : α} (hi : i < n) :
    assignAt (ε := ε) array i a = .ok (array.set i a) := dif_pos hi

theorem packInto_packed {pack : α → β → Eval ε β} {l : List α} {i : Nat}
    (hpack : ∀ a ∈ l, ∀ b, ∃ b', pack a b = .ok b' ∧ R a b') (array : Vector β n) (hroom : i + l.length ≤ n) :
    ∃ array', packInto pack array l i = .ok array' ∧ (∀ j < i, array'.toList[j]? = array.toList[j]?) ∧
      ∀ (k : Nat) (a : α), l[k]? = some a → ∃ b, array'.toList[i + k]? = some b ∧ R a b := by
  induction l generalizing array i with
  | nil => exact ⟨array, rfl, fun _ _ => rfl, by simp⟩
  | cons a l ih =>
      have hi : i < n := by
        rw [List.length_cons] at hroom
        omega
      obtain ⟨b, hb⟩ : ∃ b, array.toList[i]? = some b := ⟨_, List.getElem?_eq_getElem (by simpa using hi)⟩
      obtain ⟨b', hb', hR⟩ := hpack a (by simp) b
      obtain ⟨array', hrest, hbefore, hafter⟩ := ih (fun a ha => hpack a (List.mem_cons_of_mem _ ha)) (array.set i b')
        (i := i + 1) (by rw [List.length_cons] at hroom; omega)
      refine ⟨array', ?_, fun j hj => ?_, fun k a' hk => ?_⟩
      · simp only [packInto, bind_eq_ok, indexAt_eq_ok]
        exact ⟨b, hb, b', hb', _, assignAt_eq hi, hrest⟩
      · rw [hbefore j (Nat.lt_succ_of_lt hj), Vector.toList_set, List.getElem?_set_ne (Nat.ne_of_gt hj)]
      · cases k with
        | zero =>
            cases hk
            refine ⟨b', ?_, hR⟩
            rw [Nat.add_zero, hbefore i (Nat.lt_succ_self i), Vector.toList_set,
              List.getElem?_set_self (by simpa using hi)]
        | succ k =>
            rw [Nat.add_succ, ← Nat.succ_add]
            exact hafter k a' hk

/-- A loop that only checks, and checks in every turn one element of a list. -/
theorem follows_forM {body : Nat → Unit → Eval ε Unit} {g : α → Except ε PUnit} {l : List α}
    (hstep : ∀ i a, l[i]? = some a → Follows (fun _ _ => True) (body i ()) (g a)) :
    Follows (fun _ _ => True) (forRange body l.length 0 ()) (l.forM g) := by
  suffices ∀ (rest : List α) (i : Nat), l.drop i = rest →
      Follows (fun _ _ => True) (forRange body rest.length i ()) (rest.forM g) from this l 0 rfl
  intro rest
  induction rest with
  | nil => exact fun _ _ => follows_pure trivial
  | cons a rest ih =>
      intro i hrest
      have ha : l[i]? = some a := by
        rw [← List.head?_drop, hrest]
        rfl
      exact (hstep i a ha).bind fun _ _ _ _ => ih (i + 1) (by rw [← List.tail_drop, hrest]; rfl)

theorem Follows.caught {x : Eval ε Unit} {y : Except ε Unit} {R : Unit → Unit → Prop} (h : Follows R x y) :
    caught x = .ok y := by
  match x, y with
  | .ok (), .ok () => rfl
  | .error (.error e), .error e' =>
      obtain rfl : e = e' := h
      rfl

theorem Follows.eq_lift {x : Eval ε α} {y : Except ε α} (h : Follows Eq x y) : x = lift y := by
  match x, y with
  | .ok a, .ok b =>
      obtain rfl : a = b := h
      rfl
  | .error (.error e), .error e' =>
      obtain rfl : e = e' := h
      rfl

theorem follows_lift (y : Except ε Unit) : Follows (fun _ _ => True) (lift y) y := by
  cases y with
  | error e => exact rfl
  | ok a => trivial

/-- A loop that does in every turn what a list computation does to one element. -/
theorem follows_forRange {body : Nat → σ → Eval ε σ} {g : α → Except ε β} {P : σ → List β → Prop} {l : List α}
    (hstep : ∀ i a s done, l[i]? = some a → done.length = i → P s done →
      Follows (fun s' b => P s' (done ++ [b])) (body i s) (g a)) {s : σ} (hs : P s []) :
    Follows P (forRange body l.length 0 s) (l.mapM g) := by
  suffices ∀ (rest : List α) (done : List β) (s : σ) (i : Nat), l.drop i = rest → done.length = i → P s done →
      Follows (fun s' bs => P s' (done ++ bs)) (forRange body rest.length i s) (rest.mapM g) by
    simpa using this l [] s 0 rfl rfl hs
  intro rest
  induction rest with
  | nil =>
      intro done s i _ _ hP
      exact follows_pure (by simpa using hP)
  | cons a rest ih =>
      intro done s i hrest hi hP
      have ha : l[i]? = some a := by
        rw [← List.head?_drop, hrest]
        rfl
      rw [List.mapM_cons]
      refine (hstep i a s done ha hi hP).bind fun s' b _ hP' => ?_
      have hnext := ih (done ++ [b]) s' (i + 1) (by rw [← List.tail_drop, hrest]; rfl) (by simp [hi]) hP'
      exact hnext.map_right fun s'' bs hP'' => by rwa [List.append_assoc] at hP''

end

end Sigil.Library
