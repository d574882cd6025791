import Mathlib.Logic.Basic

/-!
# Fallible computations

A handler is an `Except` program. An accepted run is taken apart one `bind` at a time.
-/

namespace Sigil.Library

/-- `require!`: stop with `e` unless `c` holds. -/
def require {ε : Type} (c : Prop) [Decidable c] (e : ε) : Except ε Unit :=
  if c then .ok () else .error e

/-- `ok_or`: the value of an option, or the error `e`. -/
def okOr {ε : Type} {α : Type} (o : Option α) (e : ε) : Except ε α :=
  match o with
  | some a => .ok a
  | none => .error e

section
variable {ε : Type} {α β : Type}

@[simp] theorem require_eq_ok {c : Prop} [Decidable c] {e : ε} {r : Unit} :
    require c e = .ok r ↔ c := by
  unfold require; split <;> simp_all

@[simp] theorem okOr_eq_ok {o : Option α} {e : ε} {a : α} : okOr o e = .ok a ↔ o = some a := by
  cases o <;> simp [okOr]

theorem bind_eq_ok {x : Except ε α} {f : α → Except ε β} {b : β} :
    (x >>= f) = .ok b ↔ ∃ a, x = .ok a ∧ f a = .ok b := by
  cases x <;> simp [bind, Except.bind]

@[simp] theorem pure_eq_ok {a b : α} : (pure a : Except ε α) = .ok b ↔ a = b := by
  simp [pure, Except.pure]

theorem toOption_eq_some {x : Except ε α} {a : α} : x.toOption = some a ↔ x = .ok a := by
  cases x <;> simp [Except.toOption]

theorem exists_ok_of_isOk {x : Except ε α} (h : x.isOk) : ∃ a, x = .ok a := by
  cases x with
  | error e => cases h
  | ok a => exact ⟨a, rfl⟩

theorem forM_eq_ok {f : α → Except ε PUnit} {l : List α} : l.forM f = .ok () ↔ ∀ a ∈ l, f a = .ok () := by
  induction l with
  | nil => simp
  | cons a l ih =>
      rw [List.forM, bind_eq_ok, List.forall_mem_cons]
      constructor
      · rintro ⟨_, ha, hl⟩
        exact ⟨ha, ih.mp hl⟩
      · rintro ⟨ha, hl⟩
        exact ⟨(), ha, ih.mpr hl⟩

theorem mapM_cons_eq_ok {f : α → Except ε β} {a : α} {l : List α} {bs : List β} :
    (a :: l).mapM f = .ok bs ↔ ∃ b, f a = .ok b ∧ ∃ cs, l.mapM f = .ok cs ∧ b :: cs = bs := by
  simp only [List.mapM_cons, bind_eq_ok, pure_eq_ok]

theorem mapM_getElem? {f : α → Except ε β} {l : List α} {bs : List β} (h : l.mapM f = .ok bs) {i : Nat} {a : α}
    (ha : l[i]? = some a) : ∃ b, bs[i]? = some b ∧ f a = .ok b := by
  induction l generalizing bs i with
  | nil => simp at ha
  | cons x l ih =>
      obtain ⟨b, hb, cs, hcs, rfl⟩ := mapM_cons_eq_ok.mp h
      cases i with
      | zero =>
          cases ha
          exact ⟨b, rfl, hb⟩
      | succ i => exact ih hcs ha

theorem exists_mapM_eq_ok {f : α → Except ε β} {l : List α} (h : ∀ a ∈ l, ∃ b, f a = .ok b) :
    ∃ bs, l.mapM f = .ok bs := by
  induction l with
  | nil => exact ⟨[], rfl⟩
  | cons a l ih =>
      obtain ⟨b, hb⟩ := h a (by simp)
      obtain ⟨bs, hbs⟩ := ih fun a ha => h a (List.mem_cons_of_mem _ ha)
      exact ⟨b :: bs, mapM_cons_eq_ok.mpr ⟨b, hb, bs, hbs, rfl⟩⟩

/-- A `require` in front of a computation is a conjunct of its acceptance. -/
theorem require_bind_eq_ok {c : Prop} [Decidable c] {e : ε} {f : Unit → Except ε α} {a : α} :
    (require c e >>= f) = .ok a ↔ c ∧ f () = .ok a := by
  rw [bind_eq_ok]
  constructor
  · rintro ⟨_, h, hf⟩; exact ⟨require_eq_ok.mp h, hf⟩
  · rintro ⟨h, hf⟩; exact ⟨(), require_eq_ok.mpr h, hf⟩

end

/-! ## Errors that do not occur -/

/-- A computation never ends with a bad error. -/
def Avoids {ε α : Type} (bad : ε → Bool) (x : Except ε α) : Prop := ∀ e, x = .error e → bad e = false

section
variable {ε α β : Type} {bad : ε → Bool} {e : ε}

@[simp] theorem avoids_ok {a : α} : Avoids bad (.ok a : Except ε α) := nofun

@[simp] theorem avoids_pure {a : α} : Avoids bad (pure a : Except ε α) := nofun

@[simp] theorem avoids_error : Avoids bad (.error e : Except ε α) ↔ bad e = false := by
  simp [Avoids]

@[simp] theorem avoids_require {c : Prop} [Decidable c] : Avoids bad (require c e) ↔ c ∨ bad e = false := by
  unfold require
  split <;> simp_all

@[simp] theorem avoids_okOr {o : Option α} : Avoids bad (okOr o e) ↔ o.isSome ∨ bad e = false := by
  cases o <;> simp [okOr]

@[simp] theorem avoids_bind {x : Except ε α} {f : α → Except ε β} :
    Avoids bad (x >>= f) ↔ Avoids bad x ∧ ∀ a, x = .ok a → Avoids bad (f a) := by
  cases x <;> simp [bind, Except.bind, Avoids]

theorem Avoids.first {x : Except ε α} {f : α → Except ε β} (h : Avoids bad (x >>= f)) : Avoids bad x :=
  (avoids_bind.mp h).1

/-- What follows on a computation that succeeds. -/
theorem Avoids.next {x : Except ε α} {f : α → Except ε β} (h : Avoids bad (x >>= f)) {a : α} (hx : x = .ok a) :
    Avoids bad (f a) :=
  (avoids_bind.mp h).2 a hx

theorem Avoids.passed {c : Prop} [Decidable c] {f : Unit → Except ε β} (h : Avoids bad (require c e >>= f)) (hc : c) :
    Avoids bad (f ()) :=
  h.next (require_eq_ok.mpr hc)

/-- A check with a bad error has passed. -/
theorem Avoids.required {c : Prop} [Decidable c] {f : Unit → Except ε β} (h : Avoids bad (require c e >>= f))
    (he : bad e) : c :=
  (avoids_require.mp h.first).resolve_right (by simp [he])

@[simp] theorem avoids_map {x : Except ε α} {f : α → β} : Avoids bad (f <$> x) ↔ Avoids bad x := by
  cases x <;> simp [Functor.map, Except.map, Avoids]

@[simp] theorem avoids_ite {c : Prop} [Decidable c] {x y : Except ε α} :
    Avoids bad (if c then x else y) ↔ (c → Avoids bad x) ∧ (¬ c → Avoids bad y) := by
  split <;> simp_all

@[simp] theorem avoids_forM {f : α → Except ε PUnit} (h : ∀ a, Avoids bad (f a)) (l : List α) :
    Avoids bad (forM l f) := by
  induction l with
  | nil => exact avoids_pure
  | cons a l ih => exact avoids_bind.mpr ⟨h a, fun _ _ => ih⟩

@[simp] theorem avoids_mapM {f : α → Except ε β} (h : ∀ a, Avoids bad (f a)) (l : List α) : Avoids bad (l.mapM f) := by
  induction l with
  | nil => exact avoids_pure
  | cons a l ih =>
      rw [List.mapM_cons]
      exact avoids_bind.mpr ⟨h a, fun _ _ => avoids_bind.mpr ⟨ih, fun _ _ => avoids_pure⟩⟩

@[simp] theorem avoids_foldlM {f : β → α → Except ε β} (h : ∀ b a, Avoids bad (f b a)) (l : List α) (b : β) :
    Avoids bad (l.foldlM f b) := by
  induction l generalizing b with
  | nil => exact avoids_pure
  | cons a l ih => exact avoids_bind.mpr ⟨h b a, fun _ _ => ih _⟩

end

end Sigil.Library
