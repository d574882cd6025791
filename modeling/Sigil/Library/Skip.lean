import Sigil.Library.Result
import Mathlib.Data.List.Flatten
import Mathlib.Tactic.Common

/-!
# Skipping over fields

A cursor moves over a string from one field to the next. No step needs to look whether its field is there in full: if
the cursor ends within the string, every field before it was.
-/

namespace Sigil.Library

section
variable {ε α β : Type}

/-- `step` moves the cursor over the fields of `G` and, within the string, over nothing else. -/
structure Skips (step : List α → Nat → Except ε Nat) (G : List α → Prop) : Prop where
  sound : ∀ data cursor next, step data cursor = .ok next →
    cursor ≤ next ∧ (next ≤ data.length → G ((data.drop cursor).take (next - cursor)))
  complete : ∀ before field after, G field →
    step (before ++ (field ++ after)) before.length = .ok (before.length + field.length)

/-- A field of `G` and then one of `H`. -/
def Concat (G H : List α → Prop) (field : List α) : Prop := ∃ a b, field = a ++ b ∧ G a ∧ H b

/-- `n` fields of `G`. -/
def Repeated (G : List α → Prop) (n : Nat) (field : List α) : Prop :=
  ∃ pieces : List (List α), pieces.length = n ∧ field = pieces.flatten ∧ ∀ piece ∈ pieces, G piece

/-- `n` steps. -/
def skipTimes (step : List α → Nat → Except ε Nat) (data : List α) : Nat → Nat → Except ε Nat
  | 0, cursor => pure cursor
  | n + 1, cursor => do
      let next ← step data cursor
      skipTimes step data n next

variable {p q step : List α → Nat → Except ε Nat} {G H : List α → Prop} {n : Nat}

theorem take_drop_split (data : List α) {cursor middle next : Nat} (h₁ : cursor ≤ middle) (h₂ : middle ≤ next) :
    (data.drop cursor).take (next - cursor) =
      (data.drop cursor).take (middle - cursor) ++ (data.drop middle).take (next - middle) := by
  have hsum : next - cursor = (middle - cursor) + (next - middle) := by omega
  rw [hsum, List.take_add, List.drop_drop]
  congr 3
  omega

theorem Skips.congr (h : Skips p G) (hG : ∀ field, G field ↔ H field) : Skips p H where
  sound data cursor next hok := by
    obtain ⟨hle, hfield⟩ := h.sound data cursor next hok
    exact ⟨hle, fun hnext => (hG _).mp (hfield hnext)⟩
  complete before field after hfield := h.complete before field after ((hG _).mpr hfield)

theorem skips_nothing : Skips (ε := ε) (fun _ cursor => pure cursor) (fun field : List α => field = []) where
  sound data cursor next h := by
    obtain rfl := pure_eq_ok.mp h
    simp
  complete before field after h := by
    subst h
    rfl

/-- A field of fixed length, which nobody reads. -/
theorem skips_length (n : Nat) :
    Skips (ε := ε) (fun _ cursor => pure (cursor + n)) (fun field : List α => field.length = n) where
  sound data cursor next h := by
    obtain rfl := pure_eq_ok.mp h
    refine ⟨Nat.le_add_right .., fun hnext => ?_⟩
    rw [List.length_take, List.length_drop]
    omega
  complete before field after h := by
    subst h
    rfl

theorem Skips.next (hp : Skips p G) (hq : Skips q H) :
    Skips (fun data cursor => p data cursor >>= fun middle => q data middle) (Concat G H) where
  sound data cursor next h := by
    obtain ⟨middle, hfirst, hsecond⟩ := bind_eq_ok.mp h
    obtain ⟨hle₁, hG⟩ := hp.sound data cursor middle hfirst
    obtain ⟨hle₂, hH⟩ := hq.sound data middle next hsecond
    refine ⟨Nat.le_trans hle₁ hle₂, fun hnext => ?_⟩
    exact ⟨_, _, take_drop_split data hle₁ hle₂, hG (Nat.le_trans hle₂ hnext), hH hnext⟩
  complete before field after h := by
    obtain ⟨a, b, rfl, ha, hb⟩ := h
    have hfirst := hp.complete before a (b ++ after) ha
    have hsecond := hq.complete (before ++ a) b after hb
    rw [List.append_assoc, List.length_append] at hsecond
    apply bind_eq_ok.mpr
    refine ⟨before.length + a.length, ?_, ?_⟩
    · rw [List.append_assoc]
      exact hfirst
    · rw [List.append_assoc, hsecond, List.length_append, Nat.add_assoc]

/-- A step behind a check. -/
theorem Skips.guarded (h : Skips step G) (c : Prop) [Decidable c] {e : ε} :
    Skips (fun data cursor => require c e >>= fun _ => step data cursor) (fun field => c ∧ G field) where
  sound data cursor next hok := by
    obtain ⟨hc, hok⟩ := require_bind_eq_ok.mp hok
    obtain ⟨hle, hG⟩ := h.sound data cursor next hok
    exact ⟨hle, fun hnext => ⟨hc, hG hnext⟩⟩
  complete before field after hfield :=
    require_bind_eq_ok.mpr ⟨hfield.1, h.complete before field after hfield.2⟩

theorem skips_error {e : ε} : Skips (fun (_ : List α) _ => .error e) (fun _ => False) where
  sound _ _ _ h := by cases h
  complete _ _ _ h := h.elim

/-- The first element of a field says how it goes on. -/
theorem Skips.headed {read : List α → Nat → Except ε β} {value : α → β} (body : β → List α → Nat → Except ε Nat)
    {F : α → List α → Prop}
    (hread : ∀ data cursor b, read data cursor = .ok b ↔ ∃ a, data[cursor]? = some a ∧ value a = b)
    (hbody : ∀ a, Skips (body (value a)) (F a)) :
    Skips (fun data cursor => read data cursor >>= fun b => body b data (cursor + 1))
      (fun field => ∃ a rest, field = a :: rest ∧ F a rest) where
  sound data cursor next h := by
    obtain ⟨b, hb, hrest⟩ := bind_eq_ok.mp h
    obtain ⟨a, ha, rfl⟩ := (hread data cursor b).mp hb
    obtain ⟨hle, hF⟩ := (hbody a).sound data (cursor + 1) next hrest
    refine ⟨Nat.le_trans (Nat.le_succ cursor) hle, fun hnext => ⟨a, _, ?_, hF hnext⟩⟩
    obtain ⟨hlt, rfl⟩ := List.getElem?_eq_some_iff.mp ha
    have hsize : next - cursor = (next - (cursor + 1)) + 1 := by omega
    rw [List.drop_eq_getElem_cons hlt, hsize, List.take_succ_cons]
  complete before field after h := by
    obtain ⟨a, rest, rfl, hF⟩ := h
    have hrest := (hbody a).complete (before ++ [a]) rest after hF
    rw [List.append_assoc, List.length_append, List.length_singleton] at hrest
    apply bind_eq_ok.mpr
    refine ⟨value a, (hread _ _ _).mpr ⟨a, by simp, rfl⟩, ?_⟩
    rw [List.cons_append, ← List.singleton_append, hrest, List.length_cons]
    congr 1
    omega

theorem Skips.times (h : Skips step G) (n : Nat) :
    Skips (fun data cursor => skipTimes step data n cursor) (Repeated G n) := by
  induction n with
  | zero =>
      refine Skips.congr skips_nothing fun field => ?_
      constructor
      · rintro rfl
        exact ⟨[], rfl, rfl, by simp⟩
      · rintro ⟨pieces, hlength, rfl, -⟩
        rw [List.length_eq_zero_iff.mp hlength]
        rfl
  | succ n ih =>
      refine Skips.congr (h.next ih) fun field => ?_
      constructor
      · rintro ⟨a, _, rfl, ha, pieces, rfl, rfl, hpieces⟩
        exact ⟨a :: pieces, rfl, rfl, List.forall_mem_cons.mpr ⟨ha, hpieces⟩⟩
      · rintro ⟨pieces, hlength, rfl, hpieces⟩
        cases pieces with
        | nil => cases hlength
        | cons a pieces =>
            obtain ⟨ha, hrest⟩ := List.forall_mem_cons.mp hpieces
            exact ⟨a, pieces.flatten, rfl, ha, pieces, Nat.succ.inj hlength, rfl, hrest⟩

end

end Sigil.Library
