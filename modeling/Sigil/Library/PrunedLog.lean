import Mathlib.Algebra.BigOperators.Group.List.Basic
import Mathlib.Algebra.Order.BigOperators.Group.List
import Mathlib.Algebra.Order.Ring.Int
import Mathlib.Data.List.Lemmas

/-!
# Logs that are pruned

A log is written to again and again. After each write some of what it holds may be dropped, so what is kept is part of
the whole history. A query that looks at the entries with some property `P` sees the history as long as no write drops
such an entry.
-/

namespace Sigil.Library

/-- Entries that are appended, and what is kept of the log with them. -/
structure Write (α : Type) where
  entries : List α
  prune : List α → List α
  prune_sublist : ∀ l, (prune l).Sublist l

namespace Write

variable {α : Type}

def apply (w : Write α) (l : List α) : List α := w.prune (l ++ w.entries)

def kept (writes : List (Write α)) (l : List α) : List α := writes.foldl (fun l w => w.apply l) l

/-- The same writes where nothing is dropped. -/
def history (writes : List (Write α)) (l : List α) : List α := l ++ writes.flatMap entries

/-- No write drops an entry with the property. -/
def Retains (p : α → Bool) : List (Write α) → List α → Prop
  | [], _ => True
  | w :: writes, l => (w.apply l).filter p = (l ++ w.entries).filter p ∧ Retains p writes (w.apply l)

section
variable {p : α → Bool} {w : Write α} {writes writes' : List (Write α)} {l l' : List α}

theorem history_cons : history (w :: writes) l = history writes (l ++ w.entries) := by
  simp [history]

theorem retains_append : Retains p (writes ++ writes') l ↔ Retains p writes l ∧ Retains p writes' (kept writes l) := by
  induction writes generalizing l with
  | nil => simp [Retains, kept]
  | cons w writes ih =>
      rw [List.cons_append, Retains, Retains, ih, and_assoc]
      rfl

theorem history_sublist (h : l.Sublist l') : (history writes l).Sublist (history writes l') := h.append_right _

theorem kept_sublist : (kept writes l).Sublist (history writes l) := by
  induction writes generalizing l with
  | nil => simp [kept, history]
  | cons w writes ih =>
      rw [history_cons]
      exact (ih (l := w.apply l)).trans (history_sublist (w.prune_sublist _))

/-- What a query sees of the history depends on what it sees at the start. -/
theorem filter_history_congr (h : l.filter p = l'.filter p) :
    (history writes l).filter p = (history writes l').filter p := by
  simp [history, List.filter_append, h]

theorem filter_history_cancel (h : (history writes l).filter p = (history writes l').filter p) :
    l.filter p = l'.filter p := by
  rw [history, history, List.filter_append, List.filter_append] at h
  exact List.append_cancel_right h

theorem Retains.filter_kept (h : Retains p writes l) : (kept writes l).filter p = (history writes l).filter p := by
  induction writes generalizing l with
  | nil => simp [kept, history]
  | cons w writes ih =>
      rw [history_cons, ← filter_history_congr h.1]
      exact ih h.2

/-- An entry that was dropped does not come back. -/
theorem filter_kept_iff : (kept writes l).filter p = (history writes l).filter p ↔ Retains p writes l := by
  refine ⟨fun h => ?_, Retains.filter_kept⟩
  induction writes generalizing l with
  | nil => trivial
  | cons w writes ih =>
      rw [history_cons] at h
      have hkept : ((kept writes (w.apply l)).filter p).Sublist ((history writes (w.apply l)).filter p) :=
        kept_sublist.filter p
      have hfirst : ((history writes (w.apply l)).filter p).Sublist ((history writes (l ++ w.entries)).filter p) :=
        (history_sublist (w.prune_sublist _)).filter p
      have hsame : (history writes (w.apply l)).filter p = (history writes (l ++ w.entries)).filter p := by
        apply hfirst.eq_of_length_le
        rw [← h]
        exact hkept.length_le
      exact ⟨filter_history_cancel hsame, ih (h.trans hsame.symm)⟩

theorem retains_map_iff {ι : Type} {f : ι → Write α} {is : List ι} : Retains p (is.map f) l ↔
    ∀ before i after, is = before ++ i :: after →
      ((f i).apply (kept (before.map f) l)).filter p = (kept (before.map f) l ++ (f i).entries).filter p := by
  constructor
  · rintro h before i after rfl
    rw [List.map_append, retains_append] at h
    exact h.2.1
  · intro h
    induction is generalizing l with
    | nil => trivial
    | cons i is ih =>
        refine ⟨h [] i is rfl, ih fun before j after hsplit => ?_⟩
        exact h (i :: before) j after (congrArg (i :: ·) hsplit)

/-- A part of a log is all of it if nothing is missing under any key. -/
theorem eq_of_filter_key {κ : Type} [DecidableEq κ] (key : α → κ) (h : l.Sublist l')
    (hkeys : ∀ k, (l.filter fun a => key a = k) = l'.filter fun a => key a = k) : l = l' := by
  induction h with
  | slnil => rfl
  | @cons l₁ l₂ a h ih =>
      have hlonger := congrArg List.length (hkeys (key a))
      rw [List.filter_cons_of_pos (by simp), List.length_cons] at hlonger
      have hle := (h.filter fun b => key b = key a).length_le
      omega
  | @cons_cons l₁ l₂ a h ih =>
      congr 1
      apply ih
      intro k
      have hk := hkeys k
      rw [List.filter_cons, List.filter_cons] at hk
      split at hk
      · exact List.tail_eq_of_cons_eq hk
      · exact hk

end

/-! ## Weights -/

section
variable {l l' : List α} {weight : α → Int}

/-- Part of a log weighs as much as all of it only if nothing that weighs is missing. -/
theorem filter_eq_of_sum_eq (h : l.Sublist l') (hnonneg : ∀ a ∈ l', 0 ≤ weight a)
    (hsum : (l.map weight).sum = (l'.map weight).sum) :
    (l.filter fun a => weight a ≠ 0) = l'.filter fun a => weight a ≠ 0 := by
  induction h with
  | slnil => rfl
  | @cons l₁ l₂ a h ih =>
      have hle := (h.map weight).sum_le_sum (fun x hx => by
        obtain ⟨b, hb, rfl⟩ := List.mem_map.mp hx
        exact hnonneg b (List.mem_cons_of_mem _ hb))
      have ha := hnonneg a List.mem_cons_self
      rw [List.map_cons, List.sum_cons] at hsum
      have hzero : weight a = 0 := by omega
      rw [List.filter_cons_of_neg (by simp [hzero])]
      apply ih
      · intro b hb
        exact hnonneg b (List.mem_cons_of_mem _ hb)
      · omega
  | @cons_cons l₁ l₂ a h ih =>
      rw [List.map_cons, List.map_cons, List.sum_cons, List.sum_cons] at hsum
      have hrest := ih (fun b hb => hnonneg b (List.mem_cons_of_mem _ hb)) (by omega)
      rw [List.filter_cons, List.filter_cons, hrest]

theorem sum_filter_ne_zero (l : List α) : ((l.filter fun a => weight a ≠ 0).map weight).sum = (l.map weight).sum := by
  induction l with
  | nil => rfl
  | cons a l ih =>
      by_cases ha : weight a = 0
      · rw [List.filter_cons_of_neg (by simp [ha]), ih, List.map_cons, List.sum_cons, ha, Int.zero_add]
      · rw [List.filter_cons_of_pos (by simp [ha]), List.map_cons, List.map_cons, List.sum_cons, List.sum_cons, ih]

end

/-! ## Ways to prune -/

/-- Nothing is written and nothing dropped. -/
def idle : Write α where
  entries := []
  prune l := l
  prune_sublist := .refl

/-- Once there are more than `limit` entries, only those with the property are kept. -/
def pruned (limit : Nat) (keep : α → Bool) (entries : List α) : Write α where
  entries := entries
  prune l := if l.length > limit then l.filter keep else l
  prune_sublist l := by
    split
    · exact List.filter_sublist
    · exact .refl l

/-- The newest `limit` entries are kept. -/
def trimmed (limit : Nat) (entries : List α) : Write α where
  entries := entries
  prune l := l.drop (l.length - limit)
  prune_sublist _ := List.drop_sublist ..

section
variable {p keep : α → Bool} {limit : Nat} {entries l : List α}

@[simp] theorem idle_apply : (idle : Write α).apply l = l := List.append_nil l

@[simp] theorem idle_entries : (idle : Write α).entries = [] := rfl

theorem filter_filter_eq_iff : (l.filter keep).filter p = l.filter p ↔ ∀ a ∈ l, p a → keep a := by
  constructor
  · intro h a ha hp
    have hmem : a ∈ (l.filter keep).filter p := h ▸ List.mem_filter.mpr ⟨ha, hp⟩
    exact List.of_mem_filter (List.mem_of_mem_filter hmem)
  · intro h
    rw [List.filter_filter]
    apply List.filter_congr
    intro a ha
    cases hp : p a with
    | false => rfl
    | true => simp [h a ha hp]

theorem pruned_filter_iff : ((pruned limit keep entries).apply l).filter p = (l ++ entries).filter p ↔
    (l ++ entries).length ≤ limit ∨ ∀ a ∈ l ++ entries, p a → keep a := by
  show (if (l ++ entries).length > limit then (l ++ entries).filter keep else l ++ entries).filter p = _ ↔ _
  by_cases hlong : (l ++ entries).length > limit
  · rw [if_pos hlong, filter_filter_eq_iff, or_iff_right (Nat.not_le.mpr hlong)]
  · rw [if_neg hlong]
    exact iff_of_true rfl (.inl (Nat.not_lt.mp hlong))

theorem trimmed_filter_iff : ((trimmed limit entries).apply l).filter p = (l ++ entries).filter p ↔
    ∀ a ∈ (l ++ entries).take ((l ++ entries).length - limit), ¬ p a := by
  show ((l ++ entries).drop ((l ++ entries).length - limit)).filter p = _ ↔ _
  generalize l ++ entries = l
  generalize l.length - limit = n
  have hsplit : l.filter p = (l.take n).filter p ++ (l.drop n).filter p := by
    rw [← List.filter_append, List.take_append_drop]
  rw [hsplit, List.self_eq_append_left, List.filter_eq_nil_iff]

end

end Write

end Sigil.Library
