import Sigil.Library.LittleEndian
import Sigil.Library.Panic

/-!
# Layouts

A type is laid out in a fixed number of cells if its values can be read back from them. Fields follow one another, and
so do the elements of an array.
-/

namespace Sigil.Library

structure Layout (γ α : Type) where
  size : Nat
  cells : α → List γ
  read : List γ → Option α
  length_cells : ∀ a, (cells a).length = size
  read_cells : ∀ a rest, read (cells a ++ rest) = some a

namespace Layout

variable {γ α β δ ε : Type}

theorem drop_cells (L : Layout γ α) (a : α) (rest : List γ) : (L.cells a ++ rest).drop L.size = rest := by
  rw [← L.length_cells a, List.drop_left]

theorem take_cells (L : Layout γ α) (a : α) (rest : List γ) : (L.cells a ++ rest).take L.size = L.cells a := by
  rw [← L.length_cells a, List.take_left]

/-- One field and then another. -/
def pair (L : Layout γ α) (M : Layout γ β) : Layout γ (α × β) where
  size := L.size + M.size
  cells p := L.cells p.1 ++ M.cells p.2
  read cells := (L.read cells).bind fun a => (M.read (cells.drop L.size)).map fun b => (a, b)
  length_cells p := by rw [List.length_append, L.length_cells, M.length_cells]
  read_cells p rest := by
    rw [List.append_assoc, L.read_cells, L.drop_cells, M.read_cells]
    rfl

/-- A structure that has the fields of another type. -/
def map (L : Layout γ α) (fields : β → α) (build : α → β) (h : ∀ b, build (fields b) = b) : Layout γ β where
  size := L.size
  cells b := L.cells (fields b)
  read cells := (L.read cells).map build
  length_cells b := L.length_cells (fields b)
  read_cells b rest := by rw [L.read_cells, Option.map_some, h]

/-- `n` elements one after the other. -/
def readList (L : Layout γ α) : Nat → List γ → Option (List α)
  | 0, _ => some []
  | n + 1, cells => (L.read cells).bind fun a => (L.readList n (cells.drop L.size)).map fun l => a :: l

theorem readList_cells (L : Layout γ α) (l : List α) (rest : List γ) :
    L.readList l.length (l.flatMap L.cells ++ rest) = some l := by
  induction l with
  | nil => rfl
  | cons a l ih =>
      rw [List.length_cons, readList, List.flatMap_cons, List.append_assoc, L.read_cells, L.drop_cells, ih]
      rfl

theorem length_flatMap_cells (L : Layout γ α) (l : List α) : (l.flatMap L.cells).length = l.length * L.size := by
  induction l with
  | nil => simp
  | cons a l ih =>
      rw [List.flatMap_cons, List.length_append, L.length_cells, ih, List.length_cons, Nat.succ_mul, Nat.add_comm]

def array (L : Layout γ α) (n : Nat) : Layout γ (Vector α n) where
  size := n * L.size
  cells v := v.toList.flatMap L.cells
  read cells := (L.readList n cells).bind fun l => if h : l.length = n then some ⟨l.toArray, h⟩ else none
  length_cells v := by rw [L.length_flatMap_cells, v.length_toList]
  read_cells v rest := by
    have hread := L.readList_cells v.toList rest
    rw [v.length_toList] at hread
    rw [hread, Option.bind_some, dif_pos v.length_toList]
    rfl

/-! ## Copying between two layouts -/

/-- `target[start..stop].copy_from_slice(&source[start..stop])`. -/
def copyBetween (source target : List γ) (start stop : Nat) : Eval ε (List γ) := do
  let cells ← slice source start stop
  require (stop ≤ target.length) .panic
  pure (target.take start ++ (cells ++ target.drop stop))

/-- A field at the same place in both is copied as it is. -/
theorem copyBetween_cells {η η' τ τ' : Type} (H : Layout γ η) (H' : Layout γ η') (L : Layout γ α) (T : Layout γ τ)
    (T' : Layout γ τ') (hsize : H.size = H'.size) (h : η) (h' : η') (a a' : α) (t : τ) (t' : τ') :
    copyBetween (ε := ε) ((H.pair (L.pair T)).cells (h, a, t)) ((H'.pair (L.pair T')).cells (h', a', t')) H.size
      (H.size + L.size) = .ok ((H'.pair (L.pair T')).cells (h', a, t')) := by
  simp only [pair]
  have hsource : H.size + L.size ≤ (H.cells h ++ (L.cells a ++ T.cells t)).length := by
    simp only [List.length_append, H.length_cells, L.length_cells]
    omega
  have htarget : H.size + L.size ≤ (H'.cells h' ++ (L.cells a' ++ T'.cells t')).length := by
    simp only [List.length_append, H'.length_cells, L.length_cells, hsize]
    omega
  have hcopied : ((H.cells h ++ (L.cells a ++ T.cells t)).drop H.size).take L.size = L.cells a := by
    rw [H.drop_cells, L.take_cells]
  have hrest : (H'.cells h' ++ (L.cells a' ++ T'.cells t')).drop (H.size + L.size) = T'.cells t' := by
    rw [hsize, ← List.drop_drop, H'.drop_cells, L.drop_cells]
  have hhead : (H'.cells h' ++ (L.cells a' ++ T'.cells t')).take H.size = H'.cells h' := by
    rw [hsize, H'.take_cells]
  unfold copyBetween
  rw [slice_eq (Nat.le_add_right ..) hsource, Nat.add_sub_cancel_left, hcopied, hhead, hrest]
  show (require _ _ >>= fun _ => _) = _
  rw [require_bind_eq_ok]
  exact ⟨htarget, rfl⟩

end Layout

end Sigil.Library
