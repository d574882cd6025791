import Mathlib.Data.Fintype.Card
import Mathlib.Logic.Relation

/-!
# Relations without cycles

On finitely many points a walk from a point ends however it goes iff it cannot come to a cycle.
-/

namespace Sigil.Library

open Relation

variable {α : Type*} {r : α → α → Prop} {a b : α}

/-- No cycle can be reached. -/
def AcyclicFrom (r : α → α → Prop) (a : α) : Prop := ∀ b, ReflTransGen r a b → ¬ TransGen r b b

theorem acc_reflTransGen (h : Acc (fun y x => r x y) a) (hab : ReflTransGen r a b) : Acc (fun y x => r x y) b := by
  induction hab with
  | refl => exact h
  | tail _ hbc ih => exact ih.inv hbc

theorem not_transGen_of_acc (h : Acc (fun y x => r x y) a) : ¬ TransGen r a a := by
  induction h with
  | intro a _ ih =>
      intro hcycle
      obtain ⟨b, hab, hba⟩ := TransGen.head'_iff.mp hcycle
      -- the cycle goes through the next point, too
      exact ih b hab (TransGen.tail' hba hab)

theorem acyclicFrom_of_acc (h : Acc (fun y x => r x y) a) : AcyclicFrom r a :=
  fun _ hab => not_transGen_of_acc (acc_reflTransGen h hab)

theorem acc_of_acyclicFrom [Finite α] (h : AcyclicFrom r a) : Acc (fun y x => r x y) a := by
  -- steps between points that can be reached
  let reached : α → α → Prop := fun y x => ReflTransGen r a x ∧ TransGen r x y
  have htrans : IsTrans α reached := ⟨fun _ _ _ hzy hyx => ⟨hyx.1, hyx.2.trans hzy.2⟩⟩
  have hirrefl : Std.Irrefl reached := ⟨fun x hx => h x hx.1 hx.2⟩
  have hwf : WellFounded reached := Finite.wellFounded_of_trans_of_irrefl reached
  have hacc : ∀ x, ReflTransGen r a x → Acc (fun y x => r x y) x := by
    intro x
    induction x using hwf.induction with
    | _ x ih => exact fun hax => ⟨x, fun y hxy => ih y ⟨hax, .single hxy⟩ (hax.tail hxy)⟩
  exact hacc a .refl

theorem acc_iff_acyclicFrom [Finite α] : Acc (fun y x => r x y) a ↔ AcyclicFrom r a :=
  ⟨acyclicFrom_of_acc, acc_of_acyclicFrom⟩

end Sigil.Library
