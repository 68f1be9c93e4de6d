import SongLibrary.Path
import SongLibrary.Proofs.StableSort

/-!
# The order of paths

Components are ordered by their kind, and names among themselves by their characters. Paths are
ordered as words over components, so the separators do not count: what lies in a folder comes right
behind the folder, whatever characters the names of its neighbours hold.

Only paths with the same components tie.
-/

namespace SongLibrary.Path

open Std

/-- The text of a name, empty for the other components. -/
def Component.characters : Component → String
  | .name text => text
  | _ => ""

/-- Components are compared by their kind and their text, in turn. -/
theorem Component.order_eq :
    order = compareLex (compareOn rank) (compareOn characters) := by
  funext a b
  cases a <;> cases b <;> rfl

/-- The order of components is a total preorder. -/
instance : TransCmp Component.order := by
  rw [Component.order_eq]
  infer_instance

/-- Components that compare equal are equal. -/
instance : LawfulEqCmp Component.order where
  eq_of_compare {a b} h := by
    cases a <;> cases b <;> simp_all [Component.order, Component.rank]

/-- Lists of components are ordered as words. -/
theorem orderComponents_eq (as bs : List Component) :
    orderComponents as bs = List.compareLex Component.order as bs := by
  induction as generalizing bs with
  | nil => cases bs <;> rfl
  | cons a as ih =>
      cases bs with
      | nil => rfl
      | cons b bs =>
          rw [orderComponents, ih, List.compareLex_cons_cons]

variable {p q : Path}

/-- The order of paths is a total preorder. -/
instance : TransCmp Path.order := by
  have horder : Path.order = fun p q =>
      List.compareLex Component.order p.components q.components := by
    funext p q
    exact orderComponents_eq p.components q.components
  rw [horder]
  exact transCmp_comap (List.compareLex Component.order) Path.components

/-- **Paths tie if they have the same components.** -/
theorem order_eq_eq_iff : p.order q = .eq ↔ p.components = q.components := by
  rw [order, orderComponents_eq]
  exact LawfulEqCmp.compare_eq_iff_eq

end SongLibrary.Path
