import SongLibrary.Proofs.StableSort
import SongLibrary.View.Sort

/-!
# Sorting level by level

Levels order songs as a dictionary orders words: the first level on which two songs differ decides,
in its own direction. `Precedes` says so of the list of levels, and `orderSongs_eq_lt_iff` that this
is what the comparison of keys computes.

The songs are sorted stably, so songs that tie on every level stay as they are, whatever the
directions. This is why a descending level turns keys around and not the sorted list: only then can
levels be added one sort at a time.
-/

namespace SongLibrary

open Std

/-! ## Keys -/

namespace SortKey

/-- The place of a key among the kinds of keys. -/
def kind : SortKey → Nat
  | .int _ => 0
  | .pair _ _ => 1
  | .text _ => 2

/-- The integers of a key, zero where it has none. -/
def integers : SortKey → Int × Int
  | .int n => (n, 0)
  | .pair first second => (first, second)
  | .text _ => (0, 0)

/-- The text of a key, empty where it has none. -/
def characters : SortKey → String
  | .text t => t
  | _ => ""

/-- Keys are compared by their kind, their integers and their text, in turn. -/
theorem order_eq : order =
    compareLex (compareOn kind) (compareLex (compareOn fun k => (integers k).1)
      (compareLex (compareOn fun k => (integers k).2) (compareOn characters))) := by
  funext a b
  cases a <;> cases b <;> first
    | rfl
    | simp [order, compareLex, compareOn, kind, integers, characters]

/-- The order of keys is a total preorder, also between keys of different kinds. -/
instance : TransCmp order := by
  rw [order_eq]
  infer_instance

/-- Keys that compare equal are equal. -/
instance : LawfulEqCmp order where
  eq_of_compare {a b} h := by
    cases a <;> cases b <;> simp_all [order, Ordering.then_eq_eq]

end SortKey

/-! ## Levels -/

namespace SortLevel

variable (level : SortLevel) (a b : Song)

/-- How a level orders two songs. -/
def order : Ordering := level.direction.orient ((level.key a).order (level.key b))

/-- Two songs that a level does not tell apart. -/
def Ties : Prop := level.key a = level.key b

/-- A level puts one song before another: the smaller key first, or the larger one if the level is
descending. -/
def Before : Prop :=
  match level.direction with
  | .ascending => (level.key a).order (level.key b) = .lt
  | .descending => (level.key b).order (level.key a) = .lt

instance : TransCmp level.order := by
  have hkeys : TransCmp fun a b => (level.key a).order (level.key b) :=
    transCmp_comap SortKey.order level.key
  cases hdirection : level.direction with
  | ascending =>
      have horder : level.order = fun a b => (level.key a).order (level.key b) := by
        funext a b
        rw [order, hdirection]
        rfl
      rw [horder]
      exact hkeys
  | descending =>
      have horder : level.order = fun a b => (level.key b).order (level.key a) := by
        funext a b
        rw [order, hdirection]
        exact OrientedCmp.eq_swap.symm
      rw [horder]
      exact TransCmp.opposite

variable {level a b}

theorem order_eq_eq_iff : level.order a b = .eq ↔ level.Ties a b := by
  have hkeys : (level.key a).order (level.key b) = .eq ↔ level.Ties a b :=
    LawfulEqCmp.compare_eq_iff_eq
  rw [← hkeys, order]
  cases level.direction with
  | ascending => rfl
  | descending => exact Ordering.swap_eq_eq

theorem order_eq_lt_iff : level.order a b = .lt ↔ level.Before a b := by
  rw [order, Before]
  cases level.direction with
  | ascending => rfl
  | descending =>
      rw [show (level.key b).order (level.key a) = ((level.key a).order (level.key b)).swap from
        OrientedCmp.eq_swap]
      rfl

end SortLevel

/-! ## Lists of levels -/

/-- How levels order two songs. -/
def orderSongs (levels : List SortLevel) (a b : Song) : Ordering :=
  orderKeys levels (levels.map (·.key a)) (levels.map (·.key b))

/-- Two songs that no level tells apart. -/
def Tied (levels : List SortLevel) (a b : Song) : Prop := ∀ level ∈ levels, level.Ties a b

/-- One song comes before another: the first level that tells them apart puts it there. -/
def Precedes (levels : List SortLevel) (a b : Song) : Prop :=
  ∃ higher level lower, levels = higher ++ level :: lower ∧ Tied higher a b ∧ level.Before a b

instance (levels : List SortLevel) (a b : Song) : Decidable (Tied levels a b) :=
  inferInstanceAs (Decidable (∀ level ∈ levels, level.key a = level.key b))

theorem tied_cons {level : SortLevel} {levels : List SortLevel} {a b : Song} :
    Tied (level :: levels) a b ↔ level.Ties a b ∧ Tied levels a b := List.forall_mem_cons

theorem orderSongs_cons (level : SortLevel) (levels : List SortLevel) :
    orderSongs (level :: levels) = compareLex level.order (orderSongs levels) := rfl

theorem orderSongs_append (levels levels' : List SortLevel) :
    orderSongs (levels ++ levels') = compareLex (orderSongs levels) (orderSongs levels') := by
  induction levels with
  | nil => rfl
  | cons level levels ih =>
      rw [List.cons_append, orderSongs_cons, orderSongs_cons, ih]
      funext a b
      exact (Ordering.then_assoc _ _ _).symm

instance (levels : List SortLevel) : TransCmp (orderSongs levels) := by
  induction levels with
  | nil => exact { eq_swap := rfl, isLE_trans := fun _ _ => rfl }
  | cons level levels ih =>
      rw [orderSongs_cons]
      infer_instance

theorem orderSongs_eq_eq_iff {levels : List SortLevel} {a b : Song} :
    orderSongs levels a b = .eq ↔ Tied levels a b := by
  induction levels with
  | nil => simp [orderSongs, orderKeys, Tied]
  | cons level levels ih =>
      rw [orderSongs_cons, compareLex, Ordering.then_eq_eq, SortLevel.order_eq_eq_iff, ih,
        tied_cons]

/-- **The first level on which two songs differ decides.** -/
theorem orderSongs_eq_lt_iff {levels : List SortLevel} {a b : Song} :
    orderSongs levels a b = .lt ↔ Precedes levels a b := by
  induction levels with
  | nil => simp [orderSongs, orderKeys, Precedes]
  | cons level levels ih =>
      rw [orderSongs_cons, compareLex, Ordering.then_eq_lt, SortLevel.order_eq_lt_iff,
        SortLevel.order_eq_eq_iff, ih]
      constructor
      · rintro (hbefore | ⟨hties, higher, next, lower, rfl, htied, hbefore⟩)
        · exact ⟨[], level, levels, rfl, fun _ h => absurd h (by simp), hbefore⟩
        · exact ⟨level :: higher, next, lower, rfl, tied_cons.mpr ⟨hties, htied⟩, hbefore⟩
      · rintro ⟨higher, next, lower, hlevels, htied, hbefore⟩
        cases higher with
        | nil =>
            rw [(List.cons.inj hlevels).1]
            exact Or.inl hbefore
        | cons first higher =>
            obtain ⟨rfl, rfl⟩ := List.cons.inj hlevels
            obtain ⟨hties, htied⟩ := tied_cons.mp htied
            exact Or.inr ⟨hties, higher, next, lower, rfl, htied, hbefore⟩

/-! ## Sorted songs -/

section

variable {α : Type} (song : α → Song) (levels : List SortLevel) (rows : List α)

/-- How levels order two rows. -/
def orderRows (a b : α) : Ordering := orderSongs levels (song a) (song b)

instance : TransCmp (orderRows song levels) := transCmp_comap (orderSongs levels) song

theorem orderRows_append (levels' : List SortLevel) :
    orderRows song (levels ++ levels') =
      compareLex (orderRows song levels) (orderRows song levels') := by
  funext a b
  rw [orderRows, orderSongs_append]
  rfl

/-- Sorting with the keys at hand is sorting by the order of the songs. -/
theorem sortSongs_eq : sortSongs song levels rows =
    rows.mergeSort fun a b => orderRows song levels a b != .gt := by
  have hkeyed := List.map_mergeSort (l := rows)
    (r := fun a b => orderRows song levels a b != .gt)
    (s := fun a b => orderKeys levels a.1 b.1 != .gt)
    (f := fun row => (levels.map fun level => level.key (song row), row)) (fun _ _ _ _ => rfl)
  rw [sortSongs, ← hkeyed, List.map_map]
  exact List.map_id _

theorem stableSort_sortSongs :
    StableSort (orderRows song levels) rows (sortSongs song levels rows) := by
  rw [sortSongs_eq]
  exact stableSort_mergeSort _ rows

/-- **Songs are sorted level by level, and songs that tie are left alone.** The rows are the same;
of two of them the one before precedes the one behind on the first level that tells them apart, if
there is one; those that tie with a given row stand in the order in which they stood. So to sort by
some levels and then by others is to sort by all of them, the latter first, and to sort again
changes nothing. -/
theorem sortSongs_stable (levels' : List SortLevel) :
    (sortSongs song levels rows).Perm rows ∧
    (sortSongs song levels rows).Pairwise (fun a b =>
      Precedes levels (song a) (song b) ∨ Tied levels (song a) (song b)) ∧
    (∀ row, (sortSongs song levels rows).filter (fun other => Tied levels (song row) (song other)) =
      rows.filter (fun other => Tied levels (song row) (song other))) ∧
    sortSongs song (levels ++ levels') rows = sortSongs song levels (sortSongs song levels' rows) ∧
    sortSongs song levels (sortSongs song levels rows) = sortSongs song levels rows := by
  have hsorted := stableSort_sortSongs song levels rows
  refine ⟨hsorted.perm, hsorted.ordered.imp fun {a b} hab => ?_, fun row => ?_, ?_, ?_⟩
  · rw [← orderSongs_eq_lt_iff, ← orderSongs_eq_eq_iff]
    exact Ordering.isLE_iff_eq_lt_or_eq_eq.mp hab
  · have hties : ∀ other, (orderRows song levels row other == .eq) =
        decide (Tied levels (song row) (song other)) := fun other => by
      rw [Bool.eq_iff_iff, beq_iff_eq, decide_eq_true_eq, orderRows, orderSongs_eq_eq_iff]
    simpa only [hties] using hsorted.stable row
  · have hboth := (stableSort_sortSongs song levels' rows).comp
      (stableSort_sortSongs song levels (sortSongs song levels' rows))
    rw [← orderRows_append] at hboth
    exact (stableSort_sortSongs song (levels ++ levels') rows).unique hboth
  · exact (stableSort_sortSongs song levels _).unique (.of_ordered hsorted.ordered)

end

end SongLibrary
