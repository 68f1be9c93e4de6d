import Mathlib.Data.List.Basic

/-!
# Stable sorts

A stable sort puts a list in order and leaves every class of elements that compare equal as it was.
These two say what the result is: `StableSort.unique`. So it does not matter how a list is sorted,
and sorting by one order after another is sorting by the two of them, the last one first:
`StableSort.comp`. The second sort must not turn around what it does not tell apart, or the work of
the first one would be lost.
-/

namespace SongLibrary

open Std

variable {α : Type}

/-- What a stable sort makes of a list. -/
structure StableSort (cmp : α → α → Ordering) (xs ys : List α) : Prop where
  perm : ys.Perm xs
  ordered : ys.Pairwise fun a b => (cmp a b).isLE
  /-- Elements that compare equal stand in the order in which they stood. -/
  stable : ∀ a, ys.filter (fun b => cmp a b == .eq) = xs.filter (fun b => cmp a b == .eq)

variable {cmp cmp' : α → α → Ordering} [TransCmp cmp]

/-- A list in order starts with an element that none of them precedes. -/
theorem isLE_head {x y : α} {xs : List α} (h : (x :: xs).Pairwise fun a b => (cmp a b).isLE)
    (hy : y ∈ x :: xs) : (cmp x y).isLE := by
  rcases List.mem_cons.mp hy with rfl | hy
  · exact Ordering.isLE_of_eq_eq ReflCmp.compare_self
  · exact (List.pairwise_cons.mp h).1 y hy

/-- Lists in order with the same elements, and with the same classes of equal ones, are equal. -/
theorem eq_of_ordered {ys zs : List α} (hperm : ys.Perm zs)
    (hys : ys.Pairwise fun a b => (cmp a b).isLE) (hzs : zs.Pairwise fun a b => (cmp a b).isLE)
    (hclass : ∀ a, ys.filter (fun b => cmp a b == .eq) = zs.filter (fun b => cmp a b == .eq)) :
    ys = zs := by
  induction ys generalizing zs with
  | nil => exact hperm.nil_eq
  | cons y ys ih =>
      cases zs with
      | nil => exact absurd hperm.length_eq (by simp)
      | cons z zs =>
          -- neither of the two first elements precedes the other
          have hyz : (cmp y z).isLE := isLE_head hys (hperm.mem_iff.mpr (by simp))
          have hzy : (cmp z y).isLE := isLE_head hzs (hperm.mem_iff.mp (by simp))
          have heq : cmp y z = .eq := OrientedCmp.isLE_antisymm hyz hzy
          have hhead : y = z := by
            have hself : cmp y y = .eq := ReflCmp.compare_self
            have hfirst := congrArg List.head? (hclass y)
            rw [List.filter_cons_of_pos (by simp [hself]),
              List.filter_cons_of_pos (by simp [heq])] at hfirst
            exact Option.some.inj hfirst
          subst hhead
          refine congrArg _ (ih hperm.cons_inv (List.pairwise_cons.mp hys).2
            (List.pairwise_cons.mp hzs).2 fun a => ?_)
          have ha := hclass a
          rw [List.filter_cons, List.filter_cons] at ha
          split at ha
          · exact List.tail_eq_of_cons_eq ha
          · exact ha

namespace StableSort

variable {xs ys zs : List α}

/-- A list in order is its own stable sort. -/
theorem of_ordered {cmp : α → α → Ordering} (h : xs.Pairwise fun a b => (cmp a b).isLE) :
    StableSort cmp xs xs := ⟨List.Perm.refl xs, h, fun _ => rfl⟩

/-- **A list has one stable sort.** -/
theorem unique (hys : StableSort cmp xs ys) (hzs : StableSort cmp xs zs) : ys = zs :=
  eq_of_ordered (hys.perm.trans hzs.perm.symm) hys.ordered hzs.ordered fun a =>
    (hys.stable a).trans (hzs.stable a).symm

/-- **Sorting by one order and then by another is sorting by both, the last one first.** -/
theorem comp (hys : StableSort cmp' xs ys) (hzs : StableSort cmp ys zs) :
    StableSort (compareLex cmp cmp') xs zs where
  perm := hzs.perm.trans hys.perm
  ordered := by
    refine List.pairwise_iff_forall_sublist.mpr fun {a b} hab => ?_
    have hle := List.pairwise_iff_forall_sublist.mp hzs.ordered hab
    cases horder : cmp a b with
    | lt => simp [compareLex, horder]
    | gt => simp [horder] at hle
    | eq =>
        -- the two are of one class, which is as the first sort has left it
        have hclass : [a, b].Sublist (ys.filter fun c => cmp a c == .eq) := by
          have hself : cmp a a = .eq := ReflCmp.compare_self
          have hfilter := hab.filter fun c => cmp a c == .eq
          rw [List.filter_cons_of_pos (by simp [hself]),
            List.filter_cons_of_pos (by simp [horder]), List.filter_nil] at hfilter
          rw [← hzs.stable a]
          exact hfilter
        have hle' := List.pairwise_iff_forall_sublist.mp hys.ordered
          (hclass.trans List.filter_sublist)
        simpa [compareLex, horder] using hle'
  stable a := by
    have hboth : (fun b => compareLex cmp cmp' a b == .eq) =
        fun b => (cmp' a b == .eq) && (cmp a b == .eq) := by
      funext b
      cases hb : cmp a b <;> simp [compareLex, hb]
    have hswap : (fun b => (cmp' a b == .eq) && (cmp a b == .eq)) =
        fun b => (cmp a b == .eq) && (cmp' a b == .eq) := by
      funext b
      exact Bool.and_comm _ _
    calc zs.filter (fun b => compareLex cmp cmp' a b == .eq)
        = (zs.filter fun b => cmp a b == .eq).filter fun b => cmp' a b == .eq := by
          rw [hboth, List.filter_filter]
      _ = (ys.filter fun b => cmp' a b == .eq).filter fun b => cmp a b == .eq := by
          rw [hzs.stable a, List.filter_filter, List.filter_filter, hswap]
      _ = xs.filter (fun b => compareLex cmp cmp' a b == .eq) := by
          rw [hys.stable a, List.filter_filter, hboth, hswap]

/-- **What is left of a stable sort is the stable sort of what is left.** -/
theorem filter {cmp : α → α → Ordering} (h : StableSort cmp xs ys) (p : α → Bool) :
    StableSort cmp (xs.filter p) (ys.filter p) where
  perm := h.perm.filter p
  ordered := h.ordered.filter p
  stable a := by
    -- a class of what is left is what is left of the class
    have hswap : ∀ l : List α, (l.filter p).filter (fun b => cmp a b == .eq) =
        (l.filter fun b => cmp a b == .eq).filter p := fun l => by
      rw [List.filter_filter, List.filter_filter]
      exact List.filter_congr fun b _ => Bool.and_comm _ _
    rw [hswap, hswap, h.stable a]

end StableSort

/-- An order of values orders what has such values. -/
theorem transCmp_comap {α β : Type} (cmp : β → β → Ordering) [TransCmp cmp] (f : α → β) :
    TransCmp fun a b => cmp (f a) (f b) where
  eq_swap {a b} := show cmp (f a) (f b) = _ from OrientedCmp.eq_swap
  isLE_trans {a _ c} hab hbc := show (cmp (f a) (f c)).isLE from TransCmp.isLE_trans hab hbc

/-- **Merge sort is a stable sort.** -/
theorem stableSort_mergeSort (cmp : α → α → Ordering) [TransCmp cmp] (xs : List α) :
    StableSort cmp xs (xs.mergeSort fun a b => cmp a b != .gt) := by
  have hle : ∀ a b, (cmp a b != .gt) = (cmp a b).isLE := by
    intro a b
    cases cmp a b <;> rfl
  simp only [hle]
  have htrans : ∀ a b c, (cmp a b).isLE → (cmp b c).isLE → (cmp a c).isLE :=
    fun _ _ _ => TransCmp.isLE_trans
  have htotal : ∀ a b, ((cmp a b).isLE || (cmp b a).isLE) = true := by
    intro a b
    rw [show cmp b a = (cmp a b).swap from OrientedCmp.eq_swap]
    cases cmp a b <;> rfl
  refine ⟨List.mergeSort_perm _ _, List.pairwise_mergeSort htrans htotal xs, fun a => ?_⟩
  -- a class is in order already, so it is a part of what the sort makes of all
  have hclass : (xs.filter fun b => cmp a b == .eq).Pairwise fun b c => (cmp b c).isLE := by
    refine List.pairwise_of_forall_mem_list fun b hb c hc => ?_
    have hab : cmp a b = .eq := by simpa using (List.mem_filter.mp hb).2
    have hac : cmp a c = .eq := by simpa using (List.mem_filter.mp hc).2
    rw [← TransCmp.congr_left hab, hac]
    rfl
  have hsub := (List.sublist_mergeSort htrans htotal hclass List.filter_sublist).filter
    fun b => cmp a b == .eq
  rw [List.filter_filter] at hsub
  simp only [Bool.and_self] at hsub
  refine (hsub.eq_of_length ?_).symm
  exact ((List.mergeSort_perm xs _).filter _).length_eq.symm

end SongLibrary
