/-!
# Splitting at separators

`splitWhere p` cuts a list at every element that satisfies `p` and drops those elements, so a list
with `n` separators has `n + 1` pieces, empty ones included. Joining the pieces of a list with its
only separator gives the list back.
-/

namespace SongLibrary.Text

/-- The pieces of a list between the elements that satisfy `p`. -/
def splitWhere {α : Type} (p : α → Bool) : List α → List (List α)
  | [] => [[]]
  | x :: xs =>
    if p x then [] :: splitWhere p xs
    else
      match splitWhere p xs with
      | [] => [[x]]
      | piece :: pieces => (x :: piece) :: pieces

/-- Pieces written one after the other with `separator` between them. -/
def joinWith {α : Type} (separator : List α) : List (List α) → List α
  | [] => []
  | [piece] => piece
  | piece :: pieces => piece ++ separator ++ joinWith separator pieces

theorem splitWhere_ne_nil {α : Type} (p : α → Bool) (xs : List α) : splitWhere p xs ≠ [] := by
  cases xs with
  | nil => simp [splitWhere]
  | cons x xs =>
      rw [splitWhere]
      split
      · simp
      · split <;> simp

/-- Joining at the separator undoes splitting there. -/
theorem joinWith_splitWhere {α : Type} [DecidableEq α] (x : α) (xs : List α) :
    joinWith [x] (splitWhere (· == x) xs) = xs := by
  induction xs with
  | nil => rfl
  | cons y ys ih =>
      have hne := splitWhere_ne_nil (· == x) ys
      rw [splitWhere]
      by_cases h : y = x
      · subst h
        cases hs : splitWhere (· == y) ys with
        | nil => exact absurd hs hne
        | cons piece pieces => rw [hs] at ih; simp [joinWith, ih]
      · cases hs : splitWhere (· == x) ys with
        | nil => exact absurd hs hne
        | cons piece pieces =>
            rw [hs] at ih
            cases pieces with
            | nil => simpa [joinWith, h] using ih
            | cons q qs => simpa [joinWith, h] using ih

theorem length_dropWhile_le {α : Type} (p : α → Bool) (xs : List α) :
    (xs.dropWhile p).length ≤ xs.length :=
  (List.dropWhile_suffix p).length_le

end SongLibrary.Text
