/-!
# Tables of character ranges

A property of characters is kept as an ascending list of closed ranges of code points. Membership
stops at the first range that lies beyond the code point, so a table answers quickly for the
characters at its beginning.
-/

namespace SongLibrary.Text

/-- Whether `n` lies in one of the closed ranges of an ascending table. -/
def inRanges (n : Nat) : List (Nat × Nat) → Bool
  | [] => false
  | (first, last) :: rest => if n < first then false else n ≤ last || inRanges n rest

/-- A table answers `true` only for a code point that one of its ranges holds. -/
theorem exists_range_of_inRanges {n : Nat} {table : List (Nat × Nat)} :
    inRanges n table = true → ∃ r ∈ table, r.1 ≤ n ∧ n ≤ r.2 := by
  induction table with
  | nil => intro h; exact absurd h (by simp [inRanges])
  | cons r rest ih =>
      intro h
      rw [inRanges] at h
      split at h
      · exact absurd h (by simp)
      · rename_i hn
        rcases Bool.or_eq_true_iff.mp h with hl | hr
        · exact ⟨r, by simp, Nat.not_lt.mp hn, of_decide_eq_true hl⟩
        · obtain ⟨s, hs, hb⟩ := ih hr
          exact ⟨s, by simp [hs], hb⟩

end SongLibrary.Text
