import Mathlib.Data.List.DropRight
import SongLibrary.Text.Blank

/-!
# Trimming

Trimming takes white space away from the two ends of a text and nothing else. What is left neither
begins nor ends with any, so a text that is trimmed stays as it is when it is trimmed again.
-/

namespace SongLibrary.Text

theorem prefix_trimEnd (cs : List Char) : trimEnd cs <+: cs := by
  rw [trimEnd, ← List.reverse_suffix, List.reverse_reverse]
  exact List.dropWhile_suffix isBlank

/-- Trimming takes away white space at the two ends. -/
theorem exists_trimChars (cs : List Char) : ∃ front back, cs = front ++ trimChars cs ++ back ∧
    (∀ c ∈ front, isBlank c = true) ∧ ∀ c ∈ back, isBlank c = true := by
  have hstart : cs.takeWhile isBlank ++ trimStart cs = cs := List.takeWhile_append_dropWhile
  have hend : trimChars cs ++ ((trimStart cs).reverse.takeWhile isBlank).reverse =
      trimStart cs := by
    rw [trimChars, trimEnd, ← List.reverse_append, List.takeWhile_append_dropWhile,
      List.reverse_reverse]
  refine ⟨cs.takeWhile isBlank, ((trimStart cs).reverse.takeWhile isBlank).reverse, ?_, ?_, ?_⟩
  · rw [List.append_assoc, hend, hstart]
  · intro c hc
    exact List.all_eq_true.mp List.all_takeWhile c hc
  · intro c hc
    exact List.all_eq_true.mp List.all_takeWhile c (List.mem_reverse.mp hc)

theorem infix_trimChars (cs : List Char) : trimChars cs <:+: cs := by
  obtain ⟨front, back, hcs, -, -⟩ := exists_trimChars cs
  exact ⟨front, back, hcs.symm⟩

/-- **What is trimmed stays as it is.** -/
theorem trimChars_trimChars (cs : List Char) : trimChars (trimChars cs) = trimChars cs := by
  have hstart : trimStart (trimChars cs) = trimChars cs := by
    cases htrimmed : trimChars cs with
    | nil => rfl
    | cons c rest =>
        -- the first character that is left is the first one that is not white space
        obtain ⟨back, hback⟩ := prefix_trimEnd (trimStart cs)
        rw [← trimChars, htrimmed] at hback
        have hc := List.head?_dropWhile_not isBlank cs
        rw [← trimStart, ← hback] at hc
        exact List.dropWhile_cons_of_neg (by simpa using hc)
  have hend : trimEnd (trimChars cs) = trimChars cs := by
    rw [trimChars, trimEnd, trimEnd, List.reverse_reverse,
      List.dropWhile_idempotent]
  rw [trimChars, hstart, hend]

end SongLibrary.Text
