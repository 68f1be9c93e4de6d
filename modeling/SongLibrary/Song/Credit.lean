import SongLibrary.Text.Blank

/-!
# Credits

An artist text may credit several artists. They are separated by punctuation marks, or by a joining
word such as `x` or `feat.` in white space. The joining words are told by their lower-case letters,
and each takes all the white space around it, so two of them in a row need white space of their own.
-/

namespace SongLibrary.Credit

/-- The marks between credits. -/
def marks : List Char := [',', ';', '/', '|', '、', '&']

/-- The words between credits. -/
def joiningWords : List String := ["x", "ft", "ft.", "feat", "feat.", "featuring"]

/-- What stands behind a joining word, and its white space, at the beginning of a text. -/
def afterJoiningWord? (cs : List Char) : Option (List Char) :=
  let fromWord := cs.dropWhile Text.isBlank
  let word := fromWord.takeWhile (fun c => !Text.isBlank c)
  let behind := fromWord.dropWhile (fun c => !Text.isBlank c)
  if cs.head?.any Text.isBlank ∧ String.ofList word ∈ joiningWords ∧ behind ≠ [] then
    some (behind.dropWhile Text.isBlank)
  else none

theorem length_afterJoiningWord? {cs rest : List Char} (h : afterJoiningWord? cs = some rest) :
    rest.length < cs.length := by
  simp only [afterJoiningWord?] at h
  split at h
  · rename_i hcond
    obtain ⟨hblank, _, _⟩ := hcond
    cases cs with
    | nil => simp at hblank
    | cons c cs =>
        simp only [List.head?_cons, Option.any_some] at hblank
        simp only [List.dropWhile_cons, hblank, if_true, Option.some.injEq] at h
        subst h
        refine Nat.lt_succ_of_le (Nat.le_trans (Text.length_dropWhile_le _ _) ?_)
        exact Nat.le_trans (Text.length_dropWhile_le _ _) (Text.length_dropWhile_le _ _)
  · exact absurd h (by simp)

/-- The texts between the separators, the first one behind `read`, which is in reverse. -/
def splitFrom (read : List Char) (cs : List Char) : List (List Char) :=
  match cs with
  | [] => [read.reverse]
  | c :: rest =>
    if c ∈ marks then read.reverse :: splitFrom [] rest
    else
      match _h : afterJoiningWord? (c :: rest) with
      | some behind => read.reverse :: splitFrom [] behind
      | none => splitFrom (c :: read) rest
termination_by cs.length
decreasing_by
  · simp
  · exact length_afterJoiningWord? _h
  · simp

/-- The artists that a text credits, without the white space around them; empty ones are left
out. -/
def names (text : String) : List String :=
  ((splitFrom [] text.toList).map Text.trimChars).filterMap
    (fun name => if name.isEmpty then none else some (String.ofList name))

end SongLibrary.Credit
