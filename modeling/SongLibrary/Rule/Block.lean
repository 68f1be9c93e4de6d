import SongLibrary.Rule.Basic

/-!
# Blocks of rules

A list of rules is cut into blocks before every rule but the first whose logic is `or`. The first
rule opens the first block whatever its logic. No block is empty, and the blocks in order are the
rules in order.
-/

namespace SongLibrary.Rule

/-- Whether the first of some rules joins the block before it. -/
def joinsBlock : List Rule → Bool
  | [] => false
  | rule :: _ => rule.logic = .and

/-- Blocks with a rule put in front of the first one. -/
def consToFirst (rule : Rule) : List (List Rule) → List (List Rule)
  | [] => [[rule]]
  | block :: later => (rule :: block) :: later

/-- The blocks of a list of rules. -/
def blocks : List Rule → List (List Rule)
  | [] => []
  | rule :: rest =>
    if joinsBlock rest then consToFirst rule (blocks rest) else [rule] :: blocks rest

theorem flatten_consToFirst (rule : Rule) (bs : List (List Rule)) :
    (consToFirst rule bs).flatten = rule :: bs.flatten := by
  cases bs <;> rfl

/-- The blocks in order are the rules in order. -/
theorem flatten_blocks (rules : List Rule) : (blocks rules).flatten = rules := by
  induction rules with
  | nil => rfl
  | cons rule rest ih =>
      rw [blocks]
      split
      · rw [flatten_consToFirst, ih]
      · rw [List.flatten_cons, ih]; rfl

/-- No block is empty. -/
theorem ne_nil_of_mem_blocks {rules block : List Rule} (h : block ∈ blocks rules) : block ≠ [] := by
  induction rules generalizing block with
  | nil => exact absurd h (by simp [blocks])
  | cons rule rest ih =>
      rw [blocks] at h
      split at h
      · cases hb : blocks rest with
        | nil => rw [hb] at h; simp [consToFirst] at h; simp [h]
        | cons first later =>
            rw [hb] at h
            rcases List.mem_cons.mp h with rfl | h
            · simp
            · exact ih (hb ▸ List.mem_cons_of_mem _ h)
      · rcases List.mem_cons.mp h with rfl | h
        · simp
        · exact ih h

end SongLibrary.Rule
