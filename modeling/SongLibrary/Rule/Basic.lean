import SongLibrary.Text.Blank
import SongLibrary.Text.Search

/-!
# Rules

A rule says: if a field of a song compares with a value in some way, the output is made from a
template. Its logic says how it joins the rule before it, in the same block or in a new one.

Operators that are not known are kept as they are written, so that a rule survives being read and
written by a library that does not know its operator.
-/

namespace SongLibrary

/-- How a rule joins the one before it. -/
inductive Logic where
  /-- In the same block. -/
  | and
  /-- In a new block. -/
  | or
  deriving DecidableEq, Repr

namespace Logic

/-- The written form. -/
def name : Logic → String
  | .and => "AND"
  | .or => "OR"

/-- Blank text and `and` in any case join the block; anything else opens a new one. -/
def ofText (text : String) : Logic :=
  let word := Text.trim text
  if word = "" ∨ Text.equalsIgnoringAsciiCase word "and" then .and else .or

end Logic

/-- How a rule compares a field. -/
inductive Operator where
  | is
  | contains
  | startsWith
  | endsWith
  | isEmpty
  | isNotEmpty
  | isLatestVersion
  | isNotLatestVersion
  | unknown (text : String)
  deriving DecidableEq, Repr

namespace Operator

/-- The known operators in the order in which they are offered, with their texts. -/
def known : List (Operator × String) :=
  [(.is, "is"), (.contains, "contains"), (.startsWith, "starts with"), (.endsWith, "ends with"),
   (.isEmpty, "is empty"), (.isNotEmpty, "is not empty"),
   (.isLatestVersion, "is latest version"), (.isNotLatestVersion, "is not latest version")]

/-- The written form. -/
def text : Operator → String
  | .is => "is"
  | .contains => "contains"
  | .startsWith => "starts with"
  | .endsWith => "ends with"
  | .isEmpty => "is empty"
  | .isNotEmpty => "is not empty"
  | .isLatestVersion => "is latest version"
  | .isNotLatestVersion => "is not latest version"
  | .unknown text => text

/-- The operator with a written form. -/
def ofText (text : String) : Operator :=
  match known.find? (fun o => o.2 = text) with
  | some (operator, _) => operator
  | none => .unknown text

/-- Whether an operator is known. -/
def isKnown : Operator → Bool
  | .unknown _ => false
  | _ => true

theorem text_ofText (s : String) : (ofText s).text = s := by
  unfold ofText
  split
  · rename_i operator text h
    have hmem := List.mem_of_find?_eq_some h
    have heq : text = s := by simpa using List.find?_some h
    simp only [known, List.mem_cons, Prod.mk.injEq, List.not_mem_nil, or_false] at hmem
    rcases hmem with ⟨rfl, rfl⟩ | ⟨rfl, rfl⟩ | ⟨rfl, rfl⟩ | ⟨rfl, rfl⟩ | ⟨rfl, rfl⟩ | ⟨rfl, rfl⟩ |
      ⟨rfl, rfl⟩ | ⟨rfl, rfl⟩ <;> exact heq
  · rfl

end Operator

/-- A rule: if `field` compares with `value`, then `template`. -/
structure Rule where
  logic : Logic
  field : String
  operator : Operator
  value : String
  template : String
  deriving DecidableEq, Repr

end SongLibrary
