import SongLibrary.Rule.Block
import SongLibrary.Rule.Condition
import SongLibrary.Rule.Template

/-!
# The output of rules

The blocks of a list of rules are tried in order. The first that holds makes the output, from the
template of its last rule. Under the policy that skips blank output, a block whose output is white
space only makes none, and the search goes on behind it. An empty output says that no block made
one.
-/

namespace SongLibrary

/-- What happens to a block that holds but whose output is blank. -/
inductive Policy where
  /-- Its output is taken. -/
  | stopAtFirstMatch
  /-- It is passed over. -/
  | skipBlankOutput
  deriving DecidableEq, Repr

namespace Policy

/-- The names of the policies. -/
def names : List (String × Policy) :=
  [("stop_at_first_match", .stopAtFirstMatch), ("skip_blank_output", .skipBlankOutput)]

/-- The name of a policy. -/
def name : Policy → String
  | .stopAtFirstMatch => "stop_at_first_match"
  | .skipBlankOutput => "skip_blank_output"

end Policy

namespace Rule

/-- What a block makes of a song, if it holds and its output counts. -/
def blockOutput? (policy : Policy) (song : Song) (index : VersionIndex) (block : List Rule) :
    Option String :=
  if blockHolds block song index then
    match block.getLast? with
    | none => none
    | some rule =>
      let output := Template.render rule.template song
      match policy with
      | .stopAtFirstMatch => some output
      | .skipBlankOutput => if Text.isBlankText output then none else some output
  else none

/-- What a list of rules makes of a song. -/
def output (policy : Policy) (rules : List Rule) (song : Song) (index : VersionIndex) : String :=
  ((blocks rules).findSome? (blockOutput? policy song index)).getD ""

end Rule

end SongLibrary
