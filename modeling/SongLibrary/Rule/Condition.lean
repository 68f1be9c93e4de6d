import SongLibrary.Rule.Basic
import SongLibrary.VersionIndex

/-!
# Conditions of rules

Texts are compared with regard to case, and a field that a song lacks is empty. An unknown operator
never holds. A block holds if it has a rule and all its rules hold.
-/

namespace SongLibrary

/-- Whether the condition of a rule holds for a song. -/
def Rule.holds (rule : Rule) (song : Song) (index : VersionIndex) : Bool :=
  let actual := song.get rule.field
  match rule.operator with
  | .is => actual == rule.value
  | .contains => Text.contains actual rule.value
  | .startsWith => Text.startsWith actual rule.value
  | .endsWith => Text.endsWith actual rule.value
  | .isEmpty => actual.isEmpty
  | .isNotEmpty => !actual.isEmpty
  | .isLatestVersion => index.isLatest song
  | .isNotLatestVersion => !index.isLatest song
  | .unknown _ => false

/-- Whether a block holds for a song. -/
def Rule.blockHolds (block : List Rule) (song : Song) (index : VersionIndex) : Bool :=
  !block.isEmpty && block.all (fun rule => rule.holds song index)

end SongLibrary
