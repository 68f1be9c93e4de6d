import SongLibrary.View.Query
import SongLibrary.View.Sort

/-!
# Views of a collection

A view holds the songs that match a query, sorted by levels, and the query. It is stated over rows
that have a song, so that a caller may keep track of which song of a collection a row is.
-/

namespace SongLibrary

/-- The rows that a query selects. -/
structure View (α : Type) where
  rows : List α
  query : Query

namespace View

/-- The rows that match a query, sorted by levels. -/
def of {α : Type} (song : α → Song) (rows : List α) (query : String) (levels : List SortLevel)
    (index : VersionIndex) : View α :=
  let query := Query.ofText query
  ⟨sortSongs song levels (rows.filter (fun row => query.matchesSong (song row) index)), query⟩

/-- How many songs were found, and by what. -/
def summary {α : Type} (v : View α) : String :=
  let found := toString v.rows.length ++ " songs found"
  if v.query.isEmpty then found else found ++ " | " ++ v.query.describe

end View

end SongLibrary
