import SongLibrary.Proofs.View.Sort
import SongLibrary.View.Basic
import Mathlib

/-!
# The rows of a view

A view selects and then sorts. `sortSongs_filter` says that it may as well sort and then select,
because a stable sort never looks at what is not there: it keeps whatever it does not tell apart, so
taking rows away from a sorted list leaves the list that sorting the rest would have made.

So all views of one collection under the same levels are parts of one sorted list, and a query that
asks for more shows a part of what a query shows that asks for less.
-/

namespace SongLibrary

variable {α : Type}

/-- To sort what was selected is to select from what was sorted. -/
theorem sortSongs_filter (song : α → Song) (levels : List SortLevel) (rows : List α)
    (p : α → Bool) :
    sortSongs song levels (rows.filter p) = (sortSongs song levels rows).filter p :=
  (stableSort_sortSongs song levels (rows.filter p)).unique
    ((stableSort_sortSongs song levels rows).filter p)

namespace Query

/-- A song that a query asks for: it passes every filter, and every free term occurs in its text. -/
def AsksFor (q : Query) (song : Song) (index : VersionIndex) : Prop :=
  (∀ f ∈ q.filters, f.matchesSong song index = true) ∧
    ∀ term ∈ q.terms, Text.contains (searchText song) term = true

instance (q : Query) (song : Song) (index : VersionIndex) : Decidable (q.AsksFor song index) :=
  inferInstanceAs (Decidable (_ ∧ _))

theorem matchesSong_eq (q : Query) (song : Song) (index : VersionIndex) :
    q.matchesSong song index = decide (q.AsksFor song index) := by
  rw [Bool.eq_iff_iff, decide_eq_true_eq, matchesSong, Bool.and_eq_true, List.all_eq_true,
    List.all_eq_true, AsksFor]

/-- A query that asks for more is met by fewer songs. -/
theorem AsksFor.of_subset {q narrower : Query} {song : Song} {index : VersionIndex}
    (h : narrower.AsksFor song index) (hfilters : q.filters ⊆ narrower.filters)
    (hterms : q.terms ⊆ narrower.terms) : q.AsksFor song index :=
  ⟨fun f hf => h.1 f (hfilters hf), fun term hterm => h.2 term (hterms hterm)⟩

end Query

namespace View

/-- The rows of a view are those of the sorted collection that the query asks for. -/
theorem rows_of (song : α → Song) (rows : List α) (text : String) (levels : List SortLevel)
    (index : VersionIndex) : (of song rows text levels index).rows =
    (sortSongs song levels rows).filter
      (fun row => decide ((Query.ofText text).AsksFor (song row) index)) := by
  rw [of]
  dsimp only
  rw [sortSongs_filter]
  exact List.filter_congr fun row _ => Query.matchesSong_eq _ _ _

/-- **A view is the selected part of the collection, sorted stably.** A row is in the view if it is
in the collection and the query asks for its song, and it is there as often as in the collection.
Sorting the whole collection first and selecting from it afterwards gives the same rows in the same
order. So what a query shows that has all the filters and all the free terms of another one, and
maybe more, is a part of what that one shows, in the same order. -/
theorem of_selects {α : Type} (song : α → Song) (rows : List α) (text : String)
    (levels : List SortLevel) (index : VersionIndex) :
    let asked := fun row => decide ((Query.ofText text).AsksFor (song row) index)
    let view := of song rows text levels index
    (∀ row, row ∈ view.rows ↔ row ∈ rows ∧ (Query.ofText text).AsksFor (song row) index) ∧
    StableSort (orderRows song levels) (rows.filter asked) view.rows ∧
    view.rows = (sortSongs song levels rows).filter asked ∧
    ∀ narrower, (Query.ofText text).filters ⊆ (Query.ofText narrower).filters →
      (Query.ofText text).terms ⊆ (Query.ofText narrower).terms →
      (of song rows narrower levels index).rows.Sublist view.rows := by
  intro asked view
  have hrows : view.rows = (sortSongs song levels rows).filter asked := rows_of ..
  have hsorted := stableSort_sortSongs song levels rows
  refine ⟨fun row => ?_, ?_, hrows, fun narrower hfilters hterms => ?_⟩
  · rw [hrows, List.mem_filter, decide_eq_true_eq, hsorted.perm.mem_iff]
  · rw [hrows]
    exact hsorted.filter asked
  · rw [hrows, rows_of]
    refine List.monotone_filter_right _ fun row hrow => decide_eq_true ?_
    exact (of_decide_eq_true hrow).of_subset hfilters hterms

set_option maxRecDepth 4000 in
/-- Of the songs by `A` those with a `b` somewhere are shown in the order in which they stand among
the songs by `A`. -/
theorem of_selects_songs_by :
    let songs := [("z b", "A"), ("b", "B"), ("c", "A"), ("B", "A")].map fun (title, artist) =>
      Song.ofJson ⟨title⟩ (.object [("Title", .string title), ("Artist", .string artist)]) ""
    let levels : List SortLevel := [⟨"title", .descending⟩]
    Query.ofText "artist==a b" = ⟨[⟨.artist, .equals, "a"⟩], ["b"]⟩ ∧
    (of id songs "artist==a b" levels .empty).rows.Sublist
      (of id songs "artist==a" levels .empty).rows := by
  have hbroad : Query.ofText "artist==a" = ⟨[⟨.artist, .equals, "a"⟩], []⟩ := by cbv
  have hnarrow : Query.ofText "artist==a b" = ⟨[⟨.artist, .equals, "a"⟩], ["b"]⟩ := by cbv
  intro songs levels
  refine ⟨hnarrow, (of_selects id songs "artist==a" levels .empty).2.2.2 "artist==a b" ?_ ?_⟩
  · rw [hbroad, hnarrow]
    exact List.Subset.refl _
  · rw [hbroad, hnarrow]
    exact List.nil_subset _

end View

end SongLibrary
