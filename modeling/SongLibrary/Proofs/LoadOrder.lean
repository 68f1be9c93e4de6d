import SongLibrary.Proofs.VersionIndex
import SongLibrary.Proofs.View.Rows
import SongLibrary.Rule.Condition
import Mathlib

/-!
# The order of a collection and its latest versions

An index is built song by song, and of equally high versions the first one wins. So the order in
which songs are loaded shows in an index in two places only: in the order of the versions of an
identity, and in which of several equally high texts is its latest.

What makes a version the highest is said without regard to order: none is higher. Two songs of which
that is true have the same components. Where the same components are always written the same, the
order shows nowhere, and whatever asks an index which song is the latest gets the same answers.
-/

namespace SongLibrary

variable {songs songs' : List Song}

/-- Versions of one identity that are equally high are written the same. -/
def OneTextPerVersion (songs : List Song) : Prop :=
  ∀ a ∈ songs, ∀ b ∈ songs, a.identity = b.identity →
    a.versionComponents = b.versionComponents → a.rawVersion = b.rawVersion

instance (songs : List Song) : Decidable (OneTextPerVersion songs) :=
  inferInstanceAs (Decidable (∀ a ∈ songs, ∀ b ∈ songs, a.identity = b.identity →
    a.versionComponents = b.versionComponents → a.rawVersion = b.rawVersion))

theorem songsOf_perm (h : songs.Perm songs') (identity : Identity) :
    (songsOf songs identity).Perm (songsOf songs' identity) := h.filter _

theorem mem_songsOf {song : Song} {identity : Identity} :
    song ∈ songsOf songs identity ↔ song ∈ songs ∧ song.identity = identity := by
  rw [songsOf, List.mem_filter, decide_eq_true_eq]

/-- However songs are ordered, the first of the highest is equally high. -/
theorem FirstHighest.components_eq {a b : Song} (ha : FirstHighest songs a)
    (hb : FirstHighest songs' b) (h : songs.Perm songs') :
    a.versionComponents = b.versionComponents :=
  List.le_antisymm (List.not_lt.mp (hb.not_lt (h.mem_iff.mp ha.mem)))
    (List.not_lt.mp (ha.not_lt (h.mem_iff.mpr hb.mem)))

namespace VersionIndex

theorem latest?_of_notMem {identity : Identity} (h : identity ∉ songs.map Song.identity) :
    (ofSongs songs).latest? identity = none := by
  have hnone : (ofSongs songs).group? identity = none :=
    Assoc.find?_eq_none_iff.mpr (mt mem_keys_ofSongs.mp h)
  rw [latest?, hnone]
  rfl

/-- An identity has no latest version in two orders, or those of two equally high songs. -/
theorem latest?_perm_cases (h : songs.Perm songs') (identity : Identity) :
    ((ofSongs songs).latest? identity = none ∧ (ofSongs songs').latest? identity = none) ∨
    ∃ a ∈ songsOf songs identity, ∃ b ∈ songsOf songs' identity,
      a.versionComponents = b.versionComponents ∧
      (ofSongs songs).latest? identity = some a.rawVersion ∧
      (ofSongs songs').latest? identity = some b.rawVersion := by
  by_cases hmem : identity ∈ songs.map Song.identity
  · obtain ⟨a, ha, hlatest⟩ := latest?_ofSongs hmem
    obtain ⟨b, hb, hlatest'⟩ := latest?_ofSongs ((h.map Song.identity).mem_iff.mp hmem)
    have hcomponents := ha.components_eq hb (songsOf_perm h identity)
    exact Or.inr ⟨a, ha.mem, b, hb.mem, hcomponents, hlatest, hlatest'⟩
  · have hmem' := mt (h.map Song.identity).mem_iff.mpr hmem
    exact Or.inl ⟨latest?_of_notMem hmem, latest?_of_notMem hmem'⟩

/-- In any two orders the latest versions of an identity are equally high. -/
theorem components_latest?_perm (h : songs.Perm songs') (identity : Identity) :
    ((ofSongs songs).latest? identity).map VersionText.components =
      ((ofSongs songs').latest? identity).map VersionText.components := by
  rcases latest?_perm_cases h identity with
    ⟨hnone, hnone'⟩ | ⟨a, -, b, -, hcomponents, hlatest, hlatest'⟩
  · rw [hnone, hnone']
  · rw [hlatest, hlatest']
    exact congrArg some hcomponents

/-- Where no two texts are equally high, the latest version does not depend on the order. -/
theorem latest?_perm (h : songs.Perm songs') (htexts : OneTextPerVersion songs)
    (identity : Identity) :
    (ofSongs songs).latest? identity = (ofSongs songs').latest? identity := by
  rcases latest?_perm_cases h identity with
    ⟨hnone, hnone'⟩ | ⟨a, ha, b, hb, hcomponents, hlatest, hlatest'⟩
  · rw [hnone, hnone']
  · obtain ⟨hamem, haidentity⟩ := mem_songsOf.mp ha
    obtain ⟨hbmem, hbidentity⟩ := mem_songsOf.mp hb
    rw [hlatest, hlatest', htexts a hamem b (h.mem_iff.mpr hbmem)
      (haidentity.trans hbidentity.symm) hcomponents]

/-! ## What asks an index -/

/-- Two indexes with the same answer to which songs are the latest. -/
def SameLatest (index index' : VersionIndex) : Prop :=
  ∀ song, index.isLatest song = index'.isLatest song

variable {index index' : VersionIndex}

/-- Nothing else of an index is asked for by a filter, -/
theorem SameLatest.matchesSong (h : SameLatest index index') (f : Filter) (song : Song) :
    f.matchesSong song index = f.matchesSong song index' := by
  rw [Filter.matchesSong, Filter.matchesSong, h song]

/-- nor by the condition of a rule, -/
theorem SameLatest.holds (h : SameLatest index index') (rule : Rule) (song : Song) :
    rule.holds song index = rule.holds song index' := by
  rw [Rule.holds, Rule.holds, h song]

/-- nor by a view. -/
theorem SameLatest.view {α : Type} (h : SameLatest index index') (song : α → Song) (rows : List α)
    (text : String) (levels : List SortLevel) :
    View.of song rows text levels index = View.of song rows text levels index' := by
  have hquery : ∀ row, (Query.ofText text).matchesSong (song row) index =
      (Query.ofText text).matchesSong (song row) index' := fun row => by
    simp only [Query.matchesSong, h.matchesSong]
  rw [View.of, View.of]
  simp only [hquery]

theorem isLatest_perm (h : songs.Perm songs') (htexts : OneTextPerVersion songs) :
    SameLatest (ofSongs songs) (ofSongs songs') := by
  intro song
  rw [isLatest, isLatest, latest?_perm h htexts]

/-- A view of a collection in another order has the same rows, in another order at most. -/
theorem rows_perm (h : songs.Perm songs') (text : String) (levels : List SortLevel) :
    (View.of id songs text levels index).rows.Perm (View.of id songs' text levels index).rows := by
  have hsorted := (stableSort_sortSongs id levels songs).perm
  have hsorted' := (stableSort_sortSongs id levels songs').perm
  rw [View.rows_of, View.rows_of]
  exact ((hsorted.trans h).trans hsorted'.symm).filter _

/-- **The order in which songs are loaded matters to nothing but ties.** Two orders of a collection
have the same identities, each with the same versions, and latest versions that are equally high.
Where equally high versions of one identity are written the same, the latest version of each
identity is one text, so every song is the latest in both or in neither: every filter lets the same
songs through, `version=latest` among them, every rule holds for the same songs, and every query
shows the same. -/
theorem ofSongs_loadOrder {songs songs' : List Song} (h : songs.Perm songs') :
    let index := ofSongs songs
    let index' := ofSongs songs'
    (Assoc.keys index.groups).Perm (Assoc.keys index'.groups) ∧
    index.size = index'.size ∧
    (∀ identity, (index.versions identity).Perm (index'.versions identity)) ∧
    (∀ identity, (index.latest? identity).map VersionText.components =
      (index'.latest? identity).map VersionText.components) ∧
    (OneTextPerVersion songs →
      (∀ identity, index.latest? identity = index'.latest? identity) ∧
      (∀ song, index.isLatest song = index'.isLatest song) ∧
      (∀ (f : Filter) song, f.matchesSong song index = f.matchesSong song index') ∧
      (∀ (rule : Rule) song, rule.holds song index = rule.holds song index') ∧
      ∀ text levels, (View.of id songs text levels index).rows.Perm
        (View.of id songs' text levels index').rows) := by
  intro index index'
  have hkeys : (Assoc.keys index.groups).Perm (Assoc.keys index'.groups) :=
    ((keys_perm_dedup songs).trans (h.map Song.identity).dedup).trans (keys_perm_dedup songs').symm
  refine ⟨hkeys, ?_, fun identity => ?_, components_latest?_perm h, fun htexts => ?_⟩
  · rw [size, size, ← Assoc.length_keys, ← Assoc.length_keys]
    exact hkeys.length_eq
  · rw [versions_ofSongs, versions_ofSongs]
    exact (songsOf_perm h identity).map Song.rawVersion
  · have hsame := isLatest_perm h htexts
    refine ⟨latest?_perm h htexts, hsame, hsame.matchesSong, hsame.holds, fun text levels => ?_⟩
    rw [hsame.view]
    exact rows_perm h text levels

/-- Three versions of one song, loaded in two orders: `1.10` is the latest either way. -/
theorem ofSongs_loadOrder_three :
    let song := fun version => Song.ofJson ⟨"a/b.mp3"⟩ (.object [("Version", .string version)]) ""
    let songs := ["1.9", "1.10", "1"].map song
    let songs' := ["1", "1.10", "1.9"].map song
    songs.Perm songs' ∧ OneTextPerVersion songs ∧
    (ofSongs songs).latest? (song "1").identity = some "1.10" ∧
    (ofSongs songs').latest? (song "1").identity = some "1.10" := by
  intro song songs songs'
  have hperm : songs.Perm songs' := List.reverse_perm songs'
  have htexts : OneTextPerVersion songs := by decide +kernel
  have hlatest : (ofSongs songs).latest? (song "1").identity = some "1.10" := by decide +kernel
  refine ⟨hperm, htexts, hlatest, ?_⟩
  rw [← ((ofSongs_loadOrder hperm).2.2.2.2 htexts).1]
  exact hlatest

end VersionIndex

end SongLibrary
