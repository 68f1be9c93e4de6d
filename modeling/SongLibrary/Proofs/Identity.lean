import SongLibrary.Proofs.Stats
import SongLibrary.Proofs.Text.Words
import SongLibrary.Proofs.VersionIndex

/-!
# What an identity tells of a song

The identity of a song is one text: the title, the artist and the cover artist with bars between
them. Which of the three a bar of the text belongs to is lost, so the identities of a collection
tell its songs apart just as far as they are `Separated`. Without bars in titles and artists they
are, whatever the cover artists.

Where they are, the identities of a collection are counted, spread over the credits and compared by
version as the triples are.
-/

namespace SongLibrary

/-- What an identity is made from. -/
def Song.triple (s : Song) : String × String × String := (s.title, s.artist, s.coverArtist)

/-- Songs of a collection with one identity have the same title, artist and cover artist. -/
def Separated (songs : List Song) : Prop :=
  ∀ a ∈ songs, ∀ b ∈ songs, a.identity = b.identity → a.triple = b.triple

/-- A song whose title and artist are told apart by the first two bars of its identity. -/
structure Song.NoBar (s : Song) : Prop where
  title : '|' ∉ s.title.toList
  artist : '|' ∉ s.artist.toList

/-- **Without bars in titles and artists an identity tells the triple.** -/
theorem separated_of_noBar {songs : List Song} (h : ∀ s ∈ songs, s.NoBar) : Separated songs := by
  intro a ha b hb hsame
  have hbar : ∀ s : Song, s.identity.text.toList =
      s.title.toList ++ '|' :: (s.artist.toList ++ '|' :: s.coverArtist.toList) := by
    intro s
    simp [Song.identity, Identity.of]
  have htext := congrArg (fun identity => identity.text.toList) hsame
  rw [hbar, hbar] at htext
  obtain ⟨htitle, hrest⟩ := Text.append_cons_inj (h a ha).title (h b hb).title htext
  obtain ⟨hartist, hcover⟩ := Text.append_cons_inj (h a ha).artist (h b hb).artist hrest
  rw [Song.triple, Song.triple, String.toList_inj.mp htitle, String.toList_inj.mp hartist,
    String.toList_inj.mp hcover]

/-! ## Counting -/

theorem toFinset_map {α β : Type} [DecidableEq α] [DecidableEq β] (f : α → β) (xs : List α) :
    (xs.map f).toFinset = xs.toFinset.image f := by
  ext y
  simp

/-- The identities of songs, each once. -/
def identitiesOf (songs : List Song) : Finset Identity := (songs.map Song.identity).toFinset

theorem unique_of (songs : List Song) : (Count.of songs).unique = (identitiesOf songs).card := by
  rw [Count.of, identitiesOf, List.card_toFinset]

/-- The pairs of a title and an artist, each once. -/
def pairsOf (songs : List Song) : Finset (String × String) :=
  (songs.map fun s => (s.title, s.artist)).toFinset

theorem Stats.titlesByArtist_of (songs : List Song) :
    (of songs).titlesByArtist = (pairsOf songs).card := by
  rw [of_eq_byCredits, pairsOf, List.card_toFinset]
  rfl

theorem Stats.identities_of (songs : List Song) :
    (of songs).identities = (identitiesOf songs).card := by
  rw [of_eq_byCredits, identitiesOf, List.card_toFinset]
  rfl

/-- **There are as many identities as triples just if the identities separate them.** -/
theorem card_identitiesOf_iff {songs : List Song} :
    (identitiesOf songs).card = (songs.map Song.triple).dedup.length ↔ Separated songs := by
  have himage : identitiesOf songs = (songs.map Song.triple).toFinset.image
      fun triple => .of triple.1 triple.2.1 triple.2.2 := by
    rw [identitiesOf, ← toFinset_map, List.map_map]
    rfl
  rw [himage, ← List.card_toFinset, Finset.card_image_iff]
  constructor
  · intro hinj a ha b hb hsame
    refine hinj ?_ ?_ hsame
    · simpa using ⟨a, ha, rfl⟩
    · simpa using ⟨b, hb, rfl⟩
  · intro hseparated triple htriple triple' htriple' hsame
    obtain ⟨a, ha, rfl⟩ := List.mem_map.mp (List.mem_toFinset.mp htriple)
    obtain ⟨b, hb, rfl⟩ := List.mem_map.mp (List.mem_toFinset.mp htriple')
    exact hseparated a ha b hb hsame

namespace Separated

variable {songs : List Song}

/-- There are no more pairs of a title and an artist than triples. -/
theorem titlesByArtist_le (h : Separated songs) :
    (Stats.of songs).titlesByArtist ≤ (identitiesOf songs).card := by
  have himage : pairsOf songs =
      (songs.map Song.triple).toFinset.image fun triple => (triple.1, triple.2.1) := by
    rw [← toFinset_map, List.map_map]
    rfl
  rw [card_identitiesOf_iff.mpr h, Stats.titlesByArtist_of, himage, ← List.card_toFinset]
  exact Finset.card_image_le

/-- Songs with other credits have other identities, so identities can be counted by credit. -/
theorem card_identitiesOf_add (h : Separated songs) {p q : List String → Bool}
    (hpq : ∀ c, p c = true → q c = false) :
    (identitiesOf (songs.filter fun s => p s.credits || q s.credits)).card =
      (identitiesOf (songs.filter fun s => p s.credits)).card +
        (identitiesOf (songs.filter fun s => q s.credits)).card := by
  rw [← Finset.card_union_of_disjoint]
  · congr 1
    ext identity
    simp only [identitiesOf, Finset.mem_union, List.mem_toFinset, List.mem_map, List.mem_filter,
      Bool.or_eq_true]
    grind
  · rw [Finset.disjoint_left]
    intro identity hp hq
    obtain ⟨a, ha, rfl⟩ := List.mem_map.mp (List.mem_toFinset.mp hp)
    obtain ⟨b, hb, hsame⟩ := List.mem_map.mp (List.mem_toFinset.mp hq)
    obtain ⟨ha, hpa⟩ := List.mem_filter.mp ha
    obtain ⟨hb, hqb⟩ := List.mem_filter.mp hb
    -- one identity has one artist, who cannot be credited in both ways
    have hartist : b.artist = a.artist :=
      (Prod.mk.inj (Prod.mk.inj (h b hb a ha hsame)).2).1
    have hcredits : b.credits = a.credits := congrArg Credit.names hartist
    rw [hcredits, hpq _ hpa] at hqb
    exact Bool.false_ne_true hqb

theorem sum_unique (h : Separated songs) :
    ((Stats.of songs).solo.map fun e => e.2.unique).sum + (Stats.of songs).collaborations.unique +
      (Stats.of songs).uncredited.unique = (identitiesOf songs).card := by
  rw [← Stats.sum_byCredits (f := fun songs => (identitiesOf songs).card)
    fun _ _ hpq => h.card_identitiesOf_add hpq]
  rw [Stats.of_eq_byCredits]
  simp only [Stats.byCredits, List.map_map, Function.comp_def, unique_of]

end Separated

/-! ## Versions -/

/-- A song is not the latest if one with its identity has another version, which is no lower. -/
theorem exists_of_not_isLatest {songs : List Song} {song : Song} (hsong : song ∈ songs)
    (h : (VersionIndex.ofSongs songs).isLatest song = false) :
    ∃ other ∈ songs, other.identity = song.identity ∧ other.rawVersion ≠ song.rawVersion ∧
      ¬other.versionComponents < song.versionComponents := by
  obtain ⟨highest, hfirst, hlatest⟩ :=
    VersionIndex.latest?_ofSongs (List.mem_map_of_mem (f := Song.identity) hsong)
  obtain ⟨hmem, hsame⟩ := List.mem_filter.mp hfirst.mem
  refine ⟨highest, hmem, of_decide_eq_true hsame, fun hversion => ?_, ?_⟩
  · have hiff := VersionIndex.isLatest_iff hsong
    rw [h, hlatest, hversion] at hiff
    exact absurd (hiff.mpr rfl) Bool.false_ne_true
  · exact hfirst.not_lt (List.mem_filter.mpr ⟨hsong, decide_eq_true rfl⟩)

/-- **Songs are known by title, artist and cover artist, as far as their identities are.** The
statistics and the index count the same identities, which are as many as the triples just if the
identities separate these; without bars in titles and artists they do. Then there are no more pairs
of a title and an artist than identities, the identities of all credits add up to all identities,
and a song is not the latest only if another one with the same title, artist and cover artist has
another version, which is no lower. -/
theorem identities_byTriple (songs : List Song) :
    let stats := Stats.of songs
    let index := VersionIndex.ofSongs songs
    let triples := (songs.map Song.triple).dedup.length
    stats.identities = index.size ∧
    (stats.identities = triples ↔ Separated songs) ∧
    ((∀ s ∈ songs, s.NoBar) → Separated songs) ∧
    (Separated songs →
      stats.titlesByArtist ≤ stats.identities ∧
      (stats.solo.map fun e => e.2.unique).sum + stats.collaborations.unique +
        stats.uncredited.unique = stats.identities ∧
      ∀ song ∈ songs, index.isLatest song = false → ∃ other ∈ songs,
        other.title = song.title ∧ other.artist = song.artist ∧
        other.coverArtist = song.coverArtist ∧ other.rawVersion ≠ song.rawVersion ∧
        ¬other.versionComponents < song.versionComponents) := by
  intro stats index triples
  have hcard : stats.identities = (identitiesOf songs).card := Stats.identities_of songs
  refine ⟨?_, ?_, separated_of_noBar, fun h => ⟨?_, ?_, fun song hsong hlatest => ?_⟩⟩
  · rw [hcard, identitiesOf, List.card_toFinset]
    exact (VersionIndex.size_ofSongs songs).symm
  · rw [hcard]
    exact card_identitiesOf_iff
  · rw [hcard]
    exact h.titlesByArtist_le
  · rw [hcard]
    exact h.sum_unique
  · obtain ⟨other, hother, hsame, hversions⟩ := exists_of_not_isLatest hsong hlatest
    obtain ⟨htitle, hrest⟩ := Prod.mk.inj (h other hother song hsong hsame)
    obtain ⟨hartist, hcover⟩ := Prod.mk.inj hrest
    exact ⟨other, hother, htitle, hartist, hcover, hversions⟩

/-- A song of a title, an artist and a version. -/
def ofTitle (title artist version : String) : Song :=
  .ofJson ⟨"a.mp3"⟩
    (.object [("Title", .string title), ("Artist", .string artist), ("Version", .string version)])
    ""

/-- Bars that are in cover artists or make no other triple do no harm. -/
theorem identities_byTriple_bar :
    let songs := [ofTitle "A|B" "C" "1", ofTitle "A|B" "C" "2", ofTitle "A" "B" "1"]
    Separated songs ∧ (Stats.of songs).identities = 2 ∧
    ∃ other ∈ songs, other.title = "A|B" ∧ other.rawVersion ≠ "1" := by
  intro songs
  have hseparated : Separated songs := by
    rw [Separated]
    decide +kernel
  refine ⟨hseparated, by decide +kernel, ?_⟩
  obtain ⟨other, hother, htitle, -, -, hversion, -⟩ :=
    ((identities_byTriple songs).2.2.2 hseparated).2.2 (ofTitle "A|B" "C" "1") (by simp [songs])
      (by decide +kernel)
  exact ⟨other, hother, htitle.trans (by decide +kernel), by
    rw [show (ofTitle "A|B" "C" "1").rawVersion = "1" by decide +kernel] at hversion
    exact hversion⟩

/-- Two songs with different titles and artists have one identity, and one of them is hidden by the
version of the other. There is one identity less than there are pairs of a title and an artist. -/
theorem identities_byTriple_collision :
    let songs := [ofTitle "A" "B|C" "1", ofTitle "A|B" "C" "2"]
    (songs.map Song.triple).dedup.length = 2 ∧ (Stats.of songs).titlesByArtist = 2 ∧
    (Stats.of songs).identities = 1 ∧ (VersionIndex.ofSongs songs).size = 1 ∧
    (VersionIndex.ofSongs songs).isLatest (ofTitle "A" "B|C" "1") = false ∧
    ¬∃ other ∈ songs, other.title = "A" ∧ other.rawVersion ≠ "1" := by
  decide +kernel

end SongLibrary
