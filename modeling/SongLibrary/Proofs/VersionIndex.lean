import SongLibrary.Proofs.Assoc
import SongLibrary.VersionIndex
import Mathlib

/-!
# What an index of versions knows

An index is built song by song, and each group keeps the components of its latest version at hand,
so that only one text has to be read again. `VersionGroup.Covers` says what a group has to do with
its songs: their versions in order, and the first of the highest. The songs of other identities do
not matter, so `groups_ofSongs` can say of a whole index that each identity has the group of its own
songs.

From that follow the numbers of groups and of versions, and what being the latest means.
-/

namespace SongLibrary

/-! ## One group -/

/-- The components of the version of a song. -/
def Song.versionComponents (song : Song) : List Nat := VersionText.components song.rawVersion

/-- The first of the highest versions of some songs: those before it are lower, and those behind it
are not higher. -/
def FirstHighest (songs : List Song) (song : Song) : Prop :=
  ∃ earlier later, songs = earlier ++ song :: later ∧
    (∀ other ∈ earlier, other.versionComponents < song.versionComponents) ∧
    ∀ other ∈ later, ¬song.versionComponents < other.versionComponents

namespace FirstHighest

variable {songs : List Song} {song other : Song}

theorem mem (h : FirstHighest songs song) : song ∈ songs := by
  obtain ⟨earlier, later, rfl, -, -⟩ := h
  simp

theorem not_lt (h : FirstHighest songs song) (hother : other ∈ songs) :
    ¬song.versionComponents < other.versionComponents := by
  obtain ⟨earlier, later, rfl, hearlier, hlater⟩ := h
  rcases List.mem_append.mp hother with hother | hother
  · exact List.lt_asymm (hearlier other hother)
  · rcases List.mem_cons.mp hother with rfl | hother
    · exact List.lt_irrefl _
    · exact hlater other hother

/-- A song that is not higher changes nothing. -/
theorem append_of_not_lt (h : FirstHighest songs song)
    (hother : ¬song.versionComponents < other.versionComponents) :
    FirstHighest (songs ++ [other]) song := by
  obtain ⟨earlier, later, rfl, hearlier, hlater⟩ := h
  refine ⟨earlier, later ++ [other], by simp, hearlier, fun s hs => ?_⟩
  rcases List.mem_append.mp hs with hs | hs
  · exact hlater s hs
  · rw [List.mem_singleton.mp hs]
    exact hother

/-- A song that is higher than the highest is higher than all. -/
theorem append_of_lt (h : FirstHighest songs song)
    (hother : song.versionComponents < other.versionComponents) :
    FirstHighest (songs ++ [other]) other := by
  refine ⟨songs, [], rfl, fun s hs => ?_, fun s hs => absurd hs (by simp)⟩
  exact List.lt_of_le_of_lt (List.not_lt.mp (h.not_lt hs)) hother

end FirstHighest

/-- What a group has to do with its songs. -/
structure VersionGroup.Covers (g : VersionGroup) (songs : List Song) : Prop where
  versions : g.versions = songs.map Song.rawVersion
  latest : ∃ song, FirstHighest songs song ∧ g.latest = song.rawVersion
  /-- The components at hand are those of the latest version. -/
  components : g.latestComponents = VersionText.components g.latest

namespace VersionGroup

theorem covers_single (song : Song) : (single song.rawVersion).Covers [song] where
  versions := rfl
  latest := ⟨song, ⟨[], [], rfl, by simp, by simp⟩, rfl⟩
  components := rfl

/-- **A further song keeps a group right.** -/
theorem Covers.push {g : VersionGroup} {songs : List Song} (h : g.Covers songs) (song : Song) :
    (g.push song.rawVersion).Covers (songs ++ [song]) := by
  obtain ⟨highest, hfirst, hlatest⟩ := h.latest
  have hhand : g.latestComponents = highest.versionComponents := by
    rw [h.components, hlatest]
    rfl
  have hversions : g.versions ++ [song.rawVersion] = (songs ++ [song]).map Song.rawVersion := by
    rw [h.versions, List.map_append]
    rfl
  rw [VersionGroup.push, hhand]
  split
  · rename_i hlt
    exact ⟨hversions, ⟨song, hfirst.append_of_lt hlt, rfl⟩, rfl⟩
  · rename_i hlt
    exact ⟨hversions, ⟨highest, hfirst.append_of_not_lt hlt, hlatest⟩,
      hhand.symm.trans h.components⟩

end VersionGroup

/-! ## The groups of an index -/

/-- The songs with an identity, in order. -/
def songsOf (songs : List Song) (identity : Identity) : List Song :=
  songs.filter fun song => song.identity = identity

theorem songsOf_append (songs : List Song) (song : Song) (identity : Identity) :
    songsOf (songs ++ [song]) identity =
      if song.identity = identity then songsOf songs identity ++ [song]
      else songsOf songs identity := by
  rw [songsOf, List.filter_append, List.filter_singleton]
  split <;> simp_all [songsOf]

theorem songsOf_eq_nil_iff {songs : List Song} {identity : Identity} :
    songsOf songs identity = [] ↔ identity ∉ songs.map Song.identity := by
  rw [songsOf, List.filter_eq_nil_iff, List.mem_map]
  simp

namespace VersionIndex

theorem ofSongs_append (songs : List Song) (song : Song) :
    ofSongs (songs ++ [song]) = (ofSongs songs).insert song := by
  rw [ofSongs, List.foldl_append]
  rfl

/-- What an index knows of an identity, if it knows of some songs. -/
def Knows (index : VersionIndex) (identity : Identity) (songs : List Song) : Prop :=
  (songs = [] ∧ index.group? identity = none) ∨
    (songs ≠ [] ∧ ∃ g, index.group? identity = some g ∧ g.Covers songs)

/-- A further song changes what is known of its identity alone. -/
theorem Knows.insert {index : VersionIndex} {identity : Identity} {songs : List Song}
    (h : index.Knows identity songs) (song : Song) :
    (index.insert song).Knows identity
      (if song.identity = identity then songs ++ [song] else songs) := by
  by_cases hsame : song.identity = identity
  · subst hsame
    rw [if_pos rfl]
    refine Or.inr ⟨by simp, ?_⟩
    rw [VersionIndex.insert, group?]
    dsimp only
    rw [Assoc.find?_put, if_pos rfl]
    rcases h with ⟨rfl, hnone⟩ | ⟨-, g, hsome, hcovers⟩
    · rw [hnone]
      exact ⟨_, rfl, VersionGroup.covers_single song⟩
    · rw [hsome]
      exact ⟨_, rfl, hcovers.push song⟩
  · rw [if_neg hsame]
    have hother : (index.insert song).group? identity = index.group? identity := by
      rw [VersionIndex.insert, group?]
      dsimp only
      rw [Assoc.find?_put, if_neg hsame, group?]
    rw [Knows, hother]
    exact h

/-- **Every identity has the group of its own songs.** -/
theorem ofSongs_knows (songs : List Song) (identity : Identity) :
    (ofSongs songs).Knows identity (songsOf songs identity) := by
  induction songs using List.reverseRecOn with
  | nil => exact Or.inl ⟨rfl, rfl⟩
  | append_singleton songs song ih =>
      rw [ofSongs_append, songsOf_append]
      exact ih.insert song

theorem nodup_keys_ofSongs (songs : List Song) : (Assoc.keys (ofSongs songs).groups).Nodup := by
  induction songs using List.reverseRecOn with
  | nil => exact List.nodup_nil
  | append_singleton songs song ih =>
      rw [ofSongs_append]
      exact Assoc.nodup_keys_put ih _ _

/-- An index has a group for the identities of its songs and for no others. -/
theorem mem_keys_ofSongs {songs : List Song} {identity : Identity} :
    identity ∈ Assoc.keys (ofSongs songs).groups ↔ identity ∈ songs.map Song.identity := by
  have hkey := Assoc.find?_eq_none_iff (m := (ofSongs songs).groups) (k := identity)
  rcases ofSongs_knows songs identity with ⟨hnil, hnone⟩ | ⟨hne, g, hsome, -⟩
  · exact iff_of_false (hkey.mp hnone) (songsOf_eq_nil_iff.mp hnil)
  · rw [group?] at hsome
    rw [hsome] at hkey
    exact iff_of_true (by simpa using hkey) (by simpa using mt songsOf_eq_nil_iff.mpr hne)

theorem versions_ofSongs (songs : List Song) (identity : Identity) :
    (ofSongs songs).versions identity = (songsOf songs identity).map Song.rawVersion := by
  rw [versions]
  rcases ofSongs_knows songs identity with ⟨hnil, hnone⟩ | ⟨-, g, hsome, hcovers⟩
  · rw [hnone, hnil]
    rfl
  · rw [hsome]
    exact hcovers.versions

theorem latest?_ofSongs {songs : List Song} {identity : Identity}
    (h : identity ∈ songs.map Song.identity) :
    ∃ song, FirstHighest (songsOf songs identity) song ∧
      (ofSongs songs).latest? identity = some song.rawVersion := by
  rcases ofSongs_knows songs identity with ⟨hnil, -⟩ | ⟨-, g, hsome, hcovers⟩
  · exact absurd h (songsOf_eq_nil_iff.mp hnil)
  · obtain ⟨song, hfirst, hlatest⟩ := hcovers.latest
    refine ⟨song, hfirst, ?_⟩
    rw [latest?, hsome, ← hlatest]
    rfl

/-! ## Counting -/

/-- The groups are those of the different identities. -/
theorem keys_perm_dedup (songs : List Song) :
    (Assoc.keys (ofSongs songs).groups).Perm (songs.map Song.identity).dedup := by
  rw [List.perm_ext_iff_of_nodup (nodup_keys_ofSongs songs) (List.nodup_dedup _)]
  intro identity
  rw [mem_keys_ofSongs, List.mem_dedup]

theorem size_ofSongs (songs : List Song) :
    (ofSongs songs).size = (songs.map Song.identity).dedup.length := by
  rw [size, ← Assoc.length_keys]
  exact (keys_perm_dedup songs).length_eq

/-- Every song has its version in one group. -/
theorem sum_versions_ofSongs (songs : List Song) :
    ((ofSongs songs).groups.map fun e => e.2.versions.length).sum = songs.length := by
  have hcount : ∀ e ∈ (ofSongs songs).groups,
      e.2.versions.length = (songs.map Song.identity).count e.1 := by
    intro e he
    have hgroup : (ofSongs songs).group? e.1 = some e.2 :=
      Assoc.find?_of_mem (nodup_keys_ofSongs songs) he
    have hversions := versions_ofSongs songs e.1
    rw [versions, hgroup] at hversions
    rw [show e.2.versions = _ from hversions, List.length_map, songsOf, List.count_eq_countP,
      List.countP_map, List.countP_eq_length_filter]
    rfl
  have hkeys : ((ofSongs songs).groups.map fun e => (songs.map Song.identity).count e.1) =
      (Assoc.keys (ofSongs songs).groups).map fun i => (songs.map Song.identity).count i := by
    rw [Assoc.keys, List.map_map]
    rfl
  rw [List.map_congr_left hcount, hkeys, ((keys_perm_dedup songs).map _).sum_eq,
    List.sum_map_count_dedup_eq_length, List.length_map]

/-! ## Being the latest -/

/-- A song of the collection is the latest if its version is that of the highest song of its
identity. -/
theorem isLatest_iff {songs : List Song} {song : Song} (h : song ∈ songs) :
    (ofSongs songs).isLatest song ↔
      (ofSongs songs).latest? song.identity = some song.rawVersion := by
  obtain ⟨highest, -, hlatest⟩ := latest?_ofSongs (List.mem_map_of_mem h)
  rw [isLatest, hlatest]
  simp

/-- A song that has the latest version of its identity is not outranked by any with that
identity. -/
theorem not_lt_of_isLatest {songs : List Song} {song other : Song} (hsong : song ∈ songs)
    (hother : other ∈ songs) (hsame : song.identity = other.identity)
    (h : (ofSongs songs).isLatest song) :
    ¬song.versionComponents < other.versionComponents := by
  obtain ⟨highest, hfirst, hlatest⟩ := latest?_ofSongs (List.mem_map_of_mem hsong)
  have hversion : highest.rawVersion = song.rawVersion :=
    Option.some.inj (hlatest.symm.trans ((isLatest_iff hsong).mp h))
  have hmem : other ∈ songsOf songs song.identity :=
    List.mem_filter.mpr ⟨hother, decide_eq_true hsame.symm⟩
  rw [Song.versionComponents, ← hversion]
  exact hfirst.not_lt hmem

/-- **An index knows the versions of every identity and the first of the highest.** There is a group
for each identity of the collection and no other, and every song has its version in one of them. A
song of the collection is the latest just if its version is the latest of its identity. So there is
a latest song for each identity, all of them have one version, and none of them is outranked. -/
theorem ofSongs_groups (songs : List Song) :
    let index := ofSongs songs
    (∀ identity, index.versions identity = (songsOf songs identity).map Song.rawVersion) ∧
    (∀ identity ∈ songs.map Song.identity, ∃ song, FirstHighest (songsOf songs identity) song ∧
      index.latest? identity = some song.rawVersion) ∧
    (∀ identity, identity ∉ songs.map Song.identity → index.group? identity = none) ∧
    index.size = (songs.map Song.identity).dedup.length ∧
    (index.groups.map fun e => e.2.versions.length).sum = songs.length ∧
    (∀ song ∈ songs,
      (index.isLatest song ↔ index.latest? song.identity = some song.rawVersion)) ∧
    (∀ song ∈ songs, ∃ latest ∈ songs, latest.identity = song.identity ∧ index.isLatest latest) ∧
    (∀ a ∈ songs, ∀ b ∈ songs, a.identity = b.identity → index.isLatest a → index.isLatest b →
      a.rawVersion = b.rawVersion) ∧
    (∀ a ∈ songs, ∀ b ∈ songs, a.identity = b.identity → index.isLatest a →
      ¬a.versionComponents < b.versionComponents) := by
  intro index
  refine ⟨versions_ofSongs songs, fun _ => latest?_ofSongs, fun identity hmissing => ?_,
    size_ofSongs songs, sum_versions_ofSongs songs, fun _ => isLatest_iff, fun song hsong => ?_,
    fun a ha b hb hsame hlatest hlatest' => ?_, fun _ ha _ hb => not_lt_of_isLatest ha hb⟩
  · exact Assoc.find?_eq_none_iff.mpr (mt mem_keys_ofSongs.mp hmissing)
  · obtain ⟨highest, hfirst, hlatest⟩ := latest?_ofSongs (List.mem_map_of_mem hsong)
    obtain ⟨hmem, hsame⟩ := List.mem_filter.mp hfirst.mem
    have hsame := of_decide_eq_true hsame
    refine ⟨highest, hmem, hsame, (isLatest_iff hmem).mpr ?_⟩
    rw [hsame]
    exact hlatest
  · rw [isLatest_iff ha, hsame] at hlatest
    exact Option.some.inj (hlatest.symm.trans ((isLatest_iff hb).mp hlatest'))

end VersionIndex

end SongLibrary
