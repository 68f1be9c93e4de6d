import SongLibrary.Proofs.Song.VersionText
import SongLibrary.Proofs.VersionIndex
import SongLibrary.Proofs.View.Sort

/-!
# Sorting by version

The level of the version knows the first component of a version and nothing else, so it ties where
the components may still differ. Where it does not tie it agrees with the order of components, as
long as the first component of the smaller key is one that a key can hold. One that is too large
has the key zero, and its song comes before songs that it outranks.
-/

namespace SongLibrary

/-- The level that puts songs with smaller versions first. -/
structure SortLevel.IsByVersion (level : SortLevel) : Prop where
  field : Field.ofName? level.field = some .version
  direction : level.direction = .ascending

/-- The first component of the version of a song is one that a key can hold. -/
def Song.HasVersionKey (song : Song) : Prop :=
  VersionText.leadingNumber song.rawVersion ≤ 9223372036854775807

namespace SortLevel

variable {level : SortLevel} {a b : Song}

theorem versionKey_eq (h : a.HasVersionKey) :
    versionKey a.rawVersion = VersionText.leadingNumber a.rawVersion := by
  rw [versionKey]
  exact if_pos h

theorem versionKey_eq_zero (h : ¬a.HasVersionKey) : versionKey a.rawVersion = 0 := by
  rw [versionKey]
  exact if_neg h

theorem IsByVersion.key_eq (h : level.IsByVersion) (a : Song) :
    level.key a = .int (versionKey a.rawVersion) := by
  rw [key, h.field]

theorem IsByVersion.before_iff (h : level.IsByVersion) :
    level.Before a b ↔ versionKey a.rawVersion < versionKey b.rawVersion := by
  rw [Before, h.direction]
  dsimp only
  rw [h.key_eq, h.key_eq]
  exact compare_lt_iff_lt

/-- The first components decide unless they are equal. -/
theorem versionComponents_lt
    (h : VersionText.leadingNumber a.rawVersion < VersionText.leadingNumber b.rawVersion) :
    a.versionComponents < b.versionComponents := by
  obtain ⟨rest, ha⟩ := VersionText.components_eq_cons a.rawVersion
  obtain ⟨rest', hb⟩ := VersionText.components_eq_cons b.rawVersion
  rw [Song.versionComponents, Song.versionComponents, ha, hb]
  exact List.cons_lt_cons_iff.mpr (Or.inl h)

/-- **A song that is put first has the smaller version, unless its key cannot hold it**, and then it
has the larger one. -/
theorem IsByVersion.lt_of_before (h : level.IsByVersion) (hbefore : level.Before a b) :
    (a.HasVersionKey → a.versionComponents < b.versionComponents) ∧
      (¬a.HasVersionKey → b.versionComponents < a.versionComponents) := by
  rw [h.before_iff] at hbefore
  -- the larger key is positive, so it is the first component of its version
  have hb : b.HasVersionKey := by
    by_contra hb
    rw [versionKey_eq_zero hb] at hbefore
    by_cases ha : a.HasVersionKey
    · rw [versionKey_eq ha] at hbefore
      omega
    · rw [versionKey_eq_zero ha] at hbefore
      omega
  rw [versionKey_eq hb] at hbefore
  constructor
  · intro ha
    rw [versionKey_eq ha] at hbefore
    exact versionComponents_lt (by omega)
  · intro ha
    rw [Song.HasVersionKey] at ha hb
    exact versionComponents_lt (by omega)

end SortLevel

/-- **Sorting by version is coarser than the order of versions, as far as keys hold them.** Of two
songs that the level does not tie, the one that is put first has the smaller components just if its
key can hold the first of them. So in a sorted list no song with such a key stands before one that
it outranks, unless the two have the same key. -/
theorem sortSongs_byVersion {α : Type} (song : α → Song) (rows : List α) {level : SortLevel}
    (h : level.IsByVersion) :
    (∀ a b, level.Before a b → (a.versionComponents < b.versionComponents ↔ a.HasVersionKey)) ∧
    (sortSongs song [level] rows).Pairwise fun a b =>
      (song a).HasVersionKey → ¬level.Ties (song a) (song b) →
        (song a).versionComponents < (song b).versionComponents := by
  constructor
  · intro a b hbefore
    obtain ⟨hfits, hexceeds⟩ := h.lt_of_before hbefore
    refine ⟨fun hlt => ?_, hfits⟩
    by_contra hkey
    exact List.lt_asymm hlt (hexceeds hkey)
  · refine (sortSongs_stable song [level] rows []).2.1.imp fun {a b} hab hkey hties => ?_
    rcases hab with ⟨higher, next, lower, hlevels, -, hbefore⟩ | htied
    · cases higher with
      | nil =>
          rw [← (List.cons.inj hlevels).1] at hbefore
          exact (h.lt_of_before hbefore).1 hkey
      | cons first higher => exact absurd (List.cons.inj hlevels).2 (by simp)
    · exact absurd (htied level (List.mem_singleton.mpr rfl)) hties

/-- The level of the version, and a song of a version. -/
def byVersion : SortLevel := ⟨"version", .ascending⟩

def ofVersion (version : String) : Song :=
  .ofJson ⟨"a.mp3"⟩ (.object [("Version", .string version)]) ""

theorem isByVersion_byVersion : byVersion.IsByVersion := ⟨by decide, rfl⟩

/-- `1.10` and `1.9` have one key. `2` has a larger one, and it outranks both. -/
theorem sortSongs_byVersion_ten :
    byVersion.key (ofVersion "1.10") = byVersion.key (ofVersion "1.9") ∧
    byVersion.Before (ofVersion "1.10") (ofVersion "2") ∧ (ofVersion "1.10").HasVersionKey ∧
    (ofVersion "1.10").versionComponents < (ofVersion "2").versionComponents := by
  have hkey : (ofVersion "1.10").HasVersionKey := by
    rw [Song.HasVersionKey]
    decide +kernel
  have hbefore : byVersion.Before (ofVersion "1.10") (ofVersion "2") :=
    isByVersion_byVersion.before_iff.mpr (by decide +kernel)
  refine ⟨by decide +kernel, hbefore, hkey, ?_⟩
  exact ((sortSongs_byVersion ofVersion [] isByVersion_byVersion).1 _ _ hbefore).mpr hkey

/-- A component of `2 ^ 63` has the key zero: its song stands before one that it outranks. -/
theorem sortSongs_byVersion_tooLarge :
    byVersion.Before (ofVersion "9223372036854775808") (ofVersion "1") ∧
    ¬(ofVersion "9223372036854775808").versionComponents < (ofVersion "1").versionComponents ∧
    (ofVersion "1").versionComponents < (ofVersion "9223372036854775808").versionComponents ∧
    sortSongs ofVersion [byVersion] ["9223372036854775808", "1"] =
      ["9223372036854775808", "1"] := by
  have hbefore : byVersion.Before (ofVersion "9223372036854775808") (ofVersion "1") :=
    isByVersion_byVersion.before_iff.mpr (by decide +kernel)
  refine ⟨hbefore, by decide +kernel, by decide +kernel, ?_⟩
  refine (stableSort_sortSongs ofVersion [byVersion] _).unique (.of_ordered ?_)
  have hlt : orderRows ofVersion [byVersion] "9223372036854775808" "1" = .lt :=
    orderSongs_eq_lt_iff.mpr ⟨[], byVersion, [], rfl, fun _ h => absurd h (by simp), hbefore⟩
  rw [List.pairwise_pair, hlt]
  rfl

end SongLibrary
