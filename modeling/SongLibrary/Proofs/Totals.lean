import SongLibrary.Proofs.Identity
import SongLibrary.Proofs.StableSort

/-!
# The statistics of a collection and of its parts

Every song is counted under its credits once, so the totals add up to the number of songs, and they
add up too when a collection is put together from two. What is counted without repetition is a
finite set, of identities or of pairs of a title and an artist. The set of a whole is the union of
those of its parts, which may have songs in common: it is as large as each of them at least, and as
large as both together at most.

None of this looks at the order of the songs, and the solo artists are sorted, so a collection in
another order has the same statistics.
-/

namespace SongLibrary

theorem identitiesOf_append (left right : List Song) :
    identitiesOf (left ++ right) = identitiesOf left ∪ identitiesOf right := by
  rw [identitiesOf, List.map_append, List.toFinset_append]
  rfl

theorem pairsOf_append (left right : List Song) :
    pairsOf (left ++ right) = pairsOf left ∪ pairsOf right := by
  rw [pairsOf, List.map_append, List.toFinset_append]
  rfl

theorem identitiesOf_perm {songs other : List Song} (h : songs.Perm other) :
    identitiesOf songs = identitiesOf other :=
  List.toFinset_eq_of_perm _ _ (h.map _)

theorem identitiesOf_filter_subset (songs : List Song) (p : Song → Bool) :
    identitiesOf (songs.filter p) ⊆ identitiesOf songs := by
  intro identity hidentity
  obtain ⟨song, hsong, rfl⟩ := List.mem_map.mp (List.mem_toFinset.mp hidentity)
  exact List.mem_toFinset.mpr (List.mem_map_of_mem (List.mem_of_mem_filter hsong))

theorem card_identitiesOf_le (songs : List Song) : (identitiesOf songs).card ≤ songs.length := by
  have hle := List.toFinset_card_le (songs.map Song.identity)
  rwa [List.length_map] at hle

/-- How many different things a whole has whose parts have `left` and `right` of them. -/
structure Unites (left right whole : Nat) : Prop where
  left_le : left ≤ whole
  right_le : right ≤ whole
  le_add : whole ≤ left + right

theorem unites_union {α : Type} [DecidableEq α] (s t : Finset α) :
    Unites s.card t.card (s ∪ t).card where
  left_le := Finset.card_le_card Finset.subset_union_left
  right_le := Finset.card_le_card Finset.subset_union_right
  le_add := Finset.card_union_le s t

/-! ## Counts -/

namespace Count

/-- The count of a whole made of two parts. -/
structure Joins (left right whole : Count) : Prop where
  total : whole.total = left.total + right.total
  unique : Unites left.unique right.unique whole.unique

theorem joins_of (left right : List Song) : (of left).Joins (of right) (of (left ++ right)) where
  total := List.length_append
  unique := by
    rw [unique_of, unique_of, unique_of, identitiesOf_append]
    exact unites_union _ _

theorem joins_filter (p : Song → Bool) (left right : List Song) :
    (of (left.filter p)).Joins (of (right.filter p)) (of ((left ++ right).filter p)) := by
  rw [List.filter_append]
  exact joins_of _ _

theorem of_perm {songs other : List Song} (h : songs.Perm other) : of songs = of other := by
  have hunique : (of songs).unique = (of other).unique := by
    rw [unique_of, unique_of, identitiesOf_perm h]
  rw [of, of, h.length_eq]
  exact congrArg (Count.mk other.length) hunique

theorem unique_le_total (songs : List Song) : (of songs).unique ≤ (of songs).total := by
  rw [unique_of]
  exact card_identitiesOf_le songs

theorem one_le_unique {songs : List Song} {song : Song} (h : song ∈ songs) :
    1 ≤ (of songs).unique := by
  rw [unique_of, Nat.succ_le_iff, Finset.card_pos]
  exact ⟨song.identity, List.mem_toFinset.mpr (List.mem_map_of_mem h)⟩

end Count

/-! ## Statistics -/

namespace Stats

variable {songs other left right : List Song}

/-- All counts of a collection: of each solo artist, of the collaborations and of the rest. -/
def counts (s : Stats) : List Count := s.solo.map Prod.snd ++ [s.collaborations, s.uncredited]

/-- The count of the songs of one artist alone. -/
def soloOf (s : Stats) (name : String) : Count := (s.solo.lookup name).getD ⟨0, 0⟩

/-- The statistics of a whole made of two parts. -/
structure Joins (left right whole : Stats) : Prop where
  songs : whole.songs = left.songs + right.songs
  withoutData : whole.withoutData = left.withoutData + right.withoutData
  titlesByArtist : Unites left.titlesByArtist right.titlesByArtist whole.titlesByArtist
  identities : Unites left.identities right.identities whole.identities
  solo : ∀ name, (left.soloOf name).Joins (right.soloOf name) (whole.soloOf name)
  soloArtists : ∀ name, name ∈ whole.solo.map Prod.fst ↔
    name ∈ left.solo.map Prod.fst ∨ name ∈ right.solo.map Prod.fst
  collaborations : left.collaborations.Joins right.collaborations whole.collaborations
  uncredited : left.uncredited.Joins right.uncredited whole.uncredited

theorem solo_of_fst (songs : List Song) : (of songs).solo.map Prod.fst = soloArtists songs := by
  simp [of_eq_byCredits, byCredits, Function.comp_def]

theorem soloOf_of (songs : List Song) (name : String) :
    (of songs).soloOf name = Count.of (songs.filter fun s => s.credits == [name]) := by
  rw [soloOf, of_eq_byCredits, byCredits]
  by_cases hname : name ∈ soloArtists songs
  · dsimp only
    rw [List.lookup_graph (fun name => Count.of (songs.filter fun s => s.credits == [name])) hname,
      Option.getD_some]
  · -- an artist without a solo song has no entry
    have hnone : songs.filter (fun s => s.credits == [name]) = [] := by
      refine List.filter_eq_nil_iff.mpr fun s hs hcredits => hname ?_
      exact mem_soloArtists.mpr ⟨s, hs, beq_iff_eq.mp hcredits⟩
    rw [hnone, List.lookup_eq_none_iff.mpr, Option.getD_none]
    · rfl
    · intro entry hentry
      obtain ⟨artist, hartist, rfl⟩ := List.mem_map.mp hentry
      exact bne_iff_ne.mpr (ne_of_mem_of_not_mem hartist hname).symm

/-- The order of the songs does not tell which artists come first. -/
theorem soloArtists_perm (h : songs.Perm other) : soloArtists songs = soloArtists other := by
  refine sorted_eq_soloArtists (List.nodup_dedup _) fun name => ?_
  have hname : name ∈ soloArtists songs ↔ ∃ s ∈ songs, s.credits = [name] := mem_soloArtists
  rw [soloArtists, List.mem_mergeSort] at hname
  simp only [hname, h.mem_iff]

/-- **A collection in another order has the same statistics.** -/
theorem of_perm (h : songs.Perm other) : of songs = of other := by
  have hcount : ∀ p : Song → Bool, Count.of (songs.filter p) = Count.of (other.filter p) :=
    fun p => Count.of_perm (h.filter p)
  have htitles : (of songs).titlesByArtist = (of other).titlesByArtist := by
    rw [titlesByArtist_of, titlesByArtist_of, pairsOf, pairsOf,
      List.toFinset_eq_of_perm _ _ (h.map _)]
  have hidentities : (of songs).identities = (of other).identities := by
    rw [identities_of, identities_of, identitiesOf_perm h]
  have hsolo : (of songs).solo = (of other).solo := by
    simp only [of_eq_byCredits, byCredits, hcount, soloArtists_perm h]
  rw [of_eq_byCredits, of_eq_byCredits] at htitles hidentities hsolo ⊢
  rw [byCredits, byCredits, Stats.mk.injEq]
  exact ⟨h.length_eq, (h.filter _).length_eq, htitles, hidentities, hsolo, hcount _, hcount _⟩

/-- **The statistics of a collection are made of those of two parts of it.** -/
theorem joins_of (left right : List Song) : (of left).Joins (of right) (of (left ++ right)) where
  songs := List.length_append
  withoutData := by
    simp only [of_eq_byCredits, byCredits, List.filter_append, List.length_append]
  titlesByArtist := by
    rw [titlesByArtist_of, titlesByArtist_of, titlesByArtist_of, pairsOf_append]
    exact unites_union _ _
  identities := by
    rw [identities_of, identities_of, identities_of, identitiesOf_append]
    exact unites_union _ _
  solo name := by
    rw [soloOf_of, soloOf_of, soloOf_of]
    exact Count.joins_filter _ left right
  soloArtists name := by
    rw [solo_of_fst, solo_of_fst, solo_of_fst, mem_soloArtists, mem_soloArtists, mem_soloArtists]
    simp only [List.mem_append, or_and_right, exists_or]
  collaborations := by
    simp only [of_eq_byCredits]
    exact Count.joins_filter _ left right
  uncredited := by
    simp only [of_eq_byCredits]
    exact Count.joins_filter _ left right

/-- The totals of all credits add up to the number of songs. -/
theorem sum_total (songs : List Song) :
    ((of songs).solo.map fun e => e.2.total).sum + (of songs).collaborations.total +
      (of songs).uncredited.total = songs.length := by
  rw [← sum_byCredits (f := List.length) fun p q hpq => ?_]
  · simp only [of_eq_byCredits, byCredits, List.map_map, Function.comp_def, Count.of]
  · have hp : ∀ c, (p c && (p c || q c)) = p c := fun c => by cases p c <;> rfl
    have hq : ∀ c, (!p c && (p c || q c)) = q c := fun c => by
      cases hc : p c with
      | true => exact (hpq c hc).symm
      | false => rfl
    rw [List.length_eq_length_filter_add fun s => p s.credits, List.filter_filter,
      List.filter_filter]
    simp only [hp, hq]

theorem exists_of_mem_counts {count : Count} (h : count ∈ (of songs).counts) :
    ∃ p, count = Count.of (songs.filter p) := by
  rw [of_eq_byCredits, counts, List.mem_append, List.mem_map] at h
  rcases h with ⟨entry, hentry, rfl⟩ | h
  · obtain ⟨name, -, rfl⟩ := List.mem_map.mp hentry
    exact ⟨_, rfl⟩
  · rcases List.mem_pair.mp h with rfl | rfl
    · exact ⟨_, rfl⟩
    · exact ⟨_, rfl⟩

/-- **Songs are conserved, whatever their order.** The totals of the solo artists, the
collaborations and the rest add up to the number of songs. No count has more identities than songs
or than the whole collection, and every solo artist has one at least. There are no more pairs of a
title and an artist than songs, nor more identities. The order of the songs does not matter, and
the statistics of two parts make those of the whole: totals add up, and of what is counted without
repetition the whole has no less than each part and no more than both. -/
theorem of_conserves (songs : List Song) :
    let stats := of songs
    stats.songs = songs.length ∧
    (stats.solo.map fun e => e.2.total).sum + stats.collaborations.total +
      stats.uncredited.total = stats.songs ∧
    (∀ count ∈ stats.counts, count.unique ≤ count.total ∧ count.unique ≤ stats.identities) ∧
    (∀ entry ∈ stats.solo, 1 ≤ entry.2.unique) ∧ (stats.solo.map Prod.fst).Nodup ∧
    stats.titlesByArtist ≤ stats.songs ∧ stats.identities ≤ stats.songs ∧
    (∀ other, songs.Perm other → of other = stats) ∧
    ∀ left right, songs.Perm (left ++ right) → (of left).Joins (of right) stats := by
  intro stats
  refine ⟨rfl, sum_total songs, fun count hcount => ?_, fun entry hentry => ?_, ?_, ?_, ?_,
    fun other hperm => (of_perm hperm).symm, fun left right hperm => ?_⟩
  · obtain ⟨p, rfl⟩ := exists_of_mem_counts hcount
    refine ⟨Count.unique_le_total _, ?_⟩
    rw [unique_of, identities_of]
    exact Finset.card_le_card (identitiesOf_filter_subset songs p)
  · rw [show stats = byCredits songs from of_eq_byCredits songs] at hentry
    obtain ⟨name, hname, rfl⟩ := List.mem_map.mp hentry
    obtain ⟨s, hs, hcredits⟩ := mem_soloArtists.mp hname
    exact Count.one_le_unique (List.mem_filter.mpr ⟨hs, beq_iff_eq.mpr hcredits⟩)
  · rw [solo_of_fst]
    exact nodup_soloArtists songs
  · have hle := List.toFinset_card_le (songs.map fun s => (s.title, s.artist))
    rw [List.length_map] at hle
    rw [titlesByArtist_of]
    exact hle
  · rw [identities_of]
    exact card_identitiesOf_le songs
  · rw [show stats = of (left ++ right) from of_perm hperm]
    exact joins_of left right

/-- Two versions of one song in two parts: both are counted, and the whole has one identity as each
of the parts has. -/
theorem of_conserves_versions :
    let first := ofTitle "A" "B" "1"
    let second := ofTitle "A" "B" "2"
    let both := ofTitle "A" "B & C" "1"
    let songs := [first, both, second]
    let count : Count := ⟨2, 1⟩
    ("B", count) ∈ (of songs).solo ∧ 1 ≤ count.unique ∧ count.unique ≤ (of songs).identities ∧
    songs.Perm ([first] ++ [second, both]) ∧ of [second, both, first] = of songs ∧
    ((of [first]).soloOf "B").Joins ((of [second, both]).soloOf "B") ((of songs).soloOf "B") := by
  intro first second both songs count
  have hsolo : ("B", count) ∈ (of songs).solo := by decide +kernel
  have hcount : count ∈ (of songs).counts :=
    List.mem_append_left _ (List.mem_map_of_mem (f := Prod.snd) hsolo)
  have hperm : songs.Perm ([first] ++ [second, both]) := (List.Perm.swap second both []).cons first
  have horder : songs.Perm [second, both, first] := hperm.trans List.perm_append_comm
  obtain ⟨-, -, hcounts, hsome, -, -, -, hany, hparts⟩ := of_conserves songs
  exact ⟨hsolo, hsome _ hsolo, (hcounts count hcount).2, hperm, hany _ horder,
    (hparts _ _ hperm).solo "B"⟩

end Stats

end SongLibrary
