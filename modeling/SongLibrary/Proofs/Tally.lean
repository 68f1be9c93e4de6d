import SongLibrary.Stats
import SongLibrary.Proofs.Assoc
import SongLibrary.Proofs.StableSort
import Mathlib.Data.List.Dedup

/-!
# What a pass over songs gathers

The songs of a collection are put one by one into buckets, by whom they credit, and what is counted
without repetition into lists that take nothing twice. `Tally.Holds` says of all of these at once
what they hold after some songs; it is true of no songs, and one more song keeps it.

So the statistics are what the songs of each kind come to when they are looked at by themselves,
`Stats.of_eq_byCredits`, and nothing has to know of the pass.
-/

namespace SongLibrary

/-! ## What is gathered without repetition -/

/-- A list has just what is in another one, each once. -/
structure Gathers {α : Type} (xs all : List α) : Prop where
  nodup : xs.Nodup
  mem_iff : ∀ x, x ∈ xs ↔ x ∈ all

namespace Gathers

variable {α : Type} {xs all : List α}

theorem nil : Gathers ([] : List α) [] := ⟨List.nodup_nil, fun _ => Iff.rfl⟩

theorem insert [BEq α] [LawfulBEq α] (h : Gathers xs all) (x : α) :
    Gathers (xs.insert x) (all ++ [x]) where
  nodup := h.nodup.insert
  mem_iff y := by
    rw [List.mem_insert_iff, h.mem_iff, List.mem_append, List.mem_singleton, or_comm]

theorem length_eq [DecidableEq α] (h : Gathers xs all) : xs.length = all.dedup.length := by
  refine List.Perm.length_eq ((List.perm_ext_iff_of_nodup h.nodup (List.nodup_dedup all)).mpr ?_)
  intro x
  rw [h.mem_iff, List.mem_dedup]

end Gathers

/-! ## Buckets -/

/-- The count of some songs. -/
def Count.of (songs : List Song) : Count :=
  ⟨songs.length, (songs.map Song.identity).dedup.length⟩

namespace Bucket

variable {b : Bucket} {songs : List Song} {p : Song → Bool} {s : Song}

/-- A bucket holds just some songs. -/
structure Holds (b : Bucket) (songs : List Song) : Prop where
  total : b.total = songs.length
  identities : Gathers b.identities (songs.map Song.identity)

theorem holds_empty : empty.Holds [] := ⟨rfl, .nil⟩

theorem Holds.count_eq (h : b.Holds songs) : b.count = Count.of songs := by
  rw [count, Count.of, h.total, h.identities.length_eq]

/-- A song of its kind is put into a bucket. -/
theorem Holds.add (h : b.Holds (songs.filter p)) (hs : p s = true) :
    (b.add s).Holds ((songs ++ [s]).filter p) := by
  have hfilter : (songs ++ [s]).filter p = songs.filter p ++ [s] := by simp [hs]
  rw [hfilter]
  refine ⟨?_, ?_⟩
  · rw [Bucket.add, h.total, List.length_append, List.length_singleton]
  · rw [List.map_append]
    exact h.identities.insert s.identity

/-- A song of another kind is left out. -/
theorem Holds.skip (h : b.Holds (songs.filter p)) (hs : p s = false) :
    b.Holds ((songs ++ [s]).filter p) := by
  have hfilter : (songs ++ [s]).filter p = songs.filter p := by simp [hs]
  rw [hfilter]
  exact h

end Bucket

/-! ## Tallies -/

namespace Tally

variable {t : Tally} {songs : List Song}

/-- The buckets of a tally hold the songs of each kind. An artist has a bucket just if some song is
by this artist alone. -/
structure Credits (t : Tally) (songs : List Song) : Prop where
  distinct : (Assoc.keys t.solo).Nodup
  artists : ∀ name, name ∈ Assoc.keys t.solo ↔ ∃ s ∈ songs, s.credits = [name]
  solo : ∀ name, ((Assoc.find? t.solo name).getD .empty).Holds
    (songs.filter fun s => s.credits == [name])
  collaborations : t.collaborations.Holds (songs.filter fun s => 2 ≤ s.credits.length)
  uncredited : t.uncredited.Holds (songs.filter fun s => s.credits.isEmpty)

/-- **A song goes into the bucket of its kind**, and into no other. -/
theorem Credits.credit (h : t.Credits songs) (s : Song) :
    (t.credit s).Credits (songs ++ [s]) := by
  -- the artists have not changed, unless the song is by one artist alone
  have hartists : (∀ name, s.credits ≠ [name]) → ∀ name,
      name ∈ Assoc.keys t.solo ↔ ∃ other ∈ songs ++ [s], other.credits = [name] := by
    intro hother name
    rw [h.artists]
    simp [or_and_right, exists_or, hother]
  cases hcredits : s.credits with
  | nil =>
      rw [Tally.credit, hcredits]
      exact ⟨h.distinct, hartists (by simp [hcredits]), fun name => (h.solo name).skip
        (by simp [hcredits]), h.collaborations.skip (by simp [hcredits]),
        h.uncredited.add (by simp [hcredits])⟩
  | cons first rest =>
      cases rest with
      | nil =>
          rw [Tally.credit, hcredits]
          refine ⟨Assoc.nodup_keys_put h.distinct _ _, fun name => ?_, fun name => ?_,
            h.collaborations.skip (by simp [hcredits]), h.uncredited.skip (by simp [hcredits])⟩
          · rw [Assoc.mem_keys_put, h.artists]
            simp [or_and_right, exists_or, hcredits, eq_comm]
          · rw [Assoc.find?_put]
            by_cases hname : first = name
            · rw [if_pos hname, Option.getD_some, ← hname]
              exact (h.solo first).add (by simp [hcredits])
            · rw [if_neg hname]
              exact (h.solo name).skip (by simp [hcredits, hname])
      | cons second rest =>
          rw [Tally.credit, hcredits]
          exact ⟨h.distinct, hartists (by simp [hcredits]), fun name => (h.solo name).skip
            (by simp [hcredits]), h.collaborations.add (by simp [hcredits]),
            h.uncredited.skip (by simp [hcredits])⟩

/-- A tally holds what there is to be counted of some songs. -/
structure Holds (t : Tally) (songs : List Song) : Prop where
  withoutData : t.withoutData = (songs.filter fun s => !s.hasData).length
  pairs : Gathers t.pairs (songs.map fun s => (s.title, s.artist))
  identities : Gathers t.identities (songs.map Song.identity)
  credits : t.Credits songs

theorem holds_empty : empty.Holds [] where
  withoutData := rfl
  pairs := .nil
  identities := .nil
  credits := ⟨List.nodup_nil, by simp [empty, Assoc.keys], fun _ => Bucket.holds_empty,
    Bucket.holds_empty, Bucket.holds_empty⟩

/-- **One more song is counted.** -/
theorem Holds.add (h : t.Holds songs) (s : Song) : (t.add s).Holds (songs ++ [s]) where
  withoutData := by
    rw [Tally.add, h.withoutData]
    cases hdata : s.hasData <;> simp [hdata]
  pairs := by
    rw [List.map_append]
    exact h.pairs.insert (s.title, s.artist)
  identities := by
    rw [List.map_append]
    exact h.identities.insert s.identity
  credits :=
    let hcredit := h.credits.credit s
    ⟨hcredit.distinct, hcredit.artists, hcredit.solo, hcredit.collaborations, hcredit.uncredited⟩

/-- **A pass over some songs counts all of them.** -/
theorem holds_foldl (songs : List Song) : (songs.foldl Tally.add .empty).Holds songs := by
  induction songs using List.reverseRecOn with
  | nil => exact holds_empty
  | append_singleton songs s ih =>
      rw [List.foldl_append]
      exact ih.add s

end Tally

/-! ## Statistics without a pass -/

namespace Stats

variable {songs : List Song}

/-- The artists that are the only one credited by some song, in the order of characters. -/
def soloArtists (songs : List Song) : List String :=
  let names := songs.filterMap fun s =>
    match s.credits with
    | [name] => some name
    | _ => none
  names.dedup.mergeSort fun a b => compare a b != .gt

/-- The statistics of some songs, each count by itself. -/
def byCredits (songs : List Song) : Stats where
  songs := songs.length
  withoutData := (songs.filter fun s => !s.hasData).length
  titlesByArtist := (songs.map fun s => (s.title, s.artist)).dedup.length
  identities := (songs.map Song.identity).dedup.length
  solo := (soloArtists songs).map fun name =>
    (name, Count.of (songs.filter fun s => s.credits == [name]))
  collaborations := Count.of (songs.filter fun s => 2 ≤ s.credits.length)
  uncredited := Count.of (songs.filter fun s => s.credits.isEmpty)

theorem mem_soloArtists {name : String} :
    name ∈ soloArtists songs ↔ ∃ s ∈ songs, s.credits = [name] := by
  rw [soloArtists, List.mem_mergeSort, List.mem_dedup, List.mem_filterMap]
  refine exists_congr fun s => and_congr_right fun _ => ?_
  rcases s.credits with _ | ⟨first, _ | ⟨second, rest⟩⟩ <;> simp

theorem nodup_soloArtists (songs : List Song) : (soloArtists songs).Nodup :=
  (List.mergeSort_perm _ _).nodup_iff.mpr (List.nodup_dedup _)

/-- The solo artists are what any list of just these comes to when it is sorted. -/
theorem sorted_eq_soloArtists {names : List String} (hnodup : names.Nodup)
    (hnames : ∀ name, name ∈ names ↔ ∃ s ∈ songs, s.credits = [name]) :
    (names.mergeSort fun a b => compare a b != .gt) = soloArtists songs := by
  have hordered : ∀ names : List String,
      (names.mergeSort fun a b => compare a b != .gt).Pairwise fun a b => (compare a b).isLE :=
    fun names => (stableSort_mergeSort (compare : String → String → Ordering) names).ordered
  refine List.Perm.eq_of_pairwise (fun a b _ _ hab hba => ?_) (hordered _) (hordered _) ?_
  · exact Std.LawfulEqCmp.compare_eq_iff_eq.mp (Std.OrientedCmp.isLE_antisymm hab hba)
  · refine (List.mergeSort_perm _ _).trans ?_
    show names.Perm (soloArtists songs)
    rw [List.perm_ext_iff_of_nodup hnodup (nodup_soloArtists songs)]
    intro name
    rw [hnames, mem_soloArtists]

/-- The buckets of the solo artists, in the order of these. -/
theorem solo_of_credits {t : Tally} (h : t.Credits songs) :
    ((t.solo.map fun e => (e.1, e.2.count)).mergeSort fun a b => compare a.1 b.1 != .gt) =
      (byCredits songs).solo := by
  have hcounts : (t.solo.map fun e => (e.1, e.2.count)) = (Assoc.keys t.solo).map fun name =>
      (name, Count.of (songs.filter fun s => s.credits == [name])) := by
    rw [Assoc.keys, List.map_map]
    refine List.map_congr_left fun e he => ?_
    have hbucket := h.solo e.1
    rw [Assoc.find?_of_mem h.distinct he, Option.getD_some] at hbucket
    rw [Function.comp_apply, hbucket.count_eq]
  rw [hcounts, byCredits, ← sorted_eq_soloArtists h.distinct h.artists]
  refine (List.map_mergeSort ?_).symm
  exact fun _ _ _ _ => rfl

/-- **The statistics count the songs of each kind.** -/
theorem of_eq_byCredits (songs : List Song) : of songs = byCredits songs := by
  have h := Tally.holds_foldl songs
  rw [of, h.withoutData, h.pairs.length_eq, h.identities.length_eq, solo_of_credits h.credits,
    h.credits.collaborations.count_eq, h.credits.uncredited.count_eq]
  rfl

end Stats

end SongLibrary
