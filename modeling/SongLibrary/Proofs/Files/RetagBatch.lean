import SongLibrary.Files.Retag
import SongLibrary.Proofs.Files.Cache
import SongLibrary.Proofs.Files.TagWrites

/-!
# What a batch does, and what it leaves alone

A batch comes to one of three outcomes for each song, and which one can be told before it starts: a
song is written just if it has data and the tag of its file can be read. Neither changes while other
songs are written. So the whole run is the updates of the songs that are written, made of the songs
as they are given and stored one after the other, and each of the others adds its line to the
errors. The cache loses the paths of the songs that are written.

A file that two of the written songs share gets both updates, in their order, whatever the texts of
the two paths are. Where no file is shared, the order of the songs does not matter.
-/

namespace SongLibrary

/-! ## A cache without some paths -/

namespace Cache

/-- The cache without the entries under some keys. -/
def without (c : Cache) (keys : List (List Path.Component)) : Cache where
  capacity := c.capacity
  entries := c.entries.filter (fun e => !keys.contains e.1)
  queue := c.queue.filter (fun key => !(keys.contains key && (Assoc.keys c.entries).contains key))

theorem without_nil (c : Cache) : c.without [] = c := by
  simp [without]

/-- The keys that are left. -/
theorem keys_without (c : Cache) (keys : List (List Path.Component)) :
    Assoc.keys (c.without keys).entries =
      (Assoc.keys c.entries).filter (fun key => !keys.contains key) := by
  rw [without, Assoc.keys, Assoc.keys, List.filter_map]
  rfl

theorem invalidate_without (c : Cache) (keys : List (List Path.Component)) (p : Path) :
    (c.without keys).invalidate p = c.without (keys ++ [p.components]) := by
  have hfound : (Assoc.find? (c.without keys).entries p.components).isSome = true ↔
      p.components ∈ Assoc.keys c.entries ∧ p.components ∉ keys := by
    rw [Option.isSome_iff_ne_none, ne_eq, Assoc.find?_eq_none_iff, not_not, keys_without]
    simp
  rw [invalidate]
  by_cases h : p.components ∈ Assoc.keys c.entries ∧ p.components ∉ keys
  · rw [if_pos (hfound.mpr h), without, without, Assoc.erase, List.filter_filter,
      List.filter_filter]
    congr 1
    · exact List.filter_congr fun e _ => by simp [Bool.and_comm]
    · refine List.filter_congr fun key _ => ?_
      by_cases hkey : key = p.components
      · simp [hkey, h.1]
      · simp [hkey]
  · rw [if_neg (by rwa [hfound]), without, without]
    -- whoever is gone with the path was gone before
    have hgone : ∀ key ∈ Assoc.keys c.entries,
        (keys ++ [p.components]).contains key = keys.contains key := by
      intro key hkey
      by_cases hp : key = p.components
      · rw [hp] at hkey ⊢
        have hmem : p.components ∈ keys := not_not.mp fun hnot => h ⟨hkey, hnot⟩
        simp [hmem]
      · simp [hp]
    congr 1
    · refine List.filter_congr fun e he => ?_
      rw [hgone e.1 (List.mem_map.mpr ⟨e, he, rfl⟩)]
    · refine List.filter_congr fun key _ => ?_
      by_cases hkey : key ∈ Assoc.keys c.entries
      · rw [hgone key hkey]
      · simp [hkey]

end Cache

/-! ## The outcome of a song -/

namespace Retag

variable {t : FileTree} {cache : Option Cache} {preset : Preset} {policy : Policy}
  {index : VersionIndex} {songs : List Song} {r : Retag}

/-- Why a song is not written, if it is not: it has no data, or its file cannot be updated. -/
def refusal? (t : FileTree) (preset : Preset) (policy : Policy) (index : VersionIndex)
    (song : Song) : Option RetagError :=
  if song.hasData then
    match (t.updateTag song.path (preset.update policy song index)).2 with
    | .ok () => none
    | .error cause => some (.failed song.fileName cause)
  else some (.noData song.fileName)

/-- The songs that are written. -/
def writtenOf (t : FileTree) (preset : Preset) (policy : Policy) (index : VersionIndex)
    (songs : List Song) : List Song :=
  songs.filter (fun s => (refusal? t preset policy index s).isNone)

/-- What is written of a song. -/
def tagWrite (preset : Preset) (policy : Policy) (index : VersionIndex) (song : Song) : TagWrite :=
  ⟨song.path, preset.update policy song index⟩

/-- A song has the outcome that it would have had in the beginning. -/
theorem refusal?_of_written {t' : FileTree} {ws : List TagWrite} (h : t.Written ws t')
    (preset : Preset) (policy : Policy) (index : VersionIndex) (song : Song) :
    refusal? t' preset policy index song = refusal? t preset policy index song := by
  rw [refusal?, refusal?]
  rcases hnow : t'.updateTag song.path (preset.update policy song index) with ⟨t₁, cause | ⟨⟩⟩
  · obtain ⟨-, inner, hread, rfl⟩ := FileTree.updateTag_eq_error_iff.mp hnow
    have hbefore := (h.readTag_eq_error_iff song.path inner).mp hread
    rw [FileTree.updateTag_eq_error_iff.mpr ⟨rfl, inner, hbefore, rfl⟩]
  · rcases hbefore : t.updateTag song.path (preset.update policy song index) with ⟨t₂, cause | ⟨⟩⟩
    · obtain ⟨-, inner, hread, rfl⟩ := FileTree.updateTag_eq_error_iff.mp hbefore
      have hread' := (h.readTag_eq_error_iff song.path inner).mpr hread
      rw [FileTree.updateTag_eq_error_iff.mpr ⟨rfl, inner, hread', rfl⟩] at hnow
      exact absurd (Prod.mk.inj hnow).2 (by simp)
    · rfl

/-- A song that is not written leaves its error behind and changes nothing else. -/
theorem write_of_refusal {song : Song} {e : RetagError}
    (h : refusal? r.tree preset policy index song = some e) :
    r.write preset policy index song = { r with
      skipped := r.skipped + if song.hasData then 0 else 1
      errors := r.errors ++ [e] } := by
  rw [refusal?] at h
  cases hdata : song.hasData with
  | false =>
      rw [if_neg (by simp [hdata])] at h
      rw [write, if_neg (by simp [hdata]), Option.some.inj h]
      rfl
  | true =>
      rw [if_pos hdata] at h
      rw [write, if_pos hdata]
      rcases hupdate : r.tree.updateTag song.path (preset.update policy song index) with
        ⟨tree, cause | ⟨⟩⟩
      · rw [hupdate] at h
        dsimp only at h ⊢
        rw [(FileTree.updateTag_eq_error_iff.mp hupdate).1, Option.some.inj h]
        rfl
      · rw [hupdate] at h
        exact absurd h (by simp)

/-- A song that is written changes the tag of its file, and its path leaves the cache. -/
theorem write_of_none {song : Song} (h : refusal? r.tree preset policy index song = none) :
    song.hasData = true ∧ ∃ tree,
      r.tree.updateTag song.path (preset.update policy song index) = (tree, .ok ()) ∧
      r.write preset policy index song = { r with
        tree, cache := r.cache.map (·.invalidate song.path), written := r.written + 1 } := by
  rw [refusal?] at h
  cases hdata : song.hasData with
  | false => rw [if_neg (by simp [hdata])] at h; exact absurd h (by simp)
  | true =>
      rw [if_pos hdata] at h
      rcases hupdate : r.tree.updateTag song.path (preset.update policy song index) with
        ⟨tree, cause | ⟨⟩⟩
      · rw [hupdate] at h
        exact absurd h (by simp)
      · refine ⟨rfl, tree, rfl, ?_⟩
        rw [write, if_pos hdata, hupdate]

theorem writtenOf_concat_of_some (songs : List Song) {song : Song} {e : RetagError}
    (h : refusal? t preset policy index song = some e) :
    writtenOf t preset policy index (songs ++ [song]) = writtenOf t preset policy index songs := by
  rw [writtenOf, List.filter_append, List.filter_cons_of_neg (by simp [h]), List.filter_nil,
    List.append_nil]
  rfl

theorem writtenOf_concat_of_none (songs : List Song) {song : Song}
    (h : refusal? t preset policy index song = none) :
    writtenOf t preset policy index (songs ++ [song]) =
      writtenOf t preset policy index songs ++ [song] := by
  rw [writtenOf, List.filter_append, List.filter_cons_of_pos (by simp [h]), List.filter_nil]
  rfl

/-! ## Runs -/

/-- What is true of a run when some songs are done. -/
structure Accounts (t : FileTree) (cache : Option Cache) (preset : Preset) (policy : Policy)
    (index : VersionIndex) (done : List Song) (r : Retag) : Prop where
  written : r.written = (writtenOf t preset policy index done).length
  /-- Songs without data are skipped, and no others. -/
  skipped : r.skipped = done.countP (fun s => !s.hasData)
  /-- There is one error for each song that is not written, in their order. -/
  errors : r.errors = done.filterMap (refusal? t preset policy index)
  /-- The files are those that the updates of the written songs make, one after the other. -/
  tree : t.writeTags ((writtenOf t preset policy index done).map (tagWrite preset policy index)) =
    .ok r.tree
  /-- The cache has lost the paths of the written songs and nothing else. -/
  cache : r.cache = cache.map
    (·.without ((writtenOf t preset policy index done).map (·.path.components)))

theorem accounts_init : Accounts t cache preset policy index [] ⟨t, cache, 0, 0, []⟩ where
  written := rfl
  skipped := rfl
  errors := rfl
  tree := rfl
  cache := by cases cache <;> simp [writtenOf, Cache.without_nil]

/-- **One more song**, with the outcome that it would have had in the beginning. -/
theorem accounts_write (h : Accounts t cache preset policy index songs r) (song : Song) :
    Accounts t cache preset policy index (songs ++ [song]) (r.write preset policy index song) := by
  have hwritten := FileTree.written_of_writeTags h.tree
  have hbefore := refusal?_of_written hwritten preset policy index song
  cases hrefusal : refusal? t preset policy index song with
  | some e =>
      rw [write_of_refusal (hbefore.trans hrefusal)]
      have hsame := writtenOf_concat_of_some songs hrefusal
      refine ⟨?_, ?_, ?_, ?_, ?_⟩
      · rw [hsame]; exact h.written
      · rw [List.countP_append, ← h.skipped]
        cases hdata : song.hasData <;> simp [hdata]
      · rw [List.filterMap_append, ← h.errors]
        simp [hrefusal]
      · rw [hsame]; exact h.tree
      · rw [hsame]; exact h.cache
  | none =>
      obtain ⟨hdata, tree, hupdate, hwrite⟩ := write_of_none (hbefore.trans hrefusal)
      rw [hwrite]
      have hone := writtenOf_concat_of_none songs hrefusal
      refine ⟨?_, ?_, ?_, ?_, ?_⟩
      · rw [hone, List.length_append, ← h.written]; rfl
      · rw [List.countP_append, ← h.skipped]
        simp [hdata]
      · rw [List.filterMap_append, ← h.errors]
        simp [hrefusal]
      · rw [hone, List.map_append, List.map_singleton, FileTree.writeTags_concat, h.tree]
        exact FileTree.writeTag_eq_ok_iff.mpr hupdate
      · rw [hone, List.map_append, List.map_singleton, h.cache, Option.map_map]
        exact congrArg (Option.map · cache) (funext fun c => c.invalidate_without _ song.path)

/-- **What a run comes to.** -/
theorem accounts_run (t : FileTree) (cache : Option Cache) (preset : Preset) (policy : Policy)
    (index : VersionIndex) (songs : List Song) :
    Accounts t cache preset policy index songs (run t cache preset policy index songs) := by
  induction songs using List.reverseRecOn with
  | nil => exact accounts_init
  | append_singleton songs song ih =>
      rw [run_concat]
      exact accounts_write ih song

/-- **A file gets the updates of the written songs that lead to it**, in the order of the songs. -/
theorem updatesAt_writtenOf (l : Location) :
    t.updatesAt ((writtenOf t preset policy index songs).map (tagWrite preset policy index)) l =
      ((writtenOf t preset policy index songs).filter (fun s => t.locate s.path = .ok l)).map
        (preset.update policy · index) := by
  rw [FileTree.updatesAt, List.filter_map, List.map_map]
  rfl

theorem length_outcomes (songs : List Song) :
    (writtenOf t preset policy index songs).length +
      (songs.filterMap (refusal? t preset policy index)).length = songs.length := by
  induction songs with
  | nil => rfl
  | cons song songs ih =>
      rw [writtenOf] at ih ⊢
      cases hrefusal : refusal? t preset policy index song with
      | some e =>
          rw [List.filter_cons_of_neg (by simp [hrefusal]), List.filterMap_cons_some hrefusal,
            List.length_cons, List.length_cons, ← ih, Nat.add_assoc]
      | none =>
          rw [List.filter_cons_of_pos (by simp [hrefusal]), List.filterMap_cons_none hrefusal,
            List.length_cons, List.length_cons, ← ih, Nat.add_right_comm]

/-- Where the written songs share no file, each file gets the same in every order. -/
theorem undated_perm {songs' : List Song} {r' : Retag}
    (h : Accounts t cache preset policy index songs r)
    (h' : Accounts t cache preset policy index songs' r')
    (hapart : (writtenOf t preset policy index songs).Pairwise
      (fun s s' => t.locate s.path ≠ t.locate s'.path))
    (hperm : songs'.Perm songs) (l : Location) :
    (r'.tree.entry? l).map Entry.undated = (r.tree.entry? l).map Entry.undated := by
  have hwritten := FileTree.written_of_writeTags h.tree
  have hwritten' := FileTree.written_of_writeTags h'.tree
  have hsame : (writtenOf t preset policy index songs).Perm
      (writtenOf t preset policy index songs') :=
    hperm.symm.filter _
  have hapart' : ((writtenOf t preset policy index songs).map
      (tagWrite preset policy index)).Pairwise (fun w w' => t.locate w.path ≠ t.locate w'.path) :=
    List.pairwise_map.mpr hapart
  exact hwritten'.undated_eq hwritten
    (fun m => (FileTree.updatesAt_perm hapart' (hsame.map _) m).symm) l

/--
**A batch accounts for every song and touches nothing else.**

Every song is written or has its error, and those without data are skipped. No path comes to lead
elsewhere, and what no written song leads to stays as it is; so do the files of the songs that are
skipped or fail, unless a written song shares them. A file gets the updates of the written songs
that lead to it, in their order, each made of the song as it is given. If no two written songs share
a file, the songs may come in any order: the files come out the same but for the moments of the
changes, and so do the counts and the errors.
-/
theorem run_accounts (t : FileTree) (cache : Option Cache) (preset : Preset) (policy : Policy)
    (index : VersionIndex) (songs : List Song) :
    let r := run t cache preset policy index songs
    let written := writtenOf t preset policy index songs
    (r.written + r.errors.length = songs.length ∧ Accounts t cache preset policy index songs r) ∧
    (∀ q, r.tree.locate q = t.locate q) ∧
    (∀ l, (∀ s ∈ written, t.locate s.path ≠ .ok l) → r.tree.entry? l = t.entry? l) ∧
    (∀ l f, t.entry? l = some (.file f) → ∃ g now,
      ((written.filter (fun s => t.locate s.path = .ok l)).map
        (preset.update policy · index)).foldlM File.retag f = .ok g ∧
      r.tree.entry? l = some (.file { g with modified := now })) ∧
    (written.Pairwise (fun s s' => t.locate s.path ≠ t.locate s'.path) →
      ∀ songs', songs'.Perm songs →
        let r' := run t cache preset policy index songs'
        (∀ l, (r'.tree.entry? l).map Entry.undated = (r.tree.entry? l).map Entry.undated) ∧
        r'.written = r.written ∧ r'.skipped = r.skipped ∧ r'.errors.Perm r.errors) := by
  intro r written
  have haccounts := accounts_run t cache preset policy index songs
  have hwritten := FileTree.written_of_writeTags haccounts.tree
  refine ⟨⟨?_, haccounts⟩, hwritten.locate, fun l hl => ?_, fun l f hf => ?_,
    fun hapart songs' hperm => ?_⟩
  · rw [haccounts.written, haccounts.errors, length_outcomes]
  · refine hwritten.untouched l ?_
    rw [updatesAt_writtenOf, List.map_eq_nil_iff, List.filter_eq_nil_iff]
    exact fun s hs => by simpa using hl s hs
  · rw [← updatesAt_writtenOf]
    exact hwritten.file l f hf
  · have haccounts' := accounts_run t cache preset policy index songs'
    refine ⟨undated_perm haccounts haccounts' hapart hperm, ?_, ?_, ?_⟩
    · rw [haccounts.written, haccounts'.written]
      exact (hperm.filter _).length_eq
    · rw [haccounts.skipped, haccounts'.skipped]
      exact hperm.countP_eq _
    · rw [haccounts.errors, haccounts'.errors]
      exact hperm.filterMap _

/-- A song with a title. -/
def titled (path title : String) : Song := ⟨⟨path⟩, [("Title", .string title)], ""⟩

/-- Of four songs two are written, to files of their own, so the order does not matter. -/
theorem run_accounts_reversed :
    let t := FileTree.ofContents [("a.mp3", Text.bytes "one"), ("b.mp3", Text.bytes "two")]
    let songs := [titled "./a.mp3" "One", titled "gone.mp3" "Two", ⟨⟨"a.mp3"⟩, [], ""⟩,
      titled "/b.mp3" "Three"]
    let r := run t none .empty .stopAtFirstMatch .empty songs
    let r' := run t none .empty .stopAtFirstMatch .empty songs.reverse
    (writtenOf t .empty .stopAtFirstMatch .empty songs).Pairwise
      (fun s s' => t.locate s.path ≠ t.locate s'.path) ∧
    (r.written = 2 ∧ r.skipped = 1 ∧ r.errors = [.failed "gone.mp3"
      (.cannotUpdate ⟨"gone.mp3"⟩ (.file .noSuchFile)), .noData "a.mp3"]) ∧
    (r'.tree.entry? ["a.mp3"]).map Entry.undated = (r.tree.entry? ["a.mp3"]).map Entry.undated ∧
    r'.errors.Perm r.errors := by
  intro t songs r r'
  have hapart : (writtenOf t .empty .stopAtFirstMatch .empty songs).Pairwise
      (fun s s' => t.locate s.path ≠ t.locate s'.path) := by decide +kernel
  obtain ⟨hfiles, -, -, herrors⟩ := (run_accounts t none .empty .stopAtFirstMatch .empty
    songs).2.2.2.2 hapart songs.reverse songs.reverse_perm
  exact ⟨hapart, by decide +kernel, hfiles ["a.mp3"], herrors⟩

/-- Two paths to one file: the song that comes last decides what the file holds, although the paths
differ, and a song that is skipped finds its file changed. -/
theorem run_accounts_oneFile :
    let t := FileTree.ofContents [("a.mp3", Text.bytes "one")]
    let run := run t none .empty .stopAtFirstMatch .empty
    let both := [titled "./a.mp3" "One", titled "a.mp3" "Two"]
    let skipping := [titled "./a.mp3" "One", ⟨⟨"a.mp3"⟩, [], ""⟩]
    (both.Pairwise (fun s s' => s.path.components ≠ s'.path.components) ∧
      ((run both.reverse).tree.readTag ⟨"a.mp3"⟩).toOption ≠
        ((run both).tree.readTag ⟨"a.mp3"⟩).toOption) ∧
    skipping.Pairwise (fun s s' => s.path.components ≠ s'.path.components) ∧
      (run skipping).errors = [.noData "a.mp3"] ∧
      ((run skipping).tree.readTag ⟨"a.mp3"⟩).toOption ≠ (t.readTag ⟨"a.mp3"⟩).toOption := by
  decide +kernel

end Retag

end SongLibrary
