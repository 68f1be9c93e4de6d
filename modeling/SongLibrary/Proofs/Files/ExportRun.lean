import SongLibrary.Proofs.Files.Export
import SongLibrary.Proofs.Files.Place

/-!
# What a run of exports leaves

Every song of a run is skipped, exported or reported, and the three counts say how many of each
there are. What becomes of a song depends on what the songs before it have left: a sidecar may stand
where a later one needs a folder, and a folder where a later one should be.

Whatever becomes of them, the sidecar of each song that was exported holds in the end the data of
the last song that was exported to its place, and no file lies anywhere else that did not lie there
before as it is.
-/

namespace SongLibrary

namespace FileTree.MoreFolders

/-- More folders are no other files. -/
theorem file_iff {t t' : FileTree} (h : MoreFolders t t') {l : Location} {f : File} :
    t'.entry? l = some (.file f) ↔ t.entry? l = some (.file f) := by
  rcases h.entries l with hsame | ⟨hnone, hfolder⟩
  · rw [hsame]
  · rw [hnone, hfolder]
    simp

end FileTree.MoreFolders

namespace Export

open FileTree

variable {root : Option Path} {folder : Path} {x : Export} {song : Song}
  {songs exported : List Song} {t t' t'' : FileTree} {f : File}

/-! ## What becomes of the songs -/

/-- The songs of a run with what becomes of each of them, from some point of the run on. -/
def outcomes (x : Export) (root : Option Path) (folder : Path) : List Song → List (Song × Outcome)
  | [] => []
  | song :: songs =>
    (song, x.outcome root folder song) :: (x.write root folder song).outcomes root folder songs

/-- The error that a song is reported with. -/
def Outcome.error? : Outcome → Option ExportError
  | .failed error => some error
  | _ => none

/-- The songs that have been exported. -/
def exportedOf (results : List (Song × Outcome)) : List Song :=
  (results.filter fun r => r.2 == .exported).map Prod.fst

@[simp] theorem exportedOf_skipped (song : Song) (results : List (Song × Outcome)) :
    exportedOf ((song, .skipped) :: results) = exportedOf results := rfl

@[simp] theorem exportedOf_exported (song : Song) (results : List (Song × Outcome)) :
    exportedOf ((song, .exported) :: results) = song :: exportedOf results := rfl

@[simp] theorem exportedOf_failed (song : Song) (error : ExportError)
    (results : List (Song × Outcome)) :
    exportedOf ((song, .failed error) :: results) = exportedOf results := rfl

theorem songs_of_outcomes (x : Export) (root : Option Path) (folder : Path) (songs : List Song) :
    (x.outcomes root folder songs).map Prod.fst = songs := by
  induction songs generalizing x with
  | nil => rfl
  | cons song songs ih => rw [outcomes, List.map_cons, ih]

theorem mem_of_mem_exportedOf (h : song ∈ exportedOf (x.outcomes root folder songs)) :
    song ∈ songs := by
  obtain ⟨r, hr, rfl⟩ := List.mem_map.mp h
  rw [← songs_of_outcomes x root folder songs]
  exact List.mem_map_of_mem (List.mem_filter.mp hr).1

/-- Just the songs without data are skipped. -/
theorem skipped_iff {r : Song × Outcome} (hr : r ∈ x.outcomes root folder songs) :
    r.2 = .skipped ↔ r.1.hasData = false := by
  induction songs generalizing x with
  | nil => exact absurd hr List.not_mem_nil
  | cons song songs ih =>
      rcases List.mem_cons.mp hr with rfl | hr
      · have hstep := write_step root folder x song
        generalize x.outcome root folder song = o at hstep ⊢
        generalize x.write root folder song = y at hstep
        cases hstep with
        | skipped hdata => simp [hdata]
        | exported hdata => simp [hdata]
        | failed hdata => simp [hdata]
      · exact ih hr

/-- The counts of a run, and how many songs they count. -/
structure Counts (songs : List Song) (results : List (Song × Outcome)) (x y : Export) : Prop where
  exported : y.exported = x.exported + (exportedOf results).length
  skipped : y.skipped = x.skipped + songs.countP fun s => !s.hasData
  errors : y.errors = x.errors ++ results.filterMap fun r => r.2.error?
  /-- Each song is counted once. -/
  total : y.exported + y.skipped + y.errors.length =
    x.exported + x.skipped + x.errors.length + songs.length

theorem counts_run (x : Export) (root : Option Path) (folder : Path) (songs : List Song) :
    Counts songs (x.outcomes root folder songs) x
      (songs.foldl (fun x song => x.write root folder song) x) := by
  induction songs generalizing x with
  | nil => exact ⟨rfl, rfl, (List.append_nil _).symm, rfl⟩
  | cons song songs ih =>
      have hrest := ih (x.write root folder song)
      have hstep := write_step root folder x song
      rw [outcomes, List.foldl_cons]
      generalize x.outcome root folder song = o at hstep ⊢
      generalize x.write root folder song = z at hstep hrest ⊢
      obtain ⟨hexported, hskipped, herrors, htotal⟩ := hrest
      cases hstep with
      | skipped hdata =>
          refine ⟨?_, ?_, ?_, ?_⟩
          · simpa using hexported
          · rw [hskipped, List.countP_cons_of_pos (by simp [hdata])]
            dsimp only
            omega
          · simpa [Outcome.error?] using herrors
          · rw [htotal, List.length_cons]
            dsimp only
            omega
      | exported hdata hwrite =>
          refine ⟨?_, ?_, ?_, ?_⟩
          · rw [hexported, exportedOf_exported, List.length_cons]
            dsimp only
            omega
          · rw [hskipped, List.countP_cons_of_neg (by simp [hdata])]
          · simpa [Outcome.error?] using herrors
          · rw [htotal, List.length_cons]
            dsimp only
            omega
      | failed hdata hwrite =>
          refine ⟨?_, ?_, ?_, ?_⟩
          · simpa using hexported
          · rw [hskipped, List.countP_cons_of_neg (by simp [hdata])]
          · simpa [Outcome.error?] using herrors
          · rw [htotal, List.length_cons, List.length_append, List.length_singleton]
            dsimp only
            omega

/-! ## What happens to the files -/

/-- The place of a sidecar. -/
def place (t : FileTree) (root : Option Path) (folder : Path) (song : Song) : Location :=
  t.origin (song.path.sidecar root folder) ++ (song.path.sidecar root folder).names

theorem place_congr (h : t'.start = t.start) : place t' root folder = place t root folder := by
  funext song
  rw [place, place, origin_eq h]

/-- What becomes of a tree when some songs have been exported, whatever has failed besides. -/
structure Faithful (root : Option Path) (folder : Path) (exported : List Song)
    (t t' : FileTree) : Prop where
  grows : Grows t t'
  /-- A file makes way for files only. -/
  file : ∀ l f, t.entry? l = some (.file f) → ∃ g, t'.entry? l = some (.file g)
  /-- Elsewhere there are the files that were there. -/
  frame : ∀ l, (∀ s ∈ exported, place t root folder s ≠ l) →
    ∀ f, t'.entry? l = some (.file f) ↔ t.entry? l = some (.file f)
  located : ∀ s ∈ exported, t'.locate (s.path.sidecar root folder) = .ok (place t root folder s)
  /-- The last song that has been exported to a place is the one whose data lies there. -/
  content : ∀ before last after, exported = before ++ last :: after →
    (∀ s ∈ after, place t root folder s ≠ place t root folder last) →
      ∃ f, t'.entry? (place t root folder last) = some (.file f) ∧
        f.bytes = Text.bytes (Json.object last.data).indented

namespace Faithful

theorem refl (root : Option Path) (folder : Path) (t : FileTree) : Faithful root folder [] t t where
  grows := ⟨fun _ => id, fun _ => id, rfl⟩
  file := fun _ f hf => ⟨f, hf⟩
  frame := fun _ _ _ => Iff.rfl
  located := fun _ hs => absurd hs List.not_mem_nil
  content := fun _ _ _ h => absurd h (by simp)

/-- Folders that are made first do not matter. -/
theorem of_moreFolders (hmore : MoreFolders t t') (h : Faithful root folder exported t' t'') :
    Faithful root folder exported t t'' := by
  obtain ⟨hgrows, hfile, hframe, hlocated, hcontent⟩ := h
  rw [place_congr hmore.start] at hframe hlocated hcontent
  exact ⟨hmore.grows.trans hgrows, fun l f hf => hfile l f (hmore.file_iff.mpr hf),
    fun l hl f => (hframe l hl f).trans hmore.file_iff, hlocated, hcontent⟩

/-- A sidecar that is written first stays, unless another song is exported to its place. -/
theorem of_filePut (hput : FilePut t t' (place t root folder song) f)
    (hl : t'.locate (song.path.sidecar root folder) = .ok (place t root folder song))
    (hbytes : f.bytes = Text.bytes (Json.object song.data).indented)
    (h : Faithful root folder exported t' t'') :
    Faithful root folder (song :: exported) t t'' := by
  obtain ⟨hgrows, hfile, hframe, hlocated, hcontent⟩ := h
  rw [place_congr hput.start] at hframe hlocated hcontent
  refine ⟨hput.grows.trans hgrows, fun l g hg => ?_, fun l hno g => ?_, fun s hs => ?_,
    fun before last after hsplit hlast => ?_⟩
  · by_cases hplace : l = place t root folder song
    · exact hfile l f (hplace ▸ hput.here)
    · exact hfile l g ((hput.elsewhere l hplace).trans hg)
  · have hplace : l ≠ place t root folder song := (hno song List.mem_cons_self).symm
    rw [hframe l (fun s hs => hno s (List.mem_cons_of_mem _ hs)), hput.elsewhere l hplace]
  · rcases List.mem_cons.mp hs with rfl | hs
    · exact hgrows.locate_ok hl
    · exact hlocated s hs
  · cases before with
    | nil =>
        -- nothing is exported to this place later on, so the frame of the rest keeps it
        obtain ⟨rfl, rfl⟩ := List.cons.inj hsplit
        exact ⟨f, (hframe _ hlast f).mpr hput.here, hbytes⟩
    | cons first before => exact hcontent before last after (List.cons.inj hsplit).2 hlast

end Faithful

/-- **A run of exports is faithful**, from wherever it is looked at. -/
theorem faithful_run (hfolder : folder.Downward) (hsongs : ∀ s ∈ songs, s.path.Downward)
    (x : Export) :
    Faithful root folder (exportedOf (x.outcomes root folder songs)) x.tree
      (songs.foldl (fun x song => x.write root folder song) x).tree := by
  induction songs generalizing x with
  | nil => exact .refl root folder x.tree
  | cons song songs ih =>
      -- the rest of the run starts from what the first song has left
      have hrest := ih (fun s hs => hsongs s (List.mem_cons_of_mem _ hs)) (x.write root folder song)
      have hstep := write_step root folder x song
      rw [outcomes, List.foldl_cons]
      generalize x.outcome root folder song = o at hstep ⊢
      generalize x.write root folder song = z at hstep hrest ⊢
      cases hstep with
      | skipped =>
          rw [exportedOf_skipped]
          exact hrest
      | failed _ hwrite =>
          rw [exportedOf_failed]
          exact hrest.of_moreFolders (writeAt_error hwrite)
      | exported _ hwrite =>
          obtain ⟨between, l, f, hmore, hput, hl, hbytes⟩ := writeAt_ok hwrite
          have hplace := location_of_sidecar (hsongs song List.mem_cons_self) hfolder hl hput.here
          rw [origin_eq hput.start] at hplace
          rw [hplace] at hput hl
          rw [exportedOf_exported]
          exact (hrest.of_filePut hput hl hbytes).of_moreFolders hmore

/--
**A run of exports accounts for every song, and its sidecars are faithful.**

Songs, root, export folder and tree are any, as long as the data can be read from a text and no path
leads up. Each song is exported, skipped or reported, and skipped if it has no data. The last song
that is exported to a place leaves a text there that is read as its data, values and order of keys,
and there is the sidecar of every other song that was exported to this place as well. Elsewhere no
file comes, goes or changes, and no file and no folder is removed.
-/
theorem run_faithful (t : FileTree) (root : Option Path) (folder : Path) (songs : List Song)
    (hdata : ∀ s ∈ songs, Json.Readable (.object s.data)) (hfolder : folder.Downward)
    (hsongs : ∀ s ∈ songs, s.path.Downward) :
    let x := run t root folder songs
    let results := outcomes ⟨t, 0, 0, []⟩ root folder songs
    let exported := exportedOf results
    results.map Prod.fst = songs ∧ (∀ r ∈ results, r.2 = .skipped ↔ r.1.hasData = false) ∧
    x.exported = exported.length ∧ x.skipped = songs.countP (fun s => !s.hasData) ∧
    x.errors = results.filterMap (fun r => r.2.error?) ∧
    x.exported + x.skipped + x.errors.length = songs.length ∧
    (∀ before last after, exported = before ++ last :: after →
      (∀ s ∈ after, place t root folder s ≠ place t root folder last) →
      ∀ s ∈ exported, place t root folder s = place t root folder last →
        ∃ text, x.tree.text (s.path.sidecar root folder) = .ok text ∧
          Json.ofChars? text.toList = some (.object last.data)) ∧
    (∀ l, (∀ s ∈ exported, place t root folder s ≠ l) →
      ∀ f, x.tree.entry? l = some (.file f) ↔ t.entry? l = some (.file f)) ∧
    (∀ l f, t.entry? l = some (.file f) → ∃ g, x.tree.entry? l = some (.file g)) ∧
    ∀ l, t.isFolder l = true → x.tree.isFolder l = true := by
  intro x results exported
  have hcounts := counts_run ⟨t, 0, 0, []⟩ root folder songs
  have hrun : Faithful root folder exported t x.tree :=
    faithful_run hfolder hsongs ⟨t, 0, 0, []⟩
  refine ⟨songs_of_outcomes _ root folder songs, fun _ => skipped_iff, ?_, ?_, ?_, ?_, ?_,
    hrun.frame, hrun.file, hrun.grows.folder⟩
  · exact hcounts.exported.trans (Nat.zero_add _)
  · exact hcounts.skipped.trans (Nat.zero_add _)
  · exact hcounts.errors
  · exact hcounts.total.trans (Nat.zero_add _)
  · intro before last after hsplit hlast s hs hplace
    obtain ⟨f, hf, hbytes⟩ := hrun.content before last after hsplit hlast
    have hlocate := hrun.located s hs
    rw [hplace] at hlocate
    have hmem : last ∈ exported := by
      rw [hsplit]
      exact List.mem_append_right _ List.mem_cons_self
    exact ⟨_, text_of_bytes hlocate hf hbytes,
      Json.ofChars?_indented (hdata last (mem_of_mem_exportedOf hmem))⟩

theorem readable_truth (p : Path) (value : Bool) :
    Json.Readable (.object (truth p value).data) := by
  refine Embedded.readable_object_iff.mpr ⟨List.nodup_singleton "t", fun e he => ?_⟩
  rw [List.mem_singleton.mp he]
  exact ⟨Nat.le_of_ble_eq_true rfl, trivial⟩

/-- Two songs with one sidecar, a song whose folder cannot be made as a file stands there, a song
whose sidecar cannot be written as a folder stands there, and a song without data. -/
theorem run_faithful_blocked :
    let f : File := ⟨[1], none, .given 1⟩
    let t : FileTree :=
      ⟨[(["out"], .folder), (["out", "b"], .file f), (["out", "d.json"], .folder)], 0, ["m"]⟩
    let songs : List Song := [truth ⟨"/m/a.MP3"⟩ true, truth ⟨"/m/b/c.mp3"⟩ true,
      truth ⟨"/m/d.mp3"⟩ true, ⟨⟨"/m/e.mp3"⟩, [], ""⟩, truth ⟨"/m/a.mp3"⟩ false]
    let x := run t (some ⟨"/m"⟩) ⟨"/out"⟩ songs
    (∀ s ∈ songs, Json.Readable (.object s.data)) ∧ Path.Downward ⟨"/out"⟩ ∧
    (∀ s ∈ songs, s.path.Downward) ∧ x.exported = 2 ∧ x.skipped = 1 ∧ x.errors.length = 2 ∧
    (∃ text, x.tree.text ⟨"/out/a.json"⟩ = .ok text ∧
      Json.ofChars? text.toList = some (.object [("t", .bool false)])) ∧
    x.tree.entry? ["out", "b"] = some (.file f) ∧ x.tree.isFolder ["out", "d.json"] = true := by
  intro f t songs x
  have hdata : ∀ s ∈ songs, Json.Readable (.object s.data) := by
    intro s hs
    simp only [songs, List.mem_cons, List.not_mem_nil, or_false] at hs
    rcases hs with rfl | rfl | rfl | rfl | rfl
    · exact readable_truth _ true
    · exact readable_truth _ true
    · exact readable_truth _ true
    · exact Embedded.readable_object_iff.mpr ⟨List.nodup_nil, by simp⟩
    · exact readable_truth _ false
  have hfolder : Path.Downward ⟨"/out"⟩ := by decide
  have hsongs : ∀ s ∈ songs, s.path.Downward := by decide
  obtain ⟨-, -, hexported, hskipped, -, htotal, hcontent, hframe, -, hfolders⟩ :=
    run_faithful t (some ⟨"/m"⟩) ⟨"/out"⟩ songs hdata hfolder hsongs
  have hpaths : (exportedOf (outcomes ⟨t, 0, 0, []⟩ (some ⟨"/m"⟩) ⟨"/out"⟩ songs)).map Song.path =
      [⟨"/m/a.MP3"⟩, ⟨"/m/a.mp3"⟩] := by decide +kernel
  obtain ⟨first, rest, hlist, hfirst, hrest⟩ := List.map_eq_cons_iff.mp hpaths
  obtain ⟨last, rfl, hlast⟩ := List.map_eq_singleton_iff.mp hrest
  have hmem : last ∈ songs := by
    have hlast : last ∈ exportedOf (outcomes ⟨t, 0, 0, []⟩ (some ⟨"/m"⟩) ⟨"/out"⟩ songs) := by
      rw [hlist]
      exact List.mem_cons_of_mem _ List.mem_cons_self
    exact mem_of_mem_exportedOf hlast
  rw [hlist] at hexported hcontent hframe
  have hdataLast : last.data = [("t", .bool false)] := by
    simp only [songs, List.mem_cons, List.not_mem_nil, or_false] at hmem
    rcases hmem with rfl | rfl | rfl | rfl | rfl
    · exact absurd hlast (by decide)
    · exact absurd hlast (by decide)
    · exact absurd hlast (by decide)
    · exact absurd hlast (by decide)
    · rfl
  have hplaces : ∀ s : Song, s ∈ [first, last] →
      place t (some ⟨"/m"⟩) ⟨"/out"⟩ s = ["out", "a.json"] := by
    intro s hs
    simp only [List.mem_cons, List.not_mem_nil, or_false] at hs
    rcases hs with rfl | rfl
    · rw [place, hfirst]
      decide +kernel
    · rw [place, hlast]
      decide +kernel
  have hcount : songs.countP (fun s => !s.hasData) = 1 := by decide
  have htwo : x.exported = 2 := hexported
  have hone : x.skipped = 1 := hskipped.trans hcount
  refine ⟨hdata, hfolder, hsongs, htwo, hone, ?_, ?_, ?_, hfolders _ (by decide)⟩
  · have hfive : x.exported + x.skipped + x.errors.length = 5 := htotal
    omega
  · obtain ⟨text, htext, hread⟩ := hcontent [first] last [] rfl (fun s hs => absurd hs (by simp))
      last (by simp) rfl
    have hsidecar : last.path.sidecar (some ⟨"/m"⟩) ⟨"/out"⟩ = ⟨"/out/a.json"⟩ := by
      rw [hlast]
      decide +kernel
    rw [hsidecar] at htext
    rw [hdataLast] at hread
    exact ⟨text, htext, hread⟩
  · refine (hframe _ (fun s hs => ?_) f).mpr (by decide)
    rw [hplaces s hs]
    decide

end Export

end SongLibrary
