import SongLibrary.Files.FrameReader
import SongLibrary.Proofs.Files.Scan
import SongLibrary.Proofs.Files.Truthful
import SongLibrary.Proofs.Json.Indented
import Mathlib.Data.List.Dedup

/-!
# Exporting a library

A run writes one sidecar after the other. It makes the folders that are missing, and a file that is
written takes the place of the one that was there. So what a sidecar holds in the end is the data
of the last song that was written to it, and as long as there are no twins among the songs with data
that is the data of its own song.
-/

namespace SongLibrary

namespace FileTree

variable {t t' : FileTree} {p : Path} {l m : Location} {f : File}

/-! ## More folders -/

/-- A tree differs from another one by folders where nothing has been. -/
structure MoreFolders (t t' : FileTree) : Prop where
  start : t'.start = t.start
  entries : ∀ l, t'.entry? l = t.entry? l ∨ (t.entry? l = none ∧ t'.entry? l = some .folder)

namespace MoreFolders

theorem refl (t : FileTree) : MoreFolders t t := ⟨rfl, fun _ => Or.inl rfl⟩

theorem trans {t'' : FileTree} (h : MoreFolders t t') (h' : MoreFolders t' t'') :
    MoreFolders t t'' := by
  refine ⟨h'.start.trans h.start, fun l => ?_⟩
  rcases h'.entries l with hsame | ⟨hnone, hnew⟩
  · rw [hsame]
    exact h.entries l
  · rcases h.entries l with hsame | ⟨-, hfolder⟩
    · exact Or.inr ⟨hsame ▸ hnone, hnew⟩
    · rw [hfolder] at hnone
      exact absurd hnone (by simp)

theorem entry?_eq (h : MoreFolders t t') (hl : (t.entry? l).isSome = true) :
    t'.entry? l = t.entry? l := by
  rcases h.entries l with hsame | ⟨hnone, -⟩
  · exact hsame
  · rw [hnone] at hl
    exact Bool.noConfusion hl

theorem grows (h : MoreFolders t t') : Grows t t' where
  start := h.start
  folder := by
    intro l hl
    rw [isFolder, h.entry?_eq (isSome_of_isFolder hl)]
    exact hl
  entry := by
    intro l hl
    rw [h.entry?_eq hl]
    exact hl

theorem of_makeFolder (h : t.makeFolder p = .ok t') : MoreFolders t t' := by
  obtain ⟨l, hvacant, rfl, -, -⟩ := makeFolder_cases h
  have hl : l ≠ [] := by
    rintro rfl
    exact absurd hvacant (by simp [ entry?])
  refine ⟨rfl, fun m => ?_⟩
  rw [ entry?_put hl]
  by_cases hm : m = l
  · rw [if_pos hm, hm]
    exact Or.inr ⟨hvacant, rfl⟩
  · rw [if_neg hm]
    exact Or.inl rfl

/-- **Making a folder and those it lies in changes nothing else**, whether that succeeds or not. -/
theorem of_makeFolders (t : FileTree) (p : Path) : MoreFolders t (t.makeFolders p).1 := by
  have hfrom : ∀ (paths : List Path) (t : FileTree), MoreFolders t (t.makeFoldersFrom paths).1 := by
    intro paths
    induction paths with
    | nil => exact fun t => refl t
    | cons p outer ih =>
        intro t
        rw [makeFoldersFrom]
        split
        · exact refl t
        split
        · rename_i hmade
          exact of_makeFolder hmade
        · have houter := ih t
          split
          · rename_i heq
            rw [heq] at houter
            exact houter
          · rename_i heq
            rw [heq] at houter
            split
            · rename_i hmade
              exact houter.trans (of_makeFolder hmade)
            · exact houter
        · exact refl t
  exact hfrom _ t

end MoreFolders

end FileTree

namespace Export

variable {t t' : FileTree} {p folder : Path} {text : String}

/-! ## One sidecar -/

/-- A text that is written is put at the location of its path, after folders have been made. -/
theorem writeAt_ok (h : writeAt t p text = (t', .ok ())) :
    ∃ between l f, FileTree.MoreFolders t between ∧ FileTree.FilePut between t' l f ∧
      t'.locate p = .ok l ∧ f.bytes = Text.bytes text := by
  unfold writeAt at h
  dsimp only at h
  have hmore := FileTree.MoreFolders.of_makeFolders t (p.parent?.getD ⟨""⟩)
  split at h
  · exact absurd (Prod.mk.inj h).2 (by simp)
  rename_i between hmade
  rw [hmade] at hmore
  split at h
  · exact absurd (Prod.mk.inj h).2 (by simp)
  rename_i after hwrite
  obtain rfl := (Prod.mk.inj h).1
  obtain ⟨l, f, hput, hl, hbytes⟩ := FileTree.writeText_cases hwrite
  exact ⟨between, l, f, hmore, hput, hl, hbytes⟩

/-- A text that cannot be written leaves some folders behind, if anything. -/
theorem writeAt_error {cause : SongFileError} (h : writeAt t p text = (t', .error cause)) :
    FileTree.MoreFolders t t' := by
  unfold writeAt at h
  dsimp only at h
  have hmore := FileTree.MoreFolders.of_makeFolders t (p.parent?.getD ⟨""⟩)
  split at h
  · rename_i hmade
    rw [hmade, (Prod.mk.inj h).1] at hmore
    exact hmore
  rename_i hmade
  rw [hmade] at hmore
  split at h
  · rw [(Prod.mk.inj h).1] at hmore
    exact hmore
  · exact absurd (Prod.mk.inj h).2 (by simp)

/-! ## One song -/

/-- What becomes of a song in a run. -/
inductive Outcome where
  /-- There is nothing to export. -/
  | skipped
  | exported
  | failed (error : ExportError)
  deriving DecidableEq

/-- What becomes of the next song of a run. -/
def outcome (x : Export) (root : Option Path) (folder : Path) (song : Song) : Outcome :=
  if song.hasData then
    match (writeAt x.tree (song.path.sidecar root folder) (Json.object song.data).indented).2 with
    | .ok () => .exported
    | .error cause => .failed ⟨song.fileName, cause⟩
  else .skipped

/-- What one song does to a run. -/
inductive Step (root : Option Path) (folder : Path) (x : Export) (song : Song) :
    Outcome → Export → Prop where
  | skipped : song.hasData = false → Step root folder x song .skipped
      { x with skipped := x.skipped + 1 }
  | exported {t : FileTree} : song.hasData = true →
      writeAt x.tree (song.path.sidecar root folder) (Json.object song.data).indented =
        (t, .ok ()) →
      Step root folder x song .exported { x with tree := t, exported := x.exported + 1 }
  | failed {t : FileTree} {cause : SongFileError} : song.hasData = true →
      writeAt x.tree (song.path.sidecar root folder) (Json.object song.data).indented =
        (t, .error cause) →
      Step root folder x song (.failed ⟨song.fileName, cause⟩)
        { x with tree := t, errors := x.errors ++ [⟨song.fileName, cause⟩] }

/-- A song is skipped, exported or reported. -/
theorem write_step (root : Option Path) (folder : Path) (x : Export) (song : Song) :
    Step root folder x song (x.outcome root folder song) (x.write root folder song) := by
  rw [outcome, write]
  cases hdata : song.hasData with
  | false => exact .skipped hdata
  | true =>
      rw [if_pos rfl, if_pos rfl]
      rcases hwrite : writeAt x.tree (song.path.sidecar root folder)
        (Json.object song.data).indented with ⟨t, cause | ⟨⟩⟩
      · exact .failed hdata hwrite
      · exact .exported hdata hwrite

/-! ## A run -/

/-- What is true of a run when some songs are done. The log holds the songs that have been exported
with the locations of their sidecars, the last one first. -/
structure Logged (root : Option Path) (folder : Path) (done : List Song)
    (log : Assoc Location Song) (x : Export) : Prop where
  exported : x.exported = log.length
  /-- Without errors all songs with data have been exported. -/
  complete : x.errors = [] → log.map Prod.snd = (done.filter Song.hasData).reverse
  /-- The sidecar of each song is found where it was put. -/
  located : ∀ e ∈ log, x.tree.locate (e.2.path.sidecar root folder) = .ok e.1
  /-- What lies there is the data of the last song that was exported to this location. -/
  content : ∀ l song, Assoc.find? log l = some song → ∃ f, x.tree.entry? l = some (.file f) ∧
    f.bytes = Text.bytes (Json.object song.data).indented

variable {root : Option Path} {done : List Song} {log : Assoc Location Song} {x : Export}
  {song : Song}

theorem logged_init (t : FileTree) (root : Option Path) (folder : Path) :
    Logged root folder [] [] ⟨t, 0, 0, []⟩ where
  exported := rfl
  complete := fun _ => rfl
  located := fun _ he => absurd he List.not_mem_nil
  content := fun _ _ h => absurd h (by simp [Assoc.find?])

/-- More folders leave the sidecars alone. -/
theorem Logged.moreFolders (h : Logged root folder done log x)
    (hmore : FileTree.MoreFolders x.tree t) :
    (∀ e ∈ log, t.locate (e.2.path.sidecar root folder) = .ok e.1) ∧
    (∀ l song, Assoc.find? log l = some song → ∃ f, t.entry? l = some (.file f) ∧
      f.bytes = Text.bytes (Json.object song.data).indented) := by
  refine ⟨fun e he => hmore.grows.locate_ok (h.located e he), fun l song hsong => ?_⟩
  obtain ⟨f, hf, hbytes⟩ := h.content l song hsong
  exact ⟨f, by rw [hmore.entry?_eq (by rw [hf]; rfl), hf], hbytes⟩

/-- **Exporting one more song keeps the log.** -/
theorem logged_write (h : Logged root folder done log x) (song : Song) :
    ∃ log', Logged root folder (done ++ [song]) log' (x.write root folder song) := by
  have hstep := write_step root folder x song
  generalize x.outcome root folder song = o at hstep
  generalize x.write root folder song = y at hstep ⊢
  cases hstep with
  | skipped hdata =>
      have hdone : (done ++ [song]).filter Song.hasData = done.filter Song.hasData := by
        simp [hdata]
      exact ⟨log, h.exported, fun herrors => by rw [hdone]; exact h.complete herrors, h.located,
        h.content⟩
  | exported hdata hwrite =>
      obtain ⟨between, l, f, hmore, hput, hl, hbytes⟩ := writeAt_ok hwrite
      obtain ⟨hlocated, hcontent⟩ := h.moreFolders hmore
      refine ⟨(l, song) :: log, ?_, fun herrors => ?_, fun e he => ?_, fun m last hlast => ?_⟩
      · show x.exported + 1 = log.length + 1
        rw [h.exported]
      · rw [List.map_cons, h.complete herrors, List.filter_append, List.reverse_append]
        simp [hdata]
      · rcases List.mem_cons.mp he with rfl | he
        · exact hl
        · exact hput.grows.locate_ok (hlocated e he)
      · by_cases hm : l = m
        · -- the song takes the place of the one that was exported there before
          rw [Assoc.find?, if_pos hm] at hlast
          obtain rfl := Option.some.inj hlast
          exact ⟨f, hm ▸ hput.here, hbytes⟩
        · rw [Assoc.find?, if_neg hm] at hlast
          obtain ⟨g, hg, hgbytes⟩ := hcontent m last hlast
          exact ⟨g, by rw [hput.elsewhere m (Ne.symm hm), hg], hgbytes⟩
  | failed hdata hwrite =>
      obtain ⟨hlocated, hcontent⟩ := h.moreFolders (writeAt_error hwrite)
      exact ⟨log, h.exported, fun herrors => absurd herrors (by simp), hlocated, hcontent⟩

theorem logged_run (t : FileTree) (root : Option Path) (folder : Path) (songs : List Song) :
    ∃ log, Logged root folder songs log (run t root folder songs) := by
  induction songs using List.reverseRecOn with
  | nil => exact ⟨[], logged_init t root folder⟩
  | append_singleton songs song ih =>
      obtain ⟨log, h⟩ := ih
      rw [run_concat]
      exact logged_write h song

theorem Logged.file (h : Logged root folder done log x) {e : Location × Song} (he : e ∈ log) :
    ∃ f, x.tree.entry? e.1 = some (.file f) := by
  have hkey : e.1 ∈ Assoc.keys log := List.mem_map_of_mem he
  obtain ⟨song, hsong⟩ := Option.ne_none_iff_exists'.mp (mt Assoc.find?_eq_none_iff.mp (by simpa))
  obtain ⟨f, hf, -⟩ := h.content e.1 song hsong
  exact ⟨f, hf⟩

/-- Without errors, every song with data has a sidecar. -/
theorem Logged.mem (h : Logged root folder done log x) (herrors : x.errors = [])
    (hsong : song ∈ done) (hdata : song.hasData = true) : ∃ l, (l, song) ∈ log := by
  have hmem : song ∈ log.map Prod.snd := by
    rw [h.complete herrors]
    simp [hsong, hdata]
  obtain ⟨⟨l, s⟩, he, rfl⟩ := List.mem_map.mp hmem
  exact ⟨l, he⟩

theorem Logged.sidecar (h : Logged root folder done log x) (herrors : x.errors = [])
    (hsong : song ∈ done) (hdata : song.hasData = true) :
    ∃ l f, x.tree.locate (song.path.sidecar root folder) = .ok l ∧
      x.tree.entry? l = some (.file f) := by
  obtain ⟨l, hl⟩ := h.mem herrors hsong hdata
  obtain ⟨f, hf⟩ := h.file hl
  exact ⟨l, f, h.located (l, song) hl, hf⟩

/-! ## Whole libraries -/

/-- The data of a song that has been loaded can be read. -/
theorem readable_songOf {reader : AudioReader} {p : Path}
    (hdata : (t.songOf reader p).hasData = true) :
    Json.Readable (.object (t.songOf reader p).data) := by
  rw [FileTree.songOf] at hdata ⊢
  cases hembedded : t.embedded reader p with
  | error cause =>
      rw [hembedded] at hdata
      exact absurd hdata (by simp [Song.ofEmbedded, Song.hasData])
  | ok data =>
      rw [hembedded] at hdata
      cases data with
      | none => exact absurd hdata (by simp [Song.ofEmbedded, Song.hasData])
      | some e =>
          obtain ⟨texts, htexts⟩ := FileTree.texts_of_embedded hembedded
          exact (Embedded.restorable_of_ofTexts? htexts).data

/-- No two songs with data are twins. -/
def NoTwins (songs : List Song) : Prop :=
  ∀ s ∈ songs, ∀ s' ∈ songs, s.hasData = true → s'.hasData = true →
    s.path.Twins s'.path → s = s'

section

variable {root folder : Path} {paths : List Path} {s s' : Song}

/-- **Two songs of a scanned library have one sidecar just if they are twins.** -/
theorem Logged.locate_eq_iff (h : Logged (some root) folder done log x) (herrors : x.errors = [])
    (ht : t.WellFormed) (hscan : t.songFiles root true = .ok paths)
    (hpaths : ∀ s ∈ done, s.path ∈ paths) (hs : s ∈ done) (hs' : s' ∈ done)
    (hdata : s.hasData = true) (hdata' : s'.hasData = true) :
    x.tree.locate (s.path.sidecar (some root) folder) =
      x.tree.locate (s'.path.sidecar (some root) folder) ↔ s.path.Twins s'.path := by
  obtain ⟨⟨l₀, hl₀⟩, -, hbelow⟩ := FileTree.songFiles_cases ht hscan
  obtain ⟨inner, name, hsong⟩ := hbelow _ (hpaths s hs)
  obtain ⟨inner', name', hsong'⟩ := hbelow _ (hpaths s' hs')
  obtain ⟨l, f, hl, hf⟩ := h.sidecar herrors hs hdata
  obtain ⟨l', f', hl', hf'⟩ := h.sidecar herrors hs' hdata'
  rw [hl, hl', Except.ok.injEq]
  exact FileTree.sidecars_eq_iff (FileTree.text_ne_empty hl₀) hsong hsong' hl hf hl' hf'

/-- **There are as many sidecars as songs have been exported just if there are no twins.** -/
theorem Logged.length_dedup_iff (h : Logged (some root) folder done log x)
    (herrors : x.errors = []) (ht : t.WellFormed) (hscan : t.songFiles root true = .ok paths)
    (hpaths : ∀ s ∈ done, s.path ∈ paths) (hdone : done.Nodup) :
    ((done.filter Song.hasData).map
      fun s => x.tree.locate (s.path.sidecar (some root) folder)).dedup.length = x.exported ↔
        NoTwins done := by
  have hexported : x.exported = (done.filter Song.hasData).length := by
    have hlength := congrArg List.length (h.complete herrors)
    rw [List.length_map, List.length_reverse] at hlength
    rw [h.exported, hlength]
  have hnodup : ∀ places : List (Except FileError Location),
      places.dedup.length = places.length ↔ places.Nodup := fun places =>
    ⟨fun hlength => List.dedup_eq_self.mp ((List.dedup_sublist places).eq_of_length hlength),
      fun hplaces => by rw [List.dedup_eq_self.mpr hplaces]⟩
  have hdistinct : (done.filter Song.hasData).Nodup :=
    List.Pairwise.sublist List.filter_sublist hdone
  rw [hexported, ← List.length_map (f := fun s : Song =>
    x.tree.locate (s.path.sidecar (some root) folder)), hnodup, List.nodup_map_iff_inj_on hdistinct]
  constructor
  · intro hinj s hs s' hs' hdata hdata' htwins
    refine hinj s (List.mem_filter.mpr ⟨hs, hdata⟩) s' (List.mem_filter.mpr ⟨hs', hdata'⟩) ?_
    exact (h.locate_eq_iff herrors ht hscan hpaths hs hs' hdata hdata').mpr htwins
  · intro hno s hs s' hs' hsame
    obtain ⟨hs, hdata⟩ := List.mem_filter.mp hs
    obtain ⟨hs', hdata'⟩ := List.mem_filter.mp hs'
    exact hno s hs s' hs' hdata hdata'
      ((h.locate_eq_iff herrors ht hscan hpaths hs hs' hdata hdata').mp hsame)

/-- **The sidecar of a song without a twin holds the data of the song.** -/
theorem Logged.text_eq (h : Logged (some root) folder done log x) (herrors : x.errors = [])
    (ht : t.WellFormed) (hscan : t.songFiles root true = .ok paths)
    (hpaths : ∀ s ∈ done, s.path ∈ paths) (hs : s ∈ done) (hdata : s.hasData = true)
    (honly : ∀ s' ∈ done, s'.hasData = true → s.path.Twins s'.path → s' = s) :
    x.tree.text (s.path.sidecar (some root) folder) = .ok (Json.object s.data).indented := by
  obtain ⟨l, hl⟩ := h.mem herrors hs hdata
  have hkey : l ∈ Assoc.keys log := List.mem_map_of_mem hl
  obtain ⟨last, hlast⟩ := Option.ne_none_iff_exists'.mp (mt Assoc.find?_eq_none_iff.mp (by simpa))
  obtain ⟨f, hf, hbytes⟩ := h.content l last hlast
  have hmem := Assoc.mem_of_find? hlast
  -- the last song that was exported to this location is a twin, so it is the song itself
  have hsong : last = s := by
    have hlog : last ∈ log.map Prod.snd := List.mem_map_of_mem hmem
    rw [h.complete herrors, List.mem_reverse] at hlog
    obtain ⟨hdone, hlastData⟩ := List.mem_filter.mp hlog
    refine honly last hdone hlastData ?_
    rw [← h.locate_eq_iff herrors ht hscan hpaths hs hdone hdata hlastData,
      h.located (l, s) hl, h.located (l, last) hmem]
  rw [hsong] at hbytes
  exact FileTree.text_of_bytes (h.located (l, s) hl) hf hbytes

end

/--
**Exporting a scanned library loses no song but for twins.**

All song files below a folder are loaded, with any cache that is truthful about them, and exported
to any folder without an error. Then two songs with data have one sidecar just if they are twins:
they lie in one folder, and their names differ in their extensions alone. There are as many sidecars
as songs have been exported just if no two songs with data are twins. The sidecar of a song that has
no twin holds the data of this song.
-/
theorem run_losesNone (t : FileTree) (reader : AudioReader) (cache : Cache) (root folder : Path)
    (paths : List Path) (ht : t.WellFormed) (hscan : t.songFiles root true = .ok paths)
    (hcache : cache.Truthful t reader paths) :
    let songs := (t.loadAll reader cache paths).1.songs
    let x := run t (some root) folder songs
    let place := fun s : Song => x.tree.locate (s.path.sidecar (some root) folder)
    x.errors = [] →
      (∀ s ∈ songs, ∀ s' ∈ songs, s.hasData = true → s'.hasData = true →
        (place s = place s' ↔ s.path.Twins s'.path)) ∧
      (((songs.filter Song.hasData).map place).dedup.length = x.exported ↔ NoTwins songs) ∧
      (∀ s ∈ songs, s.hasData = true →
        (∀ s' ∈ songs, s'.hasData = true → s.path.Twins s'.path → s' = s) →
        ∃ text, x.tree.text (s.path.sidecar (some root) folder) = .ok text ∧
          Json.ofChars? text.toList = some (.object s.data)) := by
  rw [(FileTree.loadAll_truthful hcache).1]
  intro songs x place herrors
  obtain ⟨log, hlog⟩ := logged_run t (some root) folder songs
  have hpaths : ∀ s ∈ songs, s.path ∈ paths := by
    intro s hs
    obtain ⟨p, hp, rfl⟩ := List.mem_map.mp hs
    rw [FileTree.path_songOf]
    exact hp
  have hdistinct : songs.Nodup := by
    refine List.pairwise_map.mpr ((FileTree.songFiles_cases ht hscan).2.1.imp ?_)
    intro p q hne hsame
    refine hne ?_
    rw [← t.path_songOf reader p, hsame, t.path_songOf]
  refine ⟨fun s hs s' hs' hdata hdata' =>
    hlog.locate_eq_iff herrors ht hscan hpaths hs hs' hdata hdata',
    hlog.length_dedup_iff herrors ht hscan hpaths hdistinct, fun s hs hdata honly =>
    ⟨_, hlog.text_eq herrors ht hscan hpaths hs hdata honly, ?_⟩⟩
  obtain ⟨p, -, rfl⟩ := List.mem_map.mp hs
  exact Json.ofChars?_indented (readable_songOf hdata)

/-- A file whose comment bears one truth value. -/
def truthFile (value : Bool) : File :=
  ⟨[], some (.ofComments [⟨"ved", "", Embedded.compose "" [("t", .bool value)]⟩]), .given 1⟩

/-- The song in such a file. -/
def truth (p : Path) (value : Bool) : Song := ⟨p, [("t", .bool value)], ""⟩

theorem songOf_truthFile {p : Path} (value : Bool) (hp : isWavPackExtension p.extension? = false)
    (hfile : t.file p = .ok (truthFile value)) : t.songOf frameReader p = truth p value := by
  have hframes : frameReader.texts? p.extension? (truthFile value) = none := by
    rw [frameReader]
    dsimp only
    rw [hp]
    cases value <;> decide +kernel
  have hembedded : t.embedded frameReader p = .ok (some ⟨"", [("t", .bool value)]⟩) := by
    rw [FileTree.embedded_of_file hfile, File.data?, hframes]
    cases value <;> rfl
  rw [FileTree.songOf, hembedded]
  rfl

/-- A folder with a subfolder and two such files. -/
def twoSongs (first second : Location) : FileTree :=
  ⟨[(["m"], .folder), (["m", "d"], .folder), (first, .file (truthFile true)),
    (second, .file (truthFile false))], 0, ["m"]⟩

/-- Songs of one name in different folders are no twins, and each keeps its sidecar. The paths are
absolute, and the starting folder is another one than the root. -/
theorem run_losesNone_folders :
    let t := twoSongs ["m", "a.mp3"] ["m", "d", "a.mp3"]
    let songs := [truth ⟨"/m/a.mp3"⟩ true, truth ⟨"/m/d/a.mp3"⟩ false]
    let x := run t (some ⟨"/m"⟩) ⟨"/out"⟩ songs
    t.WellFormed ∧ t.songFiles ⟨"/m"⟩ true = .ok [⟨"/m/a.mp3"⟩, ⟨"/m/d/a.mp3"⟩] ∧
    (t.loadAll frameReader (.empty 1) [⟨"/m/a.mp3"⟩, ⟨"/m/d/a.mp3"⟩]).1.songs = songs ∧
    x.errors = [] ∧
    ((songs.map fun s => x.tree.locate (s.path.sidecar (some ⟨"/m"⟩) ⟨"/out"⟩)).dedup.length = 2) ∧
    ∃ text, x.tree.text ⟨"/out/d/a.json"⟩ = .ok text ∧
      Json.ofChars? text.toList = some (.object [("t", .bool false)]) := by
  intro t songs x
  have ht : t.WellFormed := by decide +kernel
  have hscan : t.songFiles ⟨"/m"⟩ true = .ok [⟨"/m/a.mp3"⟩, ⟨"/m/d/a.mp3"⟩] :=
    FileTree.songFiles_of_sorted (l := ["m"]) (by decide +kernel) (by decide) (by decide +kernel)
      (by decide +kernel)
  have hsongs :
      (t.loadAll frameReader (.empty 1) [⟨"/m/a.mp3"⟩, ⟨"/m/d/a.mp3"⟩]).1.songs = songs := by
    rw [(FileTree.loadAll_truthful (Cache.truthful_empty 1 t frameReader _)).1]
    simp only [List.map_cons, List.map_nil]
    rw [songOf_truthFile (p := ⟨"/m/a.mp3"⟩) true (by decide) rfl,
      songOf_truthFile (p := ⟨"/m/d/a.mp3"⟩) false (by decide) rfl]
  have herrors : x.errors = [] := by decide +kernel
  have hmain := run_losesNone t frameReader (.empty 1) ⟨"/m"⟩ ⟨"/out"⟩ _ ht hscan
    (Cache.truthful_empty 1 t frameReader _)
  rw [hsongs] at hmain
  obtain ⟨-, hcount, hkept⟩ := hmain herrors
  have hno : NoTwins songs := by
    intro s hs s' hs' _ _ htwins
    simp only [songs, List.mem_cons, List.not_mem_nil, or_false] at hs hs'
    rcases hs with rfl | rfl <;> rcases hs' with rfl | rfl
    · rfl
    · exact absurd htwins (by decide +kernel)
    · exact absurd htwins (by decide +kernel)
    · rfl
  refine ⟨ht, hscan, hsongs, herrors, ?_, ?_⟩
  · have hdata : songs.filter Song.hasData = songs := rfl
    have hexported : x.exported = 2 := by decide +kernel
    have hall := hcount.mpr hno
    rw [hdata] at hall
    exact hall.trans hexported
  · have hsecond : truth ⟨"/m/d/a.mp3"⟩ false ∈ songs := by simp [songs]
    obtain ⟨text, htext, hread⟩ := hkept _ hsecond rfl fun s' hs' hdata htwins =>
      (hno _ hsecond s' hs' rfl hdata htwins).symm
    have hsidecar : (truth ⟨"/m/d/a.mp3"⟩ false).path.sidecar (some ⟨"/m"⟩) ⟨"/out"⟩ =
        ⟨"/out/d/a.json"⟩ := by decide +kernel
    rw [hsidecar] at htext
    exact ⟨text, htext, hread⟩

/-- Two names in one folder that differ in the letters of their extensions: both songs count as
exported, but one sidecar is left, and it holds the data of the song that came last. -/
theorem run_losesNone_twins :
    let t := twoSongs ["m", "a.MP3"] ["m", "a.mp3"]
    let songs := [truth ⟨"/m/a.MP3"⟩ true, truth ⟨"/m/a.mp3"⟩ false]
    let x := run t (some ⟨"/m"⟩) ⟨"/out"⟩ songs
    t.WellFormed ∧ t.songFiles ⟨"/m"⟩ true = .ok [⟨"/m/a.MP3"⟩, ⟨"/m/a.mp3"⟩] ∧
    (t.loadAll frameReader (.empty 1) [⟨"/m/a.MP3"⟩, ⟨"/m/a.mp3"⟩]).1.songs = songs ∧
    x.errors = [] ∧
    x.exported = 2 ∧ (∀ s ∈ songs, s.path.sidecar (some ⟨"/m"⟩) ⟨"/out"⟩ = ⟨"/out/a.json"⟩) ∧
    ∃ text, x.tree.text ⟨"/out/a.json"⟩ = .ok text ∧
      Json.ofChars? text.toList ≠ some (.object [("t", .bool true)]) := by
  intro t songs x
  have hsongs :
      (t.loadAll frameReader (.empty 1) [⟨"/m/a.MP3"⟩, ⟨"/m/a.mp3"⟩]).1.songs = songs := by
    rw [(FileTree.loadAll_truthful (Cache.truthful_empty 1 t frameReader _)).1]
    simp only [List.map_cons, List.map_nil]
    rw [songOf_truthFile (p := ⟨"/m/a.MP3"⟩) true (by decide) rfl,
      songOf_truthFile (p := ⟨"/m/a.mp3"⟩) false (by decide) rfl]
  have hscan : t.songFiles ⟨"/m"⟩ true = .ok [⟨"/m/a.MP3"⟩, ⟨"/m/a.mp3"⟩] :=
    FileTree.songFiles_of_sorted (l := ["m"]) (by decide +kernel) (by decide) (by decide +kernel)
      (by decide +kernel)
  refine ⟨by decide +kernel, hscan, hsongs, by decide +kernel, by decide +kernel, ?_,
    (Json.object [("t", .bool false)]).indented, by decide +kernel, ?_⟩
  · intro s hs
    simp only [songs, List.mem_cons, List.not_mem_nil, or_false] at hs
    rcases hs with rfl | rfl <;> decide +kernel
  · have hreadable : Json.Readable (.object [("t", .bool false)]) := by
      refine Embedded.readable_object_iff.mpr ⟨by decide, fun e he => ?_⟩
      rw [List.mem_singleton.mp he]
      exact ⟨by decide, trivial⟩
    rw [Json.ofChars?_indented hreadable]
    simp

end Export

end SongLibrary
