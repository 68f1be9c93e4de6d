import SongLibrary.Proofs.Files.RenameSafety
import SongLibrary.Proofs.Files.Scan
import SongLibrary.Proofs.Text.LowerEnding

/-!
# Renamed songs in later scans

A name is looked at for the letters `.mp3` at its end, in any case, and a scan looks for the
extension of a file name. The two agree on every name but one: a name that is nothing else than
these four characters ends with them, but a dot at the beginning of a name starts no extension. A
file that gets this name is no longer found.
-/

namespace SongLibrary

/-- A name that ends like that of a song file has a dot there and the extension behind it. -/
theorem endsWith_extension {name : String}
    (h : Text.endsWith (Text.lowercase name) ".mp3" = true) :
    ∃ front extension, name = front ++ "." ++ extension ∧ '.' ∉ extension.toList ∧
      Text.lowercase extension = "mp3" ∧ (front = "" ↔ Text.lowercase name = ".mp3") := by
  have hlower : (Text.lowercase name).toList = Text.lowerBetween false name.toList [] := by
    rw [Text.lowercase, String.toList_ofList, Text.lowerBetween_nil]
    rfl
  rw [Text.endsWith, List.isSuffixOf_iff_suffix, hlower] at h
  obtain ⟨out, hout⟩ := h
  have hforms : ".mp3".toList.all Text.isForm = true := by decide +kernel
  obtain ⟨front, last, hname, hlast, hsteady, hfront⟩ :=
    Text.lowerBetween_eq_append (List.all_eq_true.mp hforms) hout.symm
  obtain ⟨dot, last, rfl, hdot, hletters⟩ := List.map_eq_cons_iff.mp hlast
  obtain rfl := Text.eq_dot_of_lowerChar hdot
  have hsteady' : ∀ c ∈ last, Text.isSteady c = true := fun c hc =>
    hsteady c (List.mem_cons_of_mem _ hc)
  refine ⟨String.ofList front, String.ofList last, ?_, ?_, ?_, ?_⟩
  · rw [← String.toList_inj, hname]
    simp
  · rw [String.toList_ofList]
    intro hmem
    have hin := List.mem_map_of_mem (f := Text.lowerChar) hmem
    rw [hletters, hdot] at hin
    exact absurd hin (by decide)
  · rw [Text.lowercase, String.toList_ofList, Text.lowerChars,
      Text.lowerFrom_of_isSteady hsteady', hletters]
    rfl
  · rw [← String.toList_inj, ← String.toList_inj, hlower, ← hout, List.append_left_eq_self,
      ← hfront, Text.lowerBetween_eq_nil_iff]
    simp

/-- **The name of a song file has the extension, unless it is nothing else.** -/
theorem hasExtension_songFileName {name : String} (hne : name ≠ "") :
    (Path.cutName (songFileName name)).2.any (fun e => Text.lowercase e == "mp3") = true ↔
      Text.lowercase name ≠ ".mp3" := by
  rw [songFileName]
  by_cases hends : Text.endsWith (Text.lowercase name) ".mp3" = true
  · rw [if_pos hends]
    obtain ⟨front, extension, rfl, hdots, hextension, hfront⟩ := endsWith_extension hends
    rw [ne_eq, ← hfront]
    by_cases hempty : front = ""
    · rw [hempty, String.empty_append, Path.cutName_dot hdots]
      simp
    · rw [Path.cutName_append hempty hdots]
      simp [hempty, hextension]
  · rw [if_neg hends]
    have hname : name ++ ".mp3" = name ++ "." ++ "mp3" := by
      rw [String.append_assoc]
      rfl
    have hlower : (Text.lowercase "mp3" == "mp3") = true := by decide +kernel
    have hother : Text.lowercase name ≠ ".mp3" := by
      intro he
      rw [he] at hends
      exact hends (by decide)
    rw [hname, Path.cutName_append hne (by decide)]
    exact iff_of_true hlower hother

theorem Path.isSong_of_fileName? {p : Path} {name : String} (h : p.fileName? = some name) :
    p.isSong = (Path.cutName name).2.any (fun e => Text.lowercase e == "mp3") := by
  rw [isSong, extension?, h, Option.bind_some]

namespace FileTree

variable {t : FileTree} {cache : Option Cache} {p : Path} {name : String} {overwrite : Bool}
  {target : Path}

/--
**When a renamed song is still found.**

The new path of a file or a folder that has been renamed has the extension of a song file, unless
the name that was asked for is `.mp3` alone, in some case and with blanks around it. So every scan
of the folder of a renamed file, or of a folder further up with its subfolders, lists the file
unless it has that name.
-/
theorem renameSong_staysFound
    (h : (t.renameSong cache p name overwrite).outcome = .ok target) :
    let t' := (t.renameSong cache p name overwrite).tree
    (target.isSong = true ↔ Text.lowercase (Text.trim name) ≠ ".mp3") ∧
    (t.isFolderAt p = false → ∃ k new, t'.locate target = .ok (k ++ [new]) ∧
      ∀ (root : Path) (l : Location) (inner : List String) (subfolders : Bool),
        t'.locate root = .ok l → k = l ++ inner → (inner = [] ∨ subfolders = true) →
        ∃ paths, t'.songFiles root subfolders = .ok paths ∧
          (root.descend (inner ++ [new]) ∈ paths ↔ Text.lowercase (Text.trim name) ≠ ".mp3")) := by
  intro t'
  obtain ⟨haccepts, htarget, -, -⟩ := renameSong_succeeded h
  have hextension := hasExtension_songFileName haccepts.nonempty
  constructor
  · rw [htarget, Path.renamed,
      Path.isSong_of_fileName? (Path.fileName?_withFileName p haccepts.plain)]
    exact hextension
  · intro hp
    obtain ⟨k, old, f, hrenamed⟩ := renamedTo_of_renameSong hp h
    refine ⟨k, _, hrenamed.now.1, ?_⟩
    rintro root l inner subfolders hl rfl hdepth
    obtain ⟨m, hm, hf⟩ := file_cases hrenamed.now.2
    obtain rfl := Except.ok.inj (hm.symm.trans hrenamed.now.1)
    have hfolder : t'.isFolder l = true := by
      refine (folders_of_follow (locate_cases hm).2).1 l ?_ ?_
      · rw [List.append_assoc]
        exact List.prefix_append _ _
      · simp
    rw [List.append_assoc] at hf
    obtain ⟨paths, hscan, hmem⟩ := mem_songFiles_iff hl hfolder hf hdepth
    refine ⟨paths, hscan, hmem.trans ?_⟩
    rw [Path.descend, List.foldl_append, List.foldl_cons, List.foldl_nil,
      Path.isSong_of_fileName? (Path.fileName?_append_name _ haccepts.plain)]
    exact hextension

/-- A file in a folder is renamed, and a scan of the folder by another spelling finds it. -/
theorem renameSong_staysFound_upper :
    let t : FileTree := ⟨[(["m"], .folder),
      (["m", "a.mp3"], .file ⟨Text.bytes "one", none, .given 1⟩)], 0, ["m"]⟩
    let r := t.renameSong none ⟨"/m/a.mp3"⟩ ".b.MP3 " false
    r.outcome = .ok ⟨"/m/.b.MP3"⟩ ∧ Path.isSong ⟨"/m/.b.MP3"⟩ = true ∧
      ∃ paths, r.tree.songFiles ⟨"."⟩ false = .ok paths ∧ ⟨"./.b.MP3"⟩ ∈ paths := by
  intro t r
  have hrenamed : r.outcome = .ok ⟨"/m/.b.MP3"⟩ := by decide +kernel
  have htarget : r.tree.locate ⟨"/m/.b.MP3"⟩ = .ok (["m"] ++ [".b.MP3"]) := by decide +kernel
  have hroot : r.tree.locate ⟨"."⟩ = .ok ["m"] := by decide +kernel
  have hname : Text.lowercase (Text.trim ".b.MP3 ") ≠ ".mp3" := by decide +kernel
  obtain ⟨hsong, hscans⟩ := renameSong_staysFound hrenamed
  obtain ⟨k, new, hlocate, hfound⟩ := hscans (by decide +kernel)
  obtain ⟨rfl, hnew⟩ := List.append_inj' (Except.ok.inj (hlocate.symm.trans htarget)) rfl
  obtain rfl := List.singleton_inj.mp hnew
  obtain ⟨paths, hpaths, hmem⟩ := hfound ⟨"."⟩ ["m"] [] false hroot rfl (.inl rfl)
  have hfile : Path.descend ⟨"."⟩ ([] ++ [".b.MP3"]) = ⟨"./.b.MP3"⟩ := by decide +kernel
  have hin := hmem.mpr hname
  rw [hfile] at hin
  exact ⟨hrenamed, hsong.mpr hname, paths, hpaths, hin⟩

/-- A song that is renamed to the extension alone is still there, but no scan finds it. -/
theorem renameSong_hidden :
    let t : FileTree := ⟨[(["m"], .folder),
      (["m", "a.mp3"], .file ⟨Text.bytes "one", none, .given 1⟩)], 0, []⟩
    let r := t.renameSong none ⟨"m/a.mp3"⟩ ".mp3" false
    t.songFiles ⟨"m"⟩ true = .ok [⟨"m/a.mp3"⟩] ∧ r.outcome = .ok ⟨"m/.mp3"⟩ ∧
      Path.isSong ⟨"m/.mp3"⟩ = false ∧ r.tree.file ⟨"m/.mp3"⟩ = t.file ⟨"m/a.mp3"⟩ ∧
      r.tree.songFiles ⟨"m"⟩ true = .ok [] := by
  decide +kernel

end FileTree

end SongLibrary
