import SongLibrary.Proofs.Files.PresetFolder
import SongLibrary.Proofs.Text.Trim

/-!
# Which listed presets can be opened

A list reports the stem of every JSON file of the folder, in whatever case the extension is written.
Loading and deleting go the other way: they trim the name, refuse some names, and look for a file
with the extension in small letters. Whoever puts a file into the folder by hand can choose a name
that does not come back.

`listed_refused_iff` says for every listed name when it is refused: the trimmed name is one that no
preset can have, or its file is not in the folder. Files that are named as they are saved are listed
and can be opened, so in a folder with no other JSON files every listed name can.
-/

namespace SongLibrary

namespace Text

/-- A text is what is left of it behind and before blanks. -/
theorem exists_trim (text : String) : ∃ front behind, text = front ++ trim text ++ behind ∧
    (∀ c ∈ front.toList, isBlank c = true) ∧ ∀ c ∈ behind.toList, isBlank c = true := by
  obtain ⟨front, behind, htext, hfront, hbehind⟩ := exists_trimChars text.toList
  refine ⟨String.ofList front, String.ofList behind, ?_, ?_, ?_⟩
  · rw [← String.toList_inj, trim]
    simpa using htext
  · rwa [String.toList_ofList]
  · rwa [String.toList_ofList]

/-- Trimming takes away blanks only. -/
theorem mem_trim_iff {text : String} {c : Char} (hc : isBlank c = false) :
    c ∈ (trim text).toList ↔ c ∈ text.toList := by
  obtain ⟨front, behind, htext, hfront, hbehind⟩ := exists_trim text
  have hnot : ∀ {cs : List Char}, (∀ d ∈ cs, isBlank d = true) → c ∉ cs := by
    intro cs hcs hmem
    rw [hcs c hmem] at hc
    exact Bool.noConfusion hc
  conv_rhs => rw [htext]
  rw [String.toList_append, String.toList_append, List.mem_append, List.mem_append,
    or_iff_left (hnot hbehind), or_iff_right (hnot hfront)]

theorem utf8ByteSize_trim_le (text : String) : (trim text).utf8ByteSize ≤ text.utf8ByteSize := by
  obtain ⟨front, behind, htext, -, -⟩ := exists_trim text
  conv_rhs => rw [htext]
  rw [String.utf8ByteSize_append, String.utf8ByteSize_append]
  omega

/-- Every character takes a byte at least. -/
theorem length_le_utf8ByteSize (text : String) : text.toList.length ≤ text.utf8ByteSize := by
  rw [← String.ofList_toList (s := text), String.toList_ofList]
  generalize text.toList = cs
  induction cs with
  | nil => simp
  | cons c cs ih =>
      have hcons : String.ofList (c :: cs) = String.singleton c ++ String.ofList cs := by
        rw [← String.toList_inj]
        simp
      have hpos := c.utf8Size_pos
      rw [hcons, String.utf8ByteSize_append, String.utf8ByteSize_singleton, List.length_cons]
      omega

end Text

/-! ## Names that are refused -/

/-- Whether an error says that what is asked for is not there, or can never be. -/
def Error.refuses : Error → Bool
  | .presetFileMissing _ | .presetMissing _ => true
  | .presetNameEmpty | .presetNameInvalid _ | .levelsFull _ => true
  | .malformedJson | .malformedSettings | .file _ | .loggerInstalled => false

/-- A request was refused. -/
def Refused {α : Type} (result : Except Error α) : Prop :=
  ∃ e, result = .error e ∧ e.refuses = true

namespace PresetFolder

variable {s : PresetFolder} {t : FileTree} {l : Location} {name file : String}

/-- A name leads to an entry of the folder. -/
def Finds (s : PresetFolder) (t : FileTree) (name : String) : Prop :=
  nameFault? (Text.trim name) = none ∧
    t.exists? (s.folder ++ (⟨fileOf (Text.trim name)⟩ : Path)) = true

theorem refuses_of_nameFault? {e : Error} (h : nameFault? name = some e) : e.refuses = true := by
  rw [nameFault?] at h
  repeat' split at h
  · rw [← Option.some.inj h]
    rfl
  · rw [← Option.some.inj h]
    rfl
  · exact absurd h (by simp)

/-- A request goes on from the path of a name, and only if there is something. -/
theorem refused_request_iff {α : Type} {found : Path → Except Error α} {missing : Error}
    (hmissing : missing.refuses = true) (hfound : ∀ p, ¬Refused (found p)) :
    Refused (s.pathOf name >>= fun p => if t.exists? p then found p else .error missing) ↔
      ¬s.Finds t name := by
  have hat : ∀ p, Refused (if t.exists? p then found p else .error missing) ↔
      ¬t.exists? p = true := by
    intro p
    by_cases hexists : t.exists? p = true
    · rw [if_pos hexists]
      exact iff_of_false (hfound p) (not_not.mpr hexists)
    · rw [if_neg hexists]
      exact iff_of_true ⟨missing, rfl, hmissing⟩ hexists
  rw [pathOf_eq, Finds]
  cases hfault : nameFault? (Text.trim name) with
  | some e => exact iff_of_true ⟨e, rfl, refuses_of_nameFault? hfault⟩ (by simp)
  | none =>
      rw [eq_self, true_and]
      dsimp only [bind, Except.bind]
      exact hat _

/-- A preset is refused if its name leads nowhere. What else keeps it from being read lies in the
file. -/
theorem refused_load_iff : Refused (s.load t name) ↔ ¬s.Finds t name := by
  refine refused_request_iff rfl fun p => ?_
  rintro ⟨e, he, hrefuses⟩
  repeat' split at he
  all_goals cases he
  all_goals exact Bool.noConfusion hrefuses

theorem refused_delete_iff : Refused (s.delete t name) ↔ ¬s.Finds t name := by
  refine refused_request_iff rfl fun p => ?_
  rintro ⟨e, he, hrefuses⟩
  cases hremove : t.removeFile p with
  | error cause =>
      rw [hremove] at he
      cases he
      exact Bool.noConfusion hrefuses
  | ok t' =>
      rw [hremove] at he
      cases he

/-! ## Files that are listed -/

/-- The name of a JSON file is its stem and an extension of four letters. -/
theorem isPresetName_cases (h : isPresetName file = true) : ∃ stem extension,
    Path.cutName file = (stem, some extension) ∧ file = stem ++ "." ++ extension ∧
      extension.toList.map Char.toLower = "json".toList := by
  rw [isPresetName] at h
  rcases Path.cutName_cases file with hcut | ⟨stem, extension, hcut, -, hfile⟩
  · rw [hcut] at h
    exact Bool.noConfusion h
  · rw [hcut] at h
    have hextension : extension.toList.map Char.toLower = "json".toList.map Char.toLower :=
      beq_iff_eq.mp h
    exact ⟨stem, extension, hcut, hfile, hextension.trans (by decide)⟩

/-! A file that is listed for a stem, and the file that is looked for. -/

section

variable {stem extension : String} (hextension : extension.toList.map Char.toLower = "json".toList)

include hextension

theorem length_extension : extension.toList.length = 4 := by
  have hlength := congrArg List.length hextension
  rwa [List.length_map] at hlength

/-- Neither blanks around the stem nor the extension have a separator. -/
theorem solid_of_trim (hslash : '/' ∉ (Text.trim stem).toList) :
    '/' ∉ (stem ++ "." ++ extension).toList := by
  rw [String.toList_append, String.toList_append, List.mem_append, List.mem_append, not_or, not_or]
  refine ⟨⟨mt (Text.mem_trim_iff (by decide)).mpr hslash, by decide⟩, fun hmem => ?_⟩
  have hlower := List.mem_map_of_mem (f := Char.toLower) hmem
  rw [hextension] at hlower
  exact absurd hlower (by decide)

/-- A name this long is none of those that lead elsewhere. -/
theorem plain_of_solid (hsolid : '/' ∉ (stem ++ "." ++ extension).toList) :
    FileTree.Plain (stem ++ "." ++ extension) := by
  have hne : ∀ {text : String}, text.toList.length < 5 → stem ++ "." ++ extension ≠ text := by
    rintro text hshort rfl
    have hlength := length_extension hextension
    have hdot : ".".toList.length = 1 := by decide
    rw [String.toList_append, String.toList_append, List.length_append, List.length_append]
      at hshort
    omega
  refine ⟨hsolid, ?_, hne (by decide)⟩
  rw [Path.isIdle, Bool.or_eq_false_iff]
  exact ⟨by simp, by simpa using hne (by decide)⟩

/-- The file that is looked for has no longer a name. -/
theorem utf8ByteSize_fileOf_trim_le :
    (fileOf (Text.trim stem)).utf8ByteSize ≤ (stem ++ "." ++ extension).utf8ByteSize := by
  have hfour := Text.length_le_utf8ByteSize extension
  have hstem := Text.utf8ByteSize_trim_le stem
  have hjson : ".json".utf8ByteSize = 5 := by decide
  have hdot : ".".utf8ByteSize = 1 := by decide
  rw [length_extension hextension] at hfour
  rw [fileOf, String.utf8ByteSize_append, String.utf8ByteSize_append, String.utf8ByteSize_append]
  omega

end

theorem nul_of_nul_fileOf_trim {stem extension : String}
    (h : '\x00' ∈ (fileOf (Text.trim stem)).toList) :
    '\x00' ∈ (stem ++ "." ++ extension).toList := by
  rw [fileOf, String.toList_append, List.mem_append] at h
  rw [String.toList_append, String.toList_append, List.mem_append, List.mem_append]
  rcases h with hmem | hmem
  · exact Or.inl (Or.inl ((Text.mem_trim_iff (by decide)).mp hmem))
  · exact absurd hmem (by decide)

/-- A name that can be found in a folder is not at fault. -/
theorem nameError?_of_file (hl : t.LeadsInto s.folder l) (hplain : FileTree.Plain file)
    (hfile : (t.file (s.folder ++ (⟨file⟩ : Path))).isOk = true) :
    FileTree.nameError? s.folder file = none := by
  cases herror : FileTree.nameError? s.folder file with
  | none => rfl
  | some cause =>
      rw [FileTree.file, hl.locate_error hplain herror] at hfile
      exact Bool.noConfusion hfile

/-- A name is not at fault where a longer one is not, and that has all its characters. -/
theorem nameError?_mono {p : Path} (hname : '/' ∉ name.toList) (hfile : '/' ∉ file.toList)
    (hnul : '\x00' ∈ name.toList → '\x00' ∈ file.toList)
    (hsize : name.utf8ByteSize ≤ file.utf8ByteSize) (h : FileTree.nameError? p file = none) :
    FileTree.nameError? p name = none := by
  have hpath : (p ++ (⟨name⟩ : Path)).text.utf8ByteSize ≤
      (p ++ (⟨file⟩ : Path)).text.utf8ByteSize := by
    rw [Path.text_append_name p hname, Path.text_append_name p hfile]
    simp only [String.utf8ByteSize_append]
    omega
  rw [FileTree.nameError?] at h ⊢
  split at h
  · exact absurd h (by simp)
  rename_i hnone
  split at h
  · exact absurd h (by simp)
  rename_i hlong
  rw [not_or] at hlong
  rw [if_neg (mt hnul hnone), if_neg (by omega)]

/-- **A listed name is found if its file lies in the folder.** It is not too long, since it is no
longer than the name of the file that it was listed for. -/
theorem finds_listed_iff (hl : t.locate s.folder = .ok l) (hfolder : t.isFolder l = true)
    (hlisted : file ∈ s.presetFiles t l) :
    s.Finds t (Path.cutName file).1 ↔
      nameFault? (Text.trim (Path.cutName file).1) = none ∧
        fileOf (Text.trim (Path.cutName file).1) ∈ t.namesIn l := by
  obtain ⟨-, hlisted⟩ := List.mem_filter.mp hlisted
  rw [Bool.and_eq_true] at hlisted
  obtain ⟨stem, extension, hcut, rfl, hextension⟩ := isPresetName_cases hlisted.1
  rw [hcut, Finds]
  dsimp only
  have hleads := FileTree.leadsInto_of_locate hl hfolder
  refine and_congr_right fun hfault => ?_
  rw [exists?_fileOf_iff hleads hfault]
  refine and_iff_right ?_
  -- the trimmed name has no separator, so the name of the file has none either
  have hsolid := solid_of_trim hextension (nameFault?_eq_none_iff.mp hfault).2.1
  have hlegal := nameError?_of_file hleads (plain_of_solid hextension hsolid) hlisted.2
  exact nameError?_mono (plain_fileOf hfault).solid hsolid nul_of_nul_fileOf_trim
    (utf8ByteSize_fileOf_trim_le hextension) hlegal

/-! ## Listing and opening -/

theorem mem_list_iff {names : List String} (h : s.list t = .ok names) : name ∈ names ↔
    ∃ l file, t.locate s.folder = .ok l ∧ t.isFolder l = true ∧ file ∈ s.presetFiles t l ∧
      (Path.cutName file).1 = name := by
  rw [list] at h
  split at h
  · rename_i cause hl
    rw [← Except.ok.inj h, hl]
    simp
  · rename_i l hl
    split at h
    · rename_i hfolder
      rw [← Except.ok.inj h, (List.mergeSort_perm _ _).mem_iff, List.mem_map]
      constructor
      · rintro ⟨file, hlisted, hname⟩
        exact ⟨l, file, hl, hfolder, hlisted, hname⟩
      · rintro ⟨l', file, hl', -, hlisted, hname⟩
        obtain rfl := Except.ok.inj (hl.symm.trans hl')
        exact ⟨file, hlisted, hname⟩
    · exact absurd h (by simp)

/-- The name of a preset that leads to the file it is saved in. -/
structure Settled (name : String) : Prop where
  trimmed : Text.trim name = name
  allowed : nameFault? name = none

theorem Settled.stem (h : Settled name) : (Path.cutName (fileOf name)).1 = name :=
  congrArg Prod.fst (cutName_fileOf (nameFault?_eq_none_iff.mp h.allowed).1)

theorem Settled.not_refused (h : Settled name) (hl : t.locate s.folder = .ok l)
    (hfolder : t.isFolder l = true) (hlisted : fileOf name ∈ s.presetFiles t l) :
    ¬Refused (s.load t name) ∧ ¬Refused (s.delete t name) := by
  have hfinds := finds_listed_iff hl hfolder hlisted
  rw [h.stem, h.trimmed] at hfinds
  have hfound := hfinds.mpr ⟨h.allowed, (List.mem_filter.mp hlisted).1⟩
  exact ⟨fun hrefused => refused_load_iff.mp hrefused hfound,
    fun hrefused => refused_delete_iff.mp hrefused hfound⟩

/--
**Which listed presets can be opened.** A listed name is refused, by loading and by deleting, just
if the name without the blanks around it is one that no preset can have, or the folder has no file
for it with the extension `json` in small letters. A file that is named as a preset is saved is
listed, and its name is not refused; so in a folder without other JSON files no listed name is.
-/
theorem listed_refused_iff (s : PresetFolder) (t : FileTree) (names : List String)
    (h : s.list t = .ok names) :
    (∀ name ∈ names, ∃ l, t.locate s.folder = .ok l ∧
      (Refused (s.load t name) ↔
        nameFault? (Text.trim name) ≠ none ∨ fileOf (Text.trim name) ∉ t.namesIn l) ∧
      (Refused (s.delete t name) ↔
        nameFault? (Text.trim name) ≠ none ∨ fileOf (Text.trim name) ∉ t.namesIn l)) ∧
    (∀ l name, t.locate s.folder = .ok l → Settled name → fileOf name ∈ s.presetFiles t l →
      name ∈ names ∧ ¬Refused (s.load t name) ∧ ¬Refused (s.delete t name)) ∧
    ((∀ l, t.locate s.folder = .ok l →
        ∀ file ∈ s.presetFiles t l, ∃ name, Settled name ∧ file = fileOf name) →
      ∀ name ∈ names, ¬Refused (s.load t name) ∧ ¬Refused (s.delete t name)) := by
  refine ⟨fun name hname => ?_, fun l name hl hsettled hlisted => ?_, fun hsettled name hname => ?_⟩
  · obtain ⟨l, file, hl, hfolder, hlisted, rfl⟩ := (mem_list_iff h).mp hname
    have hrefused := (not_congr (finds_listed_iff hl hfolder hlisted)).trans not_and_or
    exact ⟨l, hl, refused_load_iff.trans hrefused, refused_delete_iff.trans hrefused⟩
  · have hfolder : t.isFolder l = true := by
      by_contra hnot
      rw [list, hl] at h
      simp [hnot] at h
    exact ⟨(mem_list_iff h).mpr ⟨l, _, hl, hfolder, hlisted, hsettled.stem⟩,
      hsettled.not_refused hl hfolder hlisted⟩
  · obtain ⟨l, file, hl, hfolder, hlisted, rfl⟩ := (mem_list_iff h).mp hname
    obtain ⟨name, hname', rfl⟩ := hsettled l hl file hlisted
    rw [hname'.stem]
    exact hname'.not_refused hl hfolder hlisted

/-- The folder of presets. -/
def presets : PresetFolder := ⟨⟨"presets"⟩, 50⟩

/-- A folder with one JSON file. -/
def oneFile (file : String) : FileTree :=
  ⟨[(["presets"], .folder), (["presets", file], .file ⟨Text.bytes "\x7b\x7d", none, .given 1⟩)], 0,
    []⟩

/-- A file that is named as its preset is saved. -/
theorem listed_refused_iff_small :
    presets.list (oneFile "a.json") = .ok ["a"] ∧ ¬Refused (presets.load (oneFile "a.json") "a") ∧
      ¬Refused (presets.delete (oneFile "a.json") "a") := by
  have hlist : presets.list (oneFile "a.json") = .ok ["a"] := by decide +kernel
  have hlocate : (oneFile "a.json").locate presets.folder = .ok ["presets"] := by decide +kernel
  have hlisted : fileOf "a" ∈ presets.presetFiles (oneFile "a.json") ["presets"] := by
    decide +kernel
  have hsettled : Settled "a" := ⟨by decide +kernel, by decide +kernel⟩
  exact ⟨hlist, ((listed_refused_iff presets _ _ hlist).2.1 _ _ hlocate hsettled hlisted).2⟩

/-- A file with the extension in capital letters is listed and cannot be opened, nor can one whose
stem is no name of a preset. -/
theorem listed_refused_capital :
    (presets.list (oneFile "A.JSON") = .ok ["A"] ∧
      presets.load (oneFile "A.JSON") "A" = .error (.presetFileMissing "A") ∧
      presets.delete (oneFile "A.JSON") "A" = .error (.presetMissing "A")) ∧
    (presets.list (oneFile "a\\b.json") = .ok ["a\\b"] ∧
      presets.load (oneFile "a\\b.json") "a\\b" = .error (.presetNameInvalid "a\\b") ∧
      presets.delete (oneFile "a\\b.json") "a\\b" = .error (.presetNameInvalid "a\\b")) := by
  refine ⟨⟨?_, ?_, ?_⟩, ?_, ?_, ?_⟩
  all_goals decide +kernel

end PresetFolder

end SongLibrary
