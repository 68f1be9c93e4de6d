import SongLibrary.Proofs.Files.Folder
import SongLibrary.Proofs.Rule.Form
import SongLibrary.Proofs.StableSort
import Mathlib.Data.List.Pairwise

/-!
# A finite map in a folder

Whoever saves, loads, deletes and lists presets need not know of files: a finite map from names to
presets would answer the same. A folder holds such a map, one file to a preset.

Two things could come between. A name goes through trimming, checks and an extension into the name
of a file, and comes back in a list by way of the last dot; it is the same name then, whatever dots
it has itself. And a preset goes through its text, which is read as the same preset if a preset like
it has been read before.

What can be the name of a preset is not for the map to say. A name that is empty, or that could lead
out of the folder, is refused by every request. One that the file system does not accept is refused
only when a preset is to be saved; it is never bound.

The folder may have the empty path. Presets are kept in the starting folder then, but no list looks
there.
-/

namespace SongLibrary

namespace PresetFolder

/-! ## Requests -/

/-- What is asked of a folder of presets. -/
inductive Request where
  | save (name : String) (preset : Preset)
  | load (name : String)
  | delete (name : String)
  | list
  deriving DecidableEq

/-- What is answered, unless there is an error. -/
inductive Reply where
  | done
  | preset (preset : Preset)
  | names (names : List String)
  deriving DecidableEq

/-- What is answered to requests that follow one another. -/
def run {σ : Type} (answer : σ → Request → σ × Except Error Reply) :
    σ → List Request → σ × List (Except Error Reply)
  | state, [] => (state, [])
  | state, request :: requests =>
    let (state, reply) := answer state request
    let (state, replies) := run answer state requests
    (state, reply :: replies)

/-- The answer to a request in a tree of files. -/
def answer (s : PresetFolder) (t : FileTree) : Request → FileTree × Except Error Reply
  | .save name preset =>
    let (t, result) := s.save t name preset
    (t, result.map fun _ => .done)
  | .load name => (t, (s.load t name).map .preset)
  | .delete name =>
    match s.delete t name with
    | .ok t => (t, .ok .done)
    | .error e => (t, .error e)
  | .list => (t, (s.list t).map .names)

/-! ## The finite map -/

/-- Presets by name. -/
abbrev PresetMap := Assoc String Preset

/-- The name of the file of a preset. -/
def fileOf (name : String) : String := name ++ ".json"

/-- Why no preset can have a name. -/
def nameFault? (name : String) : Option Error :=
  if name = "" then some .presetNameEmpty
  else if '/' ∈ name.toList ∨ '\\' ∈ name.toList ∨ name = "." ∨ name = ".." then
    some (.presetNameInvalid name)
  else none

/-- Why no preset can be saved under a name: none can have it, or the file system does not accept
the file. -/
def saveFault? (s : PresetFolder) (name : String) : Option Error :=
  match nameFault? name with
  | some e => some e
  | none => (FileTree.nameError? s.folder (fileOf name)).map .file

/-- The names that are bound, in the order of characters. -/
def sortedNames (m : PresetMap) : List String :=
  (Assoc.keys m).mergeSort fun a b => compare a b != .gt

/-- The names that are listed. A folder with the empty path is not found by a list. -/
def listedNames (s : PresetFolder) (m : PresetMap) : List String :=
  if s.folder.text = "" then [] else sortedNames m

/-- The answer to a request in a finite map. Names count without the blanks around them, and a name
that no preset can have is refused. -/
def mapAnswer (s : PresetFolder) (m : PresetMap) : Request → PresetMap × Except Error Reply
  | .save name preset =>
    match s.saveFault? (Text.trim name) with
    | some e => (m, .error e)
    | none => (Assoc.put m (Text.trim name) preset, .ok .done)
  | .load name =>
    match nameFault? (Text.trim name) with
    | some e => (m, .error e)
    | none =>
      match Assoc.find? m (Text.trim name) with
      | none => (m, .error (.presetFileMissing name))
      | some preset => (m, .ok (.preset (preset.truncate s.maxRulesPerTab)))
  | .delete name =>
    match nameFault? (Text.trim name) with
    | some e => (m, .error e)
    | none =>
      match Assoc.find? m (Text.trim name) with
      | none => (m, .error (.presetMissing name))
      | some _ => (Assoc.erase m (Text.trim name), .ok .done)
  | .list => (m, .ok (.names (s.listedNames m)))

/-! ## Names and files -/

theorem fileOf_injective : Function.Injective fileOf := by
  intro a b h
  have hchars := congrArg String.toList h
  rw [fileOf, fileOf, String.toList_append, String.toList_append] at hchars
  exact String.toList_inj.mp (List.append_cancel_right hchars)

/-- The files of two presets lie at two locations. -/
theorem append_fileOf_ne (l : Location) {name other : String} (h : other ≠ name) :
    l ++ [fileOf other] ≠ l ++ [fileOf name] := fun heq =>
  h (fileOf_injective (List.singleton_inj.mp (List.append_cancel_left heq)))

theorem cutName_fileOf {name : String} (h : name ≠ "") :
    Path.cutName (fileOf name) = (name, some "json") := by
  have hdot : fileOf name = name ++ "." ++ "json" := by
    rw [fileOf, String.append_assoc]
    rfl
  rw [hdot]
  exact Path.cutName_append h (by decide)

theorem isPresetName_fileOf {name : String} (h : name ≠ "") :
    isPresetName (fileOf name) = true := by
  have hjson : Text.equalsIgnoringAsciiCase "json" "json" = true := by decide +kernel
  rw [isPresetName, cutName_fileOf h]
  exact hjson

theorem nameFault?_eq_none_iff {name : String} : nameFault? name = none ↔
    name ≠ "" ∧ '/' ∉ name.toList ∧ '\\' ∉ name.toList ∧ name ≠ "." ∧ name ≠ ".." := by
  rw [nameFault?]
  split
  · simp_all
  · split
    · simp only [reduceCtorEq, false_iff]
      tauto
    · simp_all

theorem saveFault?_eq_none_iff {s : PresetFolder} {name : String} : s.saveFault? name = none ↔
    nameFault? name = none ∧ FileTree.nameError? s.folder (fileOf name) = none := by
  rw [saveFault?]
  cases nameFault? name <;> simp

/-- A preset can be saved under a name. -/
structure Savable (s : PresetFolder) (name : String) : Prop where
  nonempty : name ≠ ""
  noSeparator : '/' ∉ name.toList ∧ '\\' ∉ name.toList
  noDots : name ≠ "." ∧ name ≠ ".."
  noNul : '\x00' ∉ name.toList
  shortName : (fileOf name).utf8ByteSize ≤ FileTree.nameLimit
  shortPath : (s.folder ++ (⟨fileOf name⟩ : Path)).text.utf8ByteSize ≤ FileTree.pathLimit

theorem saveFault?_eq_none_iff_savable {s : PresetFolder} {name : String} :
    s.saveFault? name = none ↔ s.Savable name := by
  have hnul : '\x00' ∈ (fileOf name).toList ↔ '\x00' ∈ name.toList := by
    rw [fileOf, String.toList_append, List.mem_append]
    exact or_iff_left (by decide)
  rw [saveFault?_eq_none_iff, nameFault?_eq_none_iff, FileTree.nameError?]
  constructor
  · rintro ⟨⟨hempty, hslash, hback, hdot, hdots⟩, herror⟩
    split at herror
    · exact absurd herror (by simp)
    rename_i hnone
    split at herror
    · exact absurd herror (by simp)
    rename_i hlong
    rw [not_or] at hlong
    exact ⟨hempty, ⟨hslash, hback⟩, ⟨hdot, hdots⟩, mt hnul.mpr hnone, by omega, by omega⟩
  · rintro ⟨hempty, ⟨hslash, hback⟩, ⟨hdot, hdots⟩, hnone, hname, hpath⟩
    refine ⟨⟨hempty, hslash, hback, hdot, hdots⟩, ?_⟩
    rw [if_neg (mt hnul.mp hnone), if_neg (by omega)]

theorem plain_fileOf {name : String} (h : nameFault? name = none) :
    FileTree.Plain (fileOf name) := by
  obtain ⟨hempty, hseparator, -, -, -⟩ := nameFault?_eq_none_iff.mp h
  have hlength : (fileOf name).length = name.length + 5 := by
    rw [fileOf, String.length_append]
    rfl
  have hne : ∀ {text : String}, text.length < 5 → fileOf name ≠ text := by
    rintro text hshort rfl
    omega
  refine ⟨?_, ?_, hne (by decide)⟩
  · rw [fileOf, String.toList_append, List.mem_append, not_or]
    exact ⟨hseparator, by decide⟩
  · rw [Path.isIdle, Bool.or_eq_false_iff]
    exact ⟨by simpa using hne (by decide), by simpa using hne (by decide)⟩

/-- In a folder a preset is found if its file lies there, and the file system accepts the name. -/
theorem exists?_fileOf_iff {s : PresetFolder} {t : FileTree} {l : Location} {name : String}
    (hl : t.LeadsInto s.folder l) (hfault : nameFault? name = none) :
    t.exists? (s.folder ++ (⟨fileOf name⟩ : Path)) = true ↔
      FileTree.nameError? s.folder (fileOf name) = none ∧ fileOf name ∈ t.namesIn l := by
  have hplain := plain_fileOf hfault
  rw [FileTree.exists?, FileTree.mem_namesIn]
  cases herror : FileTree.nameError? s.folder (fileOf name) with
  | some cause =>
      rw [hl.locate_error hplain herror]
      simp [Except.isOk, Except.toBool]
  | none =>
      rw [(hl.names hplain herror).locate_eq, FileTree.isOpenEnded_append _ hplain]
      cases t.entry? (l ++ [fileOf name]) <;> simp [Except.isOk, Except.toBool]

/-- The path of a preset is that of its file, unless no preset can have the name. -/
theorem pathOf_eq (s : PresetFolder) (name : String) : s.pathOf name =
    match nameFault? (Text.trim name) with
    | some e => .error e
    | none => .ok (s.folder ++ (⟨fileOf (Text.trim name)⟩ : Path)) := by
  rw [pathOf, nameFault?]
  generalize Text.trim name = trimmed
  by_cases hempty : trimmed = ""
  · simp [hempty]
  · have hany : trimmed.toList.any (fun c => c == '/' || c == '\\') = true ↔
        '/' ∈ trimmed.toList ∨ '\\' ∈ trimmed.toList := by
      simp only [List.any_eq_true, Bool.or_eq_true, beq_iff_eq]
      constructor
      · rintro ⟨c, hc, rfl | rfl⟩
        · exact Or.inl hc
        · exact Or.inr hc
      · rintro (h | h)
        · exact ⟨_, h, Or.inl rfl⟩
        · exact ⟨_, h, Or.inr rfl⟩
    have hbad : (trimmed.toList.any (fun c => c == '/' || c == '\\') = true ∨ trimmed = "." ∨
        trimmed = "..") ↔
        ('/' ∈ trimmed.toList ∨ '\\' ∈ trimmed.toList ∨ trimmed = "." ∨ trimmed = "..") := by
      rw [hany, or_assoc]
    rw [if_neg (by simpa using hempty), if_neg hempty]
    by_cases h : '/' ∈ trimmed.toList ∨ '\\' ∈ trimmed.toList ∨ trimmed = "." ∨ trimmed = ".."
    · rw [if_pos (hbad.mpr h), if_pos h]
    · rw [if_neg (mt hbad.mp h), if_neg h]
      rfl

/-- A list does not find a folder with the empty path. -/
theorem list_of_empty {s : PresetFolder} {t : FileTree} (h : s.folder.text = "") :
    s.list t = .ok [] := by
  rw [list]
  cases hl : t.locate s.folder with
  | error cause => rfl
  | ok l => exact absurd h (FileTree.text_ne_empty hl)

theorem sortedNames_ordered {m : PresetMap} (h : (Assoc.keys m).Nodup) :
    (sortedNames m).Pairwise (· < ·) := by
  have hsorted := stableSort_mergeSort (compare : String → String → Ordering) (Assoc.keys m)
  have hdistinct : (sortedNames m).Nodup := hsorted.perm.nodup_iff.mpr h
  refine (hsorted.ordered.and hdistinct).imp fun {a b} hab => ?_
  have hne : compare a b ≠ .eq := fun he => hab.2 (Std.LawfulEqCmp.compare_eq_iff_eq.mp he)
  have hlt : compare a b = .lt := by
    have hle := hab.1
    cases hcompare : compare a b with
    | lt => rfl
    | eq => exact absurd hcompare hne
    | gt => rw [hcompare] at hle; exact Bool.noConfusion hle
  exact compareOfLessAndEq_eq_lt.mp hlt

theorem mem_sortedNames {m : PresetMap} {name : String} :
    name ∈ sortedNames m ↔ name ∈ Assoc.keys m :=
  (List.mergeSort_perm _ _).mem_iff

/-! ## What the folder holds -/

/-- A file holds a preset if that is what is read from it. -/
def Holds (f : File) (preset : Preset) : Prop :=
  ∃ text, Text.ofBytes? f.bytes = some text ∧ Preset.ofText? text = some preset

/-- The presets of a map lie in a folder, one to a file, and nothing else does. -/
structure Keeps (s : PresetFolder) (t : FileTree) (l : Location) (m : PresetMap) : Prop where
  located : t.LeadsInto s.folder l
  /-- The files are those of the names that are bound, in their order. -/
  names : t.namesIn l = (Assoc.keys m).map fileOf
  files : ∀ name preset, Assoc.find? m name = some preset →
    ∃ f, t.entry? (l ++ [fileOf name]) = some (.file f) ∧ Holds f preset
  /-- A name is bound only if a preset can be saved under it. -/
  sound : ∀ name ∈ Assoc.keys m, s.saveFault? name = none
  distinct : (Assoc.keys m).Nodup

namespace Keeps

variable {s : PresetFolder} {t : FileTree} {l : Location} {m : PresetMap} {name : String}
  {preset : Preset}

theorem nonempty (h : s.Keeps t l m) (hname : name ∈ Assoc.keys m) : name ≠ "" :=
  (saveFault?_eq_none_iff_savable.mp (h.sound name hname)).nonempty

theorem entry?_of_unbound (h : s.Keeps t l m) (hname : Assoc.find? m name = none) :
    t.entry? (l ++ [fileOf name]) = none := by
  have hnot : fileOf name ∉ t.namesIn l := by
    rw [h.names, List.mem_map_of_injective fileOf_injective]
    exact Assoc.find?_eq_none_iff.mp hname
  simpa [FileTree.mem_namesIn] using hnot

/-- No folder is in the way of a preset. -/
theorem vacant (h : s.Keeps t l m) (name : String) :
    t.isFolder (l ++ [fileOf name]) = false := by
  cases hname : Assoc.find? m name with
  | none =>
      rw [FileTree.isFolder, h.entry?_of_unbound hname]
      rfl
  | some preset =>
      obtain ⟨f, hf, -⟩ := h.files name preset hname
      exact FileTree.isFolder_of_file hf

/-- The file of a preset is found where it lies, and there only. -/
theorem locate_bound (h : s.Keeps t l m) (hname : Assoc.find? m name = some preset) :
    t.locate (s.folder ++ (⟨fileOf name⟩ : Path)) = .ok (l ++ [fileOf name]) := by
  have hmem : name ∈ Assoc.keys m := List.mem_map.mpr ⟨_, Assoc.mem_of_find? hname, rfl⟩
  obtain ⟨hfault, herror⟩ := saveFault?_eq_none_iff.mp (h.sound name hmem)
  have hplain := plain_fileOf hfault
  obtain ⟨f, hf, -⟩ := h.files name preset hname
  refine (h.located.names hplain herror).locate_file (FileTree.isOpenEnded_append _ hplain) ?_
  rw [hf]
  rfl

theorem exists?_unbound (h : s.Keeps t l m) (hfault : nameFault? name = none)
    (hname : Assoc.find? m name = none) :
    t.exists? (s.folder ++ (⟨fileOf name⟩ : Path)) = false := by
  rw [Bool.eq_false_iff]
  intro hexists
  have hmem := ((exists?_fileOf_iff h.located hfault).mp hexists).2
  rw [FileTree.mem_namesIn, h.entry?_of_unbound hname] at hmem
  exact Bool.noConfusion hmem

/-! ### Changes -/

theorem tick (h : s.Keeps t l m) : s.Keeps t.tick l m :=
  ⟨h.located.mono ⟨fun _ => id, fun _ => id, rfl⟩, h.names, h.files, h.sound, h.distinct⟩

theorem put (h : s.Keeps t l m) (hname : s.saveFault? name = none) {f : File}
    (hf : Holds f preset) :
    s.Keeps (t.put (l ++ [fileOf name]) (.file f)) l (Assoc.put m name preset) := by
  have hput := FileTree.filePut_put (h.vacant name) f
  refine ⟨h.located.mono hput.grows, ?_, ?_, ?_, Assoc.nodup_keys_put h.distinct name preset⟩
  · have hmem : fileOf name ∈ (Assoc.keys m).map fileOf ↔ name ∈ Assoc.keys m :=
      List.mem_map_of_injective fileOf_injective
    rw [FileTree.namesIn_put, Assoc.keys_put, h.names]
    by_cases hbound : name ∈ Assoc.keys m
    · rw [if_pos (hmem.mpr hbound), if_pos hbound]
    · rw [if_neg (mt hmem.mp hbound), if_neg hbound, List.map_append]
      rfl
  · intro other preset' hother
    rw [Assoc.find?_put] at hother
    split at hother
    · rename_i heq
      subst heq
      obtain rfl := Option.some.inj hother
      exact ⟨f, hput.here, hf⟩
    · rename_i hne
      have hfile := append_fileOf_ne l (Ne.symm hne)
      obtain ⟨f', hf', hholds⟩ := h.files other preset' hother
      exact ⟨f', by rw [hput.elsewhere _ hfile]; exact hf', hholds⟩
  · intro other hother
    rcases Assoc.mem_keys_put.mp hother with hother | rfl
    · exact h.sound other hother
    · exact hname

theorem without (h : s.Keeps t l m) (hname : Assoc.find? m name = some preset) :
    s.Keeps (t.without (l ++ [fileOf name])) l (Assoc.erase m name) := by
  obtain ⟨f, hf, -⟩ := h.files name preset hname
  have hput := FileTree.filePut_without hf
  refine ⟨h.located.back hput, ?_, ?_, ?_, ?_⟩
  · rw [FileTree.namesIn_without, Assoc.keys_erase, h.names, List.filter_map]
    refine congrArg _ (List.filter_congr fun other _ => ?_)
    simp [fileOf_injective.eq_iff]
  · intro other preset' hother
    rw [Assoc.find?_erase] at hother
    split at hother
    · exact absurd hother (by simp)
    · rename_i hne
      have hfile := append_fileOf_ne l (Ne.symm hne)
      obtain ⟨f', hf', hholds⟩ := h.files other preset' hother
      exact ⟨f', by rw [← hput.elsewhere _ hfile]; exact hf', hholds⟩
  · intro other hother
    rw [Assoc.keys_erase] at hother
    exact h.sound other (List.mem_filter.mp hother).1
  · rw [Assoc.keys_erase]
    exact h.distinct.filter _

/-! ### Answers -/

theorem text_bound (h : s.Keeps t l m) (hname : Assoc.find? m name = some preset) :
    ∃ text, t.text (s.folder ++ (⟨fileOf name⟩ : Path)) = .ok text ∧
      Preset.ofText? text = some preset := by
  obtain ⟨f, hf, text, htext, hpreset⟩ := h.files name preset hname
  refine ⟨text, ?_, hpreset⟩
  rw [FileTree.text, FileTree.file_of_locate (h.locate_bound hname), hf]
  simp [bind, Except.bind, htext]

theorem writeText_eq (h : s.Keeps t l m) (hfault : nameFault? name = none) (text : String) :
    t.writeText (s.folder ++ (⟨fileOf name⟩ : Path)) text =
      match FileTree.nameError? s.folder (fileOf name) with
      | some cause => .error cause
      | none => .ok (t.put (l ++ [fileOf name])
          (.file ⟨Text.bytes text, none, .clock t.clock⟩)).tick := by
  rw [FileTree.writeText, FileTree.writeContent,
    h.located.writeFile_eq (plain_fileOf hfault) (h.vacant name)]
  cases FileTree.nameError? s.folder (fileOf name) <;> rfl

theorem list_eq (h : s.Keeps t l m) : s.list t = .ok (s.listedNames m) := by
  by_cases hempty : s.folder.text = ""
  · rw [list_of_empty hempty, listedNames, if_pos hempty]
  have hfiles : s.presetFiles t l = t.namesIn l := by
    refine List.filter_eq_self.mpr fun file hfile => ?_
    rw [h.names] at hfile
    obtain ⟨name, hname, rfl⟩ := List.mem_map.mp hfile
    obtain ⟨preset, hpreset⟩ :=
      Option.ne_none_iff_exists'.mp fun hnone => Assoc.find?_eq_none_iff.mp hnone hname
    obtain ⟨f, hf, -⟩ := h.files name preset hpreset
    rw [isPresetName_fileOf (h.nonempty hname),
      FileTree.file_of_locate (h.locate_bound hpreset), hf]
    rfl
  have hstems : ((Assoc.keys m).map fileOf).map (fun file => (Path.cutName file).1) =
      Assoc.keys m := by
    rw [List.map_map]
    refine (List.map_congr_left fun name hname => ?_).trans (List.map_id _)
    exact congrArg Prod.fst (cutName_fileOf (h.nonempty hname))
  rw [list, h.located.locate hempty, listedNames, if_neg hempty]
  simp only [h.located.folder, if_true]
  rw [hfiles, h.names, hstems]
  rfl

end Keeps

end PresetFolder

end SongLibrary
