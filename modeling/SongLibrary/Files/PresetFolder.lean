import SongLibrary.Files.Tree
import SongLibrary.Json.Printer
import SongLibrary.Rule.Form

/-!
# A folder of presets

Presets are kept by name, each in an indented JSON file of a folder. A name counts without the
blanks around it. It may not be empty, lead elsewhere or hold a separator. A preset is loaded with
at most a fixed number of rules per list.
-/

namespace SongLibrary

/-- Reads a preset from a JSON text. -/
def Preset.ofText? (text : String) : Option Preset := do
  Preset.ofDocument? (← Json.Document.ofChars? text.toList)

/-- A folder of presets. -/
structure PresetFolder where
  folder : Path
  maxRulesPerTab : Nat

namespace PresetFolder

/-- The path of the preset with a name. -/
def pathOf (s : PresetFolder) (name : String) : Except Error Path :=
  let name := Text.trim name
  if name.isEmpty then .error .presetNameEmpty
  else if name.toList.any (fun c => c == '/' || c == '\\') ∨ name = "." ∨ name = ".." then
    .error (.presetNameInvalid name)
  else .ok (s.folder ++ (⟨name ++ ".json"⟩ : Path))

/-- Saves a preset, in the place of one with its name. -/
def save (s : PresetFolder) (t : FileTree) (name : String) (preset : Preset) :
    FileTree × Except Error Unit :=
  match s.pathOf name with
  | .error e => (t, .error e)
  | .ok p =>
    match t.makeFolders s.folder with
    | (t, .error cause) => (t, .error (.file cause))
    | (t, .ok ()) =>
      match t.writeText p preset.toJson.indented with
      | .error cause => (t, .error (.file cause))
      | .ok t => (t, .ok ())

/-- Loads a preset. -/
def load (s : PresetFolder) (t : FileTree) (name : String) : Except Error Preset := do
  let p ← s.pathOf name
  if t.exists? p then
    match t.text p with
    | .error cause => .error (.file cause)
    | .ok text =>
      match Preset.ofText? text with
      | none => .error .malformedJson
      | some preset => .ok (preset.truncate s.maxRulesPerTab)
  else .error (.presetFileMissing name)

/-- Deletes a preset. -/
def delete (s : PresetFolder) (t : FileTree) (name : String) : Except Error FileTree := do
  let p ← s.pathOf name
  if t.exists? p then (t.removeFile p).mapError .file else .error (.presetMissing name)

/-- Whether a name is that of a JSON file, in any case of the ASCII letters of the extension. -/
def isPresetName (name : String) : Bool :=
  (Path.cutName name).2.any (fun e => Text.equalsIgnoringAsciiCase e "json")

/-- The names of the JSON files in the folder, which lies at a location. -/
def presetFiles (s : PresetFolder) (t : FileTree) (l : Location) : List String :=
  (t.namesIn l).filter fun name =>
    isPresetName name && (t.file (s.folder ++ (⟨name⟩ : Path))).isOk

/-- The names of the presets in the order of characters, none if there is no folder. -/
def list (s : PresetFolder) (t : FileTree) : Except Error (List String) :=
  match t.locate s.folder with
  | .error _ => .ok []
  | .ok l =>
    if t.isFolder l then
      let stems := (s.presetFiles t l).map (fun name => (Path.cutName name).1)
      .ok (stems.mergeSort (fun a b => compare a b != .gt))
    else .error (.file .notFolder)

end PresetFolder

end SongLibrary
