import SongLibrary.Files.Tree
import SongLibrary.Json.Printer
import SongLibrary.Settings

/-!
# The settings file

An application keeps its settings in an indented JSON file of its folder, and its presets in a
folder beside that file. Without the file it has the default settings.
-/

namespace SongLibrary

/-- Reads settings from a JSON text. -/
def Settings.ofText? (text : String) : Option Settings := do
  Settings.ofDocument? (← Json.Document.ofChars? text.toList)

/-- The settings file of an application folder. -/
def Path.settingsFile (folder : Path) : Path := folder ++ (⟨"settings.json"⟩ : Path)

/-- The folder of presets of an application folder. -/
def Path.presetsFolder (folder : Path) : Path := folder ++ (⟨"presets"⟩ : Path)

namespace FileTree

/-- Loads the settings of an application folder. -/
def loadSettings (t : FileTree) (folder : Path) : Except Error Settings :=
  let p := folder.settingsFile
  if t.exists? p then
    match t.text p with
    | .error cause => .error (.file cause)
    | .ok text =>
      match Settings.ofText? text with
      | none => .error .malformedSettings
      | some settings => .ok settings
  else .ok {}

/-- Saves the settings of an application folder, which is made if need be. -/
def saveSettings (t : FileTree) (folder : Path) (settings : Settings) :
    FileTree × Except Error Unit :=
  match t.makeFolders folder with
  | (t, .error cause) => (t, .error (.file cause))
  | (t, .ok ()) =>
    match t.writeText folder.settingsFile settings.toJson.indented with
    | .error cause => (t, .error (.file cause))
    | .ok t => (t, .ok ())

end FileTree

end SongLibrary
