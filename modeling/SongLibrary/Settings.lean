import SongLibrary.Path
import SongLibrary.Rule.Form
import SongLibrary.View.SortLevels

/-!
# Settings

The settings of an application in four sections. As JSON, every section and every member of one may
be missing and then has its default, except the field of a sort level; what is written has all
members in order.
-/

namespace SongLibrary

open Json (Document)

/-- How folders are loaded. -/
structure FolderSettings where
  lastFolder : Option Path := none
  includeSubfolders : Bool := true
  cacheCapacity : UInt64 := 4096
  deriving DecidableEq

/-- How rules are edited and applied. -/
structure RuleSettings where
  maxRulesPerTab : UInt64 := 50
  fallthrough : Policy := .stopAtFirstMatch
  deriving DecidableEq

/-- How the song list is sorted. -/
structure SortSettings where
  maxLevels : UInt64 := 5
  levels : List SortLevel := [.byTitle]
  deriving DecidableEq

/-- What is logged. -/
structure LoggingSettings where
  filter : String := "info"
  includeTarget : Bool := false
  deriving DecidableEq

/-- The settings of an application. -/
structure Settings where
  /-- The version of the form of the settings. -/
  version : Int32 := 1
  library : FolderSettings := {}
  rules : RuleSettings := {}
  sorting : SortSettings := {}
  logging : LoggingSettings := {}
  deriving DecidableEq

/-- Reads an unsigned integer of 64 bits. -/
def Json.Document.uint64? (d : Document) : Option UInt64 :=
  (d.intWithin? 0 18446744073709551615).map (fun n => UInt64.ofNat n.toNat)

/-- An unsigned integer of 64 bits as a value. -/
def Json.ofUInt64 (n : UInt64) : Json := .number (.ofNat n.toNat n.toNat_lt)

namespace FolderSettings

/-- The names of the members in order. -/
def memberNames : List String := ["last_folder", "include_subfolders", "cache_capacity"]

/-- Reads the section. -/
def ofDocument? (d : Document) : Option FolderSettings := do
  let record ← d.record? memberNames
  let lastFolder ← record.get "last_folder" none (Document.nullable? Document.text?)
  let includeSubfolders ← record.get "include_subfolders" true Document.bool?
  let cacheCapacity ← record.get "cache_capacity" 4096 Document.uint64?
  return ⟨lastFolder.map Path.mk, includeSubfolders, cacheCapacity⟩

/-- The JSON form of the section. -/
def toJson (s : FolderSettings) : Json :=
  let folder :=
    match s.lastFolder with
    | some path => Json.string path.text
    | none => Json.null
  .object [("last_folder", folder), ("include_subfolders", .bool s.includeSubfolders),
    ("cache_capacity", .ofUInt64 s.cacheCapacity)]

end FolderSettings

namespace RuleSettings

/-- The names of the members in order. -/
def memberNames : List String := ["max_rules_per_tab", "fallthrough"]

/-- Reads the section. -/
def ofDocument? (d : Document) : Option RuleSettings := do
  let record ← d.record? memberNames
  let maxRulesPerTab ← record.get "max_rules_per_tab" 50 Document.uint64?
  let fallthrough ← record.get "fallthrough" .stopAtFirstMatch Policy.ofDocument?
  return ⟨maxRulesPerTab, fallthrough⟩

/-- The JSON form of the section. -/
def toJson (s : RuleSettings) : Json :=
  .object [("max_rules_per_tab", .ofUInt64 s.maxRulesPerTab),
    ("fallthrough", .string s.fallthrough.name)]

end RuleSettings

namespace SortSettings

/-- The names of the members in order. -/
def memberNames : List String := ["max_sort_rules", "rules"]

/-- Reads the section. -/
def ofDocument? (d : Document) : Option SortSettings := do
  let record ← d.record? memberNames
  let maxLevels ← record.get "max_sort_rules" 5 Document.uint64?
  let levels ← record.get "rules" [.byTitle] (Document.list? SortLevel.ofDocument?)
  return ⟨maxLevels, levels⟩

/-- The JSON form of the section. -/
def toJson (s : SortSettings) : Json :=
  .object [("max_sort_rules", .ofUInt64 s.maxLevels),
    ("rules", .array (s.levels.map SortLevel.toJson))]

/-- The saved levels as a list to edit. -/
def toLevels (s : SortSettings) : SortLevels := .ofSaved s.levels s.maxLevels.toNat

end SortSettings

namespace LoggingSettings

/-- The names of the members in order. -/
def memberNames : List String := ["filter", "include_target"]

/-- Reads the section. -/
def ofDocument? (d : Document) : Option LoggingSettings := do
  let record ← d.record? memberNames
  let filter ← record.get "filter" "info" Document.text?
  let includeTarget ← record.get "include_target" false Document.bool?
  return ⟨filter, includeTarget⟩

/-- The JSON form of the section. -/
def toJson (s : LoggingSettings) : Json :=
  .object [("filter", .string s.filter), ("include_target", .bool s.includeTarget)]

end LoggingSettings

namespace Settings

/-- The names of the members in order. -/
def memberNames : List String := ["version", "library", "rules", "sorting", "logging"]

/-- Reads settings. -/
def ofDocument? (d : Document) : Option Settings := do
  let record ← d.record? memberNames
  let readVersion := fun d : Document => (d.intWithin? (-2147483648) 2147483647).map Int32.ofInt
  let version ← record.get "version" 1 readVersion
  let library ← record.get "library" {} FolderSettings.ofDocument?
  let rules ← record.get "rules" {} RuleSettings.ofDocument?
  let sorting ← record.get "sorting" {} SortSettings.ofDocument?
  let logging ← record.get "logging" {} LoggingSettings.ofDocument?
  return ⟨version, library, rules, sorting, logging⟩

/-- A number of 32 bits as a JSON number. -/
def versionNumber (n : Int32) : Json.Number :=
  .int n.toInt (by have := n.le_toInt; have := n.toInt_lt; omega)

/-- The JSON form of settings. -/
def toJson (s : Settings) : Json :=
  .object [("version", .number (versionNumber s.version)), ("library", s.library.toJson),
    ("rules", s.rules.toJson), ("sorting", s.sorting.toJson), ("logging", s.logging.toJson)]

end Settings

/-- The logger of a process, which is installed at most once. -/
structure Logger where
  settings : Option LoggingSettings := none

/-- Installs a logger. -/
def Logger.install (logger : Logger) (settings : LoggingSettings) : Except Error Logger :=
  if logger.settings.isSome then .error .loggerInstalled else .ok ⟨some settings⟩

end SongLibrary
