import SongLibrary.Files.SettingsFile
import SongLibrary.Proofs.Json.Indented
import SongLibrary.Proofs.Json.Shape

/-!
# Settings read back

Settings are written with all members of all sections, and each member is read back as it was: an
integer within its bounds, a policy and a direction by their names, a folder that may be null, the
levels of sorting one by one.
-/

namespace SongLibrary

open Json (Document)

/-! ## Members -/

namespace Json

theorem intWithin?_int {least most n : Int} {fits : Number.Fits n} (hleast : least ≤ n)
    (hmost : n ≤ most) :
    Document.intWithin? least most (Json.number (.int n fits)).toDocument = some n :=
  if_pos ⟨hleast, hmost⟩

theorem uint64?_ofUInt64 (n : UInt64) : (ofUInt64 n).toDocument.uint64? = some n := by
  have hlt : n.toNat < 18446744073709551616 := n.toNat_lt
  rw [Document.uint64?, ofUInt64, Number.ofNat, intWithin?_int (by omega) (by omega),
    Option.map_some, Int.toNat_natCast, UInt64.ofNat_toNat]

end Json

theorem Policy.ofDocument?_name (p : Policy) : ofDocument? (.string (some p.name)) = some p := by
  cases p <;> decide

theorem Direction.named?_name (d : Direction) :
    Document.named? names (.string (some d.name)) = some d := by
  cases d <;> decide

/-! ## Sections -/

theorem SortLevel.ofDocument?_toJson (level : SortLevel) :
    ofDocument? level.toJson.toDocument = some level := by
  have hnames : memberNames.Nodup := by decide
  rw [ofDocument?, toJson, Document.record?_object]
  · simp [Json.toDocument, Document.text?, Direction.named?_name]
  · exact hnames

theorem FolderSettings.ofDocument?_toJson (s : FolderSettings) :
    ofDocument? s.toJson.toDocument = some s := by
  have hnames : memberNames.Nodup := by decide
  obtain ⟨lastFolder, includeSubfolders, cacheCapacity⟩ := s
  have hnull : Document.nullable? Document.text? Json.null.toDocument = some none := rfl
  have htext : ∀ text, Document.nullable? Document.text? (Json.string text).toDocument =
      some (some text) := fun _ => rfl
  have hbool : Document.bool? (Json.bool includeSubfolders).toDocument = some includeSubfolders :=
    rfl
  rw [ofDocument?, toJson, Document.record?_object]
  · cases lastFolder with
    | none =>
        simp [hnull, hbool, Json.uint64?_ofUInt64]
    | some path =>
        simp [htext, hbool, Json.uint64?_ofUInt64]
  · exact hnames

theorem RuleSettings.ofDocument?_toJson (s : RuleSettings) :
    ofDocument? s.toJson.toDocument = some s := by
  have hnames : memberNames.Nodup := by decide
  rw [ofDocument?, toJson, Document.record?_object]
  · simp [Json.toDocument, Json.uint64?_ofUInt64,
      Policy.ofDocument?_name]
  · exact hnames

theorem SortSettings.ofDocument?_toJson (s : SortSettings) :
    ofDocument? s.toJson.toDocument = some s := by
  have hnames : memberNames.Nodup := by decide
  have hlevels : Document.list? SortLevel.ofDocument?
      (Json.array (s.levels.map SortLevel.toJson)).toDocument = some s.levels :=
    Document.list?_array fun level _ => level.ofDocument?_toJson
  rw [ofDocument?, toJson, Document.record?_object]
  · simp [Json.uint64?_ofUInt64, hlevels]
  · exact hnames

theorem LoggingSettings.ofDocument?_toJson (s : LoggingSettings) :
    ofDocument? s.toJson.toDocument = some s := by
  have hnames : memberNames.Nodup := by decide
  rw [ofDocument?, toJson, Document.record?_object]
  · simp [Json.toDocument, Document.text?, Document.bool?]
  · exact hnames

namespace Settings

variable {s : Settings} {text : String}

theorem intWithin?_version (n : Int32) :
    (Document.intWithin? (-2147483648) 2147483647 (Json.number (versionNumber n)).toDocument).map
      Int32.ofInt = some n := by
  have hleast := n.le_toInt
  have hmost := n.toInt_lt
  rw [versionNumber, Json.intWithin?_int (by omega) (by omega), Option.map_some, Int32.ofInt_toInt]

/-- **Settings are read back, whatever they are.** -/
theorem ofDocument?_toJson (s : Settings) : ofDocument? s.toJson.toDocument = some s := by
  have hnames : memberNames.Nodup := by decide
  rw [ofDocument?, toJson, Document.record?_object]
  · simp [intWithin?_version, FolderSettings.ofDocument?_toJson,
      RuleSettings.ofDocument?_toJson, SortSettings.ofDocument?_toJson,
      LoggingSettings.ofDocument?_toJson]
  · exact hnames

theorem ofText?_indented (s : Settings) : ofText? s.toJson.indented = some s := by
  rw [ofText?, Json.indented, String.toList_ofList, Document.ofChars?_writeIndented]
  exact s.ofDocument?_toJson

end Settings

end SongLibrary
