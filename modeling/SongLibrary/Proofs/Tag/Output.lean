import SongLibrary.Tag.Output

/-!
# What the output of a preset depends on

Of the path of a song nothing counts but the file name. Songs with the same data, the same text
before it and the same file name have the same fields, meet the same conditions and get the same
update.
-/

namespace SongLibrary

/-- Two songs that differ in the folders of their paths at most. -/
structure Song.SameFile (s s' : Song) : Prop where
  data : s.data = s'.data
  lead : s.lead = s'.lead
  fileName : s.path.fileName? = s'.path.fileName?

namespace Song.SameFile

variable {s s' : Song}

theorem textAt (h : s.SameFile s') (key : String) : s.textAt key = s'.textAt key := by
  rw [Song.textAt, Song.textAt, h.data]

theorem title (h : s.SameFile s') : s.title = s'.title := by
  rw [Song.title, Song.title, h.textAt, Path.stem?, Path.stem?, h.fileName]

theorem field (h : s.SameFile s') (f : Field) : s.field f = s'.field f := by
  have hversion : s.version = s'.version := by rw [Song.version, Song.version, h.data]
  cases f with
  | title => exact h.title
  | version => rw [Song.field, Song.field, versionText, versionText, hversion]
  | file => rw [Song.field, Song.field, Song.fileName, Song.fileName, h.fileName]
  | artist | coverArtist | disc | track | date | comment | special => exact h.textAt _

theorem get (h : s.SameFile s') (name : String) : s.get name = s'.get name := by
  rw [Song.get, Song.get]
  cases Field.ofName? name with
  | some f => exact h.field f
  | none => exact h.textAt name

theorem isLatest (h : s.SameFile s') (index : VersionIndex) :
    index.isLatest s = index.isLatest s' := by
  have hidentity : s.identity = s'.identity := by
    rw [identity, identity, artist, artist, coverArtist, coverArtist, h.title, h.textAt, h.textAt]
  have hversion : s.rawVersion = s'.rawVersion := by rw [rawVersion, rawVersion, h.data]
  rw [VersionIndex.isLatest, VersionIndex.isLatest, hidentity, hversion]

theorem holds (h : s.SameFile s') (rule : Rule) (index : VersionIndex) :
    rule.holds s index = rule.holds s' index := by
  rw [Rule.holds, Rule.holds, h.get, h.isLatest]

theorem render (h : s.SameFile s') (template : String) :
    Template.render template s = Template.render template s' := by
  have hpart : Template.Part.render s = Template.Part.render s' := by
    funext part
    cases part with
    | literal c => rfl
    | field name => rw [Template.Part.render, Template.Part.render, h.get]
  rw [Template.render, Template.render, hpart]

theorem output (h : s.SameFile s') (policy : Policy) (rules : List Rule) (index : VersionIndex) :
    Rule.output policy rules s index = Rule.output policy rules s' index := by
  have hblock : Rule.blockOutput? policy s index = Rule.blockOutput? policy s' index := by
    funext block
    have hholds : (fun rule : Rule => rule.holds s index) = fun rule => rule.holds s' index :=
      funext fun rule => h.holds rule index
    rw [Rule.blockOutput?, Rule.blockOutput?, Rule.blockHolds, Rule.blockHolds, hholds]
    cases block.getLast? with
    | none => rfl
    | some rule => dsimp only; rw [h.render]
  rw [Rule.output, Rule.output, hblock]

/-- **Songs from one file get the same update.** -/
theorem update (h : s.SameFile s') (preset : Preset) (policy : Policy) (index : VersionIndex) :
    preset.update policy s index = preset.update policy s' index := by
  have houtputs : preset.outputs policy s index = preset.outputs policy s' index := by
    rw [Preset.outputs, Preset.outputs, h.output, h.output, h.output]
  rw [Preset.update, Preset.update, houtputs]
  simp only [TagUpdate.ofOutputs, h.title, h.field, h.lead, h.data, artist, h.textAt]

end Song.SameFile

end SongLibrary
