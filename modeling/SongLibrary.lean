import SongLibrary.Assoc
import SongLibrary.Error
import SongLibrary.Files.AudioFrame
import SongLibrary.Files.Cache
import SongLibrary.Files.Error
import SongLibrary.Files.FrameReader
import SongLibrary.Files.Loading
import SongLibrary.Files.PresetFolder
import SongLibrary.Files.Rename
import SongLibrary.Files.Retag
import SongLibrary.Files.SameAudio
import SongLibrary.Files.Scan
import SongLibrary.Files.SettingsFile
import SongLibrary.Files.Sidecar
import SongLibrary.Files.SongData
import SongLibrary.Files.SongFile
import SongLibrary.Files.Tree
import SongLibrary.Json.Basic
import SongLibrary.Json.Document
import SongLibrary.Json.Printer
import SongLibrary.Json.Shape
import SongLibrary.Json.Token
import SongLibrary.Number.Decimal
import SongLibrary.Number.Double
import SongLibrary.Number.Numeric
import SongLibrary.Number.Shortest
import SongLibrary.Number.Style
import SongLibrary.Path
import SongLibrary.Rule.Basic
import SongLibrary.Rule.Block
import SongLibrary.Rule.Condition
import SongLibrary.Rule.Engine
import SongLibrary.Rule.Form
import SongLibrary.Rule.Preset
import SongLibrary.Rule.Template
import SongLibrary.Settings
import SongLibrary.Song.Basic
import SongLibrary.Song.Credit
import SongLibrary.Song.Embedded
import SongLibrary.Song.Field
import SongLibrary.Song.FieldForm
import SongLibrary.Song.Position
import SongLibrary.Song.VersionText
import SongLibrary.Stats
import SongLibrary.Tag.Basic
import SongLibrary.Tag.Header
import SongLibrary.Tag.Output
import SongLibrary.Tag.Timestamp
import SongLibrary.Text.Blank
import SongLibrary.Text.Bytes
import SongLibrary.Text.Case
import SongLibrary.Text.Digit
import SongLibrary.Text.Lowercase
import SongLibrary.Text.NulSeparated
import SongLibrary.Text.Range
import SongLibrary.Text.Search
import SongLibrary.Text.Split
import SongLibrary.Text.Word
import SongLibrary.VersionIndex
import SongLibrary.View.Basic
import SongLibrary.View.Filter
import SongLibrary.View.Query
import SongLibrary.View.Sort
import SongLibrary.View.SortLevels
import SongLibrary.Tag.Frame
import SongLibrary.Proofs.Assoc
import SongLibrary.Proofs.Number.Digits
import SongLibrary.Proofs.Number.Numeral
import SongLibrary.Proofs.Number.Rounding
import SongLibrary.Proofs.Number.Reading
import SongLibrary.Proofs.Json.Number
import SongLibrary.Proofs.Json.Lexing
import SongLibrary.Proofs.Json.RoundTrip
import SongLibrary.Proofs.Json.NulFree
import SongLibrary.Proofs.Rule.Blocks
import SongLibrary.Proofs.Rule.Meaning
import SongLibrary.Proofs.Song.Comment
import SongLibrary.Proofs.Path
import SongLibrary.Proofs.PathOrder
import SongLibrary.Proofs.Files.Tree
import SongLibrary.Proofs.Files.Cache
import SongLibrary.Proofs.Files.SharedCache
import SongLibrary.Proofs.Song.Rewriting
import SongLibrary.Proofs.Tag.Update
import SongLibrary.Proofs.Tag.Output
import SongLibrary.Proofs.Files.SongData
import SongLibrary.Proofs.Files.FrameReader
import SongLibrary.Proofs.Files.Truthful
import SongLibrary.Proofs.Files.SongFile
import SongLibrary.Proofs.Files.Retag
import SongLibrary.Proofs.Files.RetagRun
import SongLibrary.Proofs.Files.CacheAge
import SongLibrary.Proofs.StableSort
import SongLibrary.Proofs.View.Sort
import SongLibrary.Proofs.VersionIndex
import SongLibrary.Proofs.Text.Words
import SongLibrary.Proofs.View.Query
import SongLibrary.Proofs.View.Rows
import SongLibrary.Proofs.LoadOrder
import SongLibrary.Proofs.Song.Merging
import SongLibrary.Proofs.Json.Indented
import SongLibrary.Proofs.Json.Shape
import SongLibrary.Proofs.Rule.Form
import SongLibrary.Proofs.Files.Folder
import SongLibrary.Proofs.Files.PresetFolder
import SongLibrary.Proofs.Files.PresetRun
import SongLibrary.Proofs.Song.VersionText
import SongLibrary.Proofs.View.VersionLevel
import SongLibrary.Proofs.Tally
import SongLibrary.Proofs.Identity
import SongLibrary.Proofs.Files.Loading
import SongLibrary.Proofs.Files.Sidecar
import SongLibrary.Proofs.Files.Export
import SongLibrary.Proofs.Files.TagWrites
import SongLibrary.Proofs.Files.RetagBatch
import SongLibrary.Proofs.Files.Audio
import SongLibrary.Proofs.Files.SameAudio
import SongLibrary.Proofs.Files.Rename
import SongLibrary.Proofs.Text.Lowercase
import SongLibrary.Proofs.View.Literal
import SongLibrary.Proofs.View.Equality
import SongLibrary.Proofs.Rule.Template
import SongLibrary.Proofs.Rule.Policy
import SongLibrary.Proofs.Files.PresetNames
import SongLibrary.Proofs.Tag.Overlay
import SongLibrary.Proofs.Files.TagOverlay
import SongLibrary.Proofs.View.SortLevels
import SongLibrary.Proofs.Text.Trim
import SongLibrary.Proofs.View.FreeTerms
import SongLibrary.Proofs.Song.Credit
import SongLibrary.Proofs.Totals
import SongLibrary.Proofs.Files.FileName
import SongLibrary.Proofs.Files.Moving
import SongLibrary.Proofs.Text.LowerEnding
import SongLibrary.Proofs.Files.RenameSafety
import SongLibrary.Proofs.Files.SongName
import SongLibrary.Proofs.Files.Walk
import SongLibrary.Proofs.Files.Listing
import SongLibrary.Proofs.Files.Place
import SongLibrary.Proofs.Files.ExportRun
import SongLibrary.Proofs.Rule.Canonical
import SongLibrary.Proofs.Settings
import SongLibrary.Proofs.Files.SettingsFile
