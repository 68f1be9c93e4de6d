import SongLibrary.Proofs.Files.Audio
import SongLibrary.Proofs.Tag.Overlay

/-!
# A tag that is written over another

Writing an update into a file lays it over the tag of the file, or over the empty tag if there is
none. Frames that the update has no text for keep theirs, comments other than those with data keep
their order, and what is behind the tag is left alone by a file that keeps its audio. A write fails
only where the tag cannot be read, before anything is changed.

The second of two updates wins where both have a text, so writing one after the other comes to
writing a single one; the same goes for any number of them.
-/

namespace SongLibrary

namespace FileTree

variable {t t' : FileTree} {p : Path} {u : TagUpdate}

/-! ## One write -/

/-- An update puts a file with the new tag where the path leads. -/
theorem file_of_updateTag (h : t.updateTag p u = (t', .ok ())) : ∃ f g, t.file p = .ok f ∧
    f.retag u = .ok g ∧ t'.file p = .ok { g with modified := .clock t.clock } := by
  obtain ⟨l, f, g, hl, hf, hg, rfl⟩ := updateTag_cases h
  have hput := filePut_tick (g := { g with modified := .clock t.clock }) hf
  have hl' := (hput.locate_eq (by rw [hf]; rfl) p).trans hl
  exact ⟨f, g, by rw [file_of_locate hl, hf], hg, hput.file_here hl'⟩

/-- A file whose tag can be read can be written. -/
theorem updateTag_of_readTag {tag? : Option Tag} (h : t.readTag p = .ok tag?) (u : TagUpdate) :
    ∃ t', t.updateTag p u = (t', .ok ()) := by
  rcases hupdate : t.updateTag p u with ⟨t', e | ⟨⟩⟩
  · obtain ⟨-, cause, hcause, -⟩ := updateTag_eq_error_iff.mp hupdate
    rw [h] at hcause
    exact absurd hcause (by simp)
  · exact ⟨t', rfl⟩

/-- What an update leaves in a file, which had a tag or none. -/
structure Overlaid (t : FileTree) (p : Path) (u : TagUpdate) (t' : FileTree) (tag? : Option Tag)
    (new : Tag) : Prop where
  before : t.readTag p = .ok tag?
  after : t'.readTag p = .ok (some new)
  tag : Tag.Overlaid (tag?.getD .empty) u new

theorem overlaid_of_updateTag (h : t.updateTag p u = (t', .ok ())) :
    ∃ tag? new, Overlaid t p u t' tag? new := by
  obtain ⟨f, g, hf, hg, hg'⟩ := file_of_updateTag h
  obtain ⟨tag?, content, hread, -, rfl⟩ := File.retag_cases hg
  exact ⟨tag?, _, (readTag_of_file hf).trans hread, readTag_of_file hg',
    Tag.overlaid_stored_update _ u⟩

theorem audio_of_updateTag {f : File} (h : t.updateTag p u = (t', .ok ())) (hf : t.file p = .ok f)
    (hkeeps : f.keepsAudio = true) : t'.audio p = t.audio p := by
  obtain ⟨f', g, hf', hg, hg'⟩ := file_of_updateTag h
  obtain rfl := Except.ok.inj (hf.symm.trans hf')
  have hsame : { g with modified := .clock t.clock }.audio = f.audio :=
    (File.audio_retag_iff hg).mpr hkeeps
  rw [audio, audio, hf, hg']
  dsimp only
  rw [hsame]

/-! ## Several writes -/

/-- **One update over another comes to a single one.** -/
theorem Overlaid.trans {t'' : FileTree} {v : TagUpdate} {tag? last? : Option Tag} {new last : Tag}
    (h : Overlaid t p u t' tag? new) (h' : Overlaid t' p v t'' last? last) :
    Overlaid t p (v.laidOver u) t'' tag? last := by
  have hlast : last? = some new := Except.ok.inj (h'.before.symm.trans h.after)
  have htag := h'.tag
  rw [hlast] at htag
  exact ⟨h.before, h'.after, h.tag.trans htag⟩

/-- What some updates in their order come to. -/
def mergedUpdate (first : TagUpdate) (later : List TagUpdate) : TagUpdate :=
  later.foldl (fun before u => u.laidOver before) first

/-- **Any number of updates come to one.** -/
theorem overlaid_of_writeTags {later : List TagUpdate}
    (h : t.writeTags ((u :: later).map (TagWrite.mk p)) = .ok t') :
    ∃ tag? new, Overlaid t p (mergedUpdate u later) t' tag? new := by
  -- the last update is laid over what all before it have left
  induction later using List.reverseRecOn generalizing t' with
  | nil =>
      rw [List.map_singleton, ← List.nil_append [_], writeTags_concat] at h
      obtain ⟨t₁, hnone, hone⟩ := bind_cases h
      obtain rfl : t = t₁ := Except.ok.inj hnone
      exact overlaid_of_updateTag ((writeTag_eq_ok_iff (w := ⟨p, u⟩)).mp hone)
  | append_singleton later v ih =>
      rw [← List.cons_append, List.map_append, List.map_singleton, writeTags_concat] at h
      obtain ⟨t₁, h₁, hlast⟩ := bind_cases h
      obtain ⟨tag?, new, hnew⟩ := ih h₁
      obtain ⟨last?, last, hlast⟩ :=
        overlaid_of_updateTag ((writeTag_eq_ok_iff (w := ⟨p, v⟩)).mp hlast)
      refine ⟨tag?, last, ?_⟩
      rw [mergedUpdate, List.foldl_append]
      exact hnew.trans hlast

/-- The same update laid over the same file leaves the same texts and other frames, and the same tag
if the comments were stored as they stand. -/
theorem Overlaid.agree {t'' : FileTree} {tag? once? : Option Tag} {new once : Tag}
    (h : Overlaid t p u t' tag? new) (h' : Overlaid t p u t'' once? once) :
    (∀ k, new.text k = once.text k) ∧ new.others = once.others ∧
      ((tag?.getD .empty).Faithful → new = once) := by
  have hsame : once? = tag? := Except.ok.inj (h'.before.symm.trans h.before)
  have htag := h'.tag
  rw [hsame] at htag
  exact ⟨fun k => (h.tag.texts k).trans (htag.texts k).symm, h.tag.others.trans htag.others.symm,
    h.tag.unique htag⟩

/-! ## What a write does -/

/--
**A write lays its update over the tag of a file.** A frame has the text of the update or else the
one it had, as it is stored; frames of other kinds are as they were. Comments that are stored as
they stand are as they were, too, or, if the update has data, those without data are, in their
order, with the new one behind them. The audio is that of the file, if the file keeps it.

A second write wins over the first, just as one write of both updates, and any number of writes come
to one. A write fails where the tag cannot be read, and nowhere else, and it changes nothing then.
-/
theorem updateTag_overlays (t : FileTree) (p : Path) :
    (∀ u t', t.updateTag p u = (t', .ok ()) → ∃ f tag? new, t.file p = .ok f ∧
      t.readTag p = .ok tag? ∧ t'.readTag p = .ok (some new) ∧
      Tag.Overlaid (tag?.getD .empty) u new ∧ (f.keepsAudio = true → t'.audio p = t.audio p)) ∧
    (∀ u v t₁, t.updateTag p u = (t₁, .ok ()) → ∃ t₂ t₃ tag? twice once,
      t.readTag p = .ok tag? ∧ t₁.updateTag p v = (t₂, .ok ()) ∧ t₂.readTag p = .ok (some twice) ∧
      t.updateTag p (v.laidOver u) = (t₃, .ok ()) ∧ t₃.readTag p = .ok (some once) ∧
      (∀ k, twice.text k = once.text k) ∧ twice.others = once.others ∧
      ((tag?.getD .empty).Faithful → twice = once)) ∧
    (∀ u later t', t.writeTags ((u :: later).map (TagWrite.mk p)) = .ok t' → ∃ tag? new,
      t.readTag p = .ok tag? ∧ t'.readTag p = .ok (some new) ∧
      Tag.Overlaid (tag?.getD .empty) (mergedUpdate u later) new) ∧
    (∀ u t' e, t.updateTag p u = (t', .error e) ↔
      t' = t ∧ ∃ cause, t.readTag p = .error cause ∧ e = .cannotUpdate p cause) ∧
    ∀ tag : Tag, tag.Plain → tag.Faithful := by
  refine ⟨fun u t' h => ?_, fun u v t₁ h => ?_, fun u later t' h => ?_,
    fun u t' e => updateTag_eq_error_iff, fun tag h => h.faithful⟩
  · obtain ⟨f, g, hf, -, -⟩ := file_of_updateTag h
    obtain ⟨tag?, new, hnew⟩ := overlaid_of_updateTag h
    exact ⟨f, tag?, new, hf, hnew.before, hnew.after, hnew.tag, audio_of_updateTag h hf⟩
  · obtain ⟨tag?, new, hnew⟩ := overlaid_of_updateTag h
    obtain ⟨t₂, h₂⟩ := updateTag_of_readTag hnew.after v
    obtain ⟨t₃, h₃⟩ := updateTag_of_readTag hnew.before (v.laidOver u)
    obtain ⟨last?, last, hlast⟩ := overlaid_of_updateTag h₂
    obtain ⟨once?, once, honce⟩ := overlaid_of_updateTag h₃
    exact ⟨t₂, t₃, tag?, last, once, hnew.before, h₂, hlast.after, h₃, honce.after,
      (hnew.trans hlast).agree honce⟩
  · obtain ⟨tag?, new, hnew⟩ := overlaid_of_writeTags h
    exact ⟨tag?, new, hnew.before, hnew.after, hnew.tag⟩

/-- A song with a foreign comment, one with data, and a frame of another kind. -/
def taggedSong : Tag where
  title := some "Old"
  artist := some "Ann"
  album := none
  track := none
  disc := none
  date := none
  comments := [⟨"ved", "first", "old data"⟩, ⟨"eng", "", "kept"⟩]
  others := [⟨"TCON", [0, 80]⟩]

/-- One file in the starting folder. -/
def songTree (content : String) (tag? : Option Tag) : FileTree :=
  ⟨[(["m"], .folder), (["m", "a.mp3"], .file ⟨Text.bytes content, tag?, .given 1⟩)], 0, ["m"]⟩

/-- A file with that tag. -/
def taggedTree : FileTree := songTree "audio of the song" (some taggedSong)

/-- A new title and new data. -/
def retitling : TagUpdate := ⟨some "New", none, none, none, none, none, some "new data"⟩

/-- A write into a file with comments and another frame. -/
theorem updateTag_overlays_tagged :
    ∃ t' new, taggedTree.updateTag ⟨"/m/a.mp3"⟩ retitling = (t', .ok ()) ∧
      t'.readTag ⟨"/m/a.mp3"⟩ = .ok (some new) ∧ new.title = some "New" ∧ new.artist = some "Ann" ∧
      new.comments = [⟨"eng", "", "kept"⟩, ⟨"ved", "", "new data"⟩] ∧
      new.others = [⟨"TCON", [0, 80]⟩] ∧
      t'.audio ⟨"/m/a.mp3"⟩ = taggedTree.audio ⟨"/m/a.mp3"⟩ := by
  have hread : taggedTree.readTag ⟨"/m/a.mp3"⟩ = .ok (some taggedSong) := by
    decide +kernel
  have hfaithful : taggedSong.Faithful := by
    refine ⟨?_, by decide +kernel⟩
    rw [Comment.Distinct]
    decide +kernel
  have hfile : taggedTree.file ⟨"/m/a.mp3"⟩ =
      .ok ⟨Text.bytes "audio of the song", some taggedSong, .given 1⟩ := by decide +kernel
  obtain ⟨t', ht'⟩ := updateTag_of_readTag hread retitling
  obtain ⟨f, tag?, new, hf, hold, hnew, htag, haudio⟩ := (updateTag_overlays _ _).1 _ _ ht'
  rw [← Except.ok.inj (hread.symm.trans hold)] at htag
  rw [← Except.ok.inj (hfile.symm.trans hf)] at haudio
  exact ⟨t', new, ht', hnew, htag.texts .title, htag.texts .artist, htag.comments hfaithful,
    htag.others, haudio (by decide +kernel)⟩

/-- The folder after a write into its file. -/
def rewritten (content : String) (tag? : Option Tag) (u : TagUpdate) : Option FileTree :=
  ((songTree content tag?).writeTag ⟨⟨"a.mp3"⟩, u⟩).toOption

/-- The tag of its file. -/
def songTag (t : FileTree) : Option Tag := (t.readTag ⟨"a.mp3"⟩).toOption.join

/-- The NUL that a text ends in is lost, a language is changed that is not in ASCII, and so is audio
that starts with a zero byte. -/
theorem updateTag_overlays_inexact :
    ((rewritten "audio" none { retitling with title := some "ab\x00" }).bind songTag).map Tag.title
      = some (some "ab") ∧
    ((rewritten "audio" (some (.ofComments [⟨"Ã¤b", "", "kept"⟩]))
        { retitling with data := none }).bind songTag).map Tag.comments
      = some [⟨"Ã\x83Â", "", "kept"⟩] ∧
    (rewritten "\x00silent audio" none retitling).map (·.audio ⟨"a.mp3"⟩) ≠
      some ((songTree "\x00silent audio" none).audio ⟨"a.mp3"⟩) := by
  refine ⟨?_, ?_, ?_⟩ <;> decide +kernel

end FileTree

end SongLibrary
