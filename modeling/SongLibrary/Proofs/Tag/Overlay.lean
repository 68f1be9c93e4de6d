import SongLibrary.Proofs.Tag.Update
import Mathlib.Data.List.TakeWhile

/-!
# Updates over updates

What is stored of an update depends on the tag it is made to in a simple way: each text is that of
the update or else the one that was there, the comments with data give way to the new one, and all
else stays. `Overlaid` says so.

Two updates that follow one another come to the same as a single one, which has the texts of the
second and, where there are none, those of the first. In particular the same update finds nothing
more to do.

For the comments this is about tags whose comments are stored as they are; `Plain.faithful` says
what is enough for that.
-/

namespace SongLibrary

/-! ## Comments that are stored as they are -/

/-- A text in ASCII has a byte for each character. -/
theorem Text.bytes_of_ascii {text : String} (h : ∀ c ∈ text.toList, c.toNat < 128) :
    Text.bytes text = text.toList.map fun c => UInt8.ofNat c.toNat := by
  have hencode : ∀ {cs : List Char}, (∀ c ∈ cs, c.toNat < 128) →
      cs.flatMap String.utf8EncodeChar = cs.map fun c => UInt8.ofNat c.toNat := by
    intro cs hcs
    induction cs with
    | nil => rfl
    | cons c cs ih =>
        have hone : String.utf8EncodeChar c = [UInt8.ofNat c.toNat] :=
          if_pos (Nat.le_of_lt_succ (hcs c List.mem_cons_self))
        rw [List.flatMap_cons, hone, ih fun d hd => hcs d (List.mem_cons_of_mem _ hd)]
        rfl
  rw [← hencode h, Text.bytes, String.toUTF8, ← String.utf8Encode_toList, List.utf8Encode]
  simp

/-- A language of three characters in ASCII is stored as it is. -/
theorem Comment.storedLanguage_of_ascii {language : String}
    (hlength : language.length = languageSize) (hascii : ∀ c ∈ language.toList, c.toNat < 128) :
    storedLanguage language = language := by
  have htake : (Text.bytes language ++ List.replicate languageSize ' '.toUInt8).take languageSize
      = Text.bytes language := by
    refine List.take_left' ?_
    rw [Text.bytes_of_ascii hascii, List.length_map, String.length_toList]
    exact hlength
  rw [storedLanguage, htake, Text.bytes_of_ascii hascii, List.map_map, ← String.toList_inj,
    String.toList_ofList]
  refine (List.map_congr_left fun c hc => ?_).trans (List.map_id _)
  have hlt := hascii c hc
  show Char.ofNat (UInt8.ofNat c.toNat).toNat = c
  rw [UInt8.toNat_ofNat', Nat.mod_eq_of_lt (by omega), Char.ofNat_toNat]

/-- Without a NUL in the description nothing of it gets into the text. -/
theorem Comment.stored_of_plain {c : Comment} (hlanguage : storedLanguage c.language = c.language)
    (hnul : Text.nul ∉ c.description.toList) : c.stored = c := by
  have hall : ∀ d ∈ c.description.toList, decide (d ≠ Text.nul) = true := fun d hd =>
    decide_eq_true fun heq => hnul (heq ▸ hd)
  rw [stored, hlanguage, List.takeWhile_eq_self_iff.mpr hall, List.dropWhile_eq_nil_iff.mpr hall]
  simp

/-- What the comments of a tag may be to be stored as they are. -/
structure Tag.Plain (t : Tag) : Prop where
  /-- No comment takes the place of another. -/
  distinct : Comment.Distinct t.comments
  /-- A language has three characters in ASCII. -/
  languages : ∀ c ∈ t.comments,
    c.language.length = Comment.languageSize ∧ ∀ d ∈ c.language.toList, d.toNat < 128
  descriptions : ∀ c ∈ t.comments, Text.nul ∉ c.description.toList

theorem Tag.Plain.faithful {t : Tag} (h : t.Plain) : t.Faithful := by
  refine ⟨h.distinct, fun c hc => ?_⟩
  obtain ⟨hlength, hascii⟩ := h.languages c hc
  exact Comment.stored_of_plain (Comment.storedLanguage_of_ascii hlength hascii)
    (h.descriptions c hc)

/-! ## Frames with texts -/

/-- The frames that hold a text. -/
inductive TextFrame where
  | title
  | artist
  | album
  | track
  | disc
  | date
  deriving DecidableEq

/-- The text in a frame of a tag. -/
def Tag.text (t : Tag) : TextFrame → Option String
  | .title => t.title
  | .artist => t.artist
  | .album => t.album
  | .track => t.track
  | .disc => t.disc
  | .date => t.date

/-- The text that an update has for a frame. -/
def TagUpdate.text (u : TagUpdate) : TextFrame → Option String
  | .title => u.title
  | .artist => u.artist
  | .album => u.album
  | .track => u.track
  | .disc => u.disc
  | .date => u.date

/-- A tag is its texts, its comments and its other frames. -/
theorem Tag.ext_texts {s t : Tag} (htexts : ∀ k, s.text k = t.text k)
    (hcomments : s.comments = t.comments) (hothers : s.others = t.others) : s = t := by
  rw [Tag.mk.injEq]
  exact ⟨htexts .title, htexts .artist, htexts .album, htexts .track, htexts .disc, htexts .date,
    hcomments, hothers⟩

theorem Tag.text_stored_update (t : Tag) (u : TagUpdate) (k : TextFrame) :
    (t.update u).stored.text k = ((u.text k).or (t.text k)).map storedText := by
  cases k <;> rfl

/-- What has been stored is stored as it is, once more or not at all. -/
theorem map_storedText_or (new old : Option String) :
    (new.or (old.map storedText)).map storedText = (new.or old).map storedText := by
  cases new with
  | some text => rfl
  | none =>
      cases old with
      | none => rfl
      | some text => simp [storedText_storedText]

/-! ## One update over another -/

/-- One update over another. -/
def TagUpdate.laidOver (second first : TagUpdate) : TagUpdate where
  title := second.title.or first.title
  artist := second.artist.or first.artist
  album := second.album.or first.album
  track := second.track.or first.track
  disc := second.disc.or first.disc
  date := second.date.or first.date
  data := second.data.or first.data

namespace TagUpdate

theorem text_laidOver (second first : TagUpdate) (k : TextFrame) :
    (second.laidOver first).text k = (second.text k).or (first.text k) := by
  cases k <;> rfl

end TagUpdate

namespace Comment

/-- Comments with the data that an update has, if it has any. -/
def withData (comments : List Comment) : Option String → List Comment
  | some text => foreign comments ++ [ofData text]
  | none => comments

theorem withData_withData (comments : List Comment) (first second : Option String) :
    withData (withData comments first) second = withData comments (second.or first) := by
  cases second with
  | none => rfl
  | some text =>
      cases first with
      | none => rfl
      | some text' =>
          rw [withData, withData, foreign_append_ofData]
          rfl

end Comment

namespace Tag

/-- What a tag becomes when an update is laid over it. -/
structure Overlaid (old : Tag) (u : TagUpdate) (new : Tag) : Prop where
  /-- A frame has the text of the update or else the one it had, as it is stored. -/
  texts : ∀ k, new.text k = ((u.text k).or (old.text k)).map storedText
  others : new.others = old.others
  /-- Comments without data keep their order, and new data stands behind them. -/
  comments : old.Faithful → new.comments = Comment.withData old.comments u.data
  faithful : old.Faithful → new.Faithful

theorem overlaid_stored_update (old : Tag) (u : TagUpdate) :
    Overlaid old u (old.update u).stored := by
  have hcomments : old.Faithful →
      (old.update u).stored.comments = Comment.withData old.comments u.data ∧
        (old.update u).stored.Faithful := by
    intro h
    cases hdata : u.data with
    | some text => exact ⟨comments_stored_update h hdata, h.stored_update hdata⟩
    | none =>
        have hsame : (old.update u).comments = old.comments := by rw [update, hdata]
        have hkept : (old.update u).stored.comments = old.comments := by
          rw [stored, hsame]
          exact comments_stored h
        exact ⟨hkept, hkept ▸ h.distinct, hkept ▸ h.stored⟩
  exact ⟨text_stored_update old u, rfl, fun h => (hcomments h).1, fun h => (hcomments h).2⟩

namespace Overlaid

variable {old new last : Tag} {u v : TagUpdate}

/-- **Two updates come to one.** -/
theorem trans (h : Overlaid old u new) (h' : Overlaid new v last) :
    Overlaid old (v.laidOver u) last := by
  refine ⟨fun k => ?_, h'.others.trans h.others, fun hold => ?_,
    fun hold => h'.faithful (h.faithful hold)⟩
  · rw [h'.texts, h.texts, map_storedText_or, TagUpdate.text_laidOver, Option.or_assoc]
  · rw [h'.comments (h.faithful hold), h.comments hold, Comment.withData_withData]
    rfl

/-- An update leaves one tag. -/
theorem unique {new' : Tag} (h : Overlaid old u new) (h' : Overlaid old u new')
    (hold : old.Faithful) : new = new' :=
  ext_texts (fun k => (h.texts k).trans (h'.texts k).symm)
    ((h.comments hold).trans (h'.comments hold).symm) (h.others.trans h'.others.symm)

end Overlaid

end Tag

end SongLibrary
