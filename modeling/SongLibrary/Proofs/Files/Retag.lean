import SongLibrary.Files.Loading
import SongLibrary.Files.Retag
import SongLibrary.Proofs.Files.Cache
import SongLibrary.Proofs.Tag.Output

/-!
# Applying a preset keeps the data

A preset is applied to songs that were read from their files. Every file that is written gets the
data it had, in one comment behind those that are not the program's own, so the data read from it
afterwards has the same values. If none of the others holds an object, the song read afterwards is
the same song, and then the update that a preset makes of it is the same update: the second time, it
changes no tag.

All of this is about files whose comments come back from the tag layer as they are, and in which the
library that reads songs finds these comments and no other data. `Faithful` says which those are.
-/

namespace SongLibrary

namespace FileTree

/-- The comments of the file at a path are what is read from its tag, and what is written there. -/
structure Faithful (t : FileTree) (reader : AudioReader) (p : Path) : Prop where
  /-- The library finds the comments of the tag and no other data. -/
  found : ∀ f, t.file p = .ok f → reader.FindsTag p.extension? f
  /-- The comments are stored as they are. -/
  stored : ∀ tag, t.readTag p = .ok (some tag) → tag.Faithful
  /-- If the library cannot read the file, no comment holds a NUL: each is one text either way. -/
  whole : ∀ f tag, t.file p = .ok f → f.readTag = .ok (some tag) →
    reader.texts? p.extension? f = none → ∀ c ∈ tag.comments, Text.nul ∉ c.text.toList

theorem song_of_embedded {t : FileTree} {reader : AudioReader} {p : Path} {data : Option Embedded}
    (h : t.embedded reader p = .ok data) : t.song reader p = .ok (.ofEmbedded p data) := by
  rw [song, h]
  rfl

/-- What is embedded in such a file is the data in its tag. -/
theorem Faithful.embedded_eq {t : FileTree} {reader : AudioReader} {p : Path} {f : File} {tag : Tag}
    (hp : t.Faithful reader p) (hfile : t.file p = .ok f) (hread : f.readTag = .ok (some tag)) :
    t.embedded reader p = .ok (Embedded.ofTexts? (tag.comments.flatMap Comment.texts)) := by
  rw [embedded_of_file hfile,
    File.data?_of_whole (hp.found f hfile) hread (hp.whole f tag hfile hread)]
  rfl

/-- A song with data was read from the comments of a tag. -/
theorem song_cases {t : FileTree} {reader : AudioReader} {p : Path} {song : Song}
    (hp : t.Faithful reader p) (h : t.song reader p = .ok song) (hdata : song.hasData = true) :
    ∃ l f tag e, t.locate p = .ok l ∧ t.entry? l = some (.file f) ∧ f.readTag = .ok (some tag) ∧
      Embedded.ofTexts? (tag.comments.flatMap Comment.texts) = some e ∧ e.data ≠ [] ∧
      song = .ofEmbedded p (some e) := by
  cases hembedded : t.embedded reader p with
  | error cause => rw [FileTree.song, hembedded] at h; exact absurd h (by simp [Except.map])
  | ok data? =>
      rw [song_of_embedded hembedded] at h
      have hsong := Except.ok.inj h
      cases data? with
      | none =>
          rw [← hsong] at hdata
          exact absurd hdata (by simp [Song.ofEmbedded, Song.hasData])
      | some e =>
          obtain ⟨f, hfile⟩ := file_of_embedded hembedded
          obtain ⟨l, hl, hf⟩ := file_cases hfile
          obtain ⟨tag, hread⟩ :=
            File.readTag_of_data? (hp.found f hfile) (data?_of_embedded hfile hembedded)
          have htexts := Except.ok.inj ((hp.embedded_eq hfile hread).symm.trans hembedded)
          refine ⟨l, f, tag, e, hl, hf, hread, htexts, ?_, hsong.symm⟩
          rintro hempty
          rw [← hsong] at hdata
          simp [Song.ofEmbedded, Song.hasData, hempty] at hdata

/-! ## Trees in which files have been retagged -/

/-- The tag of a file with data has been written: behind the comments that are not the program's own
stands the data that was read from all of them. What is behind the tag is as it was. -/
structure Rewritten (f f' : File) (tag : Tag) (e : Embedded) : Prop where
  read : f.readTag = .ok (some tag)
  data : Embedded.ofTexts? (tag.comments.flatMap Comment.texts) = some e
  nonempty : e.data ≠ []
  written : ∃ tag', f'.tag = some tag' ∧ tag'.Faithful ∧
    tag'.comments = Comment.foreign tag.comments ++ [.ofData (Embedded.compose e.lead e.data)]
  behind : f'.afterTag = f.afterTag

/-- A tree differs from another one by the tags of some files with data. -/
structure Retagged (t t' : FileTree) : Prop where
  /-- Every path leads where it led. -/
  locate : ∀ q, t'.locate q = t.locate q
  /-- What is not as it was has been rewritten. -/
  entries : ∀ l, t'.entry? l = t.entry? l ∨ ∃ f f' tag e,
    t.entry? l = some (.file f) ∧ t'.entry? l = some (.file f') ∧ Rewritten f f' tag e

namespace Retagged

variable {t t' : FileTree} {reader : AudioReader} {p : Path}

theorem file_eq (h : Retagged t t') {l : Location} (hl : t.locate p = .ok l)
    (hsame : t'.entry? l = t.entry? l) : t'.file p = t.file p := by
  rw [file_of_locate hl, file_of_locate ((h.locate p).trans hl), hsame]

/-- Either nothing has happened to the file at a path, or it has been rewritten. -/
theorem cases (h : Retagged t t') (p : Path) :
    (t'.file p = t.file p) ∨ ∃ l f f' tag e, t.locate p = .ok l ∧ t.entry? l = some (.file f) ∧
      t'.entry? l = some (.file f') ∧ Rewritten f f' tag e := by
  cases hl : t.locate p with
  | error cause => left; rw [file, file, h.locate p, hl]; rfl
  | ok l =>
      rcases h.entries l with hsame | ⟨f, f', tag, e, hf, hf', hrewritten⟩
      · exact Or.inl (h.file_eq hl hsame)
      · exact Or.inr ⟨l, f, f', tag, e, rfl, hf, hf', hrewritten⟩

/-- **Writing the tag of one more song.** Its file can be written, whether it has been before or
not. -/
theorem update (h : Retagged t t') {song : Song} (hp : t.Faithful reader song.path)
    (hsong : t.song reader song.path = .ok song) (hdata : song.hasData = true) {u : TagUpdate}
    (hu : u.data = some (Embedded.compose song.lead song.data)) :
    ∃ t'' l f' tag' f'', t'.updateTag song.path u = (t'', .ok ()) ∧ Retagged t t'' ∧
      t'.locate song.path = .ok l ∧ t'.entry? l = some (.file f') ∧
      f'.readTag = .ok (some tag') ∧ tag'.Faithful ∧
      FilePut t' t'' l f'' ∧ f''.tag = some (tag'.update u).stored := by
  obtain ⟨l, f, tag, e, hl, hf, hread, htexts, hne, hsongE⟩ := song_cases hp hsong hdata
  have hl' := (h.locate song.path).trans hl
  have hfile : t.file song.path = .ok f := by rw [file_of_locate hl, hf]
  have hfaithful := hp.stored tag (by rw [readTag_of_file hfile, hread])
  have hu' : u.data = some (Embedded.compose e.lead e.data) := by rw [hu, hsongE]; rfl
  -- the file is as it was, or its foreign comments are
  obtain ⟨f', tag', hf', hread', hfaithful', hforeign, hcomment, hbehind⟩ : ∃ f' tag',
      t'.entry? l = some (.file f') ∧ f'.readTag = .ok (some tag') ∧ tag'.Faithful ∧
        Comment.foreign tag'.comments = Comment.foreign tag.comments ∧ tag'.comments ≠ [] ∧
        f'.afterTag = f.afterTag := by
    rcases h.entries l with hsame | ⟨g, g', tag₀, e₀, hg, hg', hrewritten⟩
    · refine ⟨f, tag, hsame.trans hf, hread, hfaithful, rfl, ?_, rfl⟩
      rintro hnone
      rw [hnone] at htexts
      exact absurd htexts (by simp [Embedded.ofTexts?])
    · obtain rfl := file_unique hf hg
      have htag : tag = tag₀ := Option.some.inj (Except.ok.inj (hread.symm.trans hrewritten.read))
      obtain ⟨tag', htag', hfaithful', hcomments⟩ := hrewritten.written
      refine ⟨g', tag', hg', by rw [File.readTag, htag'], hfaithful', ?_, by simp [hcomments],
        hrewritten.behind⟩
      rw [hcomments, Comment.foreign_append_ofData, htag]
  obtain ⟨t'', f'', hupdate, hput, htag'', hbehind''⟩ := updateTag_ok hl' hf' hread' u
  have hkeeps := File.keepsAudio_of_comments hread' hcomment
  refine ⟨t'', l, f', tag', f'', hupdate, ⟨fun q => ?_, fun m => ?_⟩, hl', hf', hread',
    hfaithful', hput, htag''⟩
  · rw [hput.locate_eq (by rw [hf']; rfl), h.locate]
  · by_cases hm : m = l
    · right
      subst hm
      -- whatever has been written before, the data is still that of the first tag
      refine ⟨f, f'', tag, e, hf, hput.here, hread, htexts, hne, ?_,
        (hbehind'' hkeeps).trans hbehind⟩
      refine ⟨_, htag'', hfaithful'.stored_update hu', ?_⟩
      rw [Tag.comments_stored_update hfaithful' hu', hforeign]
    · rw [hput.elsewhere m hm]
      exact h.entries m

end Retagged

end FileTree

end SongLibrary
