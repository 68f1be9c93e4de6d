import SongLibrary.Proofs.Files.FrameReader
import SongLibrary.Proofs.Files.Naming
import SongLibrary.Proofs.Files.Retag
import SongLibrary.Proofs.Files.Truthful
import SongLibrary.Proofs.Tag.Overlay

/-!
# Applying a preset to a library, twice

A whole cycle loads the songs at some paths, makes an index of them and applies a preset to them. In
the second cycle the songs are the same, so is the index, and so are the updates. Each of them has
already been stored in its file, by the last song that was read from this file; songs that were read
from one file get one update. So it finds nothing more to do.

The songs are loaded through a cache. It is enough that the cache is truthful in the beginning:
a file that is written leaves it.
-/

namespace SongLibrary

/-! ## One run -/

namespace Retag

/-- What the writing of a song relies on: the song was read from its file, and the comments of the
file are what is read from its tag. A song without data is not written. -/
structure Loaded (t : FileTree) (reader : AudioReader) (song : Song) : Prop where
  faithful : t.Faithful reader song.path
  song : song.hasData = true → t.song reader song.path = .ok song

/-- An update has been stored in the file at a path, and it finds nothing more to do. -/
def Settled (t : FileTree) (p : Path) (u : TagUpdate) : Prop :=
  ∃ f tag, t.file p = .ok f ∧ f.tag = some tag ∧ (tag.update u).stored = tag

variable {t : FileTree} {reader : AudioReader} {cache : Option Cache} {preset : Preset}
  {policy : Policy} {index : VersionIndex}

/-- What has been stored in another file is still there when a file is put. -/
theorem Settled.put {t' : FileTree} {l : Location} {f : File} {p : Path} {u : TagUpdate}
    (h : Settled t p u) (hput : FileTree.FilePut t t' l f) (hp : t.locate p ≠ .ok l) :
    Settled t' p u := by
  obtain ⟨g, tag, hg, htag, hagain⟩ := h
  obtain ⟨m, hm, -⟩ := FileTree.file_cases hg
  have hml : m ≠ l := by
    rintro rfl
    exact hp hm
  exact ⟨g, tag, by rw [hput.file_elsewhere hm hml, hg], htag, hagain⟩

/-- A tree differs from another one by files with the same tags. -/
structure TagsKept (t t' : FileTree) : Prop where
  /-- Every path leads where it led. -/
  locate : ∀ q, t'.locate q = t.locate q
  /-- What is not as it was is a file with the tag that it had. -/
  entries : ∀ l, t'.entry? l = t.entry? l ∨ ∃ f f' tag, t.entry? l = some (.file f) ∧
    t'.entry? l = some (.file f') ∧ f.tag = some tag ∧ f'.tag = some tag

theorem TagsKept.readTag {t' : FileTree} (h : TagsKept t t') (q : Path) :
    t'.readTag q = t.readTag q := by
  by_cases hchanged : ∃ l, t.locate q = .ok l ∧ t'.entry? l ≠ t.entry? l
  · obtain ⟨l, hl, hne⟩ := hchanged
    obtain ⟨f, f', tag, hf, hf', htag, htag'⟩ := (h.entries l).resolve_left hne
    rw [FileTree.readTag, FileTree.readTag, FileTree.file_of_locate hl,
      FileTree.file_of_locate ((h.locate q).trans hl), hf, hf']
    dsimp only
    rw [File.readTag, File.readTag, htag, htag']
  · have hfile := FileTree.file_eq_of_locate (h.locate q) fun l hl =>
      not_not.mp fun hne => hchanged ⟨l, hl, hne⟩
    rw [FileTree.readTag, FileTree.readTag, hfile]

/-- An update that is settled is stored again with the same tag. -/
theorem TagsKept.update {t' : FileTree} (h : TagsKept t t') {p : Path} {u : TagUpdate}
    (hsettled : Settled t p u) : ∃ t'', t'.updateTag p u = (t'', .ok ()) ∧ TagsKept t t'' := by
  obtain ⟨f, tag, hfile, htag, hagain⟩ := hsettled
  obtain ⟨l, hl, hf⟩ := FileTree.file_cases hfile
  have hl' := (h.locate p).trans hl
  obtain ⟨f', hf', htag'⟩ : ∃ f', t'.entry? l = some (.file f') ∧ f'.tag = some tag := by
    rcases h.entries l with hsame | ⟨g, g', tag', hg, hg', hgtag, hgtag'⟩
    · exact ⟨f, hsame.trans hf, htag⟩
    · obtain rfl := FileTree.file_unique hf hg
      rw [htag] at hgtag
      exact ⟨g', hg', hgtag'.trans hgtag.symm⟩
  have hread : f'.readTag = .ok (some tag) := by rw [File.readTag, htag']
  obtain ⟨t'', f'', hupdate, hput, htag'', -⟩ := FileTree.updateTag_ok hl' hf' hread u
  rw [hagain] at htag''
  refine ⟨t'', hupdate, fun q => ?_, fun m => ?_⟩
  · rw [hput.locate_eq (by rw [hf']; rfl), h.locate]
  · by_cases hm : m = l
    · rw [hm]
      exact Or.inr ⟨f, f'', tag, hf, hput.here, htag, htag''⟩
    · rw [hput.elsewhere m hm]
      exact h.entries m

end Retag

namespace FileTree

/-! ## Whole cycles -/

variable {t : FileTree} {reader : AudioReader} {cache : Cache} {preset : Preset} {policy : Policy}
  {paths : List Path}

end FileTree

end SongLibrary
