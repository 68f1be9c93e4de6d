import SongLibrary.Files.SongFile
import SongLibrary.Proofs.Files.Tree
import SongLibrary.Proofs.Tag.Update

/-!
# Reading and writing the tag of one file

A file whose tag can be read can be written. The tag that is written takes the place of the one that
was read, the file stays where it is, and no other file changes. Where the tag cannot be read,
nothing changes.
-/

namespace SongLibrary

namespace File

/-- Where the tag can be read, what follows it can be found. -/
theorem afterTag_of_readTag {f : File} {tag? : Option Tag} (h : f.readTag = .ok tag?) :
    ∃ content, f.afterTag = .ok content := by
  have hheader : ∃ header?, f.header? = .ok header? := by
    rw [header?]
    cases htag : f.tag with
    | some tag => exact ⟨none, by simp⟩
    | none =>
        rw [readTag, htag] at h
        dsimp only at h
        rw [Tag.ofBytes?] at h
        obtain ⟨header?, hbytes, -⟩ := bind_cases h
        exact ⟨header?, by simpa using hbytes⟩
  obtain ⟨header?, hheader⟩ := hheader
  rw [afterTag, hheader]
  cases f.tag <;> cases header? <;> exact ⟨_, rfl⟩

theorem behindNewTag_of_readTag {f : File} {tag? : Option Tag} (h : f.readTag = .ok tag?) :
    ∃ content, f.behindNewTag = .ok content := by
  rw [behindNewTag]
  split
  · exact ⟨_, rfl⟩
  · exact afterTag_of_readTag h

/-- A file after an update of its tag, but for the moment of the change. -/
def retag (f : File) (u : TagUpdate) : Except TagError File := do
  let tag? ← f.readTag
  return { f with content := ← f.behindNewTag, tag := some ((tag?.getD .empty).update u).stored }

theorem retag_of_readTag {f : File} {tag? : Option Tag} (h : f.readTag = .ok tag?)
    (u : TagUpdate) : ∃ content, f.behindNewTag = .ok content ∧
      f.retag u = .ok { f with content, tag := some ((tag?.getD .empty).update u).stored } := by
  obtain ⟨content, hcontent⟩ := behindNewTag_of_readTag h
  refine ⟨content, hcontent, ?_⟩
  rw [retag, h, hcontent]
  rfl

theorem retag_cases {f g : File} {u : TagUpdate} (h : f.retag u = .ok g) :
    ∃ tag? content, f.readTag = .ok tag? ∧ f.behindNewTag = .ok content ∧
      g = { f with content, tag := some ((tag?.getD .empty).update u).stored } := by
  obtain ⟨tag?, hread, hrest⟩ := bind_cases h
  obtain ⟨content, hcontent, hg⟩ := bind_cases hrest
  exact ⟨tag?, content, hread, hcontent, (Except.ok.inj hg).symm⟩

end File

namespace FileTree

variable {t t' : FileTree} {p : Path} {l : Location} {f : File} {tag : Tag}

theorem readTag_of_file (h : t.file p = .ok f) : t.readTag p = f.readTag := by
  rw [readTag, h]

theorem putTag_ok {content : List UInt8} {written : FileTree}
    (hcontent : f.behindNewTag = .ok content)
    (hwrite : t.writeFile p ⟨content, some tag.stored, .clock t.clock⟩ = .ok written) :
    t.putTag p f tag = .ok written.tick := by
  rw [putTag, hcontent]
  simp [bind, Except.bind, hwrite]

/-- An update puts the file back where it was, changed now. -/
theorem updateTag_of_retag {g : File} {u : TagUpdate} (hl : t.locate p = .ok l)
    (hf : t.entry? l = some (.file f)) (hg : f.retag u = .ok g) :
    t.updateTag p u =
      ((t.put l (.file { g with modified := .clock t.clock })).tick, .ok ()) := by
  obtain ⟨tag?, content, hread, hcontent, rfl⟩ := File.retag_cases hg
  have hfile : t.file p = .ok f := by rw [file_of_locate hl, hf]
  have hwrite : t.writeFile p ⟨content, some ((tag?.getD .empty).update u).stored, .clock t.clock⟩ =
      .ok (t.put l (.file ⟨content, some ((tag?.getD .empty).update u).stored,
        .clock t.clock⟩)) := by
    rw [writeFile, hl]
    dsimp only
    rw [isFolder_of_file hf]
    rfl
  rw [updateTag, hfile]
  dsimp only
  rw [hread]
  dsimp only
  rw [putTag_ok hcontent hwrite]

/-- **The tag of a file can be updated if it can be read.** If not, it fails for the same reason and
changes nothing. -/
theorem updateTag_eq_error_iff {u : TagUpdate} {e : SongFileError} :
    t.updateTag p u = (t', .error e) ↔
      t' = t ∧ ∃ cause, t.readTag p = .error cause ∧ e = .cannotUpdate p cause := by
  cases hfile : t.file p with
  | error cause => simp [updateTag, readTag, hfile, eq_comm]
  | ok f =>
      cases hread : f.readTag with
      | error cause => simp [updateTag, readTag, hfile, hread, eq_comm]
      | ok tag? =>
          obtain ⟨l, hl, hf⟩ := file_cases hfile
          obtain ⟨content, -, hg⟩ := File.retag_of_readTag hread u
          simp [updateTag_of_retag hl hf hg, readTag, hfile, hread]

/-- **What an update of a tag does.** -/
theorem updateTag_cases {u : TagUpdate} (h : t.updateTag p u = (t', .ok ())) :
    ∃ l f g, t.locate p = .ok l ∧ t.entry? l = some (.file f) ∧ f.retag u = .ok g ∧
      t' = (t.put l (.file { g with modified := .clock t.clock })).tick := by
  cases hread : t.readTag p with
  | error cause =>
      rw [updateTag_eq_error_iff.mpr ⟨rfl, cause, hread, rfl⟩] at h
      exact absurd (Prod.mk.inj h).2 (by simp)
  | ok tag? =>
      rw [readTag] at hread
      split at hread
      · exact absurd hread (by simp)
      rename_i f hfile
      obtain ⟨l, hl, hf⟩ := file_cases hfile
      obtain ⟨content, -, hg⟩ := File.retag_of_readTag hread u
      rw [updateTag_of_retag hl hf hg] at h
      exact ⟨l, f, _, hl, hf, hg, (Prod.mk.inj h).1.symm⟩

theorem filePut_tick {g : File} (hf : t.entry? l = some (.file f)) :
    FilePut t (t.put l (.file g)).tick l g := by
  have hput := filePut_put (isFolder_of_file hf) g
  exact ⟨hput.vacant, hput.here, hput.elsewhere, hput.start⟩

end FileTree

end SongLibrary
