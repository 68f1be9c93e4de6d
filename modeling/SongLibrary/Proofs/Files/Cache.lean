import SongLibrary.Files.Cache
import SongLibrary.Proofs.Assoc
import SongLibrary.Proofs.Files.SongData

/-!
# Stamps, and what is in a cache

The stamp of a path is read off its file. A change to a cache brings no entries into it but the one
that is put.
-/

namespace SongLibrary

namespace FileTree

/-- The stamp of a path is read off what is found there. -/
theorem stamp_eq (t : FileTree) (p : Path) :
    t.stamp p = match t.file p with
      | .ok f => .ok (Entry.file f).stamp
      | .error .isFolder => .ok .folder
      | .error cause => .error (.cannotStat p cause) := by
  cases hl : t.locate p with
  | error cause =>
      have hfile : t.file p = .error cause := by rw [file, hl]; rfl
      -- a folder at the end of a path is no reason not to find it
      have hcause : cause ≠ .isFolder := by
        rintro rfl
        exact locate_ne_isFolder t p hl
      rw [stamp, hl, hfile]
      cases cause <;> first | rfl | exact absurd rfl hcause
  | ok l =>
      have hsome := entry?_of_locate hl
      rw [stamp, hl, file_of_locate hl]
      cases hentry : t.entry? l with
      | none => rw [hentry] at hsome; exact Bool.noConfusion hsome
      | some e => cases e <;> simp [Entry.stamp, hentry]

theorem locate_of_stamp {t : FileTree} {p : Path} {stamp : Stamp} (h : t.stamp p = .ok stamp) :
    ∃ l, t.locate p = .ok l := by
  rw [FileTree.stamp] at h
  split at h
  · exact absurd h (by simp)
  · rename_i l hl
    exact ⟨l, hl⟩

theorem stamp_congr {t t' : FileTree} {p : Path} (h : t.file p = t'.file p) :
    t.stamp p = t'.stamp p := by
  rw [stamp_eq, stamp_eq, h]

/-- A path with the stamp of a file leads to a file. -/
theorem file_of_stamp {t : FileTree} {p : Path} {size : Nat} {modified : Moment}
    (h : t.stamp p = .ok (.file size modified)) : ∃ f, t.file p = .ok f := by
  rw [stamp_eq] at h
  split at h
  · rename_i f hf
    exact ⟨f, hf⟩
  · exact absurd (Except.ok.inj h) (by simp)
  · exact absurd h (by simp)

theorem file_of_folderStamp {t : FileTree} {p : Path} (h : t.stamp p = .ok .folder) :
    t.file p = .error .isFolder := by
  rw [stamp_eq] at h
  split at h
  · exact absurd (Except.ok.inj h) (by simp [Entry.stamp])
  · assumption
  · exact absurd h (by simp)

end FileTree

namespace Cache

theorem mem_erase {entries : Assoc (List Path.Component) CacheEntry} {key : List Path.Component}
    {e : List Path.Component × CacheEntry} (h : e ∈ Assoc.erase entries key) : e ∈ entries :=
  (List.mem_filter.mp h).1

theorem mem_evict {capacity : Nat} {queue : List (List Path.Component)}
    {entries : Assoc (List Path.Component) CacheEntry} {e : List Path.Component × CacheEntry}
    (h : e ∈ (evict capacity entries queue).1) : e ∈ entries := by
  induction queue generalizing entries with
  | nil => exact h
  | cons oldest queue ih =>
      rw [evict] at h
      split at h
      · exact mem_erase (ih h)
      · exact h

theorem mem_insert {c : Cache} {p : Path} {stamp : Stamp} {value : Option Embedded}
    {e : List Path.Component × CacheEntry} (h : e ∈ (c.insert p stamp value).entries) :
    e ∈ c.entries ∨ e = (p.components, ⟨stamp, value⟩) :=
  Assoc.mem_put (mem_evict h)

theorem mem_invalidate {c : Cache} {p : Path} {e : List Path.Component × CacheEntry}
    (h : e ∈ (c.invalidate p).entries) : e ∈ c.entries := by
  unfold invalidate at h
  dsimp only at h
  split at h
  · exact mem_erase h
  · exact h

theorem mem_of_find? {c : Cache} {p : Path} {stamp : Stamp} {value : Option Embedded}
    (h : c.find? p stamp = some value) : (p.components, ⟨stamp, value⟩) ∈ c.entries := by
  rw [find?] at h
  split at h
  · rename_i e he
    split at h
    · rename_i hstamp
      rw [← hstamp, ← Option.some.inj h]
      exact Assoc.mem_of_find? he
    · exact absurd h (by simp)
  · exact absurd h (by simp)

end Cache

end SongLibrary
