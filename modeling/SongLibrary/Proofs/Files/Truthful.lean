import SongLibrary.Files.Loading
import SongLibrary.Proofs.Files.Cache

/-!
# Loading through a truthful cache

A cache is truthful about some paths if every entry with the stamp of its file has the data of the
file. Loading these paths comes to what is in the files then, as if nothing had been cached, and it
leaves the cache truthful.
-/

namespace SongLibrary

namespace Cache

variable {cache : Cache} {t : FileTree} {reader : AudioReader} {paths : List Path} {p : Path}
  {stamp : Stamp} {value : Option Embedded}

/-- For some paths, an entry with the stamp of the file has the data of the file. -/
def Truthful (cache : Cache) (t : FileTree) (reader : AudioReader) (paths : List Path) : Prop :=
  ∀ e ∈ cache.entries, ∀ p ∈ paths, p.components = e.1 →
    t.stamp p = .ok e.2.stamp → t.embedded reader p = .ok e.2.value

theorem truthful_empty (capacity : Nat) (t : FileTree) (reader : AudioReader)
    (paths : List Path) : (Cache.empty capacity).Truthful t reader paths := by
  intro e he
  exact absurd he (by simp [Cache.empty])

namespace Truthful

/-- A hit with the stamp that a file has now is what is embedded in the file now. -/
theorem hit (h : cache.Truthful t reader paths) (hp : p ∈ paths)
    (hfind : cache.find? p stamp = some value) (hstamp : t.stamp p = .ok stamp) :
    t.embedded reader p = .ok value :=
  h _ (Cache.mem_of_find? hfind) p hp rfl hstamp

/-- What is embedded in a file may be kept under the stamp of the file. It is kept under the
components of the path, which other paths to the file share. -/
theorem insert (h : cache.Truthful t reader paths) (hstamp : t.stamp p = .ok stamp)
    (hvalue : t.embedded reader p = .ok value) :
    (cache.insert p stamp value).Truthful t reader paths := by
  intro e he q hq hkey hqstamp
  rcases Cache.mem_insert he with he | rfl
  · exact h e he q hq hkey hqstamp
  · obtain ⟨f, hf⟩ := FileTree.file_of_embedded hvalue
    have hstamps := hqstamp.trans hstamp.symm
    rw [FileTree.stamp_eq t p, hf] at hstamps
    obtain ⟨g, hg⟩ := FileTree.file_of_stamp hstamps
    have hgf := FileTree.file_congr hkey.symm hf hg
    rw [hf] at hgf
    obtain rfl := Except.ok.inj hgf
    exact FileTree.embedded_congr hkey.symm hf hg hvalue

end Truthful

end Cache

namespace FileTree

variable {cache : Cache} {t : FileTree} {reader : AudioReader} {paths loaded : List Path} {p : Path}

/-- The song of a path, without data if the file cannot be read. -/
def songOf (t : FileTree) (reader : AudioReader) (p : Path) : Song :=
  match t.embedded reader p with
  | .ok data => .ofEmbedded p data
  | .error _ => .ofEmbedded p none

theorem path_songOf (t : FileTree) (reader : AudioReader) (p : Path) :
    (t.songOf reader p).path = p := by
  rw [songOf]
  cases t.embedded reader p with
  | error cause => rfl
  | ok data => cases data <;> rfl

/-- **A truthful cache does not change the song that is loaded, and it stays truthful.** -/
theorem load_truthful (h : cache.Truthful t reader paths) (hp : p ∈ paths) :
    (t.load reader cache p).1.song = t.songOf reader p ∧
      (t.load reader cache p).2.Truthful t reader paths := by
  rw [load, songOf, Cache.getOrLoad.eq_def]
  cases hstamp : t.stamp p with
  | error cause =>
      cases hembedded : t.embedded reader p with
      | error cause' => exact ⟨rfl, h⟩
      | ok data =>
          obtain ⟨f, hf⟩ := file_of_embedded hembedded
          rw [stamp_eq, hf] at hstamp
          exact absurd hstamp (by simp)
  | ok stamp =>
      dsimp only
      cases hfind : cache.find? p stamp with
      | some value =>
          rw [h.hit hp hfind hstamp]
          exact ⟨rfl, h⟩
      | none =>
          cases hembedded : t.embedded reader p with
          | error cause => exact ⟨rfl, h⟩
          | ok value => exact ⟨rfl, h.insert hstamp hembedded⟩

theorem loadEach_truthful (h : cache.Truthful t reader paths) (hall : ∀ p ∈ loaded, p ∈ paths) :
    (t.loadEach reader cache loaded).1.map Loaded.song = loaded.map (t.songOf reader) ∧
      (t.loadEach reader cache loaded).2.Truthful t reader paths := by
  induction loaded generalizing cache with
  | nil => exact ⟨rfl, h⟩
  | cons p rest ih =>
      obtain ⟨hsong, hcache⟩ := load_truthful h (hall p (by simp))
      obtain ⟨hsongs, hcaches⟩ := ih hcache fun q hq => hall q (List.mem_cons_of_mem _ hq)
      refine ⟨?_, hcaches⟩
      show (t.load reader cache p).1.song ::
          (t.loadEach reader (t.load reader cache p).2 rest).1.map Loaded.song =
        t.songOf reader p :: rest.map (t.songOf reader)
      rw [hsong, hsongs]

theorem loadAll_truthful (h : cache.Truthful t reader paths) :
    (t.loadAll reader cache paths).1.songs = paths.map (t.songOf reader) ∧
      (t.loadAll reader cache paths).2.Truthful t reader paths :=
  loadEach_truthful h fun _ hp => hp

end FileTree

end SongLibrary
