import SongLibrary.Files.Rename
import SongLibrary.Proofs.Files.Moving

/-!
# What a rename changes

A rename that fails changes nothing. One that succeeds takes a file from its name to another one in
the same folder; whatever lay there is gone, and every other path leads to what it led to. The cache
loses what it kept for the old path, and nothing else. Unless it may overwrite, nothing lay at the
new name, so every file is still there.

The new name is compared with that of the file before it is completed, so one without the extension
may lead back to the file. Something lies there then, so this goes through only if it may overwrite.
-/

namespace SongLibrary

/-! ## The cache -/

/-- A cache has lost what it kept for a path, if anything, and nothing else. -/
structure Cache.LostOnly (c c' : Cache) (p : Path) : Prop where
  capacity : c'.capacity = c.capacity
  entries : c'.entries = c.entries.filter (fun e => decide (e.1 ≠ p.components))
  queue : c'.queue.filter (· ≠ p.components) = c.queue.filter (· ≠ p.components)

theorem Cache.lostOnly_invalidate (c : Cache) (p : Path) : c.LostOnly (c.invalidate p) p := by
  rw [invalidate]
  by_cases hfound : (Assoc.find? c.entries p.components).isSome = true
  · rw [if_pos hfound]
    exact ⟨rfl, rfl, by simp⟩
  · rw [if_neg hfound]
    rw [Option.not_isSome_iff_eq_none, Assoc.find?_eq_none_iff] at hfound
    exact ⟨rfl, (Assoc.erase_of_notMem hfound).symm, rfl⟩

/-! ## The new name -/

/-- The path of a file under another name, which may be written with blanks around it and without
the extension. -/
def Path.renamed (p : Path) (name : String) : Path := p.withFileName (songFileName (Text.trim name))

/-- The name of a song file is a plain name. -/
theorem plain_songFileName {name : String} (h : '/' ∉ name.toList) :
    FileTree.Plain (songFileName name) := by
  -- each of the names that are not plain lacks the extension
  have hshort : ∀ short ∈ ["", ".", ".."], songFileName name ≠ short := by
    intro short hshort he
    rw [songFileName] at he
    split at he
    · rename_i hends
      have hlacks : ∀ short ∈ ["", ".", ".."],
          Text.endsWith (Text.lowercase short) ".mp3" = false := by decide +kernel
      rw [he, hlacks short hshort] at hends
      exact Bool.noConfusion hends
    · have hlengths : ∀ short ∈ ["", ".", ".."], short.length ≤ 2 := by decide
      have hlength := congrArg String.length he
      rw [String.length_append, show ".mp3".length = 4 from rfl] at hlength
      have := hlengths short hshort
      omega
  refine ⟨?_, ?_, hshort ".." (by simp)⟩
  · rw [songFileName]
    split
    · exact h
    · simpa using h
  · simp [Path.isIdle, hshort "" (by simp), hshort "." (by simp)]

namespace FileTree

variable {t : FileTree} {cache : Option Cache} {p : Path} {k k' : Location}
  {name old new new' : String} {overwrite : Bool} {r : Renamed} {target : Path} {f : File}
  {t' : FileTree} {cause : SongFileError}

/-- A name passes what is looked at before anything is moved. -/
structure Accepts (t : FileTree) (p : Path) (name : String) (overwrite : Bool) : Prop where
  nonempty : Text.trim name ≠ ""
  solid : ∀ c ∈ (Text.trim name).toList, c ≠ '/' ∧ c ≠ '\\'
  changed : Text.trim name ≠ p.fileName?.getD ""
  free : overwrite = false → t.exists? (p.renamed name) = false

theorem Accepts.plain (h : t.Accepts p name overwrite) :
    Plain (songFileName (Text.trim name)) :=
  plain_songFileName fun hc => (h.solid '/' hc).1 rfl

/-- **What a rename does.** Either it fails, and leaves the files and the cache as they are; or the
name is accepted, the entry is moved, and the cache forgets the old path. -/
theorem renameSong_cases (t : FileTree) (cache : Option Cache) (p : Path) (name : String)
    (overwrite : Bool) :
    (∃ cause, t.renameSong cache p name overwrite = ⟨.error cause, t, cache⟩) ∨
      t.Accepts p name overwrite ∧ ∃ t', t.rename p (p.renamed name) = .ok t' ∧
        t.renameSong cache p name overwrite =
          ⟨.ok (p.renamed name), t', cache.map (·.invalidate p)⟩ := by
  rw [renameSong]
  dsimp only
  split
  · exact .inl ⟨_, rfl⟩
  rename_i hempty
  split
  · exact .inl ⟨_, rfl⟩
  rename_i hsolid
  split
  · exact .inl ⟨_, rfl⟩
  rename_i hchanged
  split
  · exact .inl ⟨_, rfl⟩
  rename_i htaken
  split
  · exact .inl ⟨_, rfl⟩
  rename_i t' htree
  refine .inr ⟨⟨by simpa using hempty, fun c hc => ?_, hchanged, fun hoverwrite => ?_⟩, t', htree,
    rfl⟩
  · rw [List.any_eq_true, not_exists] at hsolid
    simpa [hc] using hsolid c
  · simpa [Path.renamed, hoverwrite] using htaken

theorem renameSong_failed (h : (t.renameSong cache p name overwrite).outcome = .error cause) :
    (t.renameSong cache p name overwrite).tree = t ∧
      (t.renameSong cache p name overwrite).cache = cache := by
  obtain ⟨_, hfailed⟩ | ⟨-, _, -, hmoved⟩ := renameSong_cases t cache p name overwrite
  · rw [hfailed]
    exact ⟨rfl, rfl⟩
  · rw [hmoved] at h
    exact absurd h (by simp)

theorem renameSong_succeeded (h : (t.renameSong cache p name overwrite).outcome = .ok target) :
    t.Accepts p name overwrite ∧ target = p.renamed name ∧
      t.rename p (p.renamed name) = .ok (t.renameSong cache p name overwrite).tree ∧
      (t.renameSong cache p name overwrite).cache = cache.map (·.invalidate p) := by
  obtain ⟨_, hfailed⟩ | ⟨haccepts, _, hrename, hmoved⟩ := renameSong_cases t cache p name overwrite
  · rw [hfailed] at h
    exact absurd h (by simp)
  · rw [hmoved] at h ⊢
    exact ⟨haccepts, (Except.ok.inj h).symm, hrename, rfl⟩

/-- **A rename succeeds if the name is accepted and the entry can be moved.** -/
theorem renameSong_of_rename (haccepts : t.Accepts p name overwrite)
    (hrename : t.rename p (p.renamed name) = .ok t') :
    t.renameSong cache p name overwrite =
      ⟨.ok (p.renamed name), t', cache.map (·.invalidate p)⟩ := by
  have hsolid : ¬((Text.trim name).toList.any fun c => c == '/' || c == '\\') = true := by
    rw [List.any_eq_true, not_exists]
    rintro c ⟨hc, hbar⟩
    have hplain := haccepts.solid c hc
    simp [hplain] at hbar
  have hfree : ¬(t.exists? (p.renamed name) && !overwrite) = true := by
    cases ho : overwrite with
    | true => simp
    | false => simp [haccepts.free ho]
  rw [Path.renamed] at hfree hrename
  rw [renameSong]
  dsimp only
  rw [if_neg (by simpa using haccepts.nonempty), if_neg hsolid, if_neg haccepts.changed,
    if_neg hfree, hrename]
  rfl

/-- A file has been renamed: it lay in a folder under one name, and lies there under another. -/
structure RenamedTo (t : FileTree) (cache : Option Cache) (p : Path) (r : Renamed) (target : Path)
    (k : Location) (old new : String) (f : File) : Prop where
  was : t.locate p = .ok (k ++ [old]) ∧ t.file p = .ok f
  now : r.tree.locate target = .ok (k ++ [new]) ∧ r.tree.file target = .ok f
  there : t.exists? target = (t.entry? (k ++ [new])).isSome
  /-- The new path differs from the old one by the name. -/
  sibling : ∃ front, p.components = front ++ [.name old] ∧
    target.components = front ++ [.name new]
  gone : target.components ≠ p.components → r.tree.locate p = .error .noSuchFile
  /-- Every other place is led to by the paths that led there. -/
  elsewhere : ∀ q m, m ≠ k ++ [old] → m ≠ k ++ [new] →
    (r.tree.locate q = .ok m ↔ t.locate q = .ok m)
  untouched : ∀ q m, t.locate q = .ok m → m ≠ k ++ [old] → m ≠ k ++ [new] →
    r.tree.file q = t.file q
  cache_none : cache = none → r.cache = none
  cache_some : ∀ c, cache = some c → ∃ c', r.cache = some c' ∧ c.LostOnly c' p

/-- **What is renamed, if not a folder, is a file that gets another name in its folder.** -/
theorem renamedTo_of_renameSong (hp : t.isFolderAt p = false)
    (h : (t.renameSong cache p name overwrite).outcome = .ok target) :
    ∃ k old f, RenamedTo t cache p (t.renameSong cache p name overwrite) target k old
      (songFileName (Text.trim name)) f := by
  obtain ⟨haccepts, htarget, hrename, hcache⟩ := renameSong_succeeded h
  obtain ⟨k, old, k', new, f, hnames, hopen, hnames', hopen', hmoved⟩ :=
    fileMoved_of_rename hrename hp
  obtain ⟨hk, hnew⟩ := hnames.eq_of_withFileName hopen haccepts.plain hnames'
  rw [hk, hnew] at hnames' hmoved
  obtain ⟨outer, hsegments, -⟩ := hnames.way_closed hopen
  have hdiffer := hmoved.differAt
  have hfound := hnames.locate_file hopen (by rw [hmoved.file]; rfl)
  have hfound' := hmoved.locate_here hnames' hopen'
  refine ⟨k, old, f, ⟨hfound, ?_⟩, ?_, ?_, ?_, fun hne => ?_, fun q m => hdiffer.locate_iff,
    fun q m => hdiffer.file_eq, ?_, ?_⟩
  · rw [file_of_locate hfound, hmoved.file]
  · rw [htarget]
    exact ⟨hfound', by rw [file_of_locate hfound', hmoved.here]⟩
  · rw [htarget]
    exact hnames'.exists?_eq hopen'
  · rw [htarget]
    exact Path.components_withFileName hsegments hnames.busy hnames.notUp haccepts.plain
  · refine hmoved.locate_gone hnames fun hsame => hne ?_
    rw [htarget, Path.renamed, Path.components_withFileName_eq_iff hsegments hnames.busy
      hnames.notUp haccepts.plain]
    simpa using hsame.symm
  · rintro rfl
    exact hcache
  · rintro c rfl
    exact ⟨c.invalidate p, hcache, c.lostOnly_invalidate p⟩

/-- What has been at a path is where it was, unless it was renamed or made way. -/
theorem RenamedTo.kept (h : RenamedTo t cache p r target k old new f) {q : Path} {g : File}
    (hq : t.file q = .ok g) (hnew : t.locate q ≠ .ok (k ++ [new])) :
    r.tree.file q = .ok g ∨ t.locate q = t.locate p ∧ r.tree.file target = .ok g := by
  obtain ⟨m, hm, hg⟩ := file_cases hq
  by_cases hold : m = k ++ [old]
  · refine .inr ⟨by rw [hm, h.was.1, hold], ?_⟩
    have hf := h.was.2
    rw [file_of_locate h.was.1, ← hold, hg] at hf
    rw [h.now.2, Except.ok.inj hf]
  · rw [hm] at hnew
    exact .inl ((h.untouched q m hm hold fun he => hnew (by rw [he])).trans hq)

/-- A file can be moved to its new path: that can be followed, its name is not too long, and no
folder is in the way. -/
structure Movable (t : FileTree) (p : Path) (name : String) : Prop where
  file : ∃ f, t.file p = .ok f
  followable : segmentsOf (p.renamed name) = .ok (p.renamed name).segments
  short : (songFileName (Text.trim name)).utf8ByteSize ≤ nameLimit
  vacant : t.isFolderAt (p.renamed name) = false

/-- **When a file is renamed.** -/
theorem renameSong_succeeds_iff (hp : t.isFolderAt p = false) :
    (∃ target, (t.renameSong cache p name overwrite).outcome = .ok target) ↔
      t.Accepts p name overwrite ∧ t.Movable p name := by
  constructor
  · rintro ⟨target, h⟩
    obtain ⟨haccepts, -, hrename, -⟩ := renameSong_succeeded h
    obtain ⟨k, old, k', new, f, hnames, hopen, hnames', -, hmoved⟩ := fileMoved_of_rename hrename hp
    obtain ⟨hk, hnew⟩ := hnames.eq_of_withFileName hopen haccepts.plain hnames'
    rw [hk, hnew] at hnames' hmoved
    refine ⟨haccepts, ⟨f, ?_⟩, hnames'.followable, hnames'.short, ?_⟩
    · rw [file_of_locate (hnames.locate_file hopen (by rw [hmoved.file]; rfl)), hmoved.file]
    · rw [hnames'.isFolderAt_eq, hmoved.vacant]
  · rintro ⟨haccepts, ⟨f, hf⟩, hfollowable, hshort, hvacant⟩
    obtain ⟨l, hl, hentry⟩ := file_cases hf
    obtain ⟨k, old, hnames, hopen, rfl⟩ := names_of_file hl hentry
    obtain ⟨hnames', hopen'⟩ := hnames.withFileName hopen haccepts.plain hfollowable hshort
    rw [Path.renamed, hnames'.isFolderAt_eq] at hvacant
    obtain ⟨tree, htree⟩ : ∃ tree, t.rename p (p.renamed name) = .ok tree :=
      ⟨_, rename_of_names hnames hopen hentry hnames' hopen' hvacant⟩
    exact ⟨p.renamed name, by rw [renameSong_of_rename haccepts htree]⟩

/--
**A rename is safe.**

A path leads to a file or to nothing. A rename of this path that fails leaves the files and the
cache as they are. One that succeeds has moved a file from its name to the new one in the same
folder, with its content and its tag; the old path leads to nothing unless it is the new one, all
other files are what they were, and the cache has lost at most what it kept for the old path. It may
be that nothing is to be overwritten: then nothing lay at the new path, and no file is lost. And it
succeeds just if there is a file, the name is accepted, and the file can be moved there.
-/
theorem renameSong_atomic (t : FileTree) (cache : Option Cache) (p : Path) (name : String)
    (overwrite : Bool) (hp : t.isFolderAt p = false) :
    let r := t.renameSong cache p name overwrite
    (∀ cause, r.outcome = .error cause → r.tree = t ∧ r.cache = cache) ∧
    (∀ target, r.outcome = .ok target →
      (∃ k old f, RenamedTo t cache p r target k old (songFileName (Text.trim name)) f) ∧
      (overwrite = false → t.exists? target = false ∧ ∀ q g, t.file q = .ok g →
        r.tree.file q = .ok g ∨ t.locate q = t.locate p ∧ r.tree.file target = .ok g)) ∧
    ((∃ target, r.outcome = .ok target) ↔ t.Accepts p name overwrite ∧ t.Movable p name) := by
  intro r
  refine ⟨fun cause => renameSong_failed, fun target hok => ?_, renameSong_succeeds_iff hp⟩
  obtain ⟨haccepts, htarget, -, -⟩ := renameSong_succeeded hok
  obtain ⟨k, old, f, hrenamed⟩ := renamedTo_of_renameSong hp hok
  refine ⟨⟨k, old, f, hrenamed⟩, fun hkeep => ?_⟩
  have hfree := haccepts.free hkeep
  rw [← htarget] at hfree
  refine ⟨hfree, fun q g hq => hrenamed.kept hq fun hat => ?_⟩
  -- what leads to the new place would have been found there
  have hthere := hrenamed.there
  rw [hfree, entry?_of_locate hat] at hthere
  exact Bool.noConfusion hthere

/-- A file in a folder, next to another one. Its new name is written with blanks around it. The path
of the file is absolute, and that of the other one starts from their folder. -/
theorem renameSong_atomic_sibling :
    let t : FileTree := ⟨[(["m"], .folder),
      (["m", "a.mp3"], .file ⟨Text.bytes "one", none, .given 1⟩),
      (["m", "b.mp3"], .file ⟨Text.bytes "two", none, .given 2⟩)], 0, ["m"]⟩
    let r := t.renameSong (some (.empty 8)) ⟨"/m//a.mp3"⟩ " c " false
    t.isFolderAt ⟨"/m//a.mp3"⟩ = false ∧ r.outcome = .ok ⟨"/m/c.mp3"⟩ ∧
      r.tree.file ⟨"/m/c.mp3"⟩ = t.file ⟨"/m//a.mp3"⟩ ∧
      r.tree.file ⟨"b.mp3"⟩ = t.file ⟨"b.mp3"⟩ := by
  intro t r
  have hp : t.isFolderAt ⟨"/m//a.mp3"⟩ = false := by decide +kernel
  have hpath : r.outcome = .ok ⟨"/m/c.mp3"⟩ := by decide +kernel
  obtain ⟨⟨k, old, f, hrenamed⟩, hkept⟩ :=
    (renameSong_atomic t (some (.empty 8)) ⟨"/m//a.mp3"⟩ " c " false hp).2.1 _ hpath
  refine ⟨hp, hpath, by rw [hrenamed.now.2, hrenamed.was.2], ?_⟩
  have hother : t.file ⟨"b.mp3"⟩ = .ok ⟨Text.bytes "two", none, .given 2⟩ := by decide +kernel
  have hapart : t.locate ⟨"b.mp3"⟩ ≠ t.locate ⟨"/m//a.mp3"⟩ := by decide +kernel
  rw [hother]
  exact ((hkept rfl).2 _ _ hother).resolve_right fun hat => hapart hat.1

/-! ## The name that the file has -/

/-- The name of a song file begins with the name it is made from. -/
theorem mem_songFileName {c : Char} (h : c ∈ name.toList) : c ∈ (songFileName name).toList := by
  rw [songFileName]
  split
  · exact h
  · rw [String.toList_append]
    exact List.mem_append_left _ h

/-- The place a file is moved to under the name it has is its own. -/
theorem Names.renamed_same (h : t.Names p k old) (hopen : isOpenEnded p = false)
    (hsame : songFileName (Text.trim name) = old) :
    t.Names (p.renamed name) k old ∧ isOpenEnded (p.renamed name) = false := by
  rw [Path.renamed, hsame]
  exact h.withFileName hopen h.plain (h.followable_same hopen) h.short

/-- A name that leads back to the one a file has is accepted just if something may be overwritten,
and it is not written in full. -/
theorem Names.accepts_same_iff (h : t.Names p k old) (hopen : isOpenEnded p = false)
    (hf : t.entry? (k ++ [old]) = some (.file f)) (hsame : songFileName (Text.trim name) = old) :
    t.Accepts p name overwrite ↔ overwrite = true ∧ Text.trim name ≠ old ∧ Text.trim name ≠ "" ∧
      '\\' ∉ (Text.trim name).toList := by
  obtain ⟨hnames, hopen'⟩ := h.renamed_same hopen hsame
  have htaken : t.exists? (p.renamed name) = true := by
    rw [hnames.exists?_eq hopen', hf]
    rfl
  have hslash : '/' ∉ (Text.trim name).toList := fun hc =>
    h.plain.solid (hsame ▸ mem_songFileName hc)
  have hcurrent : p.fileName?.getD "" = old := by
    rw [h.fileName?_eq hopen, Option.getD_some]
  constructor
  · intro haccepts
    have hchanged := haccepts.changed
    rw [hcurrent] at hchanged
    refine ⟨?_, hchanged, haccepts.nonempty, fun hc => (haccepts.solid _ hc).2 rfl⟩
    cases ho : overwrite with
    | true => rfl
    | false =>
        have hfree := haccepts.free ho
        rw [htaken] at hfree
        exact hfree.symm
  · rintro ⟨ho, hchanged, hnonempty, hbackslash⟩
    refine ⟨hnonempty, fun c hc => ⟨?_, ?_⟩, by rwa [hcurrent], fun hkeep => ?_⟩
    · exact fun he => hslash (he ▸ hc)
    · exact fun he => hbackslash (he ▸ hc)
    · rw [ho] at hkeep
      exact Bool.noConfusion hkeep

/-- Nothing stands in the way of a file that is moved to its own place. -/
theorem Names.movable_same (h : t.Names p k old) (hopen : isOpenEnded p = false)
    (hf : t.entry? (k ++ [old]) = some (.file f)) (hsame : songFileName (Text.trim name) = old) :
    t.Movable p name := by
  obtain ⟨hnames, -⟩ := h.renamed_same hopen hsame
  refine ⟨⟨f, ?_⟩, hnames.followable, ?_, ?_⟩
  · rw [file_of_locate (h.locate_file hopen (by rw [hf]; rfl)), hf]
  · rw [hsame]
    exact h.short
  · rw [hnames.isFolderAt_eq]
    exact isFolder_of_file hf

/--
**A name that leads back to the one the file has.**

A file that has been renamed has another path than before unless the name, without the blanks around
it and with the extension behind it, is the one it had. A name that is such a spelling of the one it
has is rejected unless something may be overwritten and the name lacks the extension, and then
nothing is changed. If it is accepted, the file stays where it is, and the cache forgets it all the
same.
-/
theorem renameSong_ownName (cache : Option Cache) (name : String) (overwrite : Bool)
    (hf : t.file p = .ok f) :
    let r := t.renameSong cache p name overwrite
    let asked := songFileName (Text.trim name)
    (∀ target, r.outcome = .ok target →
      (target.components = p.components ↔ p.fileName? = some asked)) ∧
    (p.fileName? = some asked →
      ((∃ target, r.outcome = .ok target) ↔ overwrite = true ∧ Text.trim name ≠ asked ∧
        Text.trim name ≠ "" ∧ '\\' ∉ (Text.trim name).toList) ∧
      (∀ cause, r.outcome = .error cause → r.tree = t ∧ r.cache = cache) ∧
      (∀ target, r.outcome = .ok target → target.components = p.components ∧ r.tree = t ∧
        r.cache = cache.map (·.invalidate p))) := by
  intro r asked
  obtain ⟨l, hl, hentry⟩ := file_cases hf
  obtain ⟨k, old, hnames, hopen, rfl⟩ := names_of_file hl hentry
  have hp : t.isFolderAt p = false := by
    rw [hnames.isFolderAt_eq]
    exact isFolder_of_file hentry
  obtain ⟨outer, hsegments, -⟩ := hnames.way_closed hopen
  have hcurrent : p.fileName? = some asked ↔ asked = old := by
    rw [hnames.fileName?_eq hopen, Option.some.injEq, eq_comm]
  have hpath : ∀ target, r.outcome = .ok target →
      (target.components = p.components ↔ asked = old) := by
    intro target h
    obtain ⟨haccepts, htarget, -, -⟩ := renameSong_succeeded h
    rw [htarget]
    exact Path.components_withFileName_eq_iff hsegments hnames.busy hnames.notUp haccepts.plain
  refine ⟨fun target h => (hpath target h).trans hcurrent.symm, fun hown => ?_⟩
  have hsame := hcurrent.mp hown
  refine ⟨?_, fun cause => renameSong_failed, fun target h => ?_⟩
  · rw [renameSong_succeeds_iff hp, and_iff_left (hnames.movable_same hopen hentry hsame),
      hnames.accepts_same_iff hopen hentry hsame, hsame]
  · obtain ⟨hnames', hopen'⟩ := hnames.renamed_same hopen hsame
    obtain ⟨-, -, hrename, hcache⟩ := renameSong_succeeded h
    refine ⟨(hpath target h).mpr hsame, ?_, hcache⟩
    rw [rename_of_names hnames hopen hentry hnames' hopen' (isFolder_of_file hentry),
      if_pos rfl] at hrename
    exact (Except.ok.inj hrename).symm

/-- The name that a file has is rejected, though it lacks the extension, as something lies there. -/
theorem renameSong_ownName_rejected :
    let t : FileTree := ⟨[(["a.mp3"], .file ⟨Text.bytes "one", none, .given 1⟩)], 0, []⟩
    t.file ⟨"/a.mp3"⟩ = .ok ⟨Text.bytes "one", none, .given 1⟩ ∧
    ¬∃ target, (t.renameSong (some (.empty 8)) ⟨"/a.mp3"⟩ " a" false).outcome = .ok target := by
  intro t
  have hf : t.file ⟨"/a.mp3"⟩ = .ok ⟨Text.bytes "one", none, .given 1⟩ := by decide +kernel
  have hown : Path.fileName? ⟨"/a.mp3"⟩ = some (songFileName (Text.trim " a")) := by decide +kernel
  refine ⟨hf, fun hok => ?_⟩
  have hoverwrite := (((renameSong_ownName (some (.empty 8)) " a" false hf).2 hown).1.mp hok).1
  exact Bool.noConfusion hoverwrite

/-- A file keeps its name where something may be overwritten. That is no failure, and the cache has
forgotten the file. -/
theorem renameSong_ownName_accepted :
    let t : FileTree := ⟨[(["a.mp3"], .file ⟨Text.bytes "one", none, .given 1⟩)], 0, []⟩
    let cache : Cache := (Cache.empty 8).insert ⟨"a.mp3"⟩ (.file 3 (.given 1)) none
    let r := t.renameSong (some cache) ⟨"a.mp3"⟩ "a" true
    cache.size = 1 ∧ r.outcome = .ok ⟨"a.mp3"⟩ ∧ r.tree = t ∧ r.cache.map Cache.size = some 0 := by
  decide +kernel

end FileTree

end SongLibrary
