import SongLibrary.Files.FrameReader
import SongLibrary.Files.Rename
import SongLibrary.Proofs.Files.Loading
import SongLibrary.Proofs.Files.RenameSafety

/-!
# What a cache knows after a file is renamed

A cache agrees with the files if no look-up can tell it from an empty one. Renaming takes the entry
of the old path out of the cache, and no other. A path that neither starts at or below the new
location nor comes by it leads where it led, to the file that was there, so the cache is right about
it as before.

A path that passes the new location leads to what has been moved there. If the cache still has an
entry under this path, made for another file, and the stamp of the moved file happens to be the
same, the look-up finds the data of the other file. Nothing else can go wrong.
-/

namespace SongLibrary

/-! ## Caches that agree with the files -/

namespace Cache

variable {c : Cache} {t : FileTree} {reader : AudioReader} {p q : Path}

/-- What is kept for a path passes for the data of its file, but is not. -/
def Stale (c : Cache) (t : FileTree) (reader : AudioReader) (q : Path) : Prop :=
  ∃ stamp value, t.stamp q = .ok stamp ∧ c.find? q stamp = some value ∧
    t.embedded reader q ≠ .ok value

/-- A cache without stale entries. -/
def Agrees (c : Cache) (t : FileTree) (reader : AudioReader) : Prop := ∀ q, ¬c.Stale t reader q

/-- **A look-up goes wrong just if what is kept is stale.** -/
theorem outcome_ne_iff :
    (c.getOrLoad (t.stamp q) q (t.embedded reader)).outcome ≠ t.outcome reader q ↔
      c.Stale t reader q := by
  rw [getOrLoad.eq_def, FileTree.outcome]
  cases hstamp : t.stamp q with
  | error cause => simp [Stale, hstamp]
  | ok stamp =>
      cases hfind : c.find? q stamp with
      | some value => simp [Stale, hstamp, hfind, eq_comm]
      | none => cases hload : t.embedded reader q <;> simp [Stale, hstamp, hfind, hload]

theorem find?_invalidate (c : Cache) (p q : Path) (stamp : Stamp) :
    (c.invalidate p).find? q stamp =
      if p.components = q.components then none else c.find? q stamp := by
  rw [invalidate]
  by_cases hfound : (Assoc.find? c.entries p.components).isSome = true
  · rw [if_pos hfound, find?, find?, Assoc.find?_erase]
    by_cases hkey : p.components = q.components
    · rw [if_pos hkey, if_pos hkey]
    · rw [if_neg hkey, if_neg hkey]
  · rw [if_neg hfound]
    by_cases hkey : p.components = q.components
    · rw [Option.not_isSome_iff_eq_none, hkey] at hfound
      rw [if_pos hkey, find?, hfound]
    · rw [if_neg hkey]

theorem stale_invalidate_iff :
    (c.invalidate p).Stale t reader q ↔ p.components ≠ q.components ∧ c.Stale t reader q := by
  rw [Stale, Stale]
  simp only [find?_invalidate]
  by_cases hkey : p.components = q.components <;> simp [hkey]

/-- A cache that only look-ups have put entries into agrees with the files. -/
theorem agrees_loadEach (capacity : Nat) (t : FileTree) (reader : AudioReader)
    (paths : List Path) : (t.loadEach reader (empty capacity) paths).2.Agrees t reader := by
  rintro q ⟨stamp, value, hstamp, hfind, hne⟩
  have htruthful := (FileTree.loadEach_truthful (truthful_empty capacity t reader (q :: paths))
    fun p hp => List.mem_cons_of_mem q hp).2
  exact hne (htruthful.hit (by simp) hfind hstamp)

end Cache

/-! ## Entries that are moved -/

namespace FileTree

variable {t t' : FileTree} {reader : AudioReader} {p q : Path} {source target l m o : Location}
  {segments : List String}

/-- A tree differs from another one by what is at or below a location, and by what is gone. Its
starting folder is there too, or is that of the other tree. -/
structure MovedTo (t t' : FileTree) (target : Location) : Prop where
  elsewhere : ∀ m, ¬target <+: m → (t'.entry? m).isSome = true → t'.entry? m = t.entry? m
  start : ¬target <+: t'.start → t'.start = t.start

theorem movedTo_refl (t : FileTree) (l : Location) : MovedTo t t l :=
  ⟨fun _ _ _ => rfl, fun _ => rfl⟩

theorem movedTo_moved (t : FileTree) (e : Entry) (source l : Location) :
    MovedTo t (t.moved e source l) l where
  elsewhere m hm hsome := by
    rw [ entry?] at hsome
    rw [ entry?, entry?]
    split
    · rfl
    · rename_i hroot
      rw [if_neg hroot, moved] at hsome
      rw [moved]
      dsimp only at hsome ⊢
      rw [find?_moveEntries _ _ hm] at hsome ⊢
      split at hsome
      · exact Bool.noConfusion hsome
      · rename_i hs
        rw [if_neg hs]
  start hstart := by
    rw [moved] at hstart ⊢
    dsimp only at hstart ⊢
    split
    · rename_i halong
      rw [if_pos halong] at hstart
      exact absurd (List.prefix_append _ _) hstart
    · rfl

theorem movedTo_of_rename (h : t.rename p q = .ok t') :
    ∃ target, t.locateName q = .ok target ∧ MovedTo t t' target := by
  obtain ⟨k, old, k', new, e, -, hq, -, -, hmoved⟩ := rename_cases h
  refine ⟨k' ++ [new], hq.locateName_eq, ?_⟩
  rcases hmoved with ⟨-, rfl⟩ | ⟨-, -, rfl⟩
  · exact movedTo_refl t' _
  · exact movedTo_moved t e _ _

/-- A path starts at or below a location, or comes by it on its way. -/
def Passes (t : FileTree) (q : Path) (l : Location) : Prop :=
  l <+: t.origin q ∨ ∃ front, front <+: q.segments ∧ t.follow (t.origin q) front = .ok l

/-- The starting folder of a path that does not start in what has been moved is the one it was. -/
theorem MovedTo.origin_eq (h : MovedTo t t' target) (hout : ¬target <+: t'.origin q) :
    t'.origin q = t.origin q := by
  rw [origin] at hout ⊢
  rw [origin]
  split at hout
  · rename_i habsolute
    rw [if_pos habsolute, if_pos habsolute]
  · rename_i hrelative
    rw [if_neg hrelative, if_neg hrelative, h.start hout]

theorem MovedTo.isFolder (h : MovedTo t t' target) (hfolder : t'.isFolder l = true)
    (hout : ¬target <+: l) : t.isFolder l = true := by
  rw [FileTree.isFolder, ← h.elsewhere l hout (isSome_of_isFolder hfolder)]
  exact hfolder

theorem MovedTo.follow (h : MovedTo t t' target) (hstart : ¬target <+: o)
    (hfollow : t'.follow o segments = .ok m)
    (havoid : ∀ front, front <+: segments → t'.follow o front ≠ .ok target) :
    t.follow o segments = .ok m ∧ ¬target <+: m := by
  induction segments using List.reverseRecOn generalizing m with
  | nil =>
      obtain ⟨hreach, hstay⟩ := follow_eq_ok_iff.mp hfollow
      rw [← Except.ok.inj hstay]
      rw [isReachable_iff] at hreach
      refine ⟨follow_eq_ok_iff.mpr ⟨isReachable_iff.mpr fun k hk => ?_, rfl⟩, hstart⟩
      exact h.isFolder (hreach k hk) fun hin => hstart (hin.trans hk)
  | append_singleton segments s ih =>
      have hwhole := havoid _ List.prefix_rfl
      rw [hfollow] at hwhole
      rw [follow_concat] at hfollow ⊢
      obtain ⟨l, hl, hstep⟩ := bind_cases hfollow
      obtain ⟨hl', hout⟩ := ih hl fun front hfront =>
        havoid front (hfront.trans (List.prefix_append _ _))
      rw [hl']
      -- the way goes through a folder that stands where it stood
      obtain ⟨hfolder, hcases⟩ := step_eq_ok_iff.mp hstep
      have hfolder' := h.isFolder hfolder hout
      have hagain : ((Path.isIdle s = true ∧ m = l) ∨
          (Path.isIdle s = false ∧ s = ".." ∧ m = l.dropLast) ∨
          (Path.isIdle s = false ∧ s ≠ ".." ∧ s.utf8ByteSize ≤ nameLimit ∧ m = l ++ [s] ∧
            (t.entry? m).isSome = true)) ∧ ¬target <+: m := by
        rcases hcases with ⟨hidle, rfl⟩ | ⟨hbusy, hup, rfl⟩ | ⟨hbusy, hup, hlength, rfl, hsome⟩
        · exact ⟨.inl ⟨hidle, rfl⟩, hout⟩
        · exact ⟨.inr (.inl ⟨hbusy, hup, rfl⟩), fun hback =>
            hout (hback.trans (List.dropLast_prefix l))⟩
        · have hout' : ¬target <+: l ++ [s] := fun hat =>
            (List.prefix_concat_iff.mp hat).elim (fun he => hwhole (by rw [he])) hout
          rw [h.elsewhere _ hout' hsome] at hsome
          exact ⟨.inr (.inr ⟨hbusy, hup, hlength, rfl, hsome⟩), hout'⟩
      exact ⟨step_eq_ok_iff.mpr ⟨hfolder', hagain.1⟩, hagain.2⟩

/-- **A path that does not pass the new location leads where it led, to what was there.** -/
theorem MovedTo.locate (h : MovedTo t t' target) (hl : t'.locate q = .ok m)
    (havoid : ¬t'.Passes q target) : t.locate q = .ok m ∧ t'.entry? m = t.entry? m := by
  rw [Passes, not_or] at havoid
  obtain ⟨hstart, hway⟩ := havoid
  obtain ⟨hsegments, hfollow⟩ := locate_cases hl
  obtain ⟨hbefore, hout⟩ :=
    h.follow hstart hfollow fun front hfront hat => hway ⟨front, hfront, hat⟩
  rw [h.origin_eq hstart] at hbefore
  exact ⟨locate_of_follow hsegments hbefore, h.elsewhere m hout (entry?_of_locate hl)⟩

/-- What is kept for such a path is as good as it was. -/
theorem MovedTo.stale {c : Cache} (h : MovedTo t t' target) (havoid : ¬t'.Passes q target)
    (hstale : c.Stale t' reader q) : c.Stale t reader q := by
  obtain ⟨stamp, value, hstamp, hfind, hne⟩ := hstale
  obtain ⟨m, hm⟩ := locate_of_stamp hstamp
  obtain ⟨hm', hsame⟩ := h.locate hm havoid
  have hfile : t'.file q = t.file q := by rw [file_of_locate hm, file_of_locate hm', hsame]
  refine ⟨stamp, value, by rw [← stamp_congr hfile, hstamp], hfind, ?_⟩
  rw [embedded, ← hfile]
  exact hne

/--
**Which look-ups go wrong after a rename.**

A cache that agrees with the files is used for a rename that succeeds. Look-ups of the old path, and
of every path that does not pass the new location, come to what is found in the files, or fail if
there is nothing. A look-up of another path goes wrong just if an entry for this path has been left
in the cache whose stamp is that of what has been moved there and whose data is not. So the cache
agrees with the files again unless there is such an entry.
-/
theorem renameSong_agrees {c : Cache} {name : String} {overwrite : Bool} {target : Path}
    (h : (t.renameSong (some c) p name overwrite).outcome = .ok target)
    (hc : c.Agrees t reader) :
    let t' := (t.renameSong (some c) p name overwrite).tree
    ∃ c' l, (t.renameSong (some c) p name overwrite).cache = some c' ∧
      t.locateName target = .ok l ∧
      (∀ q, (c'.getOrLoad (t'.stamp q) q (t'.embedded reader)).outcome ≠ t'.outcome reader q ↔
        t'.Passes q l ∧ p.components ≠ q.components ∧ c.Stale t' reader q) ∧
      (c'.Agrees t' reader ↔
        ∀ q, t'.Passes q l → p.components ≠ q.components → ¬c.Stale t' reader q) := by
  intro t'
  obtain ⟨-, htarget, hrename, hcache⟩ := renameSong_succeeded h
  obtain ⟨l, hl, hmoved⟩ := movedTo_of_rename hrename
  rw [← htarget] at hl
  have hstale : ∀ q, (c.invalidate p).Stale t' reader q ↔
      t'.Passes q l ∧ p.components ≠ q.components ∧ c.Stale t' reader q := by
    intro q
    rw [Cache.stale_invalidate_iff]
    refine ⟨fun hq => ⟨?_, hq⟩, And.right⟩
    by_contra havoid
    exact hc q (hmoved.stale havoid hq.2)
  refine ⟨c.invalidate p, l, hcache, hl, fun q => ?_, ?_⟩
  · rw [Cache.outcome_ne_iff, hstale]
  · rw [Cache.Agrees]
    simp only [hstale, not_and]

/-- A file with a title in its tag. -/
def fileTitled (title : String) (audio : List UInt8) : Entry :=
  let text := Embedded.compose "" [("Title", .string title)]
  .file ⟨audio, some (.ofComments [⟨Comment.dataLanguage, "", text⟩]), .given 1⟩

/-- The cache knows a file under the new name whose tag is longer, so it is asked in vain. -/
theorem renameSong_agrees_resized :
    let t : FileTree := ⟨[(["m"], .folder), (["m", "a.mp3"], fileTitled "One" (Text.bytes "audio")),
      (["m", "b.mp3"], fileTitled "Three" (Text.bytes "audio"))], 0, ["m"]⟩
    let c := (t.loadEach frameReader (.empty 8) [⟨"/m/a.mp3"⟩, ⟨"b.mp3"⟩]).2
    let r := t.renameSong (some c) ⟨"/m/a.mp3"⟩ "b" true
    c.Agrees t frameReader ∧ r.outcome = .ok ⟨"/m/b.mp3"⟩ ∧ ∃ c', r.cache = some c' ∧
      (c'.getOrLoad (r.tree.stamp ⟨"b.mp3"⟩) ⟨"b.mp3"⟩ (r.tree.embedded frameReader)).outcome =
        r.tree.outcome frameReader ⟨"b.mp3"⟩ := by
  intro t c r
  have hc : c.Agrees t frameReader := Cache.agrees_loadEach 8 t frameReader _
  have hrenamed : r.outcome = .ok ⟨"/m/b.mp3"⟩ := by decide +kernel
  have hnow : r.tree.stamp ⟨"b.mp3"⟩ = t.stamp ⟨"a.mp3"⟩ := by decide +kernel
  have hkept : (t.stamp ⟨"a.mp3"⟩).toOption.all fun stamp =>
      (c.find? ⟨"b.mp3"⟩ stamp).isNone := by decide +kernel
  obtain ⟨c', l, hcache, -, hwrong, -⟩ := renameSong_agrees hrenamed hc
  refine ⟨hc, hrenamed, c', hcache, ?_⟩
  by_contra hne
  obtain ⟨-, -, stamp, value, hstamp, hfind, -⟩ := (hwrong ⟨"b.mp3"⟩).mp hne
  rw [← hnow, hstamp, Except.toOption, Option.all_some, hfind] at hkept
  exact Bool.noConfusion hkept

/-- Two files of one size, last changed at one moment: once one of them has taken the place of the
other, the cache still has the data of the other under its path. -/
theorem renameSong_stale :
    let t : FileTree := ⟨[(["a.mp3"], fileTitled "One" (Text.bytes "audio")),
      (["b.mp3"], fileTitled "Two" (Text.bytes "audio"))], 0, []⟩
    let c := (t.loadEach frameReader (.empty 8) [⟨"a.mp3"⟩, ⟨"b.mp3"⟩]).2
    let r := t.renameSong (some c) ⟨"a.mp3"⟩ "b" true
    c.Agrees t frameReader ∧ r.outcome = .ok ⟨"b.mp3"⟩ ∧
      (r.tree.songOf frameReader ⟨"b.mp3"⟩).title = "One" ∧
      r.cache.map (fun c' => (r.tree.load frameReader c' ⟨"b.mp3"⟩).1.song.title) = some "Two" :=
  ⟨Cache.agrees_loadEach 8 _ _ _, by decide +kernel⟩

end FileTree

end SongLibrary
