import SongLibrary.Proofs.Files.SongFile

/-!
# Writing tags one after the other

Updates of tags follow one another, each at a path. No path comes to lead elsewhere, so what becomes
of a file can be told from the tree in the beginning: it gets the updates at the paths that lead to
it, in their order, and nothing else happens to it. Nor does anything happen to the reasons why a
tag cannot be read.
-/

namespace SongLibrary

/-- An update of the tag of the file at a path. -/
structure TagWrite where
  path : Path
  update : TagUpdate

/-- An update that changes no frame. -/
def TagWrite.empty (path : Path) : TagWrite := ⟨path, ⟨none, none, none, none, none, none, none⟩⟩

/-- An update of the title. -/
def TagWrite.ofTitle (path : Path) (title : String) : TagWrite :=
  ⟨path, { (empty path).update with title := some title }⟩

namespace File

/-- Updates start from a file whose tag can be read, and they leave it with a tag. -/
theorem tag_of_retags {f g : File} {us : List TagUpdate} (h : us.foldlM retag f = .ok g)
    (hne : us ≠ []) : (∃ tag?, f.readTag = .ok tag?) ∧ ∃ tag, g.tag = some tag := by
  induction us using List.reverseRecOn generalizing g with
  | nil => exact absurd rfl hne
  | append_singleton us u ih =>
      rw [List.foldlM_append] at h
      obtain ⟨f', hf', hlast⟩ := bind_cases h
      rw [List.foldlM_cons] at hlast
      obtain ⟨g', hg', hsame⟩ := bind_cases hlast
      obtain ⟨tag?, content, hread, -, rfl⟩ := retag_cases hg'
      rw [← Except.ok.inj hsame]
      refine ⟨?_, _, rfl⟩
      by_cases hus : us = []
      · subst hus
        rw [← Except.ok.inj hf'] at hread
        exact ⟨tag?, hread⟩
      · exact (ih hf' hus).1

/-- The moment of the last change plays no part in an update. -/
theorem retag_modified {f g : File} {u : TagUpdate} (now : Moment) (h : f.retag u = .ok g) :
    { f with modified := now }.retag u = .ok { g with modified := now } := by
  obtain ⟨tag?, content, hread, hcontent, rfl⟩ := retag_cases h
  have hread' : { f with modified := now }.readTag = .ok tag? := hread
  have hcontent' : { f with modified := now }.behindNewTag = .ok content := hcontent
  rw [retag, hread', hcontent']
  rfl

end File

/-- What lies at a location, but for the moment of its last change. -/
def Entry.undated : Entry → Entry
  | .folder => .folder
  | .file f => .file { f with modified := .given 0 }

namespace FileTree

variable {t t' t'' : FileTree} {l : Location} {p : Path} {ws : List TagWrite}

/-- The tree after a tag is written. -/
def writeTag (t : FileTree) (w : TagWrite) : Except SongFileError FileTree :=
  match t.updateTag w.path w.update with
  | (t, .ok ()) => .ok t
  | (_, .error cause) => .error cause

/-- Writes tags one after the other, as long as this is possible. -/
def writeTags (t : FileTree) (ws : List TagWrite) : Except SongFileError FileTree :=
  ws.foldlM writeTag t

/-- The updates at the paths that lead to a location. -/
def updatesAt (t : FileTree) (ws : List TagWrite) (l : Location) : List TagUpdate :=
  (ws.filter (fun w => t.locate w.path = .ok l)).map TagWrite.update

/-- A tree comes from another one by some updates of tags. -/
structure Written (t : FileTree) (ws : List TagWrite) (t' : FileTree) : Prop where
  /-- Every path leads where it led. -/
  locate : ∀ q, t'.locate q = t.locate q
  /-- A file gets the updates at the paths that lead to it. -/
  file : ∀ l f, t.entry? l = some (.file f) → ∃ g now,
    (t.updatesAt ws l).foldlM File.retag f = .ok g ∧
      t'.entry? l = some (.file { g with modified := now })
  /-- What gets no update is as it was, moment and all. -/
  untouched : ∀ l, t.updatesAt ws l = [] → t'.entry? l = t.entry? l
  /-- Folders get no updates, nor does what is not there. -/
  onFiles : ∀ l, t.updatesAt ws l ≠ [] → ∃ f, t.entry? l = some (.file f)

theorem writeTag_eq_ok_iff {w : TagWrite} :
    t.writeTag w = .ok t' ↔ t.updateTag w.path w.update = (t', .ok ()) := by
  rw [writeTag]
  split
  · rename_i tree hupdate
    simp [hupdate]
  · rename_i tree cause hupdate
    simp [hupdate]

theorem writeTags_concat (t : FileTree) (ws : List TagWrite) (w : TagWrite) :
    t.writeTags (ws ++ [w]) = t.writeTags ws >>= fun t' => t'.writeTag w := by
  rw [writeTags, List.foldlM_append]
  refine bind_congr fun t' => ?_
  rw [List.foldlM_cons]
  cases t'.writeTag w <;> rfl

theorem updatesAt_concat (t : FileTree) (ws : List TagWrite) (w : TagWrite) (l : Location) :
    t.updatesAt (ws ++ [w]) l =
      t.updatesAt ws l ++ if t.locate w.path = .ok l then [w.update] else [] := by
  rw [updatesAt, List.filter_append, List.map_append]
  by_cases h : t.locate w.path = .ok l <;> simp [updatesAt, h]

theorem written_nil (t : FileTree) : Written t [] t where
  locate _ := rfl
  file _ f hf := ⟨f, f.modified, rfl, hf⟩
  untouched _ _ := rfl
  onFiles _ h := absurd rfl h

/-- **One more update.** -/
theorem Written.concat {w : TagWrite} (h : Written t ws t')
    (hupdate : t'.updateTag w.path w.update = (t'', .ok ())) : Written t (ws ++ [w]) t'' := by
  obtain ⟨l, f', g', hl', hf', hg', rfl⟩ := updateTag_cases hupdate
  have hl : t.locate w.path = .ok l := by rw [← h.locate, hl']
  have hput := filePut_tick (g := { g' with modified := .clock t'.clock }) hf'
  obtain ⟨f, hf⟩ : ∃ f, t.entry? l = some (.file f) := by
    by_cases hnone : t.updatesAt ws l = []
    · exact ⟨f', by rw [← h.untouched l hnone, hf']⟩
    · exact h.onFiles l hnone
  refine ⟨fun q => ?_, fun m k hk => ?_, fun m hm => ?_, fun m hm => ?_⟩
  · rw [hput.locate_eq (by rw [hf']; rfl), h.locate]
  · rw [updatesAt_concat, hl]
    obtain ⟨g, now, hfold, hg⟩ := h.file m k hk
    by_cases hml : l = m
    · -- the file that is written now has got all updates before
      subst hml
      obtain rfl := file_unique hf' hg
      have hagain := File.retag_modified g.modified hg'
      refine ⟨{ g' with modified := g.modified }, .clock t'.clock, ?_, hput.here⟩
      rw [if_pos rfl, List.foldlM_append, hfold]
      have hone : [w.update].foldlM File.retag g = g.retag w.update := by
        rw [List.foldlM_cons]
        cases g.retag w.update <;> rfl
      exact hone.trans hagain
    · refine ⟨g, now, ?_, by rw [hput.elsewhere m (Ne.symm hml), hg]⟩
      rw [if_neg (by simpa using hml), List.append_nil, hfold]
  · rw [updatesAt_concat, hl] at hm
    obtain ⟨hbefore, hnot⟩ := List.append_eq_nil_iff.mp hm
    have hml : l ≠ m := by
      rintro rfl
      simp at hnot
    rw [hput.elsewhere m (Ne.symm hml), h.untouched m hbefore]
  · rw [updatesAt_concat, hl] at hm
    by_cases hml : l = m
    · exact hml ▸ ⟨f, hf⟩
    · rw [if_neg (by simpa using hml), List.append_nil] at hm
      exact h.onFiles m hm

/-- **A tree after some updates.** -/
theorem written_of_writeTags (h : t.writeTags ws = .ok t') : Written t ws t' := by
  induction ws using List.reverseRecOn generalizing t' with
  | nil => exact Except.ok.inj h ▸ written_nil t
  | append_singleton ws w ih =>
      rw [writeTags_concat] at h
      obtain ⟨t₁, hbefore, hlast⟩ := bind_cases h
      exact (ih hbefore).concat (writeTag_eq_ok_iff.mp hlast)

/-- A path leads to the file it led to, or to this file with all its updates. -/
theorem Written.file_cases (h : Written t ws t') (p : Path) : t'.file p = t.file p ∨
    ∃ l f g now, t.locate p = .ok l ∧ t.entry? l = some (.file f) ∧ t.updatesAt ws l ≠ [] ∧
      (t.updatesAt ws l).foldlM File.retag f = .ok g ∧ t.file p = .ok f ∧
      t'.file p = .ok { g with modified := now } := by
  by_cases hupdates : ∃ l, t.locate p = .ok l ∧ t.updatesAt ws l ≠ []
  · obtain ⟨l, hl, hsome⟩ := hupdates
    obtain ⟨f, hf⟩ := h.onFiles l hsome
    obtain ⟨g, now, hfold, hg⟩ := h.file l f hf
    refine .inr ⟨l, f, g, now, hl, hf, hsome, hfold, by rw [file_of_locate hl, hf], ?_⟩
    rw [file_of_locate ((h.locate p).trans hl), hg]
  · refine .inl (file_eq_of_locate (h.locate p) fun l hl => h.untouched l ?_)
    by_contra hsome
    exact hupdates ⟨l, hl, hsome⟩

/-- **Tags that cannot be read stay so, for the same reasons, and others stay readable.** -/
theorem Written.readTag_eq_error_iff (h : Written t ws t') (p : Path) (cause : TagError) :
    t'.readTag p = .error cause ↔ t.readTag p = .error cause := by
  rcases h.file_cases p with hsame | ⟨l, f, g, now, -, -, hsome, hfold, hf, hg⟩
  · rw [readTag, readTag, hsame]
  · -- the file has been written, so its tag could be read, and it can be read again
    obtain ⟨⟨tag?, hread⟩, tag, htag⟩ := File.tag_of_retags hfold hsome
    have hread' : { g with modified := now }.readTag = .ok (some tag) := by
      rw [File.readTag, htag]
    rw [readTag, readTag, hf, hg]
    dsimp only
    rw [hread, hread']
    simp

/-- The updates of files that are not shared come in one order only. -/
theorem updatesAt_perm {ws' : List TagWrite}
    (hapart : ws.Pairwise (fun w w' => t.locate w.path ≠ t.locate w'.path))
    (hperm : ws.Perm ws') (l : Location) : t.updatesAt ws l = t.updatesAt ws' l := by
  have hfilter := hperm.filter (fun w => t.locate w.path = .ok l)
  have hall : ∀ w ∈ ws.filter (fun w => t.locate w.path = .ok l), t.locate w.path = .ok l :=
    fun w hw => by simpa using (List.mem_filter.mp hw).2
  have hapart' := hapart.filter (fun w => t.locate w.path = .ok l)
  rw [updatesAt, updatesAt]
  cases hws : ws.filter (fun w => t.locate w.path = .ok l) with
  | nil => rw [hws] at hfilter; rw [List.nil_perm.mp hfilter]
  | cons w rest =>
      cases rest with
      | nil => rw [hws] at hfilter; rw [List.singleton_perm.mp hfilter]
      | cons w' rest =>
          -- two updates at one location
          rw [hws] at hall hapart'
          have hsame := (hall w (by simp)).trans (hall w' (by simp)).symm
          exact absurd hsame (List.rel_of_pairwise_cons hapart' (by simp))

/-- The updates at each location decide what is there, moments apart. -/
theorem Written.undated_eq {ws' : List TagWrite} (h : Written t ws t') (h' : Written t ws' t'')
    (hsame : ∀ l, t.updatesAt ws l = t.updatesAt ws' l) (l : Location) :
    (t'.entry? l).map Entry.undated = (t''.entry? l).map Entry.undated := by
  by_cases hnone : t.updatesAt ws l = []
  · rw [h.untouched l hnone, h'.untouched l (by rw [← hsame, hnone])]
  · obtain ⟨f, hf⟩ := h.onFiles l hnone
    obtain ⟨g, now, hfold, hg⟩ := h.file l f hf
    obtain ⟨g', now', hfold', hg'⟩ := h'.file l f hf
    rw [hsame l, hfold'] at hfold
    rw [hg, hg', ← Except.ok.inj hfold]
    rfl

end FileTree

end SongLibrary
