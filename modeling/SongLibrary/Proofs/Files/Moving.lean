import SongLibrary.Proofs.Files.FileName

/-!
# Moving a file

An entry is moved from one name to another. Where it is a file, what it is moved to is no folder, so
nothing can be reached by way of either of the two places. The file is found at the new one and is
gone from the old one, and every path that leads elsewhere leads there before and after.
-/

namespace SongLibrary.FileTree

variable {t t' : FileTree} {p q : Path} {source target k k' l m o : Location}
  {old new name : String} {e : Entry} {f : File} {segments : List String}

/-! ## Entries that are moved -/

theorem find?_moveEntries (entries : Assoc Location Entry) (source : Location)
    (hm : ¬target <+: m) :
    Assoc.find? (moveEntries entries source target) m =
      if source <+: m then none else Assoc.find? entries m := by
  have hgone : Assoc.find? entries m = Assoc.find? (Assoc.erase entries target) m := by
    rw [Assoc.find?_erase, if_neg]
    rintro rfl
    exact hm List.prefix_rfl
  rw [hgone, moveEntries]
  induction Assoc.erase entries target with
  | nil => simp [Assoc.find?]
  | cons e rest ih =>
      obtain ⟨k, e⟩ := e
      rw [List.map_cons]
      by_cases hk : source <+: k
      · have hne : target ++ k.drop source.length ≠ m := fun he => hm (he ▸ List.prefix_append _ _)
        rw [if_pos (List.isPrefixOf_iff_prefix.mpr hk), Assoc.find?, if_neg hne, ih]
        by_cases hs : source <+: m
        · rw [if_pos hs, if_pos hs]
        · have hkm : k ≠ m := fun he => hs (he ▸ hk)
          rw [if_neg hs, if_neg hs, Assoc.find?, if_neg hkm]
      · rw [if_neg (by rwa [List.isPrefixOf_iff_prefix]), Assoc.find?, Assoc.find?, ih]
        by_cases hkm : k = m
        · rw [if_pos hkm, if_pos hkm, if_neg (hkm ▸ hk)]
        · rw [if_neg hkm, if_neg hkm]

/-- What has been moved is found at the new location. -/
theorem find?_moveEntries_target (entries : Assoc Location Entry) (hne : source ≠ target) :
    Assoc.find? (moveEntries entries source target) target = Assoc.find? entries source := by
  have hkept : Assoc.find? entries source = Assoc.find? (Assoc.erase entries target) source := by
    rw [Assoc.find?_erase, if_neg hne.symm]
  have hgone : ∀ e ∈ Assoc.erase entries target, e.1 ≠ target := fun e he => by
    simpa using (List.mem_filter.mp he).2
  rw [hkept, moveEntries]
  generalize Assoc.erase entries target = kept at hgone ⊢
  induction kept with
  | nil => rfl
  | cons e rest ih =>
      obtain ⟨l, e⟩ := e
      have hrest := ih fun e he => hgone e (List.mem_cons_of_mem _ he)
      rw [List.map_cons]
      by_cases hl : source <+: l
      · obtain ⟨names, rfl⟩ := hl
        have hprefix : source.isPrefixOf (source ++ names) = true :=
          List.isPrefixOf_iff_prefix.mpr (List.prefix_append _ _)
        rw [if_pos hprefix, List.drop_left, Assoc.find?, Assoc.find?]
        cases names with
        | nil => simp
        | cons name names => rw [if_neg (by simp), if_neg (by simp), hrest]
      · have hls : l ≠ source := fun he => hl (he ▸ List.prefix_rfl)
        rw [if_neg (by rwa [List.isPrefixOf_iff_prefix]), Assoc.find?, Assoc.find?,
          if_neg (hgone (l, e) List.mem_cons_self), if_neg hls, hrest]

/-- A file takes the starting folder nowhere. -/
theorem start_moved_file (t : FileTree) (f : File) (source target : Location) :
    (t.moved (.file f) source target).start = t.start := by
  rw [moved, if_neg fun h => Entry.noConfusion h.1]

/-! ## Moves that succeed -/

/-- **What a move that succeeds has done.** It has found an entry under the one name, and either the
other name is that of the same entry, or the entry has been moved there from a place that the new
one does not lie in. A file is moved from a name to a name, and not onto a folder. -/
theorem rename_cases (h : t.rename p q = .ok t') : ∃ k old k' new e,
    t.Names p k old ∧ t.Names q k' new ∧ t.entry? (k ++ [old]) = some e ∧
    (e ≠ .folder → isOpenEnded p = false ∧ isOpenEnded q = false) ∧
    (k ++ [old] = k' ++ [new] ∧ t' = t ∨
      ¬k ++ [old] <+: k' ++ [new] ∧ (e ≠ .folder → t.isFolder (k' ++ [new]) = false) ∧
        t' = t.moved e (k ++ [old]) (k' ++ [new])) := by
  rw [rename] at h
  split at h
  · exact absurd h (by simp [bind, Except.bind])
  obtain ⟨source, hsource, h⟩ := bind_cases h
  obtain ⟨k, old, hp, rfl⟩ := names_of_locateName hsource
  split at h
  · exact absurd h (by simp)
  rename_i e he
  obtain ⟨target, htarget, h⟩ := bind_cases h
  obtain ⟨k', new, hq, rfl⟩ := names_of_locateName htarget
  refine ⟨k, old, k', new, e, hp, hq, he, ?_⟩
  split at h
  · exact absurd h (by simp)
  rename_i hclosed
  rw [not_and, not_or, Bool.not_eq_true, Bool.not_eq_true] at hclosed
  refine ⟨hclosed, ?_⟩
  split at h
  · rename_i hsame
    exact .inl ⟨hsame, (Except.ok.inj h).symm⟩
  split at h
  · exact absurd h (by simp)
  rename_i hbeside
  rw [List.isPrefixOf_iff_prefix] at hbeside
  refine .inr ⟨hbeside, ?_⟩
  cases e with
  | folder =>
      refine ⟨fun hfile => absurd rfl hfile, ?_⟩
      split at h
      · exact absurd h (by simp)
      · rename_i heq _
        exact absurd heq (by simp)
      · split at h
        · exact (Except.ok.inj h).symm
        · exact absurd h (by simp)
      · exact (Except.ok.inj h).symm
  | file f =>
      split at h
      · rename_i heq _
        exact absurd heq (by simp)
      · exact absurd h (by simp)
      · rename_i heq _
        exact absurd heq (by simp)
      · rename_i hfolder _
        refine ⟨fun _ => ?_, (Except.ok.inj h).symm⟩
        rw [isFolder, beq_eq_false_iff_ne]
        exact hfolder f rfl

/-- **A file can be moved to another name in its folder, unless that is the name of a folder.** -/
theorem rename_of_names (hp : t.Names p k old) (hopen : isOpenEnded p = false)
    (hf : t.entry? (k ++ [old]) = some (.file f)) (hq : t.Names q k new)
    (hopen' : isOpenEnded q = false) (hvacant : t.isFolder (k ++ [new]) = false) :
    t.rename p q =
      .ok (if old = new then t else t.moved (.file f) (k ++ [old]) (k ++ [new])) := by
  have hnul : ∀ {r name}, t.Names r k name → holdsNul r = false := fun hr =>
    (segmentsOf_eq_ok_iff.mp hr.followable).2.1
  rw [rename, if_neg (by simp [hnul hp, hnul hq]), hp.locateName_eq]
  dsimp only [bind, Except.bind]
  rw [hf]
  dsimp only
  rw [hq.locateName_eq]
  dsimp only
  rw [if_neg (by simp [hopen, hopen'])]
  by_cases hsame : old = new
  · rw [if_pos (by rw [hsame]), if_pos hsame]
  · have hne : k ++ [old] ≠ k ++ [new] := by simpa using hsame
    have hbeside : ¬(k ++ [old]).isPrefixOf (k ++ [new]) = true := by
      rw [List.isPrefixOf_iff_prefix]
      exact fun hfront => hne (hfront.eq_of_length (by simp))
    rw [if_neg hne, if_neg hbeside, if_neg hsame]
    cases hentry : t.entry? (k ++ [new]) with
    | none => rfl
    | some e =>
        cases e with
        | folder =>
            rw [isFolder, hentry] at hvacant
            exact Bool.noConfusion hvacant
        | file g => rfl

/-! ## Trees that differ at two places -/

theorem follow_concat (t : FileTree) (o : Location) (segments : List String) (s : String) :
    t.follow o (segments ++ [s]) = t.follow o segments >>= fun l => t.step l s := by
  rw [follow, follow]
  split
  · rw [List.foldlM_append]
    refine bind_congr fun l => ?_
    rw [List.foldlM_cons]
    cases t.step l s <;> rfl
  · rfl

/-- Two trees differ at two locations, neither of which is that of a folder in either tree, and
start at one folder. -/
structure DifferAt (t t' : FileTree) (source target : Location) : Prop where
  closed : t.isFolder source = false ∧ t.isFolder target = false
  closed' : t'.isFolder source = false ∧ t'.isFolder target = false
  elsewhere : ∀ m, ¬source <+: m → ¬target <+: m → t'.entry? m = t.entry? m
  start : t'.start = t.start

namespace DifferAt

theorem symm (h : DifferAt t t' source target) : DifferAt t' t source target :=
  ⟨h.closed', h.closed, fun m hs ht => (h.elsewhere m hs ht).symm, h.start.symm⟩

/-- What can be reached does not lie in what is no folder. -/
theorem entry?_eq (h : DifferAt t t' source target) (hfollow : t.follow o segments = .ok m)
    (hs : m ≠ source) (ht : m ≠ target) : t'.entry? m = t.entry? m := by
  have hbeside : ∀ l, t.isFolder l = false → m ≠ l → ¬l <+: m := by
    intro l hl hne hprefix
    rw [(folders_of_follow hfollow).1 l hprefix hne.symm] at hl
    exact Bool.noConfusion hl
  exact h.elsewhere m (hbeside source h.closed.1 hs) (hbeside target h.closed.2 ht)

theorem isFolder_eq (h : DifferAt t t' source target) (hfollow : t.follow o segments = .ok k)
    (hfolder : t.isFolder k = true) : k ≠ source ∧ k ≠ target ∧ t'.isFolder k = true := by
  have hne : ∀ l, t.isFolder l = false → k ≠ l := by
    rintro l hl rfl
    rw [hl] at hfolder
    exact Bool.noConfusion hfolder
  have hs := hne source h.closed.1
  have ht := hne target h.closed.2
  refine ⟨hs, ht, ?_⟩
  rw [isFolder, h.entry?_eq hfollow hs ht]
  exact hfolder

/-- A folder that can be reached in the one tree can be reached in the other. -/
theorem isReachable (h : DifferAt t t' source target) (hreach : t.isReachable o = true) :
    t'.isReachable o = true := by
  rw [isReachable_iff] at hreach ⊢
  intro k hk
  -- every folder on the way is reached by way of the others
  have hthere : t.follow k [] = .ok k :=
    follow_eq_ok_iff.mpr ⟨isReachable_iff.mpr fun k' hk' => hreach k' (hk'.trans hk), rfl⟩
  exact (h.isFolder_eq hthere (hreach k hk)).2.2

/-- **What leads to another place leads there in either tree.** -/
theorem follow (h : DifferAt t t' source target) (hfollow : t.follow o segments = .ok m)
    (hs : m ≠ source) (ht : m ≠ target) : t'.follow o segments = .ok m := by
  induction segments using List.reverseRecOn generalizing m with
  | nil =>
      obtain ⟨hreach, hstay⟩ := follow_eq_ok_iff.mp hfollow
      exact follow_eq_ok_iff.mpr ⟨h.isReachable hreach, hstay⟩
  | append_singleton segments s ih =>
      have hentry := h.entry?_eq hfollow hs ht
      rw [follow_concat] at hfollow ⊢
      obtain ⟨l, hl, hstep⟩ := bind_cases hfollow
      obtain ⟨hfolder, hcases⟩ := step_eq_ok_iff.mp hstep
      obtain ⟨hls, hlt, hfolder'⟩ := h.isFolder_eq hl hfolder
      rw [ih hl hls hlt]
      refine step_eq_ok_iff.mpr ⟨hfolder', ?_⟩
      rw [hentry]
      exact hcases

theorem locate_iff (h : DifferAt t t' source target) (hs : m ≠ source) (ht : m ≠ target) :
    t'.locate q = .ok m ↔ t.locate q = .ok m := by
  constructor
  · intro hm
    obtain ⟨hsegments, hfollow⟩ := locate_cases hm
    rw [origin_eq h.start] at hfollow
    exact locate_of_follow hsegments (h.symm.follow hfollow hs ht)
  · intro hm
    obtain ⟨hsegments, hfollow⟩ := locate_cases hm
    rw [← origin_eq h.start] at hfollow
    exact locate_of_follow hsegments (h.follow hfollow hs ht)

/-- A path that leads to another place leads to what has been there. -/
theorem file_eq (h : DifferAt t t' source target) (hm : t.locate q = .ok m) (hs : m ≠ source)
    (ht : m ≠ target) : t'.file q = t.file q := by
  rw [file_of_locate hm, file_of_locate ((h.locate_iff hs ht).mpr hm),
    h.entry?_eq (locate_cases hm).2 hs ht]

theorem names (h : DifferAt t t' source target) (hq : t.Names q k name) : t'.Names q k name := by
  obtain ⟨outer, blanks, hsegments, hblanks, hfollow⟩ := hq.way
  obtain ⟨hs, ht, hfolder⟩ := h.isFolder_eq hfollow hq.folder
  rw [← origin_eq h.start] at hfollow
  exact ⟨hq.followable, ⟨outer, blanks, hsegments, hblanks, h.follow hfollow hs ht⟩, hfolder,
    hq.busy, hq.notUp, hq.short⟩

end DifferAt

/-! ## A file that is moved -/

/-- A file has been moved from one location to another, or put back where it was. -/
structure FileMoved (t t' : FileTree) (source target : Location) (f : File) : Prop where
  file : t.entry? source = some (.file f)
  /-- No folder makes way for the file. -/
  vacant : t.isFolder target = false
  here : t'.entry? target = some (.file f)
  gone : source ≠ target → t'.entry? source = none
  elsewhere : ∀ m, ¬source <+: m → ¬target <+: m → t'.entry? m = t.entry? m
  start : t'.start = t.start

theorem fileMoved_refl (hf : t.entry? l = some (.file f)) : FileMoved t t l l f :=
  ⟨hf, isFolder_of_file hf, hf, fun hne => absurd rfl hne, fun _ _ _ => rfl, rfl⟩

theorem fileMoved_moved (hp : t.Names p k old) (hf : t.entry? (k ++ [old]) = some (.file f))
    (hbeside : ¬k ++ [old] <+: target) (htarget : target ≠ [])
    (hvacant : t.isFolder target = false) :
    FileMoved t (t.moved (.file f) (k ++ [old]) target) (k ++ [old]) target f := by
  have hne : k ++ [old] ≠ target := fun he => hbeside (he ▸ List.prefix_rfl)
  have hroot : k ++ [old] ≠ [] := by simp
  -- the file does not lie in what it is moved to, which is no folder
  have hout : ¬target <+: k ++ [old] := by
    intro hprefix
    obtain ⟨outer, blanks, -, -, hfollow⟩ := hp.way
    have hk : target <+: k := (List.prefix_concat_iff.mp hprefix).resolve_left hne.symm
    have hfolder : t.isFolder target = true := by
      by_cases hat : target = k
      · rw [hat]
        exact hp.folder
      · exact (folders_of_follow hfollow).1 target hk hat
    rw [hvacant] at hfolder
    exact Bool.noConfusion hfolder
  refine ⟨hf, hvacant, ?_, fun _ => ?_, fun m hs ht => ?_, start_moved_file t _ _ _⟩
  · rw [ entry?, if_neg hroot] at hf
    rw [ entry?, if_neg htarget]
    exact (find?_moveEntries_target _ hne).trans hf
  · rw [ entry?, if_neg hroot]
    exact (find?_moveEntries _ _ hout).trans (if_pos List.prefix_rfl)
  · rw [ entry?, entry?]
    split
    · rfl
    · exact (find?_moveEntries _ _ ht).trans (if_neg hs)

/-- **A move of what is no folder moves a file.** -/
theorem fileMoved_of_rename (h : t.rename p q = .ok t') (hp : t.isFolderAt p = false) :
    ∃ k old k' new f, t.Names p k old ∧ isOpenEnded p = false ∧ t.Names q k' new ∧
      isOpenEnded q = false ∧ FileMoved t t' (k ++ [old]) (k' ++ [new]) f := by
  obtain ⟨k, old, k', new, e, hnames, hnames', he, hclosed, hmoved⟩ := rename_cases h
  cases e with
  | folder =>
      have hfolder : t.isFolder (k ++ [old]) = true := by rw [isFolder, he]; rfl
      rw [isFolderAt_iff.mpr ⟨_, hnames.locate_folder hfolder, hfolder⟩] at hp
      exact Bool.noConfusion hp
  | file f =>
      obtain ⟨hopen, hopen'⟩ := hclosed (by simp)
      refine ⟨k, old, k', new, f, hnames, hopen, hnames', hopen', ?_⟩
      rcases hmoved with ⟨hsame, rfl⟩ | ⟨hbeside, hvacant, rfl⟩
      · rw [← hsame]
        exact fileMoved_refl he
      · exact fileMoved_moved hnames he hbeside (by simp) (hvacant (by simp))

namespace FileMoved

theorem differAt (h : FileMoved t t' source target f) : DifferAt t t' source target := by
  refine ⟨⟨isFolder_of_file h.file, h.vacant⟩, ⟨?_, isFolder_of_file h.here⟩, h.elsewhere,
    h.start⟩
  by_cases hsame : source = target
  · rw [hsame]
    exact isFolder_of_file h.here
  · rw [isFolder, h.gone hsame]
    rfl

/-- The file is found at its new path. -/
theorem locate_here (h : FileMoved t t' source (k ++ [new]) f) (hq : t.Names q k new)
    (hopen : isOpenEnded q = false) : t'.locate q = .ok (k ++ [new]) :=
  (h.differAt.names hq).locate_file hopen (by rw [h.here]; rfl)

/-- Nothing is found at its old one. -/
theorem locate_gone (h : FileMoved t t' (k ++ [old]) target f) (hp : t.Names p k old)
    (hne : k ++ [old] ≠ target) : t'.locate p = .error .noSuchFile := by
  rw [(h.differAt.names hp).locate_eq, if_pos (h.gone hne)]

end FileMoved

end SongLibrary.FileTree
