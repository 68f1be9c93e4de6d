import SongLibrary.Proofs.Assoc
import SongLibrary.Proofs.Files.Naming

/-!
# Folders

A folder that is made is there afterwards, and nothing else changes but the folders it lies in. What
a folder holds is known by the names in it, in the order in which they came there.

A name behind the path of a folder names an entry of that folder. It can be too long, or hold the
character that no name can hold; anything else that keeps an entry from being found is its absence.
-/

namespace SongLibrary

namespace FileTree

variable {t t' : FileTree} {p : Path} {l m o : Location} {name : String} {e : Entry} {f : File}

theorem isFolderAt_iff : t.isFolderAt p = true ↔ ∃ l, t.locate p = .ok l ∧ t.isFolder l = true := by
  rw [isFolderAt]
  cases t.locate p with
  | error cause => simp
  | ok l => simp

/-! ## An entry that is put or taken away -/

theorem entry?_put (hl : l ≠ []) (e : Entry) (m : Location) :
    entry? (t.put l e) m = if m = l then some e else t.entry? m := by
  rw [ entry?, entry?, put, Assoc.find?_put]
  by_cases hm : m = l
  · rw [hm, if_neg hl, if_pos rfl, if_pos rfl]
  · rw [if_neg (Ne.symm hm), if_neg hm]

theorem grows_put (h : t.entry? l = none) (e : Entry) : Grows t (t.put l e) := by
  have hl : l ≠ [] := by
    rintro rfl
    exact absurd h (by simp [ entry?])
  have hentry : ∀ m, (t.entry? m).isSome = true → entry? (t.put l e) m = t.entry? m := by
    intro m hm
    rw [ entry?_put hl, if_neg]
    rintro rfl
    rw [h] at hm
    exact Bool.noConfusion hm
  refine ⟨fun m hm => ?_, fun m hm => by rw [hentry m hm]; exact hm, rfl⟩
  rw [isFolder, hentry m (isSome_of_isFolder hm)]
  exact hm

/-- A tree without the entry at a location. -/
def without (t : FileTree) (l : Location) : FileTree :=
  { t with entries := Assoc.erase t.entries l }

/-- A file that is taken away could be put back. -/
theorem filePut_without (h : t.entry? l = some (.file f)) : FilePut (t.without l) t l f := by
  have hl : l ≠ [] := by
    rintro rfl
    exact absurd h (by simp [ entry?])
  have herase : ∀ m, entry? (t.without l) m = if m = l then none else t.entry? m := by
    intro m
    rw [ entry?, entry?, without, Assoc.find?_erase]
    by_cases hm : m = l
    · rw [hm, if_neg hl, if_pos rfl, if_pos rfl]
    · rw [if_neg (Ne.symm hm), if_neg hm]
  refine ⟨?_, h, fun m hm => ?_, rfl⟩
  · rw [isFolder, herase, if_pos rfl]
    rfl
  · rw [herase, if_neg hm]

theorem removeFile_eq (hl : t.locate p = .ok l) (hf : t.entry? l = some (.file f)) :
    t.removeFile p = .ok (t.without l) := by
  rw [removeFile, hl]
  simp [bind, Except.bind, pure, Except.pure, isFolder_of_file hf, without]

/-! ## Making folders -/

/-- A folder is made where nothing has been. -/
theorem makeFolder_cases (h : t.makeFolder p = .ok t') :
    ∃ l, t.entry? l = none ∧ t' = t.put l .folder ∧ t'.locate p = .ok l ∧
      t'.isFolder l = true := by
  rw [makeFolder] at h
  split at h
  · exact absurd h (by simp)
  · rename_i hmissing
    obtain ⟨l, hnew, hput⟩ := bind_cases h
    obtain ⟨k, name, hnames, rfl⟩ := names_of_locateNew hnew
    obtain rfl := Except.ok.inj hput
    have hvacant := hnames.vacant hmissing
    have hfolder : (t.put (k ++ [name]) .folder).isFolder (k ++ [name]) = true := by
      rw [isFolder, entry?_put (by simp), if_pos rfl]
      rfl
    exact ⟨_, hvacant, rfl, (hnames.mono (grows_put hvacant _)).locate_folder hfolder, hfolder⟩
  · exact absurd h (by simp)

theorem isFolderAt_of_makeFolder (h : t.makeFolder p = .ok t') : t'.isFolderAt p = true := by
  obtain ⟨l, -, -, hl, hfolder⟩ := makeFolder_cases h
  exact isFolderAt_iff.mpr ⟨l, hl, hfolder⟩

/-- A folder is made before those that lie in it. -/
theorem makeFolders_eq (t : FileTree) (p : Path) :
    ∃ outer, t.makeFolders p = t.makeFoldersFrom (p :: outer) := by
  rw [makeFolders, ancestors]
  cases p.parent? with
  | none => exact ⟨[], rfl⟩
  | some q => exact ⟨ancestors p.components.length q, rfl⟩

/-- **A folder is there once it has been made.** -/
theorem isFolderAt_makeFolders (hp : p.text ≠ "") (h : (t.makeFolders p).2 = .ok ()) :
    (t.makeFolders p).1.isFolderAt p = true := by
  -- what could not be made for another reason may be there already
  have hthere : ∀ {t : FileTree} {cause : FileError},
      (if t.isFolderAt p then Except.ok () else Except.error cause) = .ok () →
        t.isFolderAt p = true := by
    intro t cause h
    split at h
    · assumption
    · exact absurd h (by simp)
  obtain ⟨outer, heq⟩ := makeFolders_eq t p
  rw [heq, makeFoldersFrom, if_neg (by simpa using hp)] at h ⊢
  split at h
  · rename_i hmade
    exact isFolderAt_of_makeFolder hmade
  · split at h
    · exact absurd h (by simp)
    · split at h
      · rename_i hmade
        exact isFolderAt_of_makeFolder hmade
      · exact hthere h
  · exact hthere h

/-- Where a folder is nothing is made. -/
theorem makeFolders_of_locate (hl : t.locate p = .ok l) :
    t.makeFolders p = (t, if t.isFolder l then .ok () else .error .fileExists) := by
  obtain ⟨outer, heq⟩ := makeFolders_eq t p
  rw [heq, makeFoldersFrom, if_neg (by simpa using text_ne_empty hl), makeFolder, hl]
  simp only [isFolderAt, hl]

/-! ## The names in a folder -/

/-- Every entry lies in a folder. -/
def Rooted (t : FileTree) : Prop :=
  ∀ l name, (t.entry? (l ++ [name])).isSome = true → t.isFolder l = true

/-- The name under which an entry lies in a folder. -/
def lastIn? (l m : Location) : Option String :=
  match m.getLast? with
  | some name => if m.dropLast = l then some name else none
  | none => none

theorem lastIn?_eq_some_iff : lastIn? l m = some name ↔ m = l ++ [name] := by
  rw [lastIn?]
  constructor
  · intro h
    split at h
    · rename_i last hlast
      split at h
      · rename_i hfront
        obtain ⟨front, rfl⟩ := List.getLast?_eq_some_iff.mp hlast
        rw [List.dropLast_concat] at hfront
        rw [hfront, Option.some.inj h]
      · exact absurd h (by simp)
    · exact absurd h (by simp)
  · rintro rfl
    simp

theorem mem_namesIn_iff_key : name ∈ t.namesIn l ↔ l ++ [name] ∈ Assoc.keys t.entries := by
  refine List.mem_filterMap.trans ⟨fun ⟨m, hm, hname⟩ => ?_, fun h => ⟨_, h, ?_⟩⟩
  · rw [← lastIn?_eq_some_iff.mp hname]
    exact hm
  · exact lastIn?_eq_some_iff.mpr rfl

theorem mem_namesIn : name ∈ t.namesIn l ↔ (t.entry? (l ++ [name])).isSome = true := by
  rw [mem_namesIn_iff_key, entry?, if_neg (by simp), ← Option.ne_none_iff_isSome, Ne,
    Assoc.find?_eq_none_iff, not_not]

/-- An entry that is put comes last, or keeps its place. -/
theorem namesIn_put (t : FileTree) (l : Location) (name : String) (e : Entry) :
    (t.put (l ++ [name]) e).namesIn l =
      if name ∈ t.namesIn l then t.namesIn l else t.namesIn l ++ [name] := by
  have hlast : lastIn? l (l ++ [name]) = some name := lastIn?_eq_some_iff.mpr rfl
  show (Assoc.keys (Assoc.put t.entries (l ++ [name]) e)).filterMap (lastIn? l) = _
  rw [Assoc.keys_put]
  by_cases h : name ∈ t.namesIn l
  · rw [if_pos h, if_pos (mem_namesIn_iff_key.mp h)]
    rfl
  · rw [if_neg h, if_neg (mt mem_namesIn_iff_key.mpr h), List.filterMap_append]
    simp only [List.filterMap_cons, List.filterMap_nil, hlast]
    rfl

/-- An entry that is taken away leaves the others in their order. -/
theorem namesIn_without (t : FileTree) (l : Location) (name : String) :
    (t.without (l ++ [name])).namesIn l = (t.namesIn l).filter (· ≠ name) := by
  show (Assoc.keys (Assoc.erase t.entries (l ++ [name]))).filterMap (lastIn? l) = _
  rw [Assoc.keys_erase]
  show _ = ((Assoc.keys t.entries).filterMap (lastIn? l)).filter (· ≠ name)
  rw [List.filter_filterMap, List.filterMap_filter]
  refine List.filterMap_congr fun m _ => ?_
  cases hlast : lastIn? l m with
  | none => simp
  | some other =>
      have hm := lastIn?_eq_some_iff.mp hlast
      by_cases hother : other = name
      · simp [Option.filter, hm, hother]
      · simp [Option.filter, hm, hother]

/-- Nothing lies in a folder that has just been made. -/
theorem namesIn_of_makeFolder (hrooted : t.Rooted) (h : t.makeFolder p = .ok t')
    (hl : t'.locate p = .ok l) : t'.namesIn l = [] := by
  obtain ⟨l', hvacant, rfl, hl', -⟩ := makeFolder_cases h
  obtain rfl := Except.ok.inj (hl.symm.trans hl')
  have hne : l ≠ [] := by
    rintro rfl
    exact absurd hvacant (by simp [ entry?])
  refine List.eq_nil_iff_forall_not_mem.mpr fun name hname => ?_
  rw [mem_namesIn, entry?_put hne, if_neg (by simp)] at hname
  have hfolder := hrooted l name hname
  rw [isFolder, hvacant] at hfolder
  exact Bool.noConfusion hfolder

/-! ## A name behind the path of a folder -/

/-- A name that leads to an entry and nowhere else. -/
structure Plain (name : String) : Prop where
  solid : '/' ∉ name.toList
  busy : Path.isIdle name = false
  notUp : name ≠ ".."

instance (name : String) : Decidable (Plain name) :=
  decidable_of_iff ('/' ∉ name.toList ∧ Path.isIdle name = false ∧ name ≠ "..")
    ⟨fun ⟨hsolid, hbusy, hup⟩ => ⟨hsolid, hbusy, hup⟩, fun h => ⟨h.solid, h.busy, h.notUp⟩⟩

/-- Why no entry of a folder can have a name. -/
def nameError? (p : Path) (name : String) : Option FileError :=
  if '\x00' ∈ name.toList then some .nulInPath
  else if pathLimit < (p ++ (⟨name⟩ : Path)).text.utf8ByteSize ∨ nameLimit < name.utf8ByteSize then
    some .nameTooLong
  else none

theorem Plain.ne_empty (hname : Plain name) : name ≠ "" := by
  rintro rfl
  exact absurd hname.busy (by decide)

/-- A name that a path ends with is a plain one. -/
theorem Names.plain (h : t.Names p l name) : Plain name := by
  obtain ⟨outer, blanks, hsegments, -, -⟩ := h.way
  exact ⟨Path.solid_of_mem_segments (p := p) (by rw [hsegments]; simp), h.busy, h.notUp⟩

theorem isOpenEnded_append (p : Path) (hname : Plain name) :
    isOpenEnded (p ++ (⟨name⟩ : Path)) = false := by
  rw [Bool.eq_false_iff]
  intro hopen
  obtain ⟨front, hfront⟩ := Path.endsWith_separator_iff.mp hopen
  have hlast := congrArg List.getLast? hfront
  rw [Path.text_append_name p hname.solid, String.toList_append, List.getLast?_append,
    List.getLast?_concat] at hlast
  cases hend : name.toList.getLast? with
  | none => exact hname.ne_empty (by simpa using hend)
  | some c =>
      rw [hend] at hlast
      obtain rfl : c = '/' := by simpa using hlast
      exact hname.solid (List.mem_of_getLast? hend)

theorem holdsNul_append (p : Path) (hname : Plain name) :
    holdsNul (p ++ (⟨name⟩ : Path)) = (holdsNul p || decide ('\x00' ∈ name.toList)) := by
  rw [holdsNul, holdsNul, Path.text_append_name p hname.solid]
  simp [p.nul_notMem_separator]

/-- A name adds its own faults to a path, and no others. -/
theorem segmentsOf_append (hnul : holdsNul p = false) (hname : Plain name) :
    segmentsOf (p ++ (⟨name⟩ : Path)) =
      if '\x00' ∈ name.toList then .error .nulInPath
      else if pathLimit < (p ++ (⟨name⟩ : Path)).text.utf8ByteSize then .error .nameTooLong
      else .ok (p ++ (⟨name⟩ : Path)).segments := by
  have hnonempty : (p ++ (⟨name⟩ : Path)).text.isEmpty = false := by
    rw [Path.text_append_name p hname.solid]
    simp [hname.ne_empty]
  rw [segmentsOf, holdsNul_append p hname, hnul, hnonempty]
  simp

/-- A name behind a path is looked for where the path leads. -/
theorem origin_append (t : FileTree) (p : Path) (hname : Plain name) :
    t.origin (p ++ (⟨name⟩ : Path)) = t.origin p := by
  rw [origin, origin, Path.isAbsolute_append_name p hname.solid]

/-- The way to a name behind the path of a folder is the way to the folder. -/
theorem way_append (p : Path) (hname : Plain name) :
    ∃ outer, (p ++ (⟨name⟩ : Path)).segments = outer ++ [name] ∧
      ∀ {t : FileTree} {o l : Location}, t.isFolder l = true →
        (t.follow o outer = .ok l ↔ t.follow o p.segments = .ok l) := by
  obtain ⟨outer, hsegments, hfront⟩ := Path.segments_append_name p hname.solid
  refine ⟨outer, hsegments, fun {t o l} hfolder => ?_⟩
  rcases hfront with heq | heq
  · rw [heq]
  · rw [heq]
    constructor
    · intro houter
      have hstay : t.step l "" = .ok l := step_eq_ok_iff.mpr ⟨hfolder, Or.inl ⟨by decide, rfl⟩⟩
      exact (followFrom_append houter).trans (followFrom_of_step hstay rfl)
    · intro hfollow
      obtain ⟨k, hk, hs⟩ := follow_append_cases hfollow
      rw [step_of_idle (by decide) hs]
      exact hk

/-- Names behind a path lead into a folder. Behind the empty path, which itself leads nowhere, that
is the starting folder. -/
structure LeadsInto (t : FileTree) (p : Path) (l : Location) : Prop where
  noNul : holdsNul p = false
  short : p.text.utf8ByteSize ≤ pathLimit
  way : t.follow (t.origin p) p.segments = .ok l
  folder : t.isFolder l = true

theorem leadsInto_of_locate (hl : t.locate p = .ok l) (hfolder : t.isFolder l = true) :
    t.LeadsInto p l := by
  obtain ⟨hsegments, hfollow⟩ := locate_cases hl
  obtain ⟨-, hnul, -, hshort⟩ := segmentsOf_eq_ok_iff.mp hsegments
  exact ⟨hnul, hshort, hfollow, hfolder⟩

namespace LeadsInto

theorem locate (h : t.LeadsInto p l) (hp : p.text ≠ "") : t.locate p = .ok l :=
  locate_of_follow (segmentsOf_eq_ok_iff.mpr ⟨rfl, h.noNul, hp, h.short⟩) h.way

/-- Where such a folder is nothing is made. -/
theorem makeFolders_eq (h : t.LeadsInto p l) : t.makeFolders p = (t, .ok ()) := by
  by_cases hp : p.text = ""
  · obtain ⟨outer, heq⟩ := FileTree.makeFolders_eq t p
    rw [heq, makeFoldersFrom, if_pos (by simpa using hp)]
  · rw [makeFolders_of_locate (h.locate hp), if_pos h.folder]

theorem mono (h : t.LeadsInto p l) (hgrows : Grows t t') : t'.LeadsInto p l where
  noNul := h.noNul
  short := h.short
  way := by
    rw [origin_eq hgrows.start]
    exact hgrows.follow_ok h.way
  folder := hgrows.folder l h.folder

/-- A file that is put makes no folder on the way. -/
theorem back {k : Location} (h : t'.LeadsInto p l) (hput : FilePut t t' k f) : t.LeadsInto p l where
  noNul := h.noNul
  short := h.short
  way := by
    rw [← origin_eq hput.start]
    exact hput.follow_back h.way (isSome_of_isFolder (by rw [← hput.isFolder_eq]; exact h.folder))
  folder := by
    rw [← hput.isFolder_eq]
    exact h.folder

/-- **A name behind the path of a folder names an entry of it, or is at fault.** -/
theorem names (h : t.LeadsInto p l) (hname : Plain name) (herror : nameError? p name = none) :
    t.Names (p ++ (⟨name⟩ : Path)) l name := by
  obtain ⟨outer, hsegments, hway⟩ := way_append p hname
  rw [nameError?] at herror
  split at herror
  · exact absurd herror (by simp)
  rename_i hnul
  split at herror
  · exact absurd herror (by simp)
  rename_i hlong
  rw [not_or] at hlong
  have hfollowable := segmentsOf_append h.noNul hname
  rw [if_neg hnul, if_neg hlong.1] at hfollowable
  have hfollow := (hway h.folder).mpr h.way
  rw [← origin_append t p hname] at hfollow
  exact ⟨hfollowable, ⟨outer, [], hsegments, by simp, hfollow⟩, h.folder, hname.busy, hname.notUp,
    Nat.not_lt.mp hlong.2⟩

theorem locate_error (h : t.LeadsInto p l) (hname : Plain name) {cause : FileError}
    (herror : nameError? p name = some cause) :
    t.locate (p ++ (⟨name⟩ : Path)) = .error cause := by
  rw [FileTree.locate, segmentsOf_append h.noNul hname]
  rw [nameError?] at herror
  by_cases hnul : '\x00' ∈ name.toList
  · rw [if_pos hnul] at herror ⊢
    rw [← Option.some.inj herror]
    rfl
  rw [if_neg hnul] at herror ⊢
  split at herror
  · rename_i hlong
    rw [← Option.some.inj herror]
    by_cases hpath : pathLimit < (p ++ (⟨name⟩ : Path)).text.utf8ByteSize
    · rw [if_pos hpath]
      rfl
    · -- the path is short enough, so it is followed to the folder, where the name is too long
      have hshort := hlong.resolve_left hpath
      obtain ⟨outer, hsegments, hway⟩ := way_append p hname
      have hfollow := (hway h.folder).mpr h.way
      rw [if_neg hpath, hsegments, origin_append t p hname]
      refine (followFrom_append hfollow).trans ?_
      rw [List.foldlM_cons, step, h.folder, hname.busy]
      simp [hname.notUp, hshort, bind, Except.bind]
  · exact absurd herror (by simp)

end LeadsInto

/-- What is found under a name behind a path lies in the folder that such names lead into. -/
theorem locate_append_cases (hname : Plain name)
    (h : t.locate (p ++ (⟨name⟩ : Path)) = .ok m) : ∃ l, t.LeadsInto p l := by
  obtain ⟨hsegments, hfollow⟩ := locate_cases h
  obtain ⟨-, hnul, -, hlength⟩ := segmentsOf_eq_ok_iff.mp hsegments
  obtain ⟨outer, houter, hway⟩ := way_append p hname
  rw [houter, origin_append t p hname] at hfollow
  obtain ⟨l, hl, hs⟩ := follow_append_cases hfollow
  have hfolder := isFolder_of_step hs
  rw [Path.text_append_name p hname.solid, String.utf8ByteSize_append,
    String.utf8ByteSize_append] at hlength
  rw [holdsNul_append p hname, Bool.or_eq_false_iff] at hnul
  exact ⟨l, hnul.1, by omega, (hway hfolder).mp hl, hfolder⟩

/-- **A file can be written to a name in a folder, unless the name is at fault.** -/
theorem LeadsInto.writeFile_eq (h : t.LeadsInto p l) (hname : Plain name)
    (hvacant : t.isFolder (l ++ [name]) = false) (f : File) :
    t.writeFile (p ++ (⟨name⟩ : Path)) f =
      match nameError? p name with
      | some cause => .error cause
      | none => .ok (t.put (l ++ [name]) (.file f)) := by
  cases herror : nameError? p name with
  | none =>
      exact (h.names hname herror).writeFile_eq (isOpenEnded_append p hname) hvacant f
  | some cause =>
      have hcause : cause ≠ .noSuchFile := by
        rintro rfl
        rw [nameError?] at herror
        repeat' split at herror
        all_goals exact absurd herror (by simp)
      rw [writeFile, h.locate_error hname herror]
      cases cause with
      | noSuchFile => exact absurd rfl hcause
      | _ => rfl

end FileTree

end SongLibrary
