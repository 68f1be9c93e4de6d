import SongLibrary.Proofs.Files.Tree
import Mathlib.Data.List.TakeWhile

/-!
# Naming an entry of a folder

A path names an entry: it leads to a folder and on under a name, and separators may follow. It names
the entry before there is one, so what is written to the path, made a folder or removed is what the
path leads to afterwards.

The names in a folder change with the entry alone. A new one comes last, and one that is put again
keeps its place.
-/

namespace SongLibrary

namespace FileTree

variable {t t' : FileTree} {p : Path} {k l o : Location} {name : String} {f : File}

/-! ## Segments behind a location -/

theorem followFrom_append {outer rest : List String} (h : t.follow o outer = .ok k) :
    t.follow o (outer ++ rest) = rest.foldlM t.step k := by
  obtain ⟨hreach, hsegments⟩ := follow_eq_ok_iff.mp h
  rw [follow, if_pos hreach, List.foldlM_append, hsegments]
  rfl

/-- Separators at the end of a path lead on only to folders, which they do not leave. -/
theorem followFrom_blanks {blanks : List String} (h : ∀ s ∈ blanks, s = "") :
    blanks.foldlM t.step l =
      if !blanks.isEmpty && !t.isFolder l then .error .notFolder else .ok l := by
  induction blanks with
  | nil => rfl
  | cons s rest ih =>
      obtain rfl := h s List.mem_cons_self
      rw [List.foldlM_cons, step]
      cases hl : t.isFolder l with
      | false => rfl
      | true =>
          have hrest := ih fun s' hs' => h s' (List.mem_cons_of_mem _ hs')
          rw [hl, Bool.not_true, Bool.and_false] at hrest
          simpa [Path.isIdle, bind, Except.bind] using hrest

/-! ## Paths that name an entry -/

/-- A path names an entry of a folder, whether there is one or not. -/
structure Names (t : FileTree) (p : Path) (k : Location) (name : String) : Prop where
  /-- The path can be followed. -/
  followable : segmentsOf p = .ok p.segments
  /-- It leads to the folder, and on under the name. Separators may follow. -/
  way : ∃ outer blanks, p.segments = outer ++ name :: blanks ∧ (∀ s ∈ blanks, s = "") ∧
    t.follow (t.origin p) outer = .ok k
  folder : t.isFolder k = true
  busy : Path.isIdle name = false
  notUp : name ≠ ".."
  short : name.utf8ByteSize ≤ nameLimit

/-- Behind the last separator of a path there is nothing if it is open-ended, and then only. -/
theorem isOpenEnded_iff {segments : List String} (hs : segmentsOf p = .ok segments) :
    isOpenEnded p = true ↔ p.segments.getLast? = some "" := by
  rw [isOpenEnded, Path.endsWith_separator_iff]
  constructor
  · rintro ⟨front, hfront⟩
    rw [Path.segments, hfront, Text.splitWhere_append (by rfl), List.map_append]
    exact List.getLast?_concat
  · intro hlast
    rw [Path.segments, List.getLast?_map] at hlast
    obtain ⟨piece, hpiece, hempty⟩ := Option.map_eq_some_iff.mp hlast
    obtain rfl : piece = [] := by simpa using congrArg String.toList hempty
    rcases Text.getLast?_of_last_piece hpiece with hnil | ⟨c, hc, hsep⟩
    · have htext : p.text.isEmpty = true := by simpa using hnil
      rw [segmentsOf, htext] at hs
      split at hs <;> exact absurd hs (by simp)
    · obtain ⟨front, hfront⟩ := List.getLast?_eq_some_iff.mp hc
      rw [beq_iff_eq.mp hsep] at hfront
      exact ⟨front, hfront⟩

namespace Names

theorem mono (h : t.Names p k name) (hgrows : Grows t t') : t'.Names p k name := by
  obtain ⟨outer, blanks, hsegments, hblanks, hfollow⟩ := h.way
  rw [← origin_eq hgrows.start] at hfollow
  exact ⟨h.followable, ⟨outer, blanks, hsegments, hblanks, hgrows.follow_ok hfollow⟩,
    hgrows.folder k h.folder, h.busy, h.notUp, h.short⟩

theorem ne_empty (h : t.Names p k name) : name ≠ "" := by
  rintro rfl
  exact absurd h.busy (by decide)

/-- **Where a path that names an entry leads is decided at the entry.** -/
theorem locate_eq (h : t.Names p k name) : t.locate p =
    if t.entry? (k ++ [name]) = none then .error .noSuchFile
    else if isOpenEnded p && !t.isFolder (k ++ [name]) then .error .notFolder
    else .ok (k ++ [name]) := by
  obtain ⟨outer, blanks, hsegments, hblanks, hfollow⟩ := h.way
  have hopen : isOpenEnded p = !blanks.isEmpty := by
    rw [Bool.eq_iff_iff, isOpenEnded_iff h.followable, hsegments]
    cases hlast : blanks.getLast? with
    | none => simp [List.getLast?_eq_none_iff.mp hlast, h.ne_empty]
    | some s =>
        obtain rfl := hblanks s (List.mem_of_getLast? hlast)
        obtain ⟨front, rfl⟩ := List.getLast?_eq_some_iff.mp hlast
        simp [List.getLast?_cons]
  have hlocate : t.locate p = (name :: blanks).foldlM t.step k := by
    rw [locate, h.followable, hsegments]
    exact followFrom_append hfollow
  have hshort : ¬nameLimit < name.utf8ByteSize := Nat.not_lt.mpr h.short
  rw [hlocate, List.foldlM_cons, step, h.folder, h.busy]
  cases hentry : t.entry? (k ++ [name]) with
  | none => simp [h.notUp, hshort, bind, Except.bind]
  | some e =>
      simp only [Bool.not_true, Bool.false_eq_true, if_false, h.notUp, hshort, Option.isSome_some,
        if_true, reduceCtorEq]
      rw [hopen]
      exact followFrom_blanks hblanks

theorem vacant (h : t.Names p k name) (hmissing : t.locate p = .error .noSuchFile) :
    t.entry? (k ++ [name]) = none := by
  rw [h.locate_eq] at hmissing
  split at hmissing
  · assumption
  · split at hmissing <;> exact absurd hmissing (by simp)

theorem locate_folder (h : t.Names p k name) (hfolder : t.isFolder (k ++ [name]) = true) :
    t.locate p = .ok (k ++ [name]) := by
  have hentry := Option.isSome_iff_ne_none.mp (isSome_of_isFolder hfolder)
  rw [h.locate_eq, if_neg hentry, hfolder, Bool.not_true, Bool.and_false]
  rfl

theorem locate_file (h : t.Names p k name) (hopen : isOpenEnded p = false)
    (hentry : (t.entry? (k ++ [name])).isSome = true) : t.locate p = .ok (k ++ [name]) := by
  rw [h.locate_eq, if_neg (Option.isSome_iff_ne_none.mp hentry), hopen]
  rfl

/-- Without separators at its end a path that names an entry exists if the entry does. -/
theorem exists?_eq (h : t.Names p k name) (hopen : isOpenEnded p = false) :
    t.exists? p = (t.entry? (k ++ [name])).isSome := by
  rw [exists?, h.locate_eq, hopen, Bool.false_and]
  cases t.entry? (k ++ [name]) <;> rfl

theorem isFolderAt_eq (h : t.Names p k name) :
    t.isFolderAt p = t.isFolder (k ++ [name]) := by
  cases hfolder : t.isFolder (k ++ [name]) with
  | true =>
      rw [isFolderAt, h.locate_folder hfolder]
      exact hfolder
  | false =>
      rw [isFolderAt, h.locate_eq]
      split
      · rename_i l hl
        split at hl
        · exact absurd hl (by simp)
        · split at hl
          · exact absurd hl (by simp)
          · rw [← Except.ok.inj hl, hfolder]
      · rfl

theorem not_dots (h : t.Names p k name) : ¬(name = "." ∨ name = "..") := by
  rintro (rfl | rfl)
  · exact absurd h.busy (by decide)
  · exact h.notUp rfl

theorem locateLast_eq (h : t.Names p k name) : t.locateLast p = .ok (k, name) := by
  obtain ⟨outer, blanks, hsegments, hblanks, hfollow⟩ := h.way
  have hreverse : p.segments.reverse.dropWhile String.isEmpty = name :: outer.reverse := by
    rw [hsegments, List.reverse_append, List.reverse_cons, List.append_assoc,
      List.singleton_append]
    refine Text.dropWhile_run (fun s hs => ?_) fun s hs => ?_
    · rw [hblanks s (List.mem_reverse.mp hs)]
      rfl
    · obtain rfl : name = s := Option.some.inj hs
      simpa using h.ne_empty
  rw [locateLast, h.followable]
  simp [bind, Except.bind, hreverse, hfollow, h.folder]

theorem nameIn_eq (h : t.Names p k name) : nameIn k name = .ok (k ++ [name]) :=
  if_neg (Nat.not_lt.mpr h.short)

/-- A path that names an entry can be used to make one. -/
theorem locateNew_eq (h : t.Names p k name) : t.locateNew p = .ok (k ++ [name]) := by
  rw [locateNew, h.locateLast_eq]
  exact (if_neg h.not_dots).trans h.nameIn_eq

/-- It can be used to move an entry. -/
theorem locateName_eq (h : t.Names p k name) : t.locateName p = .ok (k ++ [name]) := by
  rw [locateName, h.locateLast_eq]
  exact (if_neg h.not_dots).trans h.nameIn_eq

end Names

/-- What a path leads to last has a name, unless that is a way to stay or to go back. -/
theorem names_of_locateLast (h : t.locateLast p = .ok (k, name))
    (hdots : ¬(name = "." ∨ name = "..")) (hshort : name.utf8ByteSize ≤ nameLimit) :
    t.Names p k name := by
  rw [not_or] at hdots
  rw [locateLast] at h
  obtain ⟨segments, hs, hnamed⟩ := bind_cases h
  obtain rfl := segmentsOf_eq hs
  split at hnamed
  · exact absurd hnamed (by simp)
  rename_i last outer hdrop
  obtain ⟨k', hfollow, hfolder⟩ := bind_cases hnamed
  split at hfolder
  · rename_i hk
    obtain ⟨rfl, hsame⟩ := Prod.mk.inj (Except.ok.inj hfolder)
    subst hsame
    have hnot := List.head?_dropWhile_not String.isEmpty p.segments.reverse
    rw [hdrop] at hnot
    have hempty : last ≠ "" := by simpa using hnot
    have hreverse := List.takeWhile_append_dropWhile (p := String.isEmpty) (l := p.segments.reverse)
    rw [hdrop] at hreverse
    have hsegments : p.segments = outer.reverse ++
        last :: (p.segments.reverse.takeWhile String.isEmpty).reverse := by
      have hforth := congrArg List.reverse hreverse
      rw [List.reverse_reverse, List.reverse_append, List.reverse_cons, List.append_assoc] at hforth
      exact hforth.symm
    refine ⟨hs, ⟨_, _, hsegments, fun s hs' => ?_, hfollow⟩, hk, ?_, hdots.2, hshort⟩
    · simpa using List.mem_takeWhile_imp (List.mem_reverse.mp hs')
    · simp [Path.isIdle, hempty, hdots.1]
  · exact absurd hfolder (by simp)

/-- A location for a name in a folder is found under a name that can be used. -/
theorem names_of_nameIn {cause : FileError} (h : (do
    let (k, name) ← t.locateLast p
    if name = "." ∨ name = ".." then .error cause else nameIn k name) = .ok l) :
    ∃ k name, t.Names p k name ∧ l = k ++ [name] := by
  obtain ⟨⟨k, name⟩, hlast, hname⟩ := bind_cases h
  dsimp only at hname
  split at hname
  · exact absurd hname (by simp)
  rename_i hdots
  rw [nameIn] at hname
  split at hname
  · exact absurd hname (by simp)
  rename_i hshort
  exact ⟨k, name, names_of_locateLast hlast hdots (Nat.not_lt.mp hshort),
    (Except.ok.inj hname).symm⟩

/-- A path at which an entry can be made names it. -/
theorem names_of_locateNew (h : t.locateNew p = .ok l) :
    ∃ k name, t.Names p k name ∧ l = k ++ [name] :=
  names_of_nameIn h

/-- A path by which an entry can be moved names it. -/
theorem names_of_locateName (h : t.locateName p = .ok l) :
    ∃ k name, t.Names p k name ∧ l = k ++ [name] :=
  names_of_nameIn h

/-- **A path that leads to a file names it.** -/
theorem names_of_file (hl : t.locate p = .ok l) (hf : t.entry? l = some (.file f)) :
    ∃ k name, t.Names p k name ∧ isOpenEnded p = false ∧ l = k ++ [name] := by
  have hfile : t.file p = .ok f := by rw [file_of_locate hl, hf]
  obtain ⟨hsegments, hfollow⟩ := locate_cases hl
  have hvacant := isFolder_of_file hf
  cases hlast : p.segments.getLast? with
  | none =>
      rw [List.getLast?_eq_none_iff.mp hlast] at hfollow
      obtain ⟨hreach, hsame⟩ := follow_eq_ok_iff.mp hfollow
      rw [← Except.ok.inj hsame, isReachable_iff.mp hreach _ List.prefix_rfl] at hvacant
      exact Bool.noConfusion hvacant
  | some s =>
      obtain ⟨outer, houter⟩ := List.getLast?_eq_some_iff.mp hlast
      have hbusy := last_busy_of_file hfile s hlast
      have hopen : isOpenEnded p = false := by
        rw [Bool.eq_false_iff, ne_eq, isOpenEnded_iff hsegments, hlast]
        intro hempty
        rw [Option.some.inj hempty] at hbusy
        exact Bool.noConfusion hbusy
      rw [houter] at hfollow
      obtain ⟨k, hk, hs⟩ := follow_append_cases hfollow
      obtain ⟨hfolder, ⟨hidle, -⟩ | ⟨-, -, rfl⟩ | ⟨-, hup, hshort, rfl, -⟩⟩ := step_eq_ok_iff.mp hs
      · rw [hbusy] at hidle
        exact Bool.noConfusion hidle
      · -- one folder further up there is no file
        by_cases hroot : k = []
        · rw [hroot, List.dropLast_nil, isFolder_root] at hvacant
          exact Bool.noConfusion hvacant
        · have hne := ne_of_prefix_dropLast hroot List.prefix_rfl
          rw [(folders_of_follow hk).1 _ (List.dropLast_prefix k) hne] at hvacant
          exact Bool.noConfusion hvacant
      · exact ⟨k, s, ⟨hsegments, ⟨outer, [], houter, by simp, hk⟩, hfolder, hbusy, hup, hshort⟩,
          hopen, rfl⟩

/-- Without separators at its end a path ends with the name. -/
theorem Names.way_closed (h : t.Names p k name) (hopen : isOpenEnded p = false) :
    ∃ outer, p.segments = outer ++ [name] ∧ t.follow (t.origin p) outer = .ok k := by
  obtain ⟨outer, blanks, hsegments, hblanks, hfollow⟩ := h.way
  cases hlast : blanks.getLast? with
  | none =>
      rw [List.getLast?_eq_none_iff.mp hlast] at hsegments
      exact ⟨outer, hsegments, hfollow⟩
  | some s =>
      obtain rfl := hblanks s (List.mem_of_getLast? hlast)
      obtain ⟨front, rfl⟩ := List.getLast?_eq_some_iff.mp hlast
      have hends : p.segments.getLast? = some "" := by
        rw [hsegments, ← List.cons_append, ← List.append_assoc, List.getLast?_concat]
      rw [(isOpenEnded_iff h.followable).mpr hends] at hopen
      exact Bool.noConfusion hopen

theorem Names.fileName?_eq (h : t.Names p k name) (hopen : isOpenEnded p = false) :
    p.fileName? = some name := by
  obtain ⟨outer, hsegments, -⟩ := h.way_closed hopen
  exact Path.fileName?_of_last hsegments h.busy h.notUp

/-- **A file has one name.** Every path that leads to it ends with the last name of its location. -/
theorem fileName?_of_file (hl : t.locate p = .ok l) (hf : t.entry? l = some (.file f)) :
    p.fileName? = l.getLast? := by
  obtain ⟨k, name, hnames, hopen, rfl⟩ := names_of_file hl hf
  rw [hnames.fileName?_eq hopen, List.getLast?_concat]

/-! ## Writing a file -/

/-- **A file can be written to a path that names it, unless there is a folder.** -/
theorem Names.writeFile_eq (h : t.Names p k name) (hopen : isOpenEnded p = false)
    (hvacant : t.isFolder (k ++ [name]) = false) (f : File) :
    t.writeFile p f = .ok (t.put (k ++ [name]) (.file f)) := by
  have hnew := h.locateNew_eq
  rw [writeFile, h.locate_eq, hopen, Bool.false_and]
  cases t.entry? (k ++ [name]) with
  | none => simp [hnew, bind, Except.bind, pure, Except.pure]
  | some e => simp [hvacant]

/-- **A file that is written is put at one location, where its path leads.** -/
theorem writeFile_cases {f : File} (h : t.writeFile p f = .ok t') :
    ∃ l, t' = t.put l (.file f) ∧ FilePut t t' l f ∧ t'.locate p = .ok l := by
  rw [writeFile] at h
  split at h
  · rename_i l hl
    split at h
    · exact absurd h (by simp)
    · rename_i hfolder
      have hput := filePut_put (by simpa using hfolder) f
      rw [← Except.ok.inj h]
      exact ⟨l, rfl, hput, hput.grows.locate_ok hl⟩
  · rename_i hmissing
    obtain ⟨l, hnew, hclosed⟩ := bind_cases h
    obtain ⟨k, name, hnames, rfl⟩ := names_of_locateNew hnew
    split at hclosed
    · exact absurd hclosed (by simp)
    · rename_i hopen
      have hvacant : t.isFolder (k ++ [name]) = false := by
        rw [isFolder, hnames.vacant hmissing]
        rfl
      have hput := filePut_put hvacant f
      rw [← Except.ok.inj hclosed]
      refine ⟨k ++ [name], rfl, hput, (hnames.mono hput.grows).locate_file ?_ ?_⟩
      · simpa using hopen
      · rw [hput.here]
        rfl
  · exact absurd h (by simp)

/-- **A text that is written is put at one location, where its path leads.** -/
theorem writeText_cases {text : String} (h : t.writeText p text = .ok t') :
    ∃ l f, FilePut t t' l f ∧ t'.locate p = .ok l ∧ f.bytes = Text.bytes text := by
  rw [writeText, writeContent] at h
  cases hfile : t.writeFile p ⟨Text.bytes text, none, .clock t.clock⟩ with
  | error cause =>
      rw [hfile] at h
      exact absurd h (by simp [Except.map])
  | ok written =>
      obtain ⟨l, -, hput, hl⟩ := writeFile_cases hfile
      rw [hfile] at h
      obtain rfl := Except.ok.inj h
      -- the clock goes on, and no entry changes with it
      exact ⟨l, _, ⟨hput.vacant, hput.here, hput.elsewhere, hput.start⟩, hl, rfl⟩

end FileTree

end SongLibrary
