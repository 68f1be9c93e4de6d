import SongLibrary.Proofs.Files.Sidecar

/-!
# What a scan finds

The entries of a tree have plain names, and there is one entry at a location. Trees that are made by
writing files and making folders are of that kind.

A scan lists the song files below a folder by the names that lead to them from there, and it lists
each of them once.
-/

namespace SongLibrary

namespace FileTree

variable {t t' : FileTree} {p root : Path} {k l : Location} {name : String} {paths : List Path}

/-- One entry lies at a location, and its location is made of plain names. -/
structure WellFormed (t : FileTree) : Prop where
  distinct : (Assoc.keys t.entries).Nodup
  plain : ∀ l ∈ Assoc.keys t.entries, l ≠ [] ∧ ∀ name ∈ l, Plain name

instance (t : FileTree) : Decidable t.WellFormed :=
  decidable_of_iff ((Assoc.keys t.entries).Nodup ∧
      ∀ l ∈ Assoc.keys t.entries, l ≠ [] ∧ ∀ name ∈ l, Plain name)
    ⟨fun ⟨hdistinct, hplain⟩ => ⟨hdistinct, hplain⟩, fun h => ⟨h.distinct, h.plain⟩⟩

/-- What lies at a location lies at plain names. -/
theorem WellFormed.plain_of_isSome (h : t.WellFormed) (hl : (t.entry? l).isSome = true) :
    ∀ name ∈ l, Plain name := by
  intro name hname
  rw [ entry?] at hl
  split at hl
  · rename_i hroot
    rw [hroot] at hname
    exact absurd hname List.not_mem_nil
  · obtain ⟨e, he⟩ := Option.isSome_iff_exists.mp hl
    exact (h.plain l (List.mem_map_of_mem (Assoc.mem_of_find? he))).2 name hname

theorem WellFormed.put (h : t.WellFormed) (hl : l ≠ []) (hplain : ∀ name ∈ l, Plain name)
    (e : Entry) : (t.put l e).WellFormed where
  distinct := Assoc.nodup_keys_put h.distinct l e
  plain := by
    intro m hm
    rcases Assoc.mem_keys_put.mp hm with hm | rfl
    · exact h.plain m hm
    · exact ⟨hl, hplain⟩

/-- A new entry may be put where a path names it. -/
theorem WellFormed.put_new (h : t.WellFormed) (hnew : t.locateNew p = .ok l) (e : Entry) :
    (t.put l e).WellFormed := by
  obtain ⟨k, name, hnames, rfl⟩ := names_of_locateNew hnew
  refine h.put (by simp) (fun n hn => ?_) e
  rcases List.mem_append.mp hn with hn | hn
  · exact h.plain_of_isSome (isSome_of_isFolder hnames.folder) n hn
  · rw [List.mem_singleton.mp hn]
    exact hnames.plain

/-- **Making a folder keeps a tree well-formed.** -/
theorem WellFormed.makeFolder (h : t.WellFormed) (hmade : t.makeFolder p = .ok t') :
    t'.WellFormed := by
  rw [FileTree.makeFolder] at hmade
  split at hmade
  · exact absurd hmade (by simp)
  · obtain ⟨l, hnew, hput⟩ := bind_cases hmade
    rw [← Except.ok.inj hput]
    exact h.put_new hnew .folder
  · exact absurd hmade (by simp)

/-- **Writing a file keeps a tree well-formed.** -/
theorem WellFormed.writeFile {f : File} (h : t.WellFormed) (hwrite : t.writeFile p f = .ok t') :
    t'.WellFormed := by
  rw [FileTree.writeFile] at hwrite
  split at hwrite
  · rename_i l hl
    split at hwrite
    · exact absurd hwrite (by simp)
    · rename_i hfile
      rw [← Except.ok.inj hwrite]
      refine h.put ?_ (h.plain_of_isSome (entry?_of_locate hl)) (.file f)
      rintro rfl
      exact hfile (isFolder_root t)
  · obtain ⟨l, hnew, hput⟩ := bind_cases hwrite
    split at hput
    · exact absurd hput (by simp)
    · rw [← Except.ok.inj hput]
      exact h.put_new hnew (.file f)
  · exact absurd hwrite (by simp)

/-! ## Files below a folder -/

/-- The names that lead to a file below a location stand behind that location. -/
theorem eq_of_below {e : Location × Entry} {names : List String}
    (h : (match e.2 with
      | .file _ => if l.isPrefixOf e.1 then some (e.1.drop l.length) else none
      | .folder => none) = some names) : ∃ f, e = (l ++ names, .file f) := by
  obtain ⟨m, entry⟩ := e
  cases entry with
  | folder => exact absurd h (by simp)
  | file f =>
      dsimp only at h
      split at h
      · rename_i hprefix
        obtain ⟨rest, rfl⟩ := List.isPrefixOf_iff_prefix.mp hprefix
        rw [List.drop_left, Option.some_inj] at h
        rw [h]
        exact ⟨f, rfl⟩
      · exact absurd h (by simp)

theorem mem_filesBelow {names : List String} (h : names ∈ t.filesBelow l) :
    ∃ f, (l ++ names, .file f) ∈ t.entries := by
  obtain ⟨e, he, hnames⟩ := List.mem_filterMap.mp h
  obtain ⟨f, rfl⟩ := eq_of_below hnames
  exact ⟨f, he⟩

/-- Every file below a location is found there. -/
theorem mem_filesBelow_of_file {names : List String} {f : File}
    (h : t.entry? (l ++ names) = some (.file f)) : names ∈ t.filesBelow l := by
  rw [ entry?] at h
  split at h
  · exact absurd (Option.some.inj h) (by simp)
  · refine List.mem_filterMap.mpr ⟨_, Assoc.mem_of_find? h, ?_⟩
    dsimp only
    rw [if_pos (List.isPrefixOf_iff_prefix.mpr (List.prefix_append _ _)), List.drop_left]

theorem mem_filesBelow_iff {names : List String} (h : t.WellFormed) :
    names ∈ t.filesBelow l ↔ ∃ f, t.entry? (l ++ names) = some (.file f) := by
  refine ⟨fun hnames => ?_, fun ⟨f, hf⟩ => mem_filesBelow_of_file hf⟩
  obtain ⟨f, hf⟩ := mem_filesBelow hnames
  have hne := (h.plain _ (List.mem_map_of_mem hf)).1
  exact ⟨f, by rw [ entry?, if_neg hne, Assoc.find?_of_mem h.distinct hf]⟩

/-- **Every file is listed once.** -/
theorem nodup_filesBelow (h : t.WellFormed) (l : Location) : (t.filesBelow l).Nodup := by
  have hdistinct : t.entries.Pairwise fun e e' => e.1 ≠ e'.1 := List.pairwise_map.mp h.distinct
  refine hdistinct.filterMap _ fun e e' hne names hnames names' hnames' hsame => hne ?_
  obtain ⟨f, rfl⟩ := eq_of_below hnames
  obtain ⟨f', rfl⟩ := eq_of_below hnames'
  rw [hsame]

/-- The names that lead to a file below a folder are plain, and there is at least one. -/
theorem WellFormed.plain_of_below (h : t.WellFormed) (hl : t.isFolder l = true)
    {names : List String} (hnames : names ∈ t.filesBelow l) :
    (∀ name ∈ names, Plain name) ∧ ∃ inner name, names = inner ++ [name] := by
  obtain ⟨f, hf⟩ := mem_filesBelow hnames
  obtain ⟨hne, hplain⟩ := h.plain _ (List.mem_map_of_mem hf)
  refine ⟨fun name hname => hplain name (List.mem_append_right l hname), ?_⟩
  refine (List.eq_nil_or_concat' names).resolve_left ?_
  rintro rfl
  -- the folder itself is no file
  rw [List.append_nil] at hf hne
  have hentry := Assoc.find?_of_mem h.distinct hf
  rw [isFolder, entry?, if_neg hne, hentry] at hl
  exact Bool.noConfusion hl

/-! ## Scans -/

/-- **The paths of a scan are those of files below the folder, each once.** -/
theorem songFiles_cases (h : t.WellFormed) (hscan : t.songFiles root true = .ok paths) :
    (∃ l, t.locate root = .ok l) ∧ paths.Nodup ∧
      ∀ p ∈ paths, ∃ inner name, Below root p inner name := by
  rw [songFiles] at hscan
  split at hscan
  · exact absurd hscan (by simp)
  rename_i l hl
  split at hscan
  swap
  · exact absurd hscan (by simp)
  rename_i hfolder
  have hperm : paths.Perm (((t.filesBelow l).map root.descend).filter Path.isSong) := by
    rw [← Except.ok.inj hscan]
    simpa using List.mergeSort_perm _ _
  refine ⟨⟨l, hl⟩, ?_, fun p hp => ?_⟩
  · refine hperm.nodup_iff.mpr (List.Pairwise.sublist List.filter_sublist ?_)
    refine List.pairwise_map.mpr ((nodup_filesBelow h l).imp_of_mem ?_)
    intro names names' hnames hnames' hne hsame
    exact hne (Path.descend_inj (h.plain_of_below hfolder hnames).1
      (h.plain_of_below hfolder hnames').1 hsame)
  · obtain ⟨names, hnames, rfl⟩ := List.mem_map.mp (List.mem_filter.mp (hperm.mem_iff.mp hp)).1
    obtain ⟨hplain, inner, name, rfl⟩ := h.plain_of_below hfolder hnames
    exact ⟨inner, name, rfl, hplain⟩

/-- **A file below a folder is listed just if it has the extension of a song file.** -/
theorem mem_songFiles_iff {inner : List String} {f : File} {subfolders : Bool}
    (hl : t.locate root = .ok l) (hfolder : t.isFolder l = true)
    (hf : t.entry? (l ++ (inner ++ [name])) = some (.file f))
    (hdepth : inner = [] ∨ subfolders = true) :
    ∃ paths, t.songFiles root subfolders = .ok paths ∧
      (root.descend (inner ++ [name]) ∈ paths ↔
        (root.descend (inner ++ [name])).isSong = true) := by
  rw [songFiles, hl]
  dsimp only
  rw [if_pos hfolder]
  refine ⟨_, rfl, ?_⟩
  rw [(List.mergeSort_perm _ _).mem_iff, List.mem_filter]
  refine ⟨And.right, fun hsong => ⟨?_, hsong⟩⟩
  refine List.mem_map_of_mem (List.mem_filter.mpr ⟨mem_filesBelow_of_file hf, ?_⟩)
  rcases hdepth with rfl | hdepth
  · simp
  · simp [hdepth]

/-- Files that are in the order of paths already are listed as they are. -/
theorem songFiles_of_sorted (hl : t.locate root = .ok l) (hfolder : t.isFolder l = true)
    (hfound : ((t.filesBelow l).map root.descend).filter Path.isSong = paths)
    (hsorted : paths.Pairwise fun p q => (p.order q != .gt) = true) :
    t.songFiles root true = .ok paths := by
  rw [songFiles, hl]
  dsimp only
  rw [if_pos hfolder]
  simp only [Bool.true_or, List.filter_true, hfound]
  rw [List.mergeSort_of_pairwise hsorted]

end FileTree

end SongLibrary
