import SongLibrary.Proofs.Files.Scan

/-!
# Walks through a tree

A walk starts at a folder, goes on to whatever lies in it, and from there on through every folder
that it comes by. It need not know how deep the tree is. In a tree whose entries all lie in folders
it comes by everything below the place where it starts, and by each entry under the names that lead
there.

Trees that are made by making folders and writing files are of that kind.
-/

namespace SongLibrary.FileTree

variable {t t' : FileTree} {p q : Path} {k l m : Location} {name : String} {names : List String}
  {f : File}

/-! ## Trees of folders -/

theorem rooted_iff : t.Rooted ↔ ∀ l ∈ Assoc.keys t.entries, t.isFolder l.dropLast = true := by
  constructor
  · intro h l hl
    rcases List.eq_nil_or_concat' l with rfl | ⟨outer, name, rfl⟩
    · exact isFolder_root t
    · rw [List.dropLast_concat]
      exact h outer name (mem_namesIn.mp (mem_namesIn_iff_key.mpr hl))
  · intro h l name hentry
    have hfolder := h _ (mem_namesIn_iff_key.mp (mem_namesIn.mpr hentry))
    rwa [List.dropLast_concat] at hfolder

instance (t : FileTree) : Decidable t.Rooted := decidable_of_iff _ rooted_iff.symm

/-- An entry may be put into a folder, unless it takes the place of a folder. -/
theorem Rooted.put (h : t.Rooted) (hk : t.isFolder k = true)
    (hvacant : t.isFolder (k ++ [name]) = false) (e : Entry) : (t.put (k ++ [name]) e).Rooted := by
  have hstays : ∀ l, t.isFolder l = true → (t.put (k ++ [name]) e).isFolder l = true := by
    intro l hl
    rw [isFolder, entry?_put (by simp), if_neg, ← isFolder, hl]
    rintro rfl
    rw [hvacant] at hl
    exact Bool.noConfusion hl
  intro l other hother
  rw [ entry?_put (by simp)] at hother
  split at hother
  · rename_i hsame
    rw [(List.append_inj' hsame rfl).1]
    exact hstays k hk
  · exact hstays l (h l other hother)

/-- **Making a folder keeps every entry in a folder.** -/
theorem Rooted.makeFolder (h : t.Rooted) (hmade : t.makeFolder p = .ok t') : t'.Rooted := by
  rw [FileTree.makeFolder] at hmade
  split at hmade
  · exact absurd hmade (by simp)
  · rename_i hmissing
    obtain ⟨l, hnew, hput⟩ := bind_cases hmade
    obtain ⟨k, name, hnames, rfl⟩ := names_of_locateNew hnew
    rw [← Except.ok.inj hput]
    refine h.put hnames.folder ?_ .folder
    rw [isFolder, hnames.vacant hmissing]
    rfl
  · exact absurd hmade (by simp)

/-- **Writing a file keeps every entry in a folder.** -/
theorem Rooted.writeFile (h : t.Rooted) (hwrite : t.writeFile p f = .ok t') : t'.Rooted := by
  obtain ⟨l, rfl, hput, hl⟩ := writeFile_cases hwrite
  obtain ⟨k, name, hnames, -, rfl⟩ := names_of_file hl hput.here
  refine h.put ?_ hput.vacant (.file f)
  rw [← hput.isFolder_eq]
  exact hnames.folder

/-- A tree has been made by making folders and writing files, as time goes on. -/
inductive Made : FileTree → Prop where
  | start (folder : Location) : Made ⟨[], 0, folder⟩
  | tick {t : FileTree} : Made t → Made t.tick
  | folder {t t' : FileTree} {p : Path} : Made t → t.makeFolder p = .ok t' → Made t'
  | file {t t' : FileTree} {p : Path} {f : File} : Made t → t.writeFile p f = .ok t' → Made t'

/-- **What is made by making folders and writing files can be walked through.** -/
theorem Made.sound (h : t.Made) : t.WellFormed ∧ t.Rooted := by
  induction h with
  | start folder =>
      refine ⟨⟨List.nodup_nil, fun _ hl => absurd hl List.not_mem_nil⟩, ?_⟩
      exact rooted_iff.mpr fun _ hl => absurd hl List.not_mem_nil
  | tick _ ih => exact ⟨⟨ih.1.distinct, ih.1.plain⟩, ih.2⟩
  | folder _ hmade ih => exact ⟨ih.1.makeFolder hmade, ih.2.makeFolder hmade⟩
  | file _ hwrite ih => exact ⟨ih.1.writeFile hwrite, ih.2.writeFile hwrite⟩

/-! ## Walks -/

/-- What a walk comes by: where it starts, and what lies in every folder that it comes by. -/
inductive Walk (t : FileTree) (p : Path) (l : Location) : Path → Location → Prop where
  | start : Walk t p l p l
  | enter {q : Path} {m : Location} {name : String} : Walk t p l q m → t.isFolder m = true →
      name ∈ t.namesIn m → Walk t p l (q ++ (⟨name⟩ : Path)) (m ++ [name])

/-- A walk leads down by names, and there is something at their end. -/
theorem Walk.descends (h : t.Walk p l q m) :
    ∃ names, q = p.descend names ∧ m = l ++ names ∧
      (names ≠ [] → (t.entry? m).isSome = true) := by
  induction h with
  | start => exact ⟨[], rfl, (List.append_nil l).symm, fun hne => absurd rfl hne⟩
  | enter _ _ hname ih =>
      obtain ⟨names, rfl, rfl, -⟩ := ih
      exact ⟨names ++ [_], (Path.descend_concat p names _).symm, List.append_assoc _ _ _,
        fun _ => mem_namesIn.mp hname⟩

/-- **A walk comes by every entry below its start.** -/
theorem Rooted.walk (h : t.Rooted) (p : Path) (hentry : (t.entry? (l ++ names)).isSome = true) :
    t.Walk p l (p.descend names) (l ++ names) := by
  induction names using List.reverseRecOn with
  | nil => rw [List.append_nil]; exact .start
  | append_singleton names name ih =>
      rw [← List.append_assoc] at hentry ⊢
      have hfolder := h _ name hentry
      rw [Path.descend_concat]
      exact .enter (ih (isSome_of_isFolder hfolder)) hfolder (mem_namesIn.mpr hentry)

/-- The names on a walk through a well-formed tree are plain. -/
theorem WellFormed.plain_of_walk (h : t.WellFormed)
    (hwalk : t.Walk p l q m) : ∃ names, q = p.descend names ∧ m = l ++ names ∧
      ∀ name ∈ names, Plain name := by
  obtain ⟨names, rfl, rfl, hentry⟩ := hwalk.descends
  refine ⟨names, rfl, rfl, fun name hname => ?_⟩
  exact h.plain_of_isSome (hentry (List.ne_nil_of_mem hname)) name (List.mem_append_right l hname)

end SongLibrary.FileTree
