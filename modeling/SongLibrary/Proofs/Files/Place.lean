import SongLibrary.Proofs.Files.Sidecar

/-!
# Paths that do not lead up

A path without a parent component leads down name by name, so where it leads in whatever tree is
told by its names and the folder it starts at. Paths that are made from such paths are again of that
kind: going on behind a path, taking a path relative to a folder, and changing an extension bring in
no parent component, unless what is left has no file name.
-/

namespace SongLibrary

namespace Path

variable {p q root folder : Path} {s name extension : String} {segments : List String}

/-- The names of a path. Where none of its components is the parent, they lead on from the folder
that it starts at. -/
def names (p : Path) : List String := p.components.filterMap Component.name?

/-- A path none of whose components is the parent. -/
def Downward (p : Path) : Prop := .parent ∉ p.components

instance (p : Path) : Decidable p.Downward := inferInstanceAs (Decidable (_ ∉ _))

/-! ## Segments of paths that are cut and joined -/

theorem cut_suffix (p : Path) : p.cut.2 <:+ p.segments := by
  rw [cut]
  split
  · exact List.nil_suffix
  · rename_i heq
    rw [heq]
    exact List.suffix_cons _ _
  · rename_i heq
    rw [heq]
    exact List.suffix_cons _ _
  · exact List.suffix_rfl

/-- The beginning of a path takes away an idle segment at most. -/
theorem mem_cut_iff (hbusy : isIdle s = false) : s ∈ p.cut.2 ↔ s ∈ p.segments := by
  refine ⟨fun h => p.cut_suffix.mem h, fun h => ?_⟩
  have hne : ∀ idle, isIdle idle = true → s ≠ idle := by
    rintro idle hidle rfl
    rw [hbusy] at hidle
    exact Bool.noConfusion hidle
  rw [cut]
  split
  · rename_i heq
    rw [heq, List.mem_singleton] at h
    exact absurd h (hne "" rfl)
  · rename_i heq
    rw [heq] at h
    exact List.mem_of_ne_of_mem (hne "" rfl) h
  · rename_i heq
    rw [heq] at h
    exact List.mem_of_ne_of_mem (hne "." rfl) h
  · exact h

/-- A path leads down just if none of its segments leads up. -/
theorem downward_iff : p.Downward ↔ ".." ∉ p.segments := by
  rw [Downward, ← mem_cut_iff (p := p) (s := "..") (by decide), components, List.mem_append, not_or]
  have hhead : .parent ∉ p.cut.1.components := by
    cases p.cut.1 <;> decide
  rw [and_iff_right hhead, List.mem_filterMap, not_iff_not]
  constructor
  · rintro ⟨s, hs, hparent⟩
    cases hidle : isIdle s with
    | true =>
        rw [componentOf_of_idle hidle] at hparent
        exact absurd hparent (by simp)
    | false =>
        obtain ⟨c, hc, hsegment, -, -⟩ := componentOf_of_busy hidle
        obtain rfl := Option.some.inj (hc.symm.trans hparent)
        rw [← hsegment] at hs
        exact hs
  · intro hs
    exact ⟨"..", hs, rfl⟩

theorem mem_of_mem_trimIdle (h : s ∈ trimIdle segments) : s ∈ segments := by
  rw [trimIdle, List.mem_reverse] at h
  exact List.mem_reverse.mp ((List.dropWhile_suffix isIdle).mem h)

theorem mem_of_mem_dropComponents {n : Nat} (h : s ∈ dropComponents n segments) : s ∈ segments := by
  fun_induction dropComponents n segments with
  | case1 segments => exact (List.dropWhile_suffix isIdle).mem h
  | case2 => exact h
  | case3 n segment rest hidle ih => exact List.mem_cons_of_mem _ (ih h)
  | case4 n segment rest hbusy ih => exact List.mem_cons_of_mem _ (ih h)

/-- The segments of a path that is joined come from what is joined, but for idle ones. -/
theorem mem_segments_join {head : Head} (hsolid : ∀ s ∈ segments, '/' ∉ s.toList)
    (hbusy : isIdle s = false) (h : s ∈ (join head segments).segments) : s ∈ segments := by
  cases segments with
  | nil =>
      -- nothing but the beginning
      have hidle : ∀ head : Head, ∀ s ∈ (join head []).segments, isIdle s = true := by
        intro head
        cases head <;> decide
      rw [hidle head s h] at hbusy
      exact Bool.noConfusion hbusy
  | cons first rest =>
      rw [segments_join head (by simp) hsolid] at h
      rcases List.mem_append.mp h with h | h
      · have hidle : ∀ s ∈ head.segments, isIdle s = true := by
          cases head <;> decide
        rw [hidle s h] at hbusy
        exact Bool.noConfusion hbusy
      · exact h

/-- A file name is one of the segments. -/
theorem fileName?_cases (h : p.fileName? = some name) : name ∈ p.segments ∧ name ≠ ".." := by
  rw [fileName?] at h
  split at h
  · exact absurd h (by simp)
  rename_i last hlast
  split at h
  · exact absurd h (by simp)
  rename_i hup
  obtain rfl := Option.some.inj h
  exact ⟨p.cut_suffix.mem (mem_of_mem_trimIdle (List.mem_of_getLast? hlast)), hup⟩

/-- Another extension changes the last segment that is not idle, if anything. -/
theorem withExtension_cases (hsolid : '/' ∉ extension.toList) :
    p.withExtension extension = p ∨ ∃ last, '/' ∉ last.toList ∧
      p.withExtension extension = join p.cut.1 ((trimIdle p.cut.2).dropLast ++ [last]) := by
  rw [withExtension]
  split
  · exact Or.inl rfl
  rename_i stem hstem
  obtain ⟨name, hname, rfl⟩ := Option.map_eq_some_iff.mp hstem
  have hnameSolid : '/' ∉ name.toList := solid_of_mem_segments (fileName?_cases hname).1
  refine Or.inr ⟨_, ?_, rfl⟩
  split
  · decide
  · simp [solid_stem hnameSolid, hsolid]

/-! ## Paths made from paths -/

theorem downward_name (hsolid : '/' ∉ name.toList) (hup : name ≠ "..") :
    (⟨name⟩ : Path).Downward := by
  rw [downward_iff, segments_of_notMem hsolid, List.mem_singleton]
  exact Ne.symm hup

namespace Downward

/-- Segments of a path that leads down make such a path. -/
theorem join (h : p.Downward) (hsegments : ∀ s ∈ segments, s ∈ p.segments) (head : Head) :
    (join head segments).Downward := by
  rw [downward_iff] at h ⊢
  intro hup
  have hsolid : ∀ s ∈ segments, '/' ∉ s.toList := fun s hs => solid_of_mem_segments (hsegments s hs)
  exact h (hsegments _ (mem_segments_join hsolid (by decide) hup))

/-- A path behind a path. -/
theorem append (hp : p.Downward) (hq : q.Downward) : (p ++ q).Downward := by
  cases habsolute : q.isAbsolute with
  | true =>
      have happend : p ++ q = q := if_pos habsolute
      rw [happend]
      exact hq
  | false =>
      rw [downward_iff] at hp hq ⊢
      rw [segments_append p habsolute, List.mem_append, not_or]
      refine ⟨fun hup => hp ?_, hq⟩
      rcases p.base_cases with hbase | hbase
      · rw [hbase]
        exact hup
      · rw [hbase]
        exact List.mem_append_left _ hup

/-- What is left of a path behind a folder. -/
theorem relativeTo? (hp : p.Downward) (h : p.relativeTo? root = some q) : q.Downward := by
  rw [Path.relativeTo?] at h
  dsimp only at h
  split at h
  · split at h
    · obtain rfl := Option.some.inj h
      exact hp.join (fun s hs => p.cut_suffix.mem (mem_of_mem_trimIdle hs)) _
    · obtain rfl := Option.some.inj h
      refine hp.join (fun s hs => p.cut_suffix.mem ?_) _
      exact mem_of_mem_dropComponents (mem_of_mem_trimIdle hs)
  · exact absurd h (by simp)

/-- A path with another extension, as long as it has a file name. -/
theorem withExtension (hp : p.Downward) (hsolid : '/' ∉ extension.toList)
    (hname : (p.withExtension extension).fileName? ≠ none) :
    (p.withExtension extension).Downward := by
  rcases withExtension_cases (p := p) hsolid with hsame | ⟨last, hlast, hwith⟩
  · rw [hsame]
    exact hp
  have hfront : ∀ s ∈ (trimIdle p.cut.2).dropLast, s ∈ p.segments := fun s hs =>
    p.cut_suffix.mem (mem_of_mem_trimIdle (List.dropLast_subset _ hs))
  have hall : ∀ s ∈ (trimIdle p.cut.2).dropLast ++ [last], '/' ∉ s.toList := by
    intro s hs
    rcases List.mem_append.mp hs with hs | hs
    · exact solid_of_mem_segments (hfront s hs)
    · rw [List.mem_singleton.mp hs]
      exact hlast
  rw [hwith] at hname ⊢
  rw [downward_iff] at hp ⊢
  intro hup
  rcases List.mem_append.mp (mem_segments_join hall (by decide) hup) with hup | hup
  · exact hp (hfront _ hup)
  · -- a path that leads up in the end has no file name
    rw [← List.mem_singleton.mp hup] at hname hall
    have hsegments := segments_join p.cut.1 (by simp) hall
    rw [← List.append_assoc] at hsegments
    exact hname (fileName?_of_up hsegments)

/-- **A sidecar leads down** if the paths of its song and of the export folder do, as long as it has
a file name. -/
theorem sidecar (hp : p.Downward) (hfolder : folder.Downward) (root : Option Path)
    (hname : (p.sidecar root folder).fileName? ≠ none) : (p.sidecar root folder).Downward := by
  rw [Path.sidecar] at hname ⊢
  refine withExtension (hfolder.append ?_) (by decide) hname
  cases hrelative : root.bind p.relativeTo? with
  | some q =>
      obtain ⟨r, -, hq⟩ := Option.bind_eq_some_iff.mp hrelative
      exact hp.relativeTo? hq
  | none =>
      cases hfile : p.fileName? with
      | none => decide
      | some name =>
          obtain ⟨hmem, hup⟩ := fileName?_cases hfile
          exact downward_name (solid_of_mem_segments hmem) hup

end Downward

/-! ## Names -/

theorem filterMap_name?_componentOf (hup : ".." ∉ segments) :
    (segments.filterMap componentOf).filterMap Component.name? = busySegments segments := by
  induction segments with
  | nil => rfl
  | cons s rest ih =>
      rw [List.mem_cons, not_or] at hup
      cases hidle : isIdle s with
      | true =>
          rw [List.filterMap_cons_none (componentOf_of_idle hidle), ih hup.2]
          simp [busySegments, hidle]
      | false =>
          obtain ⟨c, hc, -, -, hname⟩ := componentOf_of_busy hidle
          rw [if_neg (Ne.symm hup.1)] at hname
          rw [List.filterMap_cons_some hc, List.filterMap_cons_some hname, ih hup.2]
          simp [busySegments, hidle]

/-- The names of a path that leads down are its segments, but for the idle ones. -/
theorem names_eq (hdown : p.Downward) : p.names = busySegments p.segments := by
  rw [← filterMap_name?_componentOf (downward_iff.mp hdown), ← filter_components,
    List.filterMap_filter, names]
  refine List.filterMap_congr fun c _ => ?_
  cases c <;> rfl

end Path

namespace FileTree

open SongLibrary.Path

variable {t : FileTree} {p folder : Path} {root : Option Path} {l : Location} {f : File}

/-- **A path that leads down leads to its names**, if anywhere. -/
theorem locate_names (hl : t.locate p = .ok l) (hdown : p.Downward) :
    l = t.origin p ++ p.names := by
  obtain ⟨-, hfollow⟩ := locate_cases hl
  obtain ⟨-, hway⟩ := follow_eq_ok_iff.mp hfollow
  rw [names_eq hdown]
  rw [downward_iff] at hdown
  refine followFrom_plain (fun n hn => ?_) (followFrom_busy hway)
  obtain ⟨hmem, hbusy⟩ := List.mem_filter.mp hn
  refine ⟨solid_of_mem_segments hmem, by simpa using hbusy, ?_⟩
  rintro rfl
  exact hdown hmem

/-- **A sidecar that has been written lies where its names say.** -/
theorem location_of_sidecar (hp : p.Downward) (hfolder : folder.Downward)
    (hl : t.locate (p.sidecar root folder) = .ok l) (hf : t.entry? l = some (.file f)) :
    l = t.origin (p.sidecar root folder) ++ (p.sidecar root folder).names := by
  refine locate_names hl (hp.sidecar hfolder root ?_)
  rw [fileName?_of_file hl hf]
  intro hnone
  rw [List.getLast?_eq_none_iff.mp hnone] at hf
  exact absurd hf (by simp [ entry?])

end FileTree

end SongLibrary
