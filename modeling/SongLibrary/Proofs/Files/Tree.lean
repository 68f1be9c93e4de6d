import SongLibrary.Files.Tree
import SongLibrary.Proofs.Assoc
import SongLibrary.Proofs.Path

/-!
# Following paths through trees

Where a path leads depends on its components, as long as it can lead to a file at all. It is
followed from the root or from the starting folder, which has to be there with all folders it lies
in. A file that is written is found at its path, and every other path leads where it led before.
-/

namespace SongLibrary

/-! ## Results -/

/-- What comes to a result has come to the results it is made from. -/
theorem bind_cases {ε α β : Type} {x : Except ε α} {g : α → Except ε β} {b : β}
    (h : x >>= g = .ok b) : ∃ a, x = .ok a ∧ g a = .ok b := by
  cases x with
  | error cause => exact absurd h (by simp [bind, Except.bind])
  | ok a => exact ⟨a, rfl, h⟩

/-- What fails has failed at once or behind a result. -/
theorem bind_error_cases {ε α β : Type} {x : Except ε α} {g : α → Except ε β} {cause : ε}
    (h : x >>= g = .error cause) : x = .error cause ∨ ∃ a, x = .ok a ∧ g a = .error cause := by
  cases x with
  | error cause' => exact Or.inl (congrArg Except.error (Except.error.inj h))
  | ok a => exact Or.inr ⟨a, rfl, h⟩

namespace FileTree

/-! ## Steps -/

theorem isFolder_root (t : FileTree) : t.isFolder [] = true := by simp [isFolder, entry?]

theorem isSome_of_isFolder {t : FileTree} {l : Location} (h : t.isFolder l = true) :
    (t.entry? l).isSome = true := by
  rw [isFolder, beq_iff_eq] at h
  rw [h]
  rfl

/-- What encloses a location, on the way back, is not that location. -/
theorem ne_of_prefix_dropLast {k l : Location} (hl : l ≠ []) (hk : k <+: l.dropLast) : k ≠ l := by
  rintro rfl
  have hpos := List.length_pos_iff.mpr hl
  have hlength := hk.length_le
  rw [List.length_dropLast] at hlength
  omega

/-- A step stays, goes back or goes on to an entry, and it always starts at a folder. -/
theorem step_eq_ok_iff {t : FileTree} {l m : Location} {s : String} :
    t.step l s = .ok m ↔ t.isFolder l = true ∧
      ((Path.isIdle s = true ∧ m = l) ∨
        (Path.isIdle s = false ∧ s = ".." ∧ m = l.dropLast) ∨
        (Path.isIdle s = false ∧ s ≠ ".." ∧ s.utf8ByteSize ≤ nameLimit ∧ m = l ++ [s] ∧
          (t.entry? m).isSome = true)) := by
  constructor
  · intro h
    unfold step at h
    split at h
    · exact absurd h (by simp)
    rename_i hl
    refine ⟨by simpa using hl, ?_⟩
    split at h
    · rename_i hidle
      exact Or.inl ⟨hidle, (Except.ok.inj h).symm⟩
    rename_i hbusy
    have hbusy' : Path.isIdle s = false := by simpa using hbusy
    split at h
    · rename_i hup
      exact Or.inr (Or.inl ⟨hbusy', hup, (Except.ok.inj h).symm⟩)
    rename_i hup
    split at h
    · exact absurd h (by simp)
    rename_i hlength
    split at h
    · rename_i hsome
      have hm := Except.ok.inj h
      rw [hm] at hsome
      exact Or.inr (Or.inr ⟨hbusy', hup, by omega, hm.symm, hsome⟩)
    · exact absurd h (by simp)
  · rintro ⟨hl, ⟨hidle, rfl⟩ | ⟨hbusy, hup, rfl⟩ | ⟨hbusy, hup, hlength, rfl, hsome⟩⟩
    · rw [step, if_neg (by simp [hl]), if_pos hidle]
    · rw [step, if_neg (by simp [hl]), if_neg (by simp [hbusy]), if_pos hup]
    · rw [step, if_neg (by simp [hl]), if_neg (by simp [hbusy]), if_neg hup,
        if_neg (by omega), if_pos hsome]

theorem isFolder_of_step {t : FileTree} {l m : Location} {s : String} (h : t.step l s = .ok m) :
    t.isFolder l = true :=
  (step_eq_ok_iff.mp h).1

theorem step_of_idle {t : FileTree} {l m : Location} {s : String} (hs : Path.isIdle s = true)
    (h : t.step l s = .ok m) : m = l := by
  obtain ⟨-, ⟨-, hm⟩ | ⟨hidle, -, -⟩ | ⟨hidle, -, -⟩⟩ := step_eq_ok_iff.mp h
  · exact hm
  · rw [hs] at hidle
    exact Bool.noConfusion hidle
  · rw [hs] at hidle
    exact Bool.noConfusion hidle

/-- A step does not fail for want of a file. -/
theorem step_ne_isFolder (t : FileTree) (l : Location) (s : String) :
    t.step l s ≠ .error .isFolder := by
  unfold step
  repeat' split
  all_goals simp

/-! ## Segments -/

theorem followFrom_cons {t : FileTree} {l m : Location} {s : String} {rest : List String}
    (h : (s :: rest).foldlM t.step l = .ok m) :
    ∃ l', t.step l s = .ok l' ∧ rest.foldlM t.step l' = .ok m := by
  rw [List.foldlM_cons] at h
  exact bind_cases h

theorem followFrom_of_step {t : FileTree} {l l' m : Location} {s : String} {rest : List String}
    (hs : t.step l s = .ok l') (h : rest.foldlM t.step l' = .ok m) :
    (s :: rest).foldlM t.step l = .ok m := by
  rw [List.foldlM_cons, hs]
  exact h

theorem followFrom_ne_isFolder (t : FileTree) (segments : List String) (l : Location) :
    segments.foldlM t.step l ≠ .error .isFolder := by
  induction segments generalizing l with
  | nil => simp [pure, Except.pure]
  | cons s rest ih =>
      intro h
      rw [List.foldlM_cons] at h
      rcases bind_error_cases h with hs | ⟨l', -, hrest⟩
      · exact step_ne_isFolder t l s hs
      · exact ih l' hrest

theorem followFrom_busy {t : FileTree} {l m : Location} {segments : List String}
    (h : segments.foldlM t.step l = .ok m) :
    (Path.busySegments segments).foldlM t.step l = .ok m := by
  induction segments generalizing l with
  | nil => exact h
  | cons s rest ih =>
      obtain ⟨l', hs, hrest⟩ := followFrom_cons h
      cases hidle : Path.isIdle s with
      | true =>
          rw [step_of_idle hidle hs] at hrest
          simpa [Path.busySegments, hidle] using ih hrest
      | false =>
          have hstep := followFrom_of_step hs (ih hrest)
          simpa [Path.busySegments, hidle] using hstep

/-- Idle segments can be put back in front of others, since what is followed starts at a folder. -/
theorem followFrom_of_busy {t : FileTree} {l m : Location} {segments : List String}
    (hlast : ∀ s, segments.getLast? = some s → Path.isIdle s = false)
    (h : (Path.busySegments segments).foldlM t.step l = .ok m) :
    segments.foldlM t.step l = .ok m := by
  induction segments generalizing l with
  | nil => exact h
  | cons s rest ih =>
      cases hidle : Path.isIdle s with
      | false =>
          rw [Path.busySegments, List.filter_cons_of_pos (by simp [hidle])] at h
          obtain ⟨l', hs, hrest⟩ := followFrom_cons h
          refine followFrom_of_step hs (ih (fun s' hs' => hlast s' ?_) hrest)
          rw [List.getLast?_cons, hs']
          rfl
      | true =>
          rw [Path.busySegments, List.filter_cons_of_neg (by simp [hidle])] at h
          cases rest with
          | nil => exact absurd (hlast s rfl) (by simp [hidle])
          | cons s' rest =>
              have hrest : (s' :: rest).foldlM t.step l = .ok m := by
                refine ih (fun last hl => hlast last ?_) h
                rw [List.getLast?_cons_cons]
                exact hl
              -- the segment behind the idle one could be followed, so this location is a folder
              obtain ⟨l', hs', -⟩ := followFrom_cons hrest
              have hl := isFolder_of_step hs'
              exact followFrom_of_step (step_eq_ok_iff.mpr ⟨hl, Or.inl ⟨hidle, rfl⟩⟩) hrest

/-- A last step that is idle leads to a folder. -/
theorem isFolder_of_last_idle {t : FileTree} {l m : Location} {segments : List String} {s : String}
    (h : segments.foldlM t.step l = .ok m) (hs : segments.getLast? = some s)
    (hidle : Path.isIdle s = true) : t.isFolder m = true := by
  induction segments generalizing l with
  | nil => exact absurd hs (by simp)
  | cons s' rest ih =>
      obtain ⟨l', hstep, hrest⟩ := followFrom_cons h
      cases rest with
      | nil =>
          obtain rfl : s' = s := by simpa using hs
          have hm : l' = m := Except.ok.inj hrest
          have hl := step_of_idle hidle hstep
          rw [← hm, hl]
          exact isFolder_of_step hstep
      | cons s'' rest =>
          rw [List.getLast?_cons_cons] at hs
          exact ih hrest hs

/-! ## Origins -/

/-- A folder is reachable if there are folders all the way. -/
theorem isReachable_iff {t : FileTree} {l : Location} :
    t.isReachable l = true ↔ ∀ k, k <+: l → t.isFolder k = true := by
  rw [isReachable, List.all_eq_true]
  constructor
  · intro h k hk
    rw [List.prefix_iff_eq_take.mp hk]
    exact h _ (List.mem_range.mpr (Nat.lt_succ_of_le hk.length_le))
  · exact fun h n _ => h _ (List.take_prefix n l)

theorem follow_eq_ok_iff {t : FileTree} {o m : Location} {segments : List String} :
    t.follow o segments = .ok m ↔
      t.isReachable o = true ∧ segments.foldlM t.step o = .ok m := by
  rw [follow]
  cases t.isReachable o <;> simp

/-- Paths with the same components start at the same folder. -/
theorem origin_congr (t : FileTree) {p q : Path} (h : p.components = q.components) :
    t.origin p = t.origin q := by
  rw [origin, origin, Path.isAbsolute_congr h]

theorem origin_eq {t t' : FileTree} (h : t'.start = t.start) (p : Path) :
    t'.origin p = t.origin p := by
  rw [origin, origin, h]

/-! ## Paths -/

theorem segmentsOf_eq_ok_iff {p : Path} {segments : List String} :
    segmentsOf p = .ok segments ↔ segments = p.segments ∧ holdsNul p = false ∧ p.text ≠ "" ∧
      p.text.utf8ByteSize ≤ pathLimit := by
  rw [segmentsOf]
  constructor
  · intro h
    split at h
    · exact absurd h (by simp)
    rename_i hnul
    split at h
    · exact absurd h (by simp)
    rename_i hempty
    split at h
    · exact absurd h (by simp)
    rename_i hlength
    exact ⟨(Except.ok.inj h).symm, by simpa using hnul, by simpa using hempty, by omega⟩
  · rintro ⟨rfl, hnul, hempty, hlength⟩
    rw [if_neg (by simp [hnul]), if_neg (by simpa using hempty), if_neg (by omega)]

theorem segmentsOf_eq {p : Path} {segments : List String} (h : segmentsOf p = .ok segments) :
    segments = p.segments :=
  (segmentsOf_eq_ok_iff.mp h).1

theorem locate_cases {t : FileTree} {p : Path} {l : Location} (h : t.locate p = .ok l) :
    segmentsOf p = .ok p.segments ∧ t.follow (t.origin p) p.segments = .ok l := by
  rw [locate] at h
  obtain ⟨segments, hs, hfollow⟩ := bind_cases h
  obtain rfl := segmentsOf_eq hs
  exact ⟨hs, hfollow⟩

/-- The empty path leads nowhere. -/
theorem text_ne_empty {t : FileTree} {p : Path} {l : Location} (h : t.locate p = .ok l) :
    p.text ≠ "" :=
  (segmentsOf_eq_ok_iff.mp (locate_cases h).1).2.2.1

theorem locate_of_follow {t : FileTree} {p : Path} {l : Location}
    (hs : segmentsOf p = .ok p.segments) (h : t.follow (t.origin p) p.segments = .ok l) :
    t.locate p = .ok l := by
  rw [locate, hs]
  exact h

/-- What is passed on the way to a location are folders, and there is something at its end. -/
theorem folders_of_followFrom {t : FileTree} {l m : Location} {segments : List String}
    (hl : ∀ k, k <+: l → k ≠ l → t.isFolder k = true) (hentry : (t.entry? l).isSome = true)
    (h : segments.foldlM t.step l = .ok m) :
    (∀ k, k <+: m → k ≠ m → t.isFolder k = true) ∧ (t.entry? m).isSome = true := by
  induction segments generalizing l with
  | nil => rw [← Except.ok.inj h]; exact ⟨hl, hentry⟩
  | cons s rest ih =>
      obtain ⟨l', hs, hrest⟩ := followFrom_cons h
      obtain ⟨hfolder, ⟨-, rfl⟩ | ⟨-, -, rfl⟩ | ⟨-, -, -, rfl, hsome⟩⟩ := step_eq_ok_iff.mp hs
      · exact ih hl hentry hrest
      · by_cases hroot : l = []
        · subst hroot
          exact ih hl hentry hrest
        -- the way back passes only what was passed on the way here
        have hback : ∀ k, k <+: l.dropLast → t.isFolder k = true := fun k hk =>
          hl k (hk.trans (List.dropLast_prefix l)) (ne_of_prefix_dropLast hroot hk)
        exact ih (fun k hk _ => hback k hk) (isSome_of_isFolder (hback _ List.prefix_rfl)) hrest
      · -- on to an entry: the new location is passed only if the way goes on
        refine ih (fun k hk hne => ?_) hsome hrest
        rcases List.prefix_concat_iff.mp hk with he | hk
        · exact absurd he hne
        · by_cases hkl : k = l
          · rw [hkl]
            exact hfolder
          · exact hl k hk hkl

theorem folders_of_follow {t : FileTree} {o l : Location} {segments : List String}
    (h : t.follow o segments = .ok l) :
    (∀ k, k <+: l → k ≠ l → t.isFolder k = true) ∧ (t.entry? l).isSome = true := by
  obtain ⟨hreach, hsegments⟩ := follow_eq_ok_iff.mp h
  have hfolder := isReachable_iff.mp hreach
  exact folders_of_followFrom (fun k hk _ => hfolder k hk)
    (isSome_of_isFolder (hfolder o List.prefix_rfl)) hsegments

theorem entry?_of_locate {t : FileTree} {p : Path} {l : Location} (h : t.locate p = .ok l) :
    (t.entry? l).isSome = true :=
  (folders_of_follow (locate_cases h).2).2

/-- Following a path never fails at a folder. -/
theorem locate_ne_isFolder (t : FileTree) (p : Path) : t.locate p ≠ .error .isFolder := by
  intro h
  rw [locate] at h
  rcases bind_error_cases h with hs | ⟨segments, -, hfollow⟩
  · unfold segmentsOf at hs
    repeat' split at hs
    all_goals exact absurd hs (by simp)
  · rw [follow] at hfollow
    split at hfollow
    · exact followFrom_ne_isFolder t segments _ hfollow
    · exact absurd hfollow (by simp)

theorem file_of_locate {t : FileTree} {p : Path} {l : Location} (h : t.locate p = .ok l) :
    t.file p = match t.entry? l with
      | some (.file f) => .ok f
      | some .folder => .error .isFolder
      | none => .error .noSuchFile := by
  rw [file, h]
  rfl

/-- A text that a file is made of is the text at its path. -/
theorem text_of_bytes {t : FileTree} {p : Path} {l : Location} {f : File} {text : String}
    (hl : t.locate p = .ok l) (hf : t.entry? l = some (.file f))
    (hbytes : f.bytes = Text.bytes text) : t.text p = .ok text := by
  rw [FileTree.text, file_of_locate hl, hf]
  simp [bind, Except.bind, hbytes, Text.ofBytes?_bytes]

/-- What is at a path depends on where it leads and on what is there. -/
theorem file_eq_of_locate {t t' : FileTree} {p : Path} (hlocate : t'.locate p = t.locate p)
    (hentry : ∀ l, t.locate p = .ok l → t'.entry? l = t.entry? l) : t'.file p = t.file p := by
  cases hl : t.locate p with
  | error cause =>
      rw [file, file, hlocate, hl]
      rfl
  | ok l => rw [file_of_locate hl, file_of_locate (hlocate.trans hl), hentry l hl]

theorem file_cases {t : FileTree} {p : Path} {f : File} (h : t.file p = .ok f) :
    ∃ l, t.locate p = .ok l ∧ t.entry? l = some (.file f) := by
  rw [file] at h
  obtain ⟨l, hl, hentry⟩ := bind_cases h
  split at hentry
  · rename_i g hg
    rw [← Except.ok.inj hentry]
    exact ⟨l, hl, hg⟩
  · exact absurd hentry (by simp)
  · exact absurd hentry (by simp)

theorem isFolder_of_file {t : FileTree} {l : Location} {f : File}
    (h : t.entry? l = some (.file f)) : t.isFolder l = false := by
  rw [isFolder, h]
  rfl

theorem file_unique {t : FileTree} {l : Location} {f g : File}
    (hf : t.entry? l = some (.file f)) (hg : t.entry? l = some (.file g)) : f = g :=
  Entry.file.inj (Option.some.inj (hf.symm.trans hg))

/-- The last segment of a path that has led to a file is not idle. -/
theorem last_busy_of_file {t : FileTree} {p : Path} {f : File} (h : t.file p = .ok f) (s : String)
    (hs : p.segments.getLast? = some s) : Path.isIdle s = false := by
  obtain ⟨l, hl, hf⟩ := file_cases h
  obtain ⟨-, hfollow⟩ := locate_cases hl
  cases hidle : Path.isIdle s with
  | false => rfl
  | true =>
      have hfolder := isFolder_of_last_idle (follow_eq_ok_iff.mp hfollow).2 hs hidle
      rw [isFolder_of_file hf] at hfolder
      exact hfolder.symm

/-- **Where a path leads is decided by its components.** A path that has ever led to a file leads
wherever another text with its components leads. -/
theorem locate_congr {p q : Path} (hpq : p.components = q.components) {t₀ : FileTree} {f : File}
    (hfile : t₀.file p = .ok f) {t : FileTree} {l : Location} (h : t.locate q = .ok l) :
    t.locate p = .ok l := by
  -- the last segment is not idle, so the idle ones before it may be dropped and put back
  obtain ⟨l₀, hl₀, -⟩ := file_cases hfile
  obtain ⟨hsegments, -⟩ := locate_cases hl₀
  obtain ⟨-, hfollow⟩ := locate_cases h
  rw [← origin_congr t hpq] at hfollow
  obtain ⟨hreach, hfollow⟩ := follow_eq_ok_iff.mp hfollow
  refine locate_of_follow hsegments (follow_eq_ok_iff.mpr ⟨hreach, ?_⟩)
  refine followFrom_of_busy (last_busy_of_file hfile) ?_
  rw [Path.busySegments_congr hpq]
  exact followFrom_busy hfollow

theorem file_congr {p q : Path} (hpq : p.components = q.components) {t₀ : FileTree} {f₀ : File}
    (hfile : t₀.file p = .ok f₀) {t : FileTree} {f : File} (h : t.file q = .ok f) :
    t.file p = .ok f := by
  obtain ⟨l, hl, hf⟩ := file_cases h
  rw [file_of_locate (locate_congr hpq hfile hl), hf]

theorem folder_cases {t : FileTree} {p : Path} (h : t.file p = .error .isFolder) :
    ∃ l, t.locate p = .ok l ∧ t.isFolder l = true := by
  rw [file] at h
  rcases bind_error_cases h with hl | ⟨l, hl, hentry⟩
  · exact absurd hl (locate_ne_isFolder t p)
  split at hentry
  · exact absurd hentry (by simp)
  · rename_i hfolder
    exact ⟨l, hl, by rw [isFolder, hfolder]; rfl⟩
  · exact absurd hentry (by simp)

theorem follow_append_cases {t : FileTree} {outer : List String} {last : String} {o l : Location}
    (h : t.follow o (outer ++ [last]) = .ok l) :
    ∃ k, t.follow o outer = .ok k ∧ t.step k last = .ok l := by
  obtain ⟨hreach, hsegments⟩ := follow_eq_ok_iff.mp h
  rw [List.foldlM_append] at hsegments
  obtain ⟨k, hk, hlast⟩ := bind_cases hsegments
  obtain ⟨l', hs, hl'⟩ := followFrom_cons hlast
  refine ⟨k, follow_eq_ok_iff.mpr ⟨hreach, hk⟩, ?_⟩
  rw [hs, ← Except.ok.inj hl']

/-! ## A tree that grows -/

/-- Whatever leads on in a tree leads on in another one: folders stay, and where there is an entry
there still is one. -/
structure Grows (t t' : FileTree) : Prop where
  folder : ∀ l, t.isFolder l = true → t'.isFolder l = true
  entry : ∀ l, (t.entry? l).isSome = true → (t'.entry? l).isSome = true
  start : t'.start = t.start

namespace Grows

variable {t t' t'' : FileTree} {o m : Location}

theorem trans (h : Grows t t') (h' : Grows t' t'') : Grows t t'' where
  folder := fun l hl => h'.folder l (h.folder l hl)
  entry := fun l hl => h'.entry l (h.entry l hl)
  start := h'.start.trans h.start

/-- A step that can be made in the tree can still be made. -/
theorem step_ok (h : Grows t t') {k : Location} {s : String} (hs : t.step k s = .ok m) :
    t'.step k s = .ok m := by
  obtain ⟨hk, hcases⟩ := step_eq_ok_iff.mp hs
  refine step_eq_ok_iff.mpr ⟨h.folder k hk, ?_⟩
  rcases hcases with hstay | hback | ⟨hbusy, hup, hlength, hm, hsome⟩
  · exact Or.inl hstay
  · exact Or.inr (Or.inl hback)
  · exact Or.inr (Or.inr ⟨hbusy, hup, hlength, hm, h.entry m hsome⟩)

theorem followFrom_ok (h : Grows t t') {k : Location} {segments : List String}
    (hs : segments.foldlM t.step k = .ok m) : segments.foldlM t'.step k = .ok m := by
  induction segments generalizing k with
  | nil => exact hs
  | cons s rest ih =>
      obtain ⟨k', hstep, hrest⟩ := followFrom_cons hs
      exact followFrom_of_step (h.step_ok hstep) (ih hrest)

theorem follow_ok (h : Grows t t') {segments : List String} (hs : t.follow o segments = .ok m) :
    t'.follow o segments = .ok m := by
  obtain ⟨hreach, hsegments⟩ := follow_eq_ok_iff.mp hs
  refine follow_eq_ok_iff.mpr ⟨?_, h.followFrom_ok hsegments⟩
  exact isReachable_iff.mpr fun k hk => h.folder k (isReachable_iff.mp hreach k hk)

theorem locate_ok (h : Grows t t') {q : Path} (hq : t.locate q = .ok m) : t'.locate q = .ok m := by
  obtain ⟨hsegments, hfollow⟩ := locate_cases hq
  rw [← origin_eq h.start] at hfollow
  exact locate_of_follow hsegments (h.follow_ok hfollow)

end Grows

/-! ## A file that is put into a tree -/

/-- A tree differs from another one by a file at one location, where no folder has been. -/
structure FilePut (t t' : FileTree) (l : Location) (f : File) : Prop where
  /-- No folder makes way for the file. -/
  vacant : t.isFolder l = false
  /-- The file is at the location. -/
  here : t'.entry? l = some (.file f)
  /-- Nothing else changes. -/
  elsewhere : ∀ m, m ≠ l → t'.entry? m = t.entry? m
  start : t'.start = t.start

theorem filePut_put {t : FileTree} {l : Location} (h : t.isFolder l = false) (f : File) :
    FilePut t (t.put l (.file f)) l f := by
  have hne : l ≠ [] := by
    rintro rfl
    rw [isFolder_root] at h
    exact Bool.noConfusion h
  refine ⟨h, ?_, fun m hm => ?_, rfl⟩
  · rw [ entry?, if_neg hne, put, Assoc.find?_put, if_pos rfl]
  · rw [ entry?, entry?, put, Assoc.find?_put, if_neg (Ne.symm hm)]

namespace FilePut

variable {t t' : FileTree} {l m : Location} {f : File}

theorem isFolder_eq (h : FilePut t t' l f) (m : Location) : t'.isFolder m = t.isFolder m := by
  by_cases hm : m = l
  · rw [hm, h.vacant, isFolder_of_file h.here]
  · rw [isFolder, isFolder, h.elsewhere m hm]

theorem entry?_isSome (h : FilePut t t' l f) (hm : (t.entry? m).isSome = true) :
    (t'.entry? m).isSome = true := by
  by_cases hml : m = l
  · rw [hml, h.here]
    rfl
  · rw [h.elsewhere m hml]
    exact hm

theorem grows (h : FilePut t t' l f) : Grows t t' :=
  ⟨fun m hm => by rw [h.isFolder_eq m]; exact hm, fun _ => h.entry?_isSome, h.start⟩

theorem isReachable_eq (h : FilePut t t' l f) (m : Location) :
    t'.isReachable m = t.isReachable m := by
  rw [isReachable, isReachable, funext h.isFolder_eq]

/-- A step to what has been there before could be made before. -/
theorem step_back (h : FilePut t t' l f) {k : Location} {s : String} (hs : t'.step k s = .ok m)
    (hm : (t.entry? m).isSome = true) : t.step k s = .ok m := by
  obtain ⟨hk, hcases⟩ := step_eq_ok_iff.mp hs
  refine step_eq_ok_iff.mpr ⟨by rw [← h.isFolder_eq]; exact hk, ?_⟩
  rcases hcases with hstay | hback | ⟨hbusy, hup, hlength, hkm, -⟩
  · exact Or.inl hstay
  · exact Or.inr (Or.inl hback)
  · exact Or.inr (Or.inr ⟨hbusy, hup, hlength, hkm, hm⟩)

/-- A way to what has been there before passes folders only, which have been there as well. -/
theorem followFrom_back (h : FilePut t t' l f) {k : Location} {segments : List String}
    (hs : segments.foldlM t'.step k = .ok m) (hm : (t.entry? m).isSome = true) :
    segments.foldlM t.step k = .ok m := by
  induction segments generalizing k with
  | nil => exact hs
  | cons s rest ih =>
      obtain ⟨k', hstep, hrest⟩ := followFrom_cons hs
      have hk' : (t.entry? k').isSome = true := by
        cases rest with
        | nil =>
            have hkm : k' = m := Except.ok.inj hrest
            rw [hkm]
            exact hm
        | cons s' rest =>
            -- the way goes on from a folder, and a file that is put never makes one
            obtain ⟨k'', hstep', -⟩ := followFrom_cons hrest
            have hfolder := isFolder_of_step hstep'
            rw [h.isFolder_eq] at hfolder
            exact isSome_of_isFolder hfolder
      exact followFrom_of_step (h.step_back hstep hk') (ih hrest)

theorem follow_back (h : FilePut t t' l f) {o : Location} {segments : List String}
    (hs : t'.follow o segments = .ok m) (hm : (t.entry? m).isSome = true) :
    t.follow o segments = .ok m := by
  obtain ⟨hreach, hsegments⟩ := follow_eq_ok_iff.mp hs
  rw [h.isReachable_eq] at hreach
  exact follow_eq_ok_iff.mpr ⟨hreach, h.followFrom_back hsegments hm⟩

theorem locate_back (h : FilePut t t' l f) {q : Path} (hq : t'.locate q = .ok m)
    (hm : (t.entry? m).isSome = true) : t.locate q = .ok m := by
  obtain ⟨hsegments, hfollow⟩ := locate_cases hq
  rw [origin_eq h.start] at hfollow
  exact locate_of_follow hsegments (h.follow_back hfollow hm)

/-- Where a file takes the place of another, every path leads where it led, or fails as it did. -/
theorem locate_eq (h : FilePut t t' l f) (hl : (t.entry? l).isSome = true) (q : Path) :
    t'.locate q = t.locate q := by
  have hentry : ∀ m, (t'.entry? m).isSome = (t.entry? m).isSome := by
    intro m
    by_cases hm : m = l
    · rw [hm, h.here, hl]
      rfl
    · rw [h.elsewhere m hm]
  have hstep : t'.step = t.step := by
    funext k s
    rw [step, step, h.isFolder_eq, hentry]
  have hfollow : t'.follow = t.follow := by
    funext o segments
    rw [follow, follow, hstep, h.isReachable_eq]
  rw [locate, locate, hfollow, origin_eq h.start]

theorem locate_elsewhere (h : FilePut t t' l f) {q : Path} (hq : t'.locate q = .ok m)
    (hm : m ≠ l) : t.locate q = .ok m := by
  refine h.locate_back hq ?_
  rw [← h.elsewhere m hm]
  exact entry?_of_locate hq

theorem file_here (h : FilePut t t' l f) {q : Path} (hq : t'.locate q = .ok l) :
    t'.file q = .ok f := by
  rw [file_of_locate hq, h.here]

/-- **A path to another location has the file it had.** -/
theorem file_elsewhere (h : FilePut t t' l f) {q : Path} (hq : t.locate q = .ok m) (hm : m ≠ l) :
    t'.file q = t.file q := by
  rw [file_of_locate hq, file_of_locate (h.grows.locate_ok hq), h.elsewhere m hm]

end FilePut

/-! ## Trees given by contents -/

/-- Files without tags in the root, which is the starting folder, all last changed at one moment. -/
def ofContents (contents : List (String × List UInt8)) : FileTree :=
  ⟨contents.map fun c => ([c.1], .file ⟨c.2, none, .given 1⟩), 0, []⟩

theorem file_of_ofContents {contents : List (String × List UInt8)} {l : Location} {f : File}
    (h : entry? (ofContents contents) l = some (.file f)) :
    ∃ c ∈ contents, f = ⟨c.2, none, .given 1⟩ := by
  rw [ entry?] at h
  split at h
  · exact absurd (Option.some.inj h) (by simp)
  · obtain ⟨c, hc, heq⟩ := List.mem_map.mp (Assoc.mem_of_find? h)
    exact ⟨c, hc, (Entry.file.inj (Prod.mk.inj heq).2).symm⟩

end FileTree

end SongLibrary
