import SongLibrary.Proofs.Files.PresetFolder

/-!
# A folder of presets answers as a finite map

Each request is answered as by the map, and the folder holds what the map holds afterwards. So a run
of requests of any length is.

Before the first preset is saved the folder may not have been made. It holds nothing then, which is
what the empty map holds. A preset whose name the file system does not accept makes the folder and
is refused only then.

Two things are not as a finite map has them: a name that no preset can have is refused as such, and
not as a name that is not bound, and no list looks into a folder with the empty path.
-/

namespace SongLibrary

namespace PresetFolder

/-! ## A folder that nobody else uses -/

/-- A folder for presets can be made, unless it is there, and nothing lies in it then. -/
structure Unused (s : PresetFolder) (t : FileTree) : Prop where
  makeable : (t.makeFolders s.folder).2 = .ok ()
  empty : ∃ l, (t.makeFolders s.folder).1.LeadsInto s.folder l ∧
    (t.makeFolders s.folder).1.namesIn l = []

/-- A folder with a path is there once it has been made, so nothing need lie in it then. -/
theorem unused_of_made {s : PresetFolder} {t : FileTree} (hnamed : s.folder.text ≠ "")
    (hmade : (t.makeFolders s.folder).2 = .ok ())
    (hempty : ∀ l, (t.makeFolders s.folder).1.locate s.folder = .ok l →
      (t.makeFolders s.folder).1.namesIn l = []) : s.Unused t := by
  obtain ⟨l, hl, hfolder⟩ :=
    FileTree.isFolderAt_iff.mp (FileTree.isFolderAt_makeFolders hnamed hmade)
  exact ⟨hmade, l, FileTree.leadsInto_of_locate hl hfolder, hempty l hl⟩

/-- A folder that is not there is unused if there is a folder to make it in. -/
theorem unused_of_absent {s : PresetFolder} {t t' : FileTree} (hrooted : t.Rooted)
    (h : t.makeFolder s.folder = .ok t') : s.Unused t := by
  obtain ⟨l, -, -, hl, -⟩ := FileTree.makeFolder_cases h
  have hnamed := FileTree.text_ne_empty hl
  have hmade : t.makeFolders s.folder = (t', .ok ()) := by
    obtain ⟨outer, heq⟩ := FileTree.makeFolders_eq t s.folder
    rw [heq, FileTree.makeFoldersFrom, if_neg (by simpa using hnamed), h]
  refine unused_of_made hnamed (by rw [hmade]) fun l' hl' => ?_
  rw [hmade] at hl' ⊢
  exact FileTree.namesIn_of_makeFolder hrooted h hl'

/-- A folder holds the presets of a map, or nothing has been saved and it has not been made. -/
inductive Stores (s : PresetFolder) (t : FileTree) (m : PresetMap) : Prop where
  | made (l : Location) (h : s.Keeps t l m)
  | unmade (h : s.Unused t) (hnamed : s.folder.text ≠ "")
      (hmissing : ∀ l, t.locate s.folder ≠ .ok l) (hm : m = [])

variable {s : PresetFolder} {t : FileTree} {m : PresetMap} {name : String} {preset : Preset}

theorem keeps_nil {l : Location} (hl : t.LeadsInto s.folder l) (hempty : t.namesIn l = []) :
    s.Keeps t l [] :=
  ⟨hl, hempty, fun _ _ h => absurd h (by simp [Assoc.find?]), fun _ h => absurd h List.not_mem_nil,
    List.nodup_nil⟩

theorem Unused.stores (h : s.Unused t) : s.Stores t [] := by
  obtain ⟨l, hl, hempty⟩ := h.empty
  by_cases hnamed : s.folder.text = ""
  · -- nothing is made for the empty path
    have hsame : (t.makeFolders s.folder).1 = t := by
      obtain ⟨outer, heq⟩ := FileTree.makeFolders_eq t s.folder
      rw [heq, FileTree.makeFoldersFrom, if_pos (by simpa using hnamed)]
    rw [hsame] at hl hempty
    exact .made l (keeps_nil hl hempty)
  cases hthere : t.locate s.folder with
  | error cause =>
      exact .unmade h hnamed (fun l hl' => by rw [hthere] at hl'; exact absurd hl' (by simp)) rfl
  | ok l' =>
      rw [FileTree.makeFolders_of_locate hthere] at hl hempty
      exact .made l (keeps_nil hl hempty)

namespace Stores

/-- When a preset is to be saved, there is a folder for it. -/
theorem make (h : s.Stores t m) :
    ∃ t' l, t.makeFolders s.folder = (t', .ok ()) ∧ s.Keeps t' l m := by
  cases h with
  | made l h => exact ⟨t, l, h.located.makeFolders_eq, h⟩
  | unmade h hnamed hmissing hm =>
      obtain ⟨l, hl, hempty⟩ := h.empty
      exact ⟨_, l, Prod.ext rfl h.makeable, hm ▸ keeps_nil hl hempty⟩

theorem keeps_of_bound (h : s.Stores t m) (hname : Assoc.find? m name = some preset) :
    ∃ l, s.Keeps t l m := by
  cases h with
  | made l h => exact ⟨l, h⟩
  | unmade h hnamed hmissing hm =>
      rw [hm] at hname
      exact absurd hname (by simp [Assoc.find?])

theorem exists?_unbound (h : s.Stores t m) (hfault : nameFault? name = none)
    (hname : Assoc.find? m name = none) :
    t.exists? (s.folder ++ (⟨fileOf name⟩ : Path)) = false := by
  cases h with
  | made l h => exact h.exists?_unbound hfault hname
  | unmade h hnamed hmissing hm =>
      rw [FileTree.exists?]
      cases hl : t.locate (s.folder ++ (⟨fileOf name⟩ : Path)) with
      | error cause => rfl
      | ok l =>
          obtain ⟨l', hl'⟩ := FileTree.locate_append_cases (plain_fileOf hfault) hl
          exact absurd (hl'.locate hnamed) (hmissing l')

theorem exists?_bound (h : s.Stores t m) (hname : Assoc.find? m name = some preset) :
    t.exists? (s.folder ++ (⟨fileOf name⟩ : Path)) = true := by
  obtain ⟨l, h⟩ := h.keeps_of_bound hname
  rw [FileTree.exists?, h.locate_bound hname]
  rfl

end Stores

/-! ## One request -/

/-- A folder and a map answer the same, and the folder still holds what the map holds. -/
def Agree (s : PresetFolder) (x : FileTree × Except Error Reply)
    (y : PresetMap × Except Error Reply) : Prop :=
  s.Stores x.1 y.1 ∧ x.2 = y.2

theorem agree_save (h : s.Stores t m) (name : String) (hp : preset.Readable) :
    s.Agree (s.answer t (.save name preset)) (s.mapAnswer m (.save name preset)) := by
  rw [answer, save, pathOf_eq, mapAnswer, saveFault?]
  cases hfault : nameFault? (Text.trim name) with
  | some e => exact ⟨h, rfl⟩
  | none =>
      obtain ⟨t', l, hmake, hkeeps⟩ := h.make
      dsimp only
      rw [hmake]
      dsimp only
      rw [hkeeps.writeText_eq hfault]
      cases herror : FileTree.nameError? s.folder (fileOf (Text.trim name)) with
      | some cause => exact ⟨.made l hkeeps, rfl⟩
      | none =>
          have hholds : Holds ⟨Text.bytes preset.toJson.indented, none, .clock t'.clock⟩ preset :=
            ⟨_, Text.ofBytes?_bytes _, Preset.ofText?_indented hp⟩
          have hname := saveFault?_eq_none_iff.mpr ⟨hfault, herror⟩
          exact ⟨.made l (hkeeps.put hname hholds).tick, rfl⟩

theorem agree_load (h : s.Stores t m) (name : String) :
    s.Agree (s.answer t (.load name)) (s.mapAnswer m (.load name)) := by
  rw [answer, load, pathOf_eq, mapAnswer]
  cases hfault : nameFault? (Text.trim name) with
  | some e => exact ⟨h, rfl⟩
  | none =>
      cases hname : Assoc.find? m (Text.trim name) with
      | none =>
          refine ⟨h, ?_⟩
          simp only [bind, Except.bind]
          rw [h.exists?_unbound hfault hname]
          rfl
      | some preset =>
          refine ⟨h, ?_⟩
          obtain ⟨l, hkeeps⟩ := h.keeps_of_bound hname
          obtain ⟨text, htext, hpreset⟩ := hkeeps.text_bound hname
          simp only [bind, Except.bind]
          rw [h.exists?_bound hname, if_pos rfl, htext]
          simp [Except.map, hpreset]

theorem agree_delete (h : s.Stores t m) (name : String) :
    s.Agree (s.answer t (.delete name)) (s.mapAnswer m (.delete name)) := by
  rw [answer, delete, pathOf_eq, mapAnswer]
  cases hfault : nameFault? (Text.trim name) with
  | some e => exact ⟨h, rfl⟩
  | none =>
      simp only [bind, Except.bind]
      cases hname : Assoc.find? m (Text.trim name) with
      | none =>
          rw [h.exists?_unbound hfault hname]
          exact ⟨h, rfl⟩
      | some preset =>
          obtain ⟨l, hkeeps⟩ := h.keeps_of_bound hname
          obtain ⟨f, hf, -⟩ := hkeeps.files _ _ hname
          rw [h.exists?_bound hname, if_pos rfl,
            FileTree.removeFile_eq (hkeeps.locate_bound hname) hf]
          exact ⟨.made l (hkeeps.without hname), rfl⟩

theorem agree_list (h : s.Stores t m) :
    s.Agree (s.answer t .list) (s.mapAnswer m .list) := by
  refine ⟨h, ?_⟩
  rw [answer, mapAnswer]
  cases h with
  | made l h =>
      rw [h.list_eq]
      rfl
  | unmade h hnamed hmissing hm =>
      rw [list, hm]
      cases hl : t.locate s.folder with
      | error cause => simp [Except.map, listedNames, sortedNames, Assoc.keys]
      | ok l => exact absurd hl (hmissing l)

/-- **A folder answers a request as the map does**, if the preset to be saved can be read back. -/
theorem agree_answer (h : s.Stores t m) (request : Request)
    (hread : ∀ name preset, request = .save name preset → preset.Readable) :
    s.Agree (s.answer t request) (s.mapAnswer m request) := by
  cases request with
  | save name preset => exact agree_save h name (hread name preset rfl)
  | load name => exact agree_load h name
  | delete name => exact agree_delete h name
  | list => exact agree_list h

/-! ## All requests -/

theorem agree_run {requests : List Request} (h : s.Stores t m)
    (hread : ∀ name preset, .save name preset ∈ requests → preset.Readable) :
    s.Stores (run s.answer t requests).1 (run s.mapAnswer m requests).1 ∧
      (run s.answer t requests).2 = (run s.mapAnswer m requests).2 := by
  induction requests generalizing t m with
  | nil => exact ⟨h, rfl⟩
  | cons request requests ih =>
      obtain ⟨hstores, hreply⟩ := agree_answer h request fun name preset he =>
        hread name preset (he ▸ List.mem_cons_self)
      obtain ⟨hstores', hreplies⟩ := ih hstores fun name preset hmem =>
        hread name preset (List.mem_cons_of_mem _ hmem)
      exact ⟨hstores', congrArg₂ List.cons hreply hreplies⟩

theorem nodup_keys_mapAnswer (h : (Assoc.keys m).Nodup) (request : Request) :
    (Assoc.keys (s.mapAnswer m request).1).Nodup := by
  cases request with
  | save name preset =>
      rw [mapAnswer]
      split
      · exact h
      · exact Assoc.nodup_keys_put h _ _
  | load name =>
      rw [mapAnswer]
      repeat' split
      all_goals exact h
  | delete name =>
      rw [mapAnswer]
      repeat' split
      · exact h
      · exact h
      · rw [Assoc.keys_erase]
        exact h.filter _
  | list => exact h

/-- A request that fails changes nothing in the map. -/
theorem mapAnswer_error {request : Request} {e : Error}
    (h : (s.mapAnswer m request).2 = .error e) : (s.mapAnswer m request).1 = m := by
  cases request with
  | save name preset =>
      rw [mapAnswer] at h ⊢
      split
      · rfl
      · rename_i hfault
        rw [hfault] at h
        exact absurd h (by simp)
  | load name =>
      rw [mapAnswer]
      repeat' split
      all_goals rfl
  | delete name =>
      rw [mapAnswer] at h ⊢
      split
      · rfl
      · rename_i hfault
        rw [hfault] at h
        split
        · rfl
        · rename_i hname
          rw [hname] at h
          exact absurd h (by simp)
  | list => rfl

theorem nodup_keys_run (h : (Assoc.keys m).Nodup) (requests : List Request) :
    (Assoc.keys (run s.mapAnswer m requests).1).Nodup := by
  induction requests generalizing m with
  | nil => exact h
  | cons request requests ih => exact ih (nodup_keys_mapAnswer h request)

/-- Presets that are to be saved have been read from texts. -/
def AllRead (requests : List Request) : Prop :=
  ∀ name preset, .save name preset ∈ requests → ∃ text, Preset.ofText? text = some preset

theorem AllRead.readable {requests : List Request} (h : AllRead requests) (name : String)
    (preset : Preset) (hmem : .save name preset ∈ requests) : preset.Readable := by
  obtain ⟨text, htext⟩ := h name preset hmem
  exact Preset.readable_of_ofText? htext

/-- **A folder of presets is a finite map.** Requests to a folder that nobody else uses are answered
as by a finite map that begins empty. Saving under a name that the file system accepts binds the
name without the blanks around it, and no other. A list has the names that are bound, ascending,
each of them once; only in a folder with the empty path it has none. After a request that fails all
further requests are answered as without it. -/
theorem run_refines (s : PresetFolder) (t : FileTree) (requests : List Request) (h : s.Unused t)
    (hread : AllRead requests) :
    let bound := (run s.mapAnswer [] requests).1
    let held := (run s.answer t requests).1
    (run s.answer t requests).2 = (run s.mapAnswer [] requests).2 ∧
    (∀ name preset, s.Savable (Text.trim name) →
      (s.mapAnswer bound (.save name preset)).2 = .ok .done ∧
      ∀ other, Assoc.find? (s.mapAnswer bound (.save name preset)).1 other =
        if Text.trim name = other then some preset else Assoc.find? bound other) ∧
    (∃ names, (s.answer held .list).2 = .ok (.names names) ∧ names.Pairwise (· < ·) ∧
      (s.folder.text ≠ "" → ∀ name, name ∈ names ↔ (Assoc.find? bound name).isSome = true) ∧
      (s.folder.text = "" → names = [])) ∧
    ∀ request e later, AllRead (request :: later) → (s.answer held request).2 = .error e →
      (run s.answer (s.answer held request).1 later).2 = (run s.answer held later).2 := by
  intro bound held
  obtain ⟨hstores, hreplies⟩ := agree_run h.stores hread.readable
  refine ⟨hreplies, fun name preset hname => ?_,
    ⟨s.listedNames bound, (agree_list hstores).2, ?_, fun hnamed name => ?_,
      fun hempty => if_pos hempty⟩,
    fun request e later hall he => ?_⟩
  · have hfault := saveFault?_eq_none_iff_savable.mpr hname
    rw [mapAnswer, hfault]
    exact ⟨rfl, fun other => Assoc.find?_put _ _ _ _⟩
  · rw [listedNames]
    split
    · exact List.Pairwise.nil
    · exact sortedNames_ordered (nodup_keys_run (m := []) List.nodup_nil requests)
  · rw [listedNames, if_neg hnamed, mem_sortedNames, ← Option.ne_none_iff_isSome, Ne,
      Assoc.find?_eq_none_iff, not_not]
  · have hreadable := hall.readable
    obtain ⟨hstores', hreply⟩ := agree_answer hstores request fun name preset hsave =>
      hreadable name preset (hsave ▸ List.mem_cons_self)
    -- the map is as before, and what follows is answered from the map
    rw [he] at hreply
    rw [mapAnswer_error hreply.symm] at hstores'
    have hlater := fun name preset hmem => hreadable name preset (List.mem_cons_of_mem _ hmem)
    exact (agree_run hstores' hlater).2.trans (agree_run hstores hlater).2.symm

/-- A folder with an absolute path that is made for the first preset. Dots in a name are its own,
and blanks around it are not. -/
theorem run_refines_presets :
    let t : FileTree := ⟨[(["home"], .folder)], 0, ["home"]⟩
    let s : PresetFolder := ⟨⟨"/home/presets"⟩, 1⟩
    let rule : Rule := ⟨.and, "Title", .isNotEmpty, "", "x"⟩
    let preset : Preset := ⟨[rule, rule], [], []⟩
    let requests : List Request := [.list, .save " a.json " preset, .save ".b" .empty,
      .load "a.json", .delete "a", .save "x/y" preset, .list, .delete ".b ", .list]
    s.Unused t ∧ AllRead requests ∧
    (run s.answer t requests).2 = [.ok (.names []), .ok .done, .ok .done,
      .ok (.preset ⟨[rule], [], []⟩), .error (.presetMissing "a"),
      .error (.presetNameInvalid "x/y"), .ok (.names [".b", "a.json"]), .ok .done,
      .ok (.names ["a.json"])] := by
  intro t s rule preset requests
  have hunused : s.Unused t := by
    have hmade : t.makeFolder s.folder = .ok (t.put ["home", "presets"] .folder) := by
      decide +kernel
    refine unused_of_absent (fun l name hentry => ?_) hmade
    -- the only entry lies in the root
    have hname : [] ++ ["home"] = l ++ [name] := by
      by_contra hne
      simp [FileTree.entry?, t, Assoc.find?, show ["home"] ≠ l ++ [name] from hne] at hentry
    rw [← (List.append_inj' hname rfl).1]
    exact t.isFolder_root
  have hread : AllRead requests := by
    intro name p hmem
    have hp : p = preset ∨ p = .empty := by simp [requests] at hmem; tauto
    have hreadable : p.Readable := by
      rcases hp with rfl | rfl
      · exact ⟨by decide, by decide, by decide⟩
      · exact ⟨by decide, by decide, by decide⟩
    exact ⟨_, Preset.ofText?_indented hreadable⟩
  refine ⟨hunused, hread, ?_⟩
  have htrim : [" a.json ", ".b", "a.json", "a", "x/y", ".b "].map Text.trim =
      ["a.json", ".b", "a.json", "a", "x/y", ".b"] := by decide +kernel
  have hsave : ["a.json", ".b", "x/y"].map s.saveFault? =
      [none, none, some (.presetNameInvalid "x/y")] := by decide +kernel
  have hload : ["a.json", ".b", "a"].map nameFault? = [none, none, none] := by decide +kernel
  have horder : ¬(compare "a.json" ".b" != .gt) = true := by decide +kernel
  simp only [List.map_cons, List.map_nil, List.cons.injEq, and_true] at htrim hsave hload
  rw [(run_refines s t requests hunused hread).1]
  simp [requests, run, mapAnswer, htrim, hsave, hload, Assoc.put, Assoc.find?, Assoc.erase,
    listedNames, sortedNames, Assoc.keys, List.mergeSort, horder, Preset.truncate, s, preset]

/-- In a folder with the empty path a preset that has been saved is loaded, but it is not listed. A
name that no preset can have is not bound, and loading it is refused in another way. -/
theorem run_refines_unlisted :
    let s : PresetFolder := ⟨⟨""⟩, 1⟩
    s.Unused .empty ∧
    (run s.answer .empty [.save "a" .empty, .load "a", .list, .load "b", .load " "]).2 =
      [.ok .done, .ok (.preset .empty), .ok (.names []), .error (.presetFileMissing "b"),
        .error .presetNameEmpty] := by
  intro s
  have hread : AllRead [.save "a" .empty, .load "a", .list, .load "b", .load " "] := by
    intro name p hmem
    obtain rfl : p = .empty := by simp at hmem; tauto
    exact ⟨_, Preset.ofText?_indented ⟨by decide, by decide, by decide⟩⟩
  have hunused : s.Unused .empty := ⟨rfl, [], ⟨by decide, by decide, rfl, rfl⟩, rfl⟩
  have hsave : s.saveFault? "a" = none := by decide +kernel
  have htrim : ["a", "b", " "].map Text.trim = ["a", "b", ""] := by decide +kernel
  have hfault : ["a", "b", ""].map nameFault? = [none, none, some .presetNameEmpty] := by
    decide +kernel
  simp only [List.map_cons, List.map_nil, List.cons.injEq, and_true] at htrim hfault
  refine ⟨hunused, ?_⟩
  rw [(agree_run hunused.stores hread.readable).2]
  simp [run, mapAnswer, htrim, hsave, hfault, Assoc.put, Assoc.find?, listedNames,
    Preset.truncate, Preset.empty, s]

end PresetFolder

end SongLibrary
