import SongLibrary.Proofs.Files.Folder
import SongLibrary.Proofs.Settings
import SongLibrary.Proofs.View.SortLevels

/-!
# Settings that are saved and loaded

What has been saved is loaded from the same folder as it was, whatever the file there has held
before. A file that could be loaded can be saved again, so nothing that its text leaves out and
nothing that it says besides gets lost or changes by that.
-/

namespace SongLibrary

namespace FileTree

variable {t t' : FileTree} {folder : Path} {s : Settings} {text : String} {l : Location}

/-- A settings file is loaded from its text. -/
theorem loadSettings_of_text (htext : t.text folder.settingsFile = .ok text)
    (hread : Settings.ofText? text = some s) : t.loadSettings folder = .ok s := by
  obtain ⟨f, hfile, -⟩ := bind_cases htext
  obtain ⟨l, hl, -⟩ := file_cases hfile
  have hexists : t.exists? folder.settingsFile = true := by
    rw [exists?, hl]
    rfl
  rw [loadSettings, if_pos hexists, htext]
  dsimp only
  rw [hread]

/-- **Settings that have been saved are loaded.** -/
theorem loadSettings_of_saveSettings (h : t.saveSettings folder s = (t', .ok ())) :
    t'.loadSettings folder = .ok s := by
  rw [saveSettings] at h
  split at h
  · exact absurd (Prod.mk.inj h).2 (by simp)
  rename_i between hmade
  split at h
  · exact absurd (Prod.mk.inj h).2 (by simp)
  rename_i after hwrite
  obtain rfl := (Prod.mk.inj h).1
  obtain ⟨l, f, hput, hl, hbytes⟩ := writeText_cases hwrite
  exact loadSettings_of_text (text_of_bytes hl hput.here hbytes) s.ofText?_indented

/-- The folder of a settings file that is there needs not be made. -/
theorem makeFolders_of_settingsFile (hl : t.locate folder.settingsFile = .ok l) :
    t.makeFolders folder = (t, .ok ()) := by
  have hname : Plain "settings.json" := by decide
  obtain ⟨k, hk⟩ := locate_append_cases hname hl
  exact hk.makeFolders_eq

/-- **Settings can be saved where there is a settings file.** -/
theorem saveSettings_of_file {f : File} (hl : t.locate folder.settingsFile = .ok l)
    (hf : t.entry? l = some (.file f)) (s : Settings) :
    ∃ t', t.saveSettings folder s = (t', .ok ()) := by
  have hvacant : t.isFolder l = false := isFolder_of_file hf
  have hwrite : ∀ f, t.writeFile folder.settingsFile f = .ok (t.put l (.file f)) := by
    intro f
    rw [writeFile, hl]
    exact if_neg (by simp [hvacant])
  rw [saveSettings, makeFolders_of_settingsFile hl]
  dsimp only
  rw [writeText, writeContent, hwrite]
  exact ⟨_, rfl⟩

/--
**Settings survive saving and loading.**

Whatever settings are saved in a folder, they are loaded from there. Settings that were read from
the text of a settings file, however it is written and whatever it leaves out, can be saved there,
and are loaded as they were. In either case the list of sort levels that is made of them has a first
level and no more than are allowed, and it starts the saved list, unless that is empty.
-/
theorem settings_survive (s : Settings) :
    (∀ t folder t', saveSettings t folder s = (t', .ok ()) → t'.loadSettings folder = .ok s) ∧
    (∀ (t : FileTree) folder text, t.text folder.settingsFile = .ok text →
      Settings.ofText? text = some s → t.loadSettings folder = .ok s ∧
        ∃ t', t.saveSettings folder s = (t', .ok ()) ∧ t'.loadSettings folder = .ok s) ∧
    1 ≤ s.sorting.toLevels.size ∧
    s.sorting.toLevels.size ≤ max 1 s.sorting.maxLevels.toNat ∧
    (s.sorting.levels ≠ [] → s.sorting.toLevels.levels <+: s.sorting.levels) := by
  have hkept := SortLevels.kept_levels s.sorting.maxLevels.toNat (.saved s.sorting.levels)
  have hbounded : s.sorting.toLevels.size ≤ max 1 s.sorting.maxLevels.toNat := by
    rw [Nat.max_comm]
    exact hkept.bounded.trans_eq hkept.limit
  refine ⟨fun t folder t' => loadSettings_of_saveSettings, ?_, hkept.nonempty, hbounded,
    fun hsaved => SortLevels.prefix_ofSaved hsaved _⟩
  intro t folder text htext hread
  -- the text was read from a file, so saving finds one to replace
  obtain ⟨f, hfile, -⟩ := bind_cases htext
  obtain ⟨l, hl, hf⟩ := file_cases hfile
  obtain ⟨t', hsave⟩ := saveSettings_of_file hl hf s
  exact ⟨loadSettings_of_text htext hread, t', hsave, loadSettings_of_saveSettings hsave⟩

/-- A file below the root, with sections and members missing, one that is not known, a number of
levels that allows none, and levels one of which says no direction. -/
theorem settings_survive_partial :
    let text := "\x7b\"theme\":\x7b\x7d,\"sorting\":\x7b\"rules\":[" ++
      "\x7b\"field\":\"artist\"\x7d,\x7b\"order\":\"desc\",\"field\":\"disc_track\"\x7d]," ++
      "\"max_sort_rules\":0\x7d,\"version\":-2\x7d"
    let t : FileTree := ⟨[(["app"], .folder),
      (["app", "settings.json"], .file ⟨Text.bytes text, none, .given 1⟩)], 0, ["home"]⟩
    let s : Settings :=
      { version := -2, sorting := ⟨0, [⟨"artist", .ascending⟩, ⟨"disc_track", .descending⟩]⟩ }
    t.text (Path.settingsFile ⟨"/app"⟩) = .ok text ∧ Settings.ofText? text = some s ∧
    t.loadSettings ⟨"/app"⟩ = .ok s ∧
    (∃ t', t.saveSettings ⟨"/app"⟩ s = (t', .ok ()) ∧ t'.loadSettings ⟨"/app"⟩ = .ok s) ∧
    s.sorting.toLevels.size = 1 ∧
    s.sorting.toLevels.levels <+: [⟨"artist", .ascending⟩, ⟨"disc_track", .descending⟩] := by
  intro text t s
  have hl : t.locate (Path.settingsFile ⟨"/app"⟩) = .ok ["app", "settings.json"] := by
    decide +kernel
  have htext : t.text (Path.settingsFile ⟨"/app"⟩) = .ok text := text_of_bytes hl rfl rfl
  have hread : Settings.ofText? text = some s := by decide +kernel
  obtain ⟨-, hfile, hnonempty, hbounded, hprefix⟩ := settings_survive s
  obtain ⟨hload, hsave⟩ := hfile t ⟨"/app"⟩ text htext hread
  exact ⟨htext, hread, hload, hsave, Nat.le_antisymm hbounded hnonempty, hprefix (by simp [s])⟩

end FileTree

end SongLibrary
