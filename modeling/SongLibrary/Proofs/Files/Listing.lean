import SongLibrary.Proofs.Files.Walk
import SongLibrary.Proofs.PathOrder
import SongLibrary.Proofs.Text.LowerEnding
import SongLibrary.Text.Search

/-!
# What a scan lists

A scan of a folder lists what a walk from there comes by, as far as that is a file with the
extension of songs, in the order of paths and each file once. Without subfolders it lists the part
of that which lies in the folder itself.

The extension is compared in lower case, and none of its characters is the lower-case form of
anything but an ASCII letter. So the case of ASCII letters is all that does not matter.
-/

namespace SongLibrary

/-! ## The extension -/

namespace Text

variable {e : String}

/-- The spellings of the extension of song files. -/
def mp3Spellings : List String := ["mp3", "mP3", "Mp3", "MP3"]

/-- A text whose characters become those of the extension is one of its spellings. -/
theorem mem_mp3Spellings_of_map {f : Char → Char} (hm : ∀ c, f c = 'm' → c = 'm' ∨ c = 'M')
    (hp : ∀ c, f c = 'p' → c = 'p' ∨ c = 'P') (hthree : ∀ c, f c = '3' → c = '3')
    (h : e.toList.map f = "mp3".toList) : e ∈ mp3Spellings := by
  obtain ⟨a, rest, hchars, ha, hrest⟩ := List.map_eq_cons_iff.mp h
  obtain ⟨b, rest, rfl, hb, hrest⟩ := List.map_eq_cons_iff.mp hrest
  obtain ⟨c, rest, rfl, hc, hrest⟩ := List.map_eq_cons_iff.mp hrest
  obtain rfl := List.map_eq_nil_iff.mp hrest
  obtain rfl := hthree c hc
  rw [← String.ofList_toList (s := e), hchars]
  rcases hm a ha with rfl | rfl <;> rcases hp b hb with rfl | rfl <;> decide

theorem lowercase_eq_mp3_iff : lowercase e = "mp3" ↔ e ∈ mp3Spellings := by
  constructor
  · intro h
    have hlower : lowerBetween false e.toList [] = [] ++ "mp3".toList := by
      rw [lowerBetween_nil, List.nil_append, ← h, lowercase, String.toList_ofList]
      rfl
    have hforms : "mp3".toList.all isForm = true := by decide +kernel
    obtain ⟨front, last, hchars, hlast, -, hfront⟩ :=
      lowerBetween_eq_append (List.all_eq_true.mp hforms) hlower
    rw [lowerBetween_eq_nil_iff.mp hfront, List.nil_append] at hchars
    rw [← hchars] at hlast
    refine mem_mp3Spellings_of_map (fun c => ?_) (fun c => ?_) (fun c => ?_) hlast
    · exact lowerChar_cases (by decide) (by decide +kernel)
    · exact lowerChar_cases (by decide) (by decide +kernel)
    · exact eq_of_lowerChar (by decide) (by decide +kernel)
  · intro h
    have hall : ∀ e ∈ mp3Spellings, lowercase e = "mp3" := by decide +kernel
    exact hall e h

/-- An ASCII letter in lower case comes from itself or from its capital. -/
theorem toLower_cases {c d capital : Char} (hcapital : capital.val + 32 = d.val)
    (h : c.toLower = d) : c = d ∨ c = capital := by
  by_cases hupper : 'A'.val ≤ c.val ∧ c.val ≤ 'Z'.val
  · have hlower : c.toLower.val = c.val + 32 := congrArg Char.val (dif_pos hupper)
    rw [h, ← hcapital] at hlower
    exact Or.inr (Char.ext (UInt32.add_left_inj 32 |>.mp hlower.symm))
  · have hlower : c.toLower = c := dif_neg hupper
    exact Or.inl (hlower.symm.trans h)

theorem equalsIgnoringAsciiCase_mp3_iff :
    equalsIgnoringAsciiCase e "mp3" = true ↔ e ∈ mp3Spellings := by
  constructor
  · intro h
    have hmap : e.toList.map Char.toLower = "mp3".toList := beq_iff_eq.mp h
    refine mem_mp3Spellings_of_map (fun c => toLower_cases (by decide))
      (fun c => toLower_cases (by decide)) (fun c hc => ?_) hmap
    -- what would be the capital of the digit is none
    have hcapital : '\x13'.val + 32 = '3'.val := by decide
    rcases toLower_cases hcapital hc with rfl | rfl
    · rfl
    · exact absurd hc (by decide)
  · intro h
    have hall : ∀ e ∈ mp3Spellings, equalsIgnoringAsciiCase e "mp3" = true := by decide +kernel
    exact hall e h

end Text

theorem Path.isSong_iff {p : Path} : p.isSong = true ↔
    ∃ e, p.extension? = some e ∧ Text.equalsIgnoringAsciiCase e "mp3" = true := by
  simp only [isSong, Option.any_eq_true, beq_iff_eq, Text.lowercase_eq_mp3_iff,
    Text.equalsIgnoringAsciiCase_mp3_iff]

namespace FileTree

variable {t : FileTree} {root q : Path} {l m : Location} {names : List String}

/-! ## Names below a folder -/

/-- The paths of the song files below a folder, in no order. -/
def songsBelow (t : FileTree) (root : Path) (l : Location) : List Path :=
  ((t.filesBelow l).map root.descend).filter Path.isSong

/-- Names that are found below a folder add themselves to the components of its path. -/
theorem WellFormed.components_below (h : t.WellFormed) (hl : t.locate root = .ok l)
    (hfolder : t.isFolder l = true) (hnames : names ∈ t.filesBelow l) :
    (root.descend names).components = root.components ++ names.map .name := by
  obtain ⟨hplain, inner, name, rfl⟩ := h.plain_of_below hfolder hnames
  exact Path.components_descend (text_ne_empty hl) hplain

/-- Different names lead to paths with different components. -/
theorem WellFormed.nodup_components (h : t.WellFormed) (hl : t.locate root = .ok l)
    (hfolder : t.isFolder l = true) : ((t.songsBelow root l).map Path.components).Nodup := by
  have hnodup : (((t.filesBelow l).map root.descend).map Path.components).Nodup := by
    rw [List.map_map]
    refine List.pairwise_map.mpr ((nodup_filesBelow h l).imp_of_mem ?_)
    intro names names' hnames hnames' hne hsame
    have hinjective : Function.Injective Path.Component.name :=
      fun a b hab => Path.Component.name.inj hab
    rw [Function.comp_apply, Function.comp_apply, h.components_below hl hfolder hnames,
      h.components_below hl hfolder hnames', List.append_right_inj,
      (List.map_injective_iff.mpr hinjective).eq_iff] at hsame
    exact hne hsame
  exact hnodup.sublist (List.filter_sublist.map _)

/-- What lies in the folder itself has one component more than the folder. -/
theorem WellFormed.songs_in_folder (h : t.WellFormed) (hl : t.locate root = .ok l)
    (hfolder : t.isFolder l = true) :
    (((t.filesBelow l).filter fun names => names.length == 1).map root.descend).filter Path.isSong =
      (t.songsBelow root l).filter fun q => q.components.length == root.components.length + 1 := by
  have hdepth : ∀ names ∈ t.filesBelow l, (names.length == 1) =
      ((root.descend names).components.length == root.components.length + 1) := by
    intro names hnames
    rw [h.components_below hl hfolder hnames, List.length_append, List.length_map,
      Bool.eq_iff_iff, beq_iff_eq, beq_iff_eq]
    omega
  have hfilter := List.filter_map (f := root.descend) (l := t.filesBelow l)
    (p := fun q => q.components.length == root.components.length + 1)
  rw [songsBelow, List.filter_congr hdepth]
  refine (congrArg (List.filter Path.isSong) hfilter.symm).trans ?_
  rw [List.filter_filter, List.filter_filter]
  exact List.filter_congr fun q _ => Bool.and_comm _ _

/-! ## Scans -/

/-- Paths are listed in order, one before the other. -/
def InOrder (paths : List Path) : Prop := paths.Pairwise fun p q => p.order q = .lt

instance (paths : List Path) : Decidable (InOrder paths) :=
  inferInstanceAs (Decidable (paths.Pairwise _))

/-- Sorted paths with different components come one before the other. -/
theorem inOrder_of_sorted {xs paths : List Path} (hsort : StableSort Path.order xs paths)
    (hdistinct : (xs.map Path.components).Nodup) : InOrder paths := by
  have hnodup : (paths.map Path.components).Nodup :=
    (hsort.perm.map Path.components).nodup_iff.mpr hdistinct
  refine hsort.ordered.imp₂ (fun p q hle hne => ?_) (List.pairwise_map.mp hnodup)
  cases horder : p.order q with
  | lt => rfl
  | eq => exact absurd (Path.order_eq_eq_iff.mp horder) hne
  | gt =>
      rw [horder] at hle
      exact Bool.noConfusion hle

/-- **A scan sorts the song files below a folder**, and without subfolders it leaves out what does
not lie in the folder itself. -/
theorem WellFormed.songFiles_sorted (h : t.WellFormed) (hl : t.locate root = .ok l)
    (hfolder : t.isFolder l = true) :
    ∃ all, t.songFiles root true = .ok all ∧ StableSort Path.order (t.songsBelow root l) all ∧
      t.songFiles root false =
        .ok (all.filter fun q => q.components.length == root.components.length + 1) := by
  have hscan : ∀ subfolders, t.songFiles root subfolders =
      .ok (((((t.filesBelow l).filter fun names => subfolders || names.length == 1).map
        root.descend).filter Path.isSong).mergeSort fun p q => p.order q != .gt) := by
    intro subfolders
    rw [songFiles, hl]
    exact if_pos hfolder
  have hall := stableSort_mergeSort Path.order (t.songsBelow root l)
  refine ⟨_, ?_, hall, ?_⟩
  · rw [hscan]
    simp only [Bool.true_or, List.filter_true]
    rfl
  · -- sorting what is left out of all is leaving it out of what is sorted
    have hflat := stableSort_mergeSort Path.order ((t.songsBelow root l).filter fun q =>
      q.components.length == root.components.length + 1)
    rw [hscan, ← hflat.unique (hall.filter _), ← h.songs_in_folder hl hfolder]
    simp only [Bool.false_or]

theorem mem_songsBelow (h : t.WellFormed) :
    q ∈ t.songsBelow root l ↔
      (∃ names f, q = root.descend names ∧ t.entry? (l ++ names) = some (.file f)) ∧
        q.isSong = true := by
  rw [songsBelow, List.mem_filter, List.mem_map]
  refine and_congr_left fun _ => ⟨?_, ?_⟩
  · rintro ⟨names, hnames, rfl⟩
    obtain ⟨f, hf⟩ := (mem_filesBelow_iff h).mp hnames
    exact ⟨names, f, rfl, hf⟩
  · rintro ⟨names, f, rfl, hf⟩
    exact ⟨names, mem_filesBelow_of_file hf, rfl⟩

/-- **What is listed below a folder is what a walk comes by there**, as far as that is a file with
the extension of songs. -/
theorem mem_songsBelow_iff_walk (h : t.WellFormed) (hrooted : t.Rooted) :
    q ∈ t.songsBelow root l ↔
      ∃ m f, t.Walk root l q m ∧ t.entry? m = some (.file f) ∧ q.isSong = true := by
  rw [mem_songsBelow h]
  constructor
  · rintro ⟨⟨names, f, rfl, hf⟩, hsong⟩
    exact ⟨l ++ names, f, hrooted.walk root (Option.isSome_of_eq_some hf), hf, hsong⟩
  · rintro ⟨m, f, hwalk, hf, hsong⟩
    obtain ⟨names, rfl, rfl, -⟩ := hwalk.descends
    exact ⟨⟨names, f, rfl, hf⟩, hsong⟩

/-- The path of a folder that a walk comes by is not listed, whatever the folder is called. -/
theorem folder_not_listed (h : t.WellFormed) (hwalk : t.Walk root l q m)
    (hfolder : t.isFolder m = true) : q ∉ t.songsBelow root l := by
  intro hq
  obtain ⟨⟨names, f, hpath, hf⟩, -⟩ := (mem_songsBelow h).mp hq
  obtain ⟨names', rfl, rfl, hplain'⟩ := h.plain_of_walk hwalk
  have hplain : ∀ name ∈ names, Plain name := fun name hname =>
    h.plain_of_isSome (Option.isSome_of_eq_some hf) name (List.mem_append_right l hname)
  -- the names can be read off the path, so the folder would be the file
  rw [Path.descend_inj hplain' hplain hpath, isFolder_of_file hf] at hfolder
  exact Bool.noConfusion hfolder

/-- A path that is listed lies in the folder itself if it has one component more. -/
theorem lies_in_folder_iff (h : t.WellFormed) (hl : t.locate root = .ok l)
    (hfolder : t.isFolder l = true) (hq : q ∈ t.songsBelow root l) :
    q.components.length = root.components.length + 1 ↔
      ∃ name ∈ t.namesIn l, q = root ++ (⟨name⟩ : Path) := by
  obtain ⟨⟨names, f, rfl, hf⟩, -⟩ := (mem_songsBelow h).mp hq
  rw [h.components_below hl hfolder (mem_filesBelow_of_file hf), List.length_append,
    List.length_map, Nat.add_left_cancel_iff]
  constructor
  · intro hlength
    obtain ⟨name, rfl⟩ := List.length_eq_one_iff.mp hlength
    exact ⟨name, mem_namesIn.mpr (Option.isSome_of_eq_some hf), rfl⟩
  · rintro ⟨name, hname, hpath⟩
    have hplain : ∀ n ∈ [name], Plain n := fun n hn =>
      h.plain_of_isSome (mem_namesIn.mp hname) n (List.mem_append_right l hn)
    have hnames : names = [name] := Path.descend_inj
      (h.plain_of_below hfolder (mem_filesBelow_of_file hf)).1 hplain hpath
    rw [hnames, List.length_singleton]

/-- **A scan lists the song files below a folder, in order.** With subfolders it lists what a walk
from the folder comes by, at any depth, as far as that is a file with the extension `mp3` in any
letter case; without, the part of it that lies in the folder itself. What is no folder is not
scanned. -/
theorem songFiles_lists (ht : t.WellFormed) (hrooted : t.Rooted) (root : Path) :
    (t.isFolderAt root = false → ∀ subfolders,
      t.songFiles root subfolders = .error (.notAFolder root)) ∧
    ∀ l, t.locate root = .ok l → t.isFolder l = true →
      ∃ all flat, t.songFiles root true = .ok all ∧ t.songFiles root false = .ok flat ∧
        InOrder all ∧
        (∀ q, q ∈ all ↔ ∃ m f e, t.Walk root l q m ∧ t.entry? m = some (.file f) ∧
          q.extension? = some e ∧ Text.equalsIgnoringAsciiCase e "mp3" = true) ∧
        (∀ q m, t.Walk root l q m → t.isFolder m = true → q ∉ all) ∧
        flat.Sublist all ∧
        ∀ q, q ∈ flat ↔ q ∈ all ∧ ∃ name ∈ t.namesIn l, q = root ++ (⟨name⟩ : Path) := by
  constructor
  · intro hno subfolders
    rw [isFolderAt] at hno
    rw [songFiles]
    cases hl : t.locate root with
    | error cause => rfl
    | ok l =>
        rw [hl] at hno
        exact if_neg (by simp [hno])
  · intro l hl hfolder
    obtain ⟨all, hall, hsort, hflat⟩ := ht.songFiles_sorted hl hfolder
    refine ⟨all, _, hall, hflat, inOrder_of_sorted hsort (ht.nodup_components hl hfolder), ?_, ?_,
      List.filter_sublist, ?_⟩
    · intro q
      rw [hsort.perm.mem_iff, mem_songsBelow_iff_walk ht hrooted]
      simp only [Path.isSong_iff, exists_and_left]
    · intro q m hwalk hm
      rw [hsort.perm.mem_iff]
      exact folder_not_listed ht hwalk hm
    · intro q
      rw [List.mem_filter]
      refine and_congr_right fun hq => ?_
      rw [beq_iff_eq, lies_in_folder_iff ht hl hfolder (hsort.perm.mem_iff.mp hq)]

/-- A folder `a` next to a song `a.mp3`, a song without an extension, as its only dot starts its
name, and a folder that is called like a song. The order of the songs is not that of their texts. -/
theorem songFiles_lists_mixed :
    let file : Entry := .file ⟨[], none, .given 1⟩
    let t : FileTree := ⟨[(["m"], .folder), (["m", "a.mp3"], file), (["m", "a"], .folder),
      (["m", ".mp3"], file), (["m", "b.mp3"], .folder), (["m", "b.mp3", "c.txt"], file),
      (["m", "a", "x.MP3"], file)], 0, ["m"]⟩
    t.WellFormed ∧ t.Rooted ∧ t.locate ⟨"/m"⟩ = .ok ["m"] ∧ t.isFolder ["m"] = true ∧
    t.isFolderAt ⟨"/m/a.mp3"⟩ = false ∧
    t.songFiles ⟨"/m/a.mp3"⟩ true = .error (.notAFolder ⟨"/m/a.mp3"⟩) ∧
    ∃ all flat, t.songFiles ⟨"/m"⟩ true = .ok all ∧ t.songFiles ⟨"/m"⟩ false = .ok flat ∧
      InOrder all ∧ ⟨"/m/a/x.MP3"⟩ ∈ all ∧ ⟨"/m/a.mp3"⟩ ∈ all ∧ ⟨"/m/.mp3"⟩ ∉ all ∧
      ⟨"/m/b.mp3"⟩ ∉ all ∧ ⟨"/m/a.mp3"⟩ ∈ flat ∧ ⟨"/m/a/x.MP3"⟩ ∉ flat ∧
      InOrder [⟨"/m/a/x.MP3"⟩, ⟨"/m/a.mp3"⟩] ∧ "/m/a.mp3" < "/m/a/x.MP3" := by
  intro file t
  have ht : t.WellFormed := by decide +kernel
  have hrooted : t.Rooted := by decide +kernel
  have hl : t.locate ⟨"/m"⟩ = .ok ["m"] := by decide +kernel
  have hfolder : t.isFolder ["m"] = true := by decide +kernel
  have hno : t.isFolderAt ⟨"/m/a.mp3"⟩ = false := by decide +kernel
  obtain ⟨all, flat, hall, hflat, horder, hmem, hfolders, -, hmemFlat⟩ :=
    (songFiles_lists ht hrooted ⟨"/m"⟩).2 ["m"] hl hfolder
  have hwalk : ∀ names q, Path.descend ⟨"/m"⟩ names = q →
      (t.entry? (["m"] ++ names)).isSome = true → t.Walk ⟨"/m"⟩ ["m"] q (["m"] ++ names) := by
    rintro names q rfl hsome
    exact hrooted.walk ⟨"/m"⟩ hsome
  have hdeep : ⟨"/m/a/x.MP3"⟩ ∈ all := (hmem _).mpr ⟨_, ⟨[], none, .given 1⟩, "MP3",
    hwalk ["a", "x.MP3"] _ (by decide +kernel) (by decide +kernel), by decide +kernel,
    by decide +kernel, by decide +kernel⟩
  have hnear : ⟨"/m/a.mp3"⟩ ∈ all := (hmem _).mpr ⟨_, ⟨[], none, .given 1⟩, "mp3",
    hwalk ["a.mp3"] _ (by decide +kernel) (by decide +kernel), by decide +kernel,
    by decide +kernel, by decide +kernel⟩
  refine ⟨ht, hrooted, hl, hfolder, hno, (songFiles_lists ht hrooted ⟨"/m/a.mp3"⟩).1 hno true,
    all, flat, hall, hflat, horder, hdeep, hnear, ?_, ?_, ?_, ?_, by decide +kernel,
    by decide +kernel⟩
  · intro hhidden
    obtain ⟨-, -, e, -, -, he, -⟩ := (hmem _).mp hhidden
    have hnone : Path.extension? ⟨"/m/.mp3"⟩ = none := by decide +kernel
    rw [hnone] at he
    exact absurd he (by simp)
  · have hsong : t.Walk ⟨"/m"⟩ ["m"] ⟨"/m/b.mp3"⟩ ["m", "b.mp3"] :=
      hwalk ["b.mp3"] _ (by decide +kernel) (by decide +kernel)
    exact hfolders _ _ hsong (by decide +kernel)
  · exact (hmemFlat _).mpr ⟨hnear, "a.mp3", by decide +kernel, by decide +kernel⟩
  · intro hflat
    obtain ⟨-, name, hname, hpath⟩ := (hmemFlat _).mp hflat
    have hnames : t.namesIn ["m"] = ["a.mp3", "a", ".mp3", "b.mp3"] := by decide +kernel
    rw [hnames] at hname
    have hall : ∀ name ∈ ["a.mp3", "a", ".mp3", "b.mp3"],
        (⟨"/m/a/x.MP3"⟩ : Path) ≠ ⟨"/m"⟩ ++ (⟨name⟩ : Path) := by decide +kernel
    exact hall name hname hpath

end FileTree

end SongLibrary
