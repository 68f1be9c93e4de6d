import SongLibrary.Files.SameAudio
import SongLibrary.Proofs.Assoc
import SongLibrary.Proofs.Files.Audio

/-!
# The classes of files with the same audio

Gathering positions under digests gives, under each digest, the positions of the files with that
digest, in their order. So a group is the class of a digest, cut off if it has one member only, and
no position is in two. Where no digests collide, the digest can be put back to the audio it is of,
and the report says which files sound the same.

The report depends on the audio of the files alone. An update of a tag that leaves the audio alone
leaves the report alone.
-/

namespace SongLibrary

namespace FileTree

/-- Updates of tags leave the audio at a path alone if each update of its file does. -/
theorem audio_written {t t' : FileTree} {ws : List TagWrite} (h : t.Written ws t') {p : Path}
    (hgentle : ∀ l f, t.locate p = .ok l → t.entry? l = some (.file f) →
      f.RetagsGently (t.updatesAt ws l)) : t'.audio p = t.audio p := by
  rcases h.file_cases p with hsame | ⟨l, f, g, now, hl, hentry, -, hfold, hf, hg⟩
  · rw [audio, audio, hsame]
  · have haudio : g.audio = f.audio := File.audio_of_retags hfold (hgentle l f hl hentry)
    have hnow : { g with modified := now }.audio = g.audio := rfl
    rw [audio, audio, hf, hg]
    dsimp only
    rw [hnow, haudio]

end FileTree

namespace SameAudio

variable {δ : Type} [DecidableEq δ] {digest : List UInt8 → δ} {t : FileTree} {paths : List Path}
  {d : δ} {i : Nat}

/-! ## Gathering -/

/-- The positions among some entries whose files have a digest. -/
def positionsOf (digest : List UInt8 → δ) (t : FileTree) (entries : List (Path × Nat)) (d : δ) :
    List Nat :=
  (entries.filter (fun e => digestAt digest t e.1 = .ok d)).map Prod.snd

theorem positionsOf_concat (entries : List (Path × Nat)) (e : Path × Nat) (d : δ) :
    positionsOf digest t (entries ++ [e]) d = positionsOf digest t entries d ++
      if digestAt digest t e.1 = .ok d then [e.2] else [] := by
  rw [positionsOf, List.filter_append, List.map_append]
  by_cases h : digestAt digest t e.1 = .ok d <;> simp [positionsOf, h]

/-- What has been gathered from some entries. -/
structure Gathered (digest : List UInt8 → δ) (t : FileTree) (entries : List (Path × Nat))
    (found : Assoc δ (List Nat)) : Prop where
  nodup : (Assoc.keys found).Nodup
  positions : ∀ d, (Assoc.find? found d).getD [] = positionsOf digest t entries d
  /-- There is nothing under a digest that no file has. -/
  inhabited : ∀ e ∈ found, e.2 ≠ []

theorem gathered_nil : Gathered digest t [] [] where
  nodup := List.nodup_nil
  positions _ := rfl
  inhabited _ h := absurd h (by simp)

/-- **One more path.** -/
theorem Gathered.concat {entries : List (Path × Nat)} {found : Assoc δ (List Nat)}
    (h : Gathered digest t entries found) (e : Path × Nat) :
    Gathered digest t (entries ++ [e]) (gather digest t found e) := by
  rw [gather]
  cases hdigest : digestAt digest t e.1 with
  | error cause =>
      refine ⟨h.nodup, fun d => ?_, h.inhabited⟩
      rw [positionsOf_concat, if_neg (by simp [hdigest]), List.append_nil]
      exact h.positions d
  | ok d₀ =>
      refine ⟨Assoc.nodup_keys_put h.nodup _ _, fun d => ?_, fun e' he' => ?_⟩
      · rw [positionsOf_concat, Assoc.find?_put, hdigest]
        by_cases hd : d₀ = d
        · subst hd
          simp [h.positions]
        · rw [if_neg hd, if_neg (by simpa using hd), List.append_nil]
          exact h.positions d
      · rcases Assoc.mem_put he' with he' | rfl
        · exact h.inhabited e' he'
        · simp

theorem gathered_positions (digest : List UInt8 → δ) (t : FileTree) (paths : List Path) :
    Gathered digest t paths.zipIdx (positions digest t paths) := by
  rw [positions]
  induction paths.zipIdx using List.reverseRecOn with
  | nil => exact gathered_nil
  | append_singleton entries e ih =>
      rw [List.foldl_append]
      exact ih.concat e

/-! ## The class of a digest -/

/-- The positions of the files with a digest. -/
def classOf (digest : List UInt8 → δ) (t : FileTree) (paths : List Path) (d : δ) : List Nat :=
  positionsOf digest t paths.zipIdx d

theorem mem_classOf :
    i ∈ classOf digest t paths d ↔ ∃ p, paths[i]? = some p ∧ digestAt digest t p = .ok d := by
  simp [classOf, positionsOf, List.mem_zipIdx_iff_getElem?]

theorem pairwise_classOf (digest : List UInt8 → δ) (t : FileTree) (paths : List Path) (d : δ) :
    (classOf digest t paths d).Pairwise (· < ·) := by
  have hsub := (List.filter_sublist (p := fun e => digestAt digest t e.1 = .ok d)
    (l := paths.zipIdx)).map Prod.snd
  rw [List.zipIdx_map_snd] at hsub
  exact List.Pairwise.sublist hsub List.pairwise_lt_range'

/-- No position has two digests. -/
theorem eq_of_mem_classOf {d' : δ} (h : i ∈ classOf digest t paths d)
    (h' : i ∈ classOf digest t paths d') : d = d' := by
  obtain ⟨p, hp, hd⟩ := mem_classOf.mp h
  obtain ⟨p', hp', hd'⟩ := mem_classOf.mp h'
  rw [Option.some.inj (hp.symm.trans hp'), hd', Except.ok.injEq] at hd
  exact hd.symm

theorem mem_positions {e : δ × List Nat} (h : e ∈ positions digest t paths) :
    e.2 = classOf digest t paths e.1 := by
  have hgathered := gathered_positions digest t paths
  rw [classOf, ← hgathered.positions, Assoc.find?_of_mem hgathered.nodup h]
  rfl

/-- **The groups are the classes with at least two members.** -/
theorem mem_classes {g : List Nat} :
    g ∈ classes digest t paths ↔ ∃ d, g = classOf digest t paths d ∧ 1 < g.length := by
  rw [classes, List.mem_mergeSort, List.mem_filter, List.mem_map, decide_eq_true_eq]
  constructor
  · rintro ⟨⟨e, he, rfl⟩, hlong⟩
    exact ⟨e.1, mem_positions he, hlong⟩
  · rintro ⟨d, rfl, hlong⟩
    refine ⟨?_, hlong⟩
    have hgathered := (gathered_positions digest t paths).positions d
    cases hfind : Assoc.find? (positions digest t paths) d with
    | none =>
        rw [hfind] at hgathered
        rw [classOf, ← hgathered] at hlong
        exact absurd hlong (by simp)
    | some group =>
        rw [hfind] at hgathered
        exact ⟨(d, group), Assoc.mem_of_find? hfind, hgathered⟩

theorem disjoint_positions :
    ((positions digest t paths).map Prod.snd).Pairwise List.Disjoint := by
  have hkeys := (gathered_positions digest t paths).nodup
  rw [Assoc.keys, List.Nodup, List.pairwise_map] at hkeys
  rw [List.pairwise_map]
  refine hkeys.imp_of_mem fun {e e'} he he' hne i hi hi' => hne ?_
  rw [mem_positions he] at hi
  rw [mem_positions he'] at hi'
  exact eq_of_mem_classOf hi hi'

theorem disjoint_classes (digest : List UInt8 → δ) (t : FileTree) (paths : List Path) :
    (classes digest t paths).Pairwise List.Disjoint :=
  ((List.mergeSort_perm _ _).pairwise_iff fun h => List.disjoint_comm.mp h).mpr
    (disjoint_positions.filter _)

/-- The groups stand in the order of their first positions, which differ. -/
theorem ordered_classes (digest : List UInt8 → δ) (t : FileTree) (paths : List Path) :
    (classes digest t paths).Pairwise (fun g h => g.headD 0 < h.headD 0) := by
  have hle : (classes digest t paths).Pairwise
      (fun g h => decide (g.headD 0 ≤ h.headD 0) = true) :=
    List.pairwise_mergeSort (fun g h k hgh hhk => by simp only [decide_eq_true_eq] at *; omega)
      (fun g h => by simp only [Bool.or_eq_true, decide_eq_true_eq]; omega) _
  refine (hle.and (disjoint_classes digest t paths)).imp_of_mem fun {g h} hg hh hboth => ?_
  obtain ⟨hfirst, hapart⟩ := hboth
  obtain ⟨-, -, hlong⟩ := mem_classes.mp hg
  obtain ⟨-, -, hlong'⟩ := mem_classes.mp hh
  obtain ⟨a, g, rfl⟩ := List.exists_cons_of_length_pos (Nat.zero_lt_of_lt hlong)
  obtain ⟨b, h, rfl⟩ := List.exists_cons_of_length_pos (Nat.zero_lt_of_lt hlong')
  refine Nat.lt_of_le_of_ne (of_decide_eq_true hfirst) fun heq => ?_
  rw [List.headD_cons, List.headD_cons] at heq
  exact hapart List.mem_cons_self (heq ▸ List.mem_cons_self)

/-! ## Audio -/

/-- Whether the file at a position has some audio. -/
def HasAudio (t : FileTree) (paths : List Path) (i : Nat) (audio : List UInt8) : Prop :=
  ∃ p, paths[i]? = some p ∧ t.audio p = .ok audio

/-- The audio of the files at hand. -/
def heard (t : FileTree) (paths : List Path) : List (List UInt8) :=
  paths.filterMap (fun p => (t.audio p).toOption)

/-- Audio that differs has digests that differ, among the files at hand. -/
def NoCollisions (digest : List UInt8 → δ) (t : FileTree) (paths : List Path) : Prop :=
  ∀ a ∈ heard t paths, ∀ b ∈ heard t paths, digest a = digest b → a = b

/-- Groups of positions that are the classes of files with the same audio. -/
structure GroupsByAudio (t : FileTree) (paths : List Path) (groups : List (List Nat)) : Prop where
  /-- In a group is what shares its audio with another position. -/
  mem_iff : ∀ i, (∃ g ∈ groups, i ∈ g) ↔
    ∃ j a, j ≠ i ∧ HasAudio t paths i a ∧ HasAudio t paths j a
  /-- With a position, its group has all that share the audio, and nothing else. -/
  together : ∀ g ∈ groups, ∀ i ∈ g, ∀ j,
    j ∈ g ↔ ∃ a, HasAudio t paths i a ∧ HasAudio t paths j a
  /-- No position is in two groups. -/
  apart : groups.Pairwise List.Disjoint
  /-- Each group is in order. -/
  inOrder : ∀ g ∈ groups, g.Pairwise (· < ·)
  /-- The groups are in the order of their first positions. -/
  byFirst : groups.Pairwise (fun g h => g.headD 0 < h.headD 0)

theorem HasAudio.unique {a b : List UInt8} (h : HasAudio t paths i a)
    (h' : HasAudio t paths i b) : a = b := by
  obtain ⟨p, hp, ha⟩ := h
  obtain ⟨p', hp', hb⟩ := h'
  rw [Option.some.inj (hp.symm.trans hp'), hb, Except.ok.injEq] at ha
  exact ha.symm

theorem HasAudio.heard {a : List UInt8} (h : HasAudio t paths i a) : a ∈ heard t paths := by
  obtain ⟨p, hp, ha⟩ := h
  exact List.mem_filterMap.mpr ⟨p, List.mem_of_getElem? hp, by rw [ha]; rfl⟩

theorem mem_classOf_iff_audio :
    i ∈ classOf digest t paths d ↔ ∃ a, HasAudio t paths i a ∧ digest a = d := by
  rw [mem_classOf]
  constructor
  · rintro ⟨p, hp, hd⟩
    rw [digestAt] at hd
    cases haudio : t.audio p with
    | error e => rw [haudio] at hd; exact absurd hd (by simp [Except.map])
    | ok a =>
        rw [haudio] at hd
        exact ⟨a, ⟨p, hp, haudio⟩, Except.ok.inj hd⟩
  · rintro ⟨a, ⟨p, hp, haudio⟩, rfl⟩
    exact ⟨p, hp, by rw [digestAt, haudio]; rfl⟩

/-- Where digests do not collide, two positions are in a class if they share their audio. -/
theorem mem_class_iff (hdigest : NoCollisions digest t paths) {j : Nat}
    (hi : i ∈ classOf digest t paths d) :
    j ∈ classOf digest t paths d ↔ ∃ a, HasAudio t paths i a ∧ HasAudio t paths j a := by
  obtain ⟨a, ha, hd⟩ := mem_classOf_iff_audio.mp hi
  rw [mem_classOf_iff_audio]
  constructor
  · rintro ⟨b, hb, hd'⟩
    obtain rfl := hdigest b hb.heard a ha.heard (hd'.trans hd.symm)
    exact ⟨b, ha, hb⟩
  · rintro ⟨b, hb, hj⟩
    obtain rfl := ha.unique hb
    exact ⟨a, hj, hd⟩

/-- A list in order has two members just if it has one next to each of them. -/
theorem one_lt_length_iff {g : List Nat} (hg : g.Pairwise (· < ·)) (hi : i ∈ g) :
    1 < g.length ↔ ∃ j ∈ g, j ≠ i := by
  match g with
  | [] => exact absurd hi (by simp)
  | [a] => simp [List.mem_singleton.mp hi]
  | a :: b :: rest =>
      have hlt : a < b := List.rel_of_pairwise_cons hg (by simp)
      refine ⟨fun _ => ?_, fun _ => by simp⟩
      by_cases ha : a = i
      · exact ⟨b, by simp, by omega⟩
      · exact ⟨a, by simp, ha⟩

/-- **Where digests do not collide, the groups are the classes of equal audio.** -/
theorem groupsByAudio_classes (hdigest : NoCollisions digest t paths) :
    GroupsByAudio t paths (classes digest t paths) where
  mem_iff i := by
    constructor
    · rintro ⟨g, hg, hi⟩
      obtain ⟨d, rfl, hlong⟩ := mem_classes.mp hg
      obtain ⟨j, hj, hne⟩ := (one_lt_length_iff (pairwise_classOf digest t paths d) hi).mp hlong
      obtain ⟨a, ha, hb⟩ := (mem_class_iff hdigest hi).mp hj
      exact ⟨j, a, hne, ha, hb⟩
    · rintro ⟨j, a, hne, ha, hb⟩
      have hi : i ∈ classOf digest t paths (digest a) := mem_classOf_iff_audio.mpr ⟨a, ha, rfl⟩
      have hj : j ∈ classOf digest t paths (digest a) := mem_classOf_iff_audio.mpr ⟨a, hb, rfl⟩
      have hlong := (one_lt_length_iff (pairwise_classOf digest t paths _) hi).mpr ⟨j, hj, hne⟩
      exact ⟨_, mem_classes.mpr ⟨_, rfl, hlong⟩, hi⟩
  together g hg i hi j := by
    obtain ⟨d, rfl, -⟩ := mem_classes.mp hg
    exact mem_class_iff hdigest hi
  apart := disjoint_classes digest t paths
  inOrder g hg := by
    obtain ⟨d, rfl, -⟩ := mem_classes.mp hg
    exact pairwise_classOf digest t paths d
  byFirst := ordered_classes digest t paths

/-! ## Reports -/

/-- A group lists the paths at its positions. -/
theorem groups_of (digest : List UInt8 → δ) (t : FileTree) (paths : List Path) :
    (of digest t paths).groups.map (·.map some) =
      (classes digest t paths).map (·.map (paths[·]?)) := by
  rw [of, List.map_map]
  refine List.map_congr_left fun g hg => ?_
  obtain ⟨d, rfl, -⟩ := mem_classes.mp hg
  rw [Function.comp, List.map_filterMap_some_eq_filter_map_isSome, List.filter_eq_self]
  intro p? hp?
  obtain ⟨i, hi, rfl⟩ := List.mem_map.mp hp?
  obtain ⟨p, hp, -⟩ := mem_classOf.mp hi
  rw [hp, Option.isSome_some]

/-- The files whose audio cannot be read, with the reasons. -/
def unheard (t : FileTree) (paths : List Path) : List PathError :=
  paths.filterMap fun p =>
    match t.audio p with
    | .ok _ => none
    | .error cause => some ⟨p, cause⟩

theorem errors_of (digest : List UInt8 → δ) (t : FileTree) (paths : List Path) :
    (of digest t paths).errors = unheard t paths := by
  refine List.filterMap_congr fun p _ => ?_
  rw [digestAt]
  cases t.audio p <;> rfl

/-- A report depends on audio only. -/
theorem of_congr {t' : FileTree} (h : ∀ p ∈ paths, t'.audio p = t.audio p) :
    of digest t' paths = of digest t paths := by
  have hdigest : ∀ p ∈ paths, digestAt digest t' p = digestAt digest t p := fun p hp => by
    rw [digestAt, digestAt, h p hp]
  have hpositions : positions digest t' paths = positions digest t paths :=
    List.foldl_ext _ _ _ fun found e he => by
      rw [gather, gather, hdigest e.1 (List.fst_mem_of_mem_zipIdx he)]
  rw [of, of, classes, classes, hpositions]
  congr 1
  exact List.filterMap_congr fun p hp => by rw [hdigest p hp]

/--
**A report lists the classes of files with the same audio, and tags have no part in it.**

The groups are the classes, unless digests collide, and every path whose file cannot be read has
its error. Updates of tags leave the report as it was if each of them leaves the audio of its file
alone. An update does so just if a file with a tag has at least twelve bytes and one without a tag
does not start with a zero. A file with two bytes of audio that do not start with a zero is safe
from any number of updates.
-/
theorem of_classes (digest : List UInt8 → δ) (t : FileTree) (paths : List Path)
    (hdigest : NoCollisions digest t paths) :
    let report := of digest t paths
    (GroupsByAudio t paths (classes digest t paths) ∧
      report.groups.map (·.map some) = (classes digest t paths).map (·.map (paths[·]?))) ∧
    report.errors = unheard t paths ∧
    (∀ ws t', t.writeTags ws = .ok t' →
      (∀ p ∈ paths, ∀ l f, t.locate p = .ok l → t.entry? l = some (.file f) →
        f.RetagsGently (t.updatesAt ws l)) →
      of digest t' paths = report) ∧
    (∀ (f g : File) u, f.retag u = .ok g → (g.audio = f.audio ↔ f.keepsAudio = true)) ∧
    (∀ f : File, f.Sturdy → ∀ us, f.RetagsGently us) := by
  refine ⟨⟨groupsByAudio_classes hdigest, groups_of digest t paths⟩, errors_of digest t paths,
    fun ws t' hwrite hgentle => ?_, fun f g u => File.audio_retag_iff,
    fun f hf us => hf.retagsGently us⟩
  exact of_congr fun p hp =>
    FileTree.audio_written (FileTree.written_of_writeTags hwrite) (hgentle p hp)

/-- Three files, two of which sound the same before and after their tags are written. A digest by
length will do for them. -/
theorem of_classes_retitled :
    let t := FileTree.ofContents [("a.mp3", Text.bytes "same audio"),
      ("b.mp3", Text.bytes "same audio"), ("c.mp3", Text.bytes "other")]
    let paths : List Path := [⟨"c.mp3"⟩, ⟨"/b.mp3"⟩, ⟨"gone.mp3"⟩, ⟨"./a.mp3"⟩, ⟨"b.mp3"⟩]
    let ws := [.ofTitle ⟨"a.mp3"⟩ "One", .ofTitle ⟨"./a.mp3"⟩ "Two", .ofTitle ⟨"c.mp3"⟩ "Three"]
    NoCollisions List.length t paths ∧
    (of List.length t paths).groups = [[⟨"/b.mp3"⟩, ⟨"./a.mp3"⟩, ⟨"b.mp3"⟩]] ∧
    ∃ t', t.writeTags ws = .ok t' ∧ of List.length t' paths = of List.length t paths := by
  intro t paths ws
  have hdigest : NoCollisions List.length t paths := by
    unfold NoCollisions
    decide +kernel
  obtain ⟨-, -, hkept, -, hsafe⟩ := of_classes List.length t paths hdigest
  refine ⟨hdigest, by decide +kernel, ?_⟩
  cases hwrite : t.writeTags ws with
  | error cause =>
      have hok : (t.writeTags ws).isOk = true := by decide +kernel
      rw [hwrite] at hok
      exact absurd hok (by simp [Except.isOk, Except.toBool])
  | ok t' =>
      refine ⟨t', rfl, hkept ws t' hwrite fun p _ l f _ hf => hsafe f ?_ _⟩
      obtain ⟨c, hc, rfl⟩ := FileTree.file_of_ofContents hf
      clear hf
      revert c
      decide +kernel

/-- Two files with one byte of audio, the same: once the tag of one of them has been written twice,
the report does not list them. Nor does it list two files that start with a zero, once the tag of
one of them has been written. -/
theorem of_classes_lost :
    let paths : List Path := [⟨"a.mp3"⟩, ⟨"b.mp3"⟩]
    let small := FileTree.ofContents [("a.mp3", Text.bytes "x"), ("b.mp3", Text.bytes "x")]
    let silent := FileTree.ofContents [("a.mp3", 0 :: Text.bytes "silent audio"),
      ("b.mp3", 0 :: Text.bytes "silent audio")]
    (of id small paths = ⟨[paths], []⟩ ∧
      (small.writeTags [.empty ⟨"a.mp3"⟩, .empty ⟨"a.mp3"⟩]).map (of id · paths) = .ok ⟨[], []⟩) ∧
    of id silent paths = ⟨[paths], []⟩ ∧
      (silent.writeTags [.ofTitle ⟨"a.mp3"⟩ "One"]).map (of id · paths) = .ok ⟨[], []⟩ := by
  decide +kernel

end SameAudio

end SongLibrary
