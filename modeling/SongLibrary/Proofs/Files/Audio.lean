import SongLibrary.Proofs.Files.TagWrites

/-!
# The audio of a file whose tag is updated

The audio is what stands behind the tag, so an update should leave it alone. It does so unless the
next reader of the file takes the border for another one. A file of less than twelve bytes is not
searched for a tag, and the tag it has stays behind the new one, where it is audio. And a file
without a tag that starts with zeros gets its tag right in front of them, where they count as part
of the tag. `audio_retag_iff` says that nothing else can happen.

A file with two bytes of audio that do not start with a zero stays such a file, so that its audio
is safe from any number of updates.
-/

namespace SongLibrary

/-! ## Closing blocks -/

/-- Content without the blocks that close it. -/
def ClosingBlock.strip (content : List UInt8) : List UInt8 :=
  content.take (content.length - size content)

namespace ClosingBlock

theorem strip_of_short {content : List UInt8} (h : content.length < length) :
    strip content = content := by
  have hnone : of? content = none := by
    rw [of?]
    exact if_neg fun hblock => absurd hblock.1 (Nat.not_le.mpr h)
  rw [strip, size, hnone]
  simp

theorem length_strip_le (content : List UInt8) : (strip content).length ≤ content.length :=
  List.length_take_le' _ _

/-- Content that starts with a zero is not all closing block. -/
theorem size_lt {content : List UInt8} (h : content.head? = some 0) :
    size content < content.length := by
  have hmark : ∀ mark, (Text.bytes mark).head? = some 84 → hasMarkAt content 0 mark = false := by
    intro mark hmark
    obtain ⟨rest, hrest⟩ := List.head?_eq_some_iff.mp hmark
    obtain ⟨others, hothers⟩ := List.head?_eq_some_iff.mp h
    rw [hasMarkAt, hrest, hothers]
    rfl
  have hpos : 0 < content.length := List.length_pos_iff.mpr fun hnil => by simp [hnil] at h
  rw [size]
  cases hof : of? content with
  | none => exact hpos
  | some block =>
      rw [of?] at hof
      obtain ⟨⟨hlong, hhas⟩, -⟩ := Option.ite_none_right_eq_some.mp hof
      have hlt : length < content.length := by
        refine Nat.lt_of_le_of_ne hlong fun heq => ?_
        rw [← heq, Nat.sub_self, hmark "TAG" (by decide +kernel)] at hhas
        exact Bool.noConfusion hhas
      rw [if_neg (by simp)]
      dsimp only
      split
      · rename_i hboth
        refine Nat.lt_of_le_of_ne hboth.1 fun heq => ?_
        rw [← heq, Nat.sub_self, hmark "TAG+" (by decide +kernel)] at hboth
        exact Bool.noConfusion hboth.2
      · exact hlt

theorem head?_strip {content : List UInt8} (h : content.head? = some 0) :
    (strip content).head? = some 0 := by
  rw [strip, List.head?_take, if_neg, h]
  have := size_lt h
  omega

end ClosingBlock

/-! ## Zeros behind a tag -/

theorem dropWhile_zero_of_head? {content : List UInt8} (h : content.head? ≠ some 0) :
    content.dropWhile (· == 0) = content := by
  cases content with
  | nil => rfl
  | cons b rest => exact List.dropWhile_cons_of_neg (by simpa using h)

theorem head?_dropWhile_zero (content : List UInt8) :
    (content.dropWhile (· == 0)).head? ≠ some 0 := by
  intro h
  have := List.head?_dropWhile_not (· == (0 : UInt8)) content
  rw [h] at this
  simp at this

theorem TagHeader.of_ofBytes? {content : List UInt8} {h : TagHeader}
    (hcontent : ofBytes? content = .ok (some h)) :
    length ≤ content.length ∧ content.head? ≠ some 0 := by
  rw [ofBytes?] at hcontent
  split at hcontent
  · rename_i hmark
    obtain ⟨rest, rfl⟩ := List.isPrefixOf_iff_prefix.mp hmark
    split at hcontent
    · rename_i hrest
      rw [List.drop_left] at hrest
      rw [hrest]
      have hbytes : mark = [73, 68, 51] := by decide +kernel
      rw [hbytes]
      refine ⟨?_, by simp⟩
      rw [List.length_append, length]
      simp only [List.length_cons, List.length_nil]
      omega
    · exact absurd (Except.ok.inj hcontent) (by simp)
  · exact absurd (Except.ok.inj hcontent) (by simp)

theorem le_foldl_add (sizes : List Nat) (n : Nat) : n ≤ sizes.foldl Nat.add n := by
  induction sizes generalizing n with
  | nil => exact Nat.le_refl n
  | cons size sizes ih => exact Nat.le_trans (Nat.le_add_right n size) (ih _)

theorem add_le_foldl_add {sizes : List Nat} {size : Nat} (h : size ∈ sizes) (n : Nat) :
    n + size ≤ sizes.foldl Nat.add n := by
  induction sizes generalizing n with
  | nil => exact absurd h List.not_mem_nil
  | cons first sizes ih =>
      rcases List.mem_cons.mp h with rfl | h
      · exact le_foldl_add sizes _
      · refine Nat.le_trans ?_ (ih h (n + first))
        omega

theorem Tag.length_le_size (tag : Tag) : TagHeader.length ≤ tag.size := le_foldl_add _ _

/-- A comment takes up more than the header of its frame. -/
theorem Tag.length_add_le_size {tag : Tag} (h : tag.comments ≠ []) :
    TagHeader.length + (FrameLayout.ofVersion 4).headerLength ≤ tag.size := by
  obtain ⟨c, rest, hcomments⟩ := List.exists_cons_of_ne_nil h
  have hmem : c ∈ tag.comments := by simp [hcomments]
  refine Nat.le_trans ?_ (add_le_foldl_add (List.mem_append_left _ (List.mem_append_right _
    (List.mem_map_of_mem hmem))) TagHeader.length)
  omega

namespace File

variable {f g : File} {u : TagUpdate} {a : List UInt8}

theorem audio_of_afterTag (h : f.afterTag = .ok a) : f.audio = .ok (ClosingBlock.strip a) := by
  rw [audio, h]
  rfl

/-- Whether a file has a tag, be it one that its content starts with. -/
def isTagged (f : File) : Bool :=
  f.tag.isSome || match TagHeader.ofBytes? f.content with
    | .ok (some _) => true
    | _ => false

/-- Whether an update of the tag leaves the audio alone. -/
def keepsAudio (f : File) : Bool :=
  if f.isTagged then leastSearched ≤ f.size else f.content.head? ≠ some 0

/-- What a file without a tag holds is all behind its tag. -/
theorem afterTag_of_untagged (h : f.isTagged = false) (ha : f.afterTag = .ok a) :
    a = f.content ∧ f.bytes = f.content := by
  rw [isTagged, Bool.or_eq_false_iff, Option.isSome_eq_false_iff, Option.isNone_iff_eq_none] at h
  obtain ⟨htag, hheader⟩ := h
  refine ⟨?_, by simp [bytes, htag]⟩
  rw [afterTag, header?, htag] at ha
  rw [if_neg (by simp)] at ha
  obtain ⟨header?, hheader?, ha⟩ := bind_cases ha
  rw [hheader?] at hheader
  cases header? with
  | none => exact (Except.ok.inj ha).symm
  | some h => exact Bool.noConfusion hheader

/-- The two ways in which a file has a tag. -/
theorem tagged_cases (h : f.isTagged = true) (ha : f.afterTag = .ok a) :
    (∃ tag, f.tag = some tag ∧ a = f.content.dropWhile (· == 0)) ∨
    ∃ header, f.tag = none ∧ TagHeader.ofBytes? f.content = .ok (some header) ∧
      a = (f.content.drop (TagHeader.length + header.size)).dropWhile (· == 0) := by
  rw [afterTag] at ha
  obtain ⟨header?, hheader?, ha⟩ := bind_cases ha
  cases htag : f.tag with
  | some tag =>
      rw [htag] at ha
      exact .inl ⟨tag, rfl, (Except.ok.inj ha).symm⟩
  | none =>
      rw [htag] at ha
      rw [File.header?, htag, if_neg (by simp)] at hheader?
      rw [isTagged, htag, hheader?] at h
      cases header? with
      | none => exact absurd h (by simp)
      | some header => exact .inr ⟨header, rfl, hheader?, (Except.ok.inj ha).symm⟩

/-- Behind a tag there are no zeros. -/
theorem head?_of_tagged (h : f.isTagged = true) (ha : f.afterTag = .ok a) :
    a.head? ≠ some 0 := by
  obtain ⟨tag, -, rfl⟩ | ⟨header, -, -, rfl⟩ := tagged_cases h ha <;>
    exact head?_dropWhile_zero _

theorem length_bytes_le (f : File) : f.bytes.length ≤ f.size := by
  rw [bytes, size]
  cases f.tag with
  | none => simp
  | some tag =>
      rw [Option.isSome_some, if_pos rfl, List.length_append, TagHeader.length_ofEmptyTag]
      exact Nat.add_le_add_right tag.length_le_size _

/-- A file with a tag starts with the header, before what is behind the tag. -/
theorem bytes_of_tagged (h : f.isTagged = true) (ha : f.afterTag = .ok a) :
    f.bytes.head? ≠ some 0 ∧ TagHeader.length + a.length ≤ f.bytes.length := by
  obtain ⟨tag, htag, rfl⟩ | ⟨header, htag, hheader, rfl⟩ := tagged_cases h ha
  · have hbytes : f.bytes = TagHeader.ofEmptyTag ++ f.content := by simp [bytes, htag]
    have hlength := (List.dropWhile_sublist (· == (0 : UInt8)) (l := f.content)).length_le
    rw [hbytes, List.length_append, TagHeader.length_ofEmptyTag]
    exact ⟨by simp [TagHeader.ofEmptyTag, TagHeader.mark]; decide +kernel, by omega⟩
  · have hbytes : f.bytes = f.content := by simp [bytes, htag]
    obtain ⟨hlong, hhead⟩ := TagHeader.of_ofBytes? hheader
    have hlength := (List.dropWhile_sublist (· == (0 : UInt8))
      (l := f.content.drop (TagHeader.length + header.size))).length_le
    rw [List.length_drop] at hlength
    rw [hbytes]
    exact ⟨hhead, by omega⟩

/-- What is found behind a tag that has been written. -/
theorem afterTag_of_retag (h : f.retag u = .ok g) : ∃ a, f.afterTag = .ok a ∧
    g.afterTag = .ok ((if f.size < leastSearched then f.bytes else a).dropWhile (· == 0)) := by
  obtain ⟨tag?, content, hread, hcontent, rfl⟩ := retag_cases h
  obtain ⟨a, ha⟩ := afterTag_of_readTag hread
  refine ⟨a, ha, ?_⟩
  have hbehind : content = if f.size < leastSearched then f.bytes else a := by
    rw [behindNewTag] at hcontent
    split at hcontent
    · rename_i hsize
      rw [if_pos hsize, Except.ok.inj hcontent]
    · rename_i hsize
      rw [if_neg hsize, ← Except.ok.inj (ha.symm.trans hcontent)]
  rw [← hbehind]
  rfl

/-- An update that leaves the audio alone leaves all alone that is behind the tag. -/
theorem afterTag_retag (h : f.retag u = .ok g) (hkeeps : f.keepsAudio = true) :
    g.afterTag = f.afterTag := by
  obtain ⟨a, ha, hg⟩ := afterTag_of_retag h
  rw [hg, ha]
  rw [keepsAudio] at hkeeps
  cases htagged : f.isTagged with
  | true =>
      rw [if_pos htagged, decide_eq_true_eq] at hkeeps
      rw [if_neg (Nat.not_lt.mpr hkeeps), dropWhile_zero_of_head? (head?_of_tagged htagged ha)]
  | false =>
      rw [if_neg (by simp [htagged]), decide_eq_true_eq] at hkeeps
      obtain ⟨rfl, hbytes⟩ := afterTag_of_untagged htagged ha
      rw [hbytes, ite_self, dropWhile_zero_of_head? hkeeps]

/-- **Which files keep their audio when their tag is updated.** -/
theorem audio_retag_iff (h : f.retag u = .ok g) : g.audio = f.audio ↔ f.keepsAudio = true := by
  constructor
  · intro hsame
    by_contra hkeeps
    obtain ⟨a, ha, hg⟩ := afterTag_of_retag h
    rw [audio_of_afterTag hg, audio_of_afterTag ha, Except.ok.injEq] at hsame
    rw [keepsAudio] at hkeeps
    cases htagged : f.isTagged with
    | true =>
        -- the old tag is audio now
        rw [if_pos htagged, decide_eq_true_eq, Nat.not_le] at hkeeps
        obtain ⟨hhead, hmore⟩ := bytes_of_tagged htagged ha
        have hshort : f.bytes.length < ClosingBlock.length :=
          Nat.lt_of_le_of_lt f.length_bytes_le (Nat.lt_trans hkeeps (by decide))
        rw [if_pos hkeeps, dropWhile_zero_of_head? hhead,
          ClosingBlock.strip_of_short hshort] at hsame
        have hless := ClosingBlock.length_strip_le a
        rw [← hsame] at hless
        rw [TagHeader.length] at hmore
        omega
    | false =>
        -- the zeros are tag now
        rw [if_neg (by simp [htagged]), decide_eq_true_eq, not_not] at hkeeps
        obtain ⟨rfl, hbytes⟩ := afterTag_of_untagged htagged ha
        rw [hbytes, ite_self] at hsame
        have hzero := ClosingBlock.head?_strip hkeeps
        rw [← hsame, ClosingBlock.strip, List.head?_take] at hzero
        split at hzero
        · exact absurd hzero (by simp)
        · exact head?_dropWhile_zero _ hzero
  · intro hkeeps
    rw [audio, audio, afterTag_retag h hkeeps]

/-! ## Any number of updates -/

/-- Updates that leave the audio of a file alone, each of them. -/
def RetagsGently (f : File) : List TagUpdate → Prop
  | [] => True
  | u :: us => ∀ g, f.retag u = .ok g → f.keepsAudio = true ∧ g.RetagsGently us

theorem audio_of_retags {us : List TagUpdate} (h : us.foldlM retag f = .ok g)
    (hgentle : f.RetagsGently us) : g.audio = f.audio := by
  induction us generalizing f with
  | nil => rw [← Except.ok.inj h]
  | cons u us ih =>
      rw [List.foldlM_cons] at h
      obtain ⟨f', hf', hrest⟩ := bind_cases h
      obtain ⟨hkeeps, hgentle'⟩ := hgentle f' hf'
      rw [ih hrest hgentle', (audio_retag_iff hf').mpr hkeeps]

/-- A file with at least two bytes behind its tag, the first of which is not zero. -/
def Sturdy (f : File) : Prop := ∀ a ∈ f.afterTag.toOption, 2 ≤ a.length ∧ a.head? ≠ some 0

instance (f : File) : Decidable f.Sturdy :=
  inferInstanceAs (Decidable (∀ a ∈ f.afterTag.toOption, 2 ≤ a.length ∧ a.head? ≠ some 0))

theorem Sturdy.keepsAudio (hf : f.Sturdy) (ha : f.afterTag = .ok a) : f.keepsAudio = true := by
  obtain ⟨hlong, hhead⟩ := hf a (by rw [ha]; rfl)
  rw [File.keepsAudio]
  cases htagged : f.isTagged with
  | true =>
      have hsize := (bytes_of_tagged htagged ha).2
      have := f.length_bytes_le
      rw [TagHeader.length] at hsize
      rw [if_pos rfl, decide_eq_true_eq, leastSearched]
      omega
  | false =>
      rw [if_neg (by simp), decide_eq_true_eq, ← (afterTag_of_untagged htagged ha).1]
      exact hhead

/-- **Such a file stays such a file**, and its audio is the same all the time. -/
theorem Sturdy.retagsGently (hf : f.Sturdy) (us : List TagUpdate) : f.RetagsGently us := by
  induction us generalizing f with
  | nil => trivial
  | cons u us ih =>
      intro g hg
      obtain ⟨a, ha, -⟩ := afterTag_of_retag hg
      have hkeeps := hf.keepsAudio ha
      refine ⟨hkeeps, ih fun b hb => hf b ?_⟩
      rwa [← afterTag_retag hg hkeeps]

end File

namespace FileTree

/-- **A file whose tag can be read can be written.** What is behind the tag stays, if the file keeps
its audio. -/
theorem updateTag_ok {t : FileTree} {p : Path} {l : Location} {f : File} {tag : Tag}
    (hl : t.locate p = .ok l) (hf : t.entry? l = some (.file f))
    (hread : f.readTag = .ok (some tag)) (u : TagUpdate) :
    ∃ t' f', t.updateTag p u = (t', .ok ()) ∧ FilePut t t' l f' ∧
      f'.tag = some (tag.update u).stored ∧
      (f.keepsAudio = true → f'.afterTag = f.afterTag) := by
  obtain ⟨content, -, hg⟩ := File.retag_of_readTag hread u
  refine ⟨_, _, updateTag_of_retag hl hf hg, filePut_tick hf, rfl, fun hkeeps => ?_⟩
  rw [← File.afterTag_retag hg hkeeps]
  rfl

end FileTree

end SongLibrary
