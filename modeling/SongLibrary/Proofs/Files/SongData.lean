import SongLibrary.Files.SongData
import SongLibrary.Proofs.Files.Audio
import SongLibrary.Proofs.Song.Rewriting

/-!
# What is found in a file

What is embedded in a file depends on the file, the extension of its path and the library that reads
it. Where the library finds the tag, and no data besides, it is the data in the tag. A comment is
cut at its NULs then. Where the library cannot read the file, a comment is one text, which makes no
difference if it holds no NUL.

Such a file stays such a file while its tag is changed, since what is behind the tag stays. A tag
with comments is large enough for that.
-/

namespace SongLibrary

/-! ## Texts of comments -/

theorem Comment.texts_of_notMem {c : Comment} (h : Text.nul ∉ c.text.toList) :
    c.texts = [c.text] := by
  rw [texts, Text.splitAtNuls, Text.splitWhere_of_notMem h]
  simp

/-- Without NULs comments are as many texts. -/
theorem Comment.flatMap_texts {comments : List Comment}
    (h : ∀ c ∈ comments, Text.nul ∉ c.text.toList) :
    comments.flatMap texts = comments.map text := by
  induction comments with
  | nil => rfl
  | cons c rest ih =>
      rw [List.flatMap_cons, texts_of_notMem (h c (by simp)),
        ih fun d hd => h d (List.mem_cons_of_mem _ hd)]
      rfl

theorem Comment.texts_ne_nil (c : Comment) : c.texts ≠ [] := by
  rw [texts, Text.splitAtNuls, ne_eq, List.map_eq_nil_iff]
  exact Text.splitWhere_ne_nil _ _

/-- Texts without data that follow others add nothing to them. -/
theorem Embedded.ofTexts?_append_bare (texts : List String) {others : List String}
    (h : ∀ o ∈ others, ofText? o = none) : ofTexts? (texts ++ others) = ofTexts? texts := by
  rw [ofTexts?, ofTexts?, List.filterMap_append, List.filterMap_eq_nil_iff.mpr h, List.append_nil]

/-! ## Files in which a library finds the tag -/

/-- The comments of a tag, or none without a tag. -/
def Tag.commentsOf (tag? : Option Tag) : List Comment := tag?.elim [] Tag.comments

/-- Whatever tag stands in front of the audio of a file: if the library can read the file, the tag
can be read too, and the library finds its comments and no other data. -/
def AudioReader.FindsTag (reader : AudioReader) (extension : Option String) (f : File) : Prop :=
  ∀ g : File, g.afterTag = f.afterTag → ∀ texts, reader.texts? extension g = some texts →
    ∃ tag? others, g.readTag = .ok tag? ∧
      texts = (Tag.commentsOf tag?).flatMap Comment.texts ++ others ∧
      ∀ o ∈ others, Embedded.ofText? o = none

namespace File

variable {f g : File} {tag : Tag} {reader : AudioReader} {extension : Option String}

theorem tagData?_of_readTag (h : f.readTag = .ok (some tag)) :
    f.tagData? = .ok (Embedded.ofTexts? (tag.comments.map Comment.text)) := by
  rw [tagData?, h]
  rfl

/-- Data in the tag of a file stands in its comments. -/
theorem tagData?_cases {e : Embedded} (h : f.tagData? = .ok (some e)) :
    ∃ tag, f.readTag = .ok (some tag) ∧
      Embedded.ofTexts? (tag.comments.map Comment.text) = some e := by
  rw [tagData?] at h
  obtain ⟨tag?, hread, hdata⟩ := bind_cases h
  cases tag? with
  | none => exact absurd (Except.ok.inj hdata) (by simp)
  | some tag => exact ⟨tag, hread, Except.ok.inj hdata⟩

/-- **Where the library finds the tag, the data is that in the tag.** If it cannot read the file,
the comments are not cut at their NULs. -/
theorem data?_of_readTag (h : reader.FindsTag extension f) (hread : f.readTag = .ok (some tag)) :
    f.data? reader extension = .ok (Embedded.ofTexts? (tag.comments.flatMap Comment.texts)) ∨
      reader.texts? extension f = none ∧
        f.data? reader extension = .ok (Embedded.ofTexts? (tag.comments.map Comment.text)) := by
  rw [data?]
  cases htexts : reader.texts? extension f with
  | none => exact .inr ⟨rfl, tagData?_of_readTag hread⟩
  | some texts =>
      left
      obtain ⟨tag?, others, hread', rfl, hothers⟩ := h f rfl texts htexts
      obtain rfl := Except.ok.inj (hread.symm.trans hread')
      dsimp only [Tag.commentsOf, Option.elim_some]
      split
      · -- without texts there are no comments
        rename_i hempty
        rw [Bool.and_eq_true, List.isEmpty_iff, List.append_eq_nil_iff,
          List.flatMap_eq_nil_iff] at hempty
        have hnone : tag.comments = [] := List.eq_nil_iff_forall_not_mem.mpr fun c hc =>
          c.texts_ne_nil (hempty.1.1 c hc)
        rw [tagData?_of_readTag hread, hnone]
        rfl
      · rw [Embedded.ofTexts?_append_bare _ hothers]

/-- It is so too if the library cannot read the file, and the comments hold no NUL. -/
theorem data?_of_whole (h : reader.FindsTag extension f) (hread : f.readTag = .ok (some tag))
    (hwhole : reader.texts? extension f = none → ∀ c ∈ tag.comments, Text.nul ∉ c.text.toList) :
    f.data? reader extension = .ok (Embedded.ofTexts? (tag.comments.flatMap Comment.texts)) := by
  rcases data?_of_readTag h hread with hdata | ⟨hnone, hdata⟩
  · exact hdata
  · rw [hdata, Comment.flatMap_texts (hwhole hnone)]

/-- Data that is found where the library finds the tag is in the tag. -/
theorem readTag_of_data? (h : reader.FindsTag extension f) {e : Embedded}
    (hdata : f.data? reader extension = .ok (some e)) : ∃ tag, f.readTag = .ok (some tag) := by
  have htag : f.tagData? = .ok (some e) → ∃ tag, f.readTag = .ok (some tag) := by
    intro htag
    obtain ⟨tag, hread, -⟩ := tagData?_cases htag
    exact ⟨tag, hread⟩
  rw [data?] at hdata
  cases htexts : reader.texts? extension f with
  | none =>
      rw [htexts] at hdata
      exact htag hdata
  | some texts =>
      obtain ⟨tag?, others, hread, rfl, hothers⟩ := h f rfl texts htexts
      cases tag? with
      | some tag => exact ⟨tag, hread⟩
      | none =>
          rw [htexts] at hdata
          dsimp only [Tag.commentsOf, Option.elim_none, List.flatMap_nil] at hdata
          split at hdata
          · exact htag hdata
          · rw [Embedded.ofTexts?_append_bare _ hothers] at hdata
            exact absurd hdata (by simp [Embedded.ofTexts?])

/-! ## Files whose tag has comments -/

/-- Fewer bytes than a frame starts with hold no comments. -/
theorem comments_of_short {l : FrameLayout} {bytes : List UInt8} {left : Nat}
    (hshort : bytes.length < l.headerLength) (h : Tag.empty.addFrames l left bytes = .ok tag) :
    tag.comments = [] := by
  have hnext : Frame.next? l bytes = .ok none := by
    rw [Frame.next?]
    exact if_pos (Or.inl (by rw [List.length_take]; omega))
  rw [Tag.addFrames, hnext] at h
  split at h <;> exact (congrArg Tag.comments (Except.ok.inj h)).symm

theorem two_le_headerLength (l : FrameLayout) : 2 ≤ l.headerLength := by
  have := l.nameLength_pos
  rw [FrameLayout.headerLength]
  omega

/-- **A tag with comments is searched for when another one is written**, so that the audio stays as
it is. -/
theorem keepsAudio_of_comments (h : f.readTag = .ok (some tag)) (hne : tag.comments ≠ []) :
    f.keepsAudio = true := by
  have hleast : ∀ l : FrameLayout, leastSearched ≤ TagHeader.length + l.headerLength := by
    intro l
    have := two_le_headerLength l
    rw [leastSearched, TagHeader.length]
    omega
  rw [readTag] at h
  cases htag : f.tag with
  | some tag' =>
      rw [htag] at h
      obtain rfl := Option.some.inj (Except.ok.inj h)
      have hsize := Tag.length_add_le_size hne
      rw [keepsAudio, isTagged, htag, Option.isSome_some, Bool.true_or, if_pos rfl,
        decide_eq_true_eq, size, htag]
      exact Nat.le_trans (hleast _) (Nat.le_trans hsize (Nat.le_add_right _ _))
  | none =>
      rw [htag] at h
      dsimp only at h
      rw [Tag.ofBytes?] at h
      obtain ⟨header?, hheader, h⟩ := bind_cases h
      cases header? with
      | none => exact absurd (Except.ok.inj h) (by simp)
      | some header =>
          obtain ⟨read, hread, hsame⟩ := bind_cases h
          obtain rfl := Option.some.inj (Except.ok.inj hsame)
          -- if there were no room for a frame behind the header, there would be no comment
          have hroom : (FrameLayout.ofVersion header.major).headerLength ≤
              (f.content.drop (TagHeader.length + header.extension)).length := by
            by_contra hshort
            refine hne (comments_of_short ?_ hread)
            split
            · rw [List.length_take]
              omega
            · omega
          rw [List.length_drop] at hroom
          have := hleast (FrameLayout.ofVersion header.major)
          have := two_le_headerLength (FrameLayout.ofVersion header.major)
          rw [keepsAudio, isTagged, hheader, Bool.or_true, if_pos rfl, decide_eq_true_eq, size,
            htag, Option.elim_none]
          omega

end File

/-! ## What is embedded at a path -/

namespace FileTree

variable {t t' : FileTree} {p : Path} {f : File} {reader : AudioReader}

theorem embedded_of_file (h : t.file p = .ok f) :
    t.embedded reader p = (f.data? reader p.extension?).mapError (.cannotExtract p) := by
  rw [embedded, h]

/-- Data comes from files only. -/
theorem file_of_embedded {value : Option Embedded}
    (h : t.embedded reader p = .ok value) : ∃ f, t.file p = .ok f := by
  rw [embedded] at h
  split at h
  · exact absurd h (by simp)
  · exact absurd h (by simp)
  · rename_i f hf
    exact ⟨f, hf⟩

theorem data?_of_embedded {value : Option Embedded} (hf : t.file p = .ok f)
    (h : t.embedded reader p = .ok value) : f.data? reader p.extension? = .ok value := by
  rw [embedded_of_file hf] at h
  cases hdata : f.data? reader p.extension? with
  | error cause => rw [hdata] at h; exact absurd h (by simp [Except.mapError])
  | ok value' => rw [hdata] at h; exact congrArg Except.ok (Except.ok.inj h)

/-- **What is embedded depends on the file and the components of its path.** -/
theorem embedded_congr {q : Path} {value : Option Embedded}
    (hpq : p.components = q.components) (hp : t.file p = .ok f) (hq : t'.file q = .ok f)
    (h : t.embedded reader p = .ok value) : t'.embedded reader q = .ok value := by
  have hdata := data?_of_embedded hp h
  rw [Path.extension?_congr hpq] at hdata
  rw [embedded_of_file hq, hdata]
  rfl

/-- Data is read from texts. -/
theorem texts_of_embedded {e : Embedded} (h : t.embedded reader p = .ok (some e)) :
    ∃ texts, Embedded.ofTexts? texts = some e := by
  obtain ⟨f, hf⟩ := file_of_embedded h
  have htag : f.tagData? = .ok (some e) → ∃ texts, Embedded.ofTexts? texts = some e := by
    intro htag
    obtain ⟨tag, -, hdata⟩ := File.tagData?_cases htag
    exact ⟨_, hdata⟩
  have hdata := data?_of_embedded hf h
  rw [File.data?] at hdata
  split at hdata
  · exact htag hdata
  · split at hdata
    · exact htag hdata
    · exact ⟨_, Except.ok.inj hdata⟩

end FileTree

end SongLibrary
