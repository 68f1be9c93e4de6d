import SongLibrary.Tag.Basic

/-!
# Updates of stored tags

An update with data takes away the comments of the data language and puts one behind all the others.
When these are stored as they are, the tag that is stored has them unchanged and in their order.
-/

namespace SongLibrary

namespace Comment

/-- What tells a comment from others. -/
def place (c : Comment) : String × String := (c.language, c.description)

/-- No comment takes the place of another. -/
def Distinct (comments : List Comment) : Prop := (comments.map place).Nodup

/-- The comments that bear no data of the program's own. -/
def foreign (comments : List Comment) : List Comment := comments.filter (fun c => !c.holdsData)

theorem add_of_notMem {comments : List Comment} {c : Comment}
    (h : c.place ∉ comments.map place) : add comments c = comments ++ [c] := by
  rw [add, List.filter_eq_self.mpr]
  intro d hd
  refine decide_eq_true ?_
  by_cases hlanguage : d.language = c.language
  · right
    intro hdescription
    refine h (List.mem_map.mpr ⟨d, hd, ?_⟩)
    rw [place, place, hlanguage, hdescription]
  · exact Or.inl hlanguage

theorem foldl_add_of_distinct {before comments : List Comment}
    (h : Distinct (before ++ comments)) : comments.foldl add before = before ++ comments := by
  induction comments generalizing before with
  | nil => simp
  | cons c rest ih =>
      have hc : c.place ∉ before.map place := by
        rw [Distinct, List.map_append, List.nodup_append] at h
        intro hmem
        exact h.2.2 _ hmem c.place (by simp) rfl
      rw [List.foldl_cons, add_of_notMem hc, ih (by simpa using h)]
      simp

theorem Distinct.foreign {comments : List Comment} (h : Distinct comments) :
    Distinct (foreign comments) :=
  (List.filter_sublist.map place).nodup h

theorem mem_foreign {comments : List Comment} {c : Comment} :
    c ∈ foreign comments ↔ c ∈ comments ∧ c.language ≠ dataLanguage := by
  rw [Comment.foreign, List.mem_filter]
  simp [holdsData]

theorem foreign_foreign (comments : List Comment) : foreign (foreign comments) = foreign comments :=
  List.filter_eq_self.mpr fun _ hc => (List.mem_filter.mp hc).2

theorem foreign_append_ofData (comments : List Comment) (text : String) :
    foreign (foreign comments ++ [ofData text]) = foreign comments := by
  rw [Comment.foreign, List.filter_append, ← Comment.foreign, foreign_foreign]
  simp [holdsData, ofData]

theorem Distinct.append_ofData {comments : List Comment} (h : Distinct comments) (text : String) :
    Distinct (Comment.foreign comments ++ [ofData text]) := by
  rw [Distinct, List.map_append, List.nodup_append]
  refine ⟨h.foreign, by simp, ?_⟩
  intro place hplace place' hplace' heq
  obtain ⟨c, hc, rfl⟩ := List.mem_map.mp hplace
  rw [List.map_singleton, List.mem_singleton] at hplace'
  rw [hplace'] at heq
  exact (mem_foreign.mp hc).2 (congrArg Prod.fst heq)

/-- The comment with the data is stored as it is. -/
theorem stored_ofData (text : String) : (ofData text).stored = ofData text := by
  rw [stored, ofData]
  rfl

end Comment

/-- What is stored of a stored text is all of it. -/
theorem storedText_storedText (text : String) : storedText (storedText text) = storedText text := by
  have hdrop : Text.dropClosingNuls (Text.dropClosingNuls text.toList)
      = Text.dropClosingNuls text.toList := by
    have hnot := List.head?_dropWhile_not (fun c => decide (c = Text.nul)) text.toList.reverse
    rw [Text.dropClosingNuls, Text.dropClosingNuls, List.reverse_reverse]
    cases hdropped : text.toList.reverse.dropWhile (fun c => decide (c = Text.nul)) with
    | nil => rfl
    | cons c rest =>
        rw [hdropped] at hnot
        rw [List.dropWhile_cons_of_neg (by simpa using hnot)]
  by_cases hsize : 2 ≤ (String.ofList (Text.dropClosingNuls text.toList)).utf8ByteSize
  · have hstored : storedText text = String.ofList (Text.dropClosingNuls text.toList) := by
      rw [storedText]
      exact if_pos hsize
    rw [hstored, storedText, String.toList_ofList, hdrop]
    exact if_pos hsize
  · have hstored : storedText text = text := by
      rw [storedText]
      exact if_neg hsize
    rw [hstored, hstored]

namespace Tag

/-- The comments of a tag that the tag layer gives back as they are: they are stored as they stand,
and none takes the place of another. -/
structure Faithful (t : Tag) : Prop where
  distinct : Comment.Distinct t.comments
  stored : ∀ c ∈ t.comments, c.stored = c

theorem comments_stored {t : Tag} (h : t.Faithful) : t.stored.comments = t.comments := by
  have hmap : t.comments.map Comment.stored = t.comments := by
    rw [List.map_congr_left h.stored, List.map_id']
  rw [Tag.stored, hmap, Comment.foldl_add_of_distinct (by simpa using h.distinct)]
  simp

theorem comments_update {t : Tag} (h : t.Faithful) {u : TagUpdate} {text : String}
    (hu : u.data = some text) :
    (t.update u).comments = Comment.foreign t.comments ++ [.ofData text] := by
  have hforeign := h.distinct.foreign
  have hnew := h.distinct.append_ofData text
  rw [update, hu]
  dsimp only
  rw [replaceData, ← Comment.foreign, Comment.foldl_add_of_distinct (by simpa using hforeign)]
  have hadd := Comment.foldl_add_of_distinct hnew
  simpa using hadd

theorem Faithful.update {t : Tag} (h : t.Faithful) {u : TagUpdate} {text : String}
    (hu : u.data = some text) : (t.update u).Faithful := by
  constructor
  · rw [comments_update h hu]
    exact h.distinct.append_ofData text
  · rw [comments_update h hu]
    intro c hc
    rcases List.mem_append.mp hc with hc | hc
    · exact h.stored c (Comment.mem_foreign.mp hc).1
    · rw [List.mem_singleton.mp hc]
      exact Comment.stored_ofData text

/-- **The comments of a stored update are the foreign ones and the data behind them.** -/
theorem comments_stored_update {t : Tag} (h : t.Faithful) {u : TagUpdate} {text : String}
    (hu : u.data = some text) :
    (t.update u).stored.comments = Comment.foreign t.comments ++ [.ofData text] := by
  rw [comments_stored (h.update hu), comments_update h hu]

theorem Faithful.stored_update {t : Tag} (h : t.Faithful) {u : TagUpdate} {text : String}
    (hu : u.data = some text) : (t.update u).stored.Faithful := by
  have hcomments := comments_stored (h.update hu)
  obtain ⟨hdistinct, hstored⟩ := h.update hu
  exact ⟨hcomments ▸ hdistinct, hcomments ▸ hstored⟩

end Tag

end SongLibrary
