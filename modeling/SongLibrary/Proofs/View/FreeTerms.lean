import SongLibrary.Proofs.Text.LowerEnding
import SongLibrary.Proofs.View.Literal

/-!
# Free terms and the fields they are found in

The text that free terms are looked for in has all fields in one line, with blanks between them. A
free term never reaches over such a blank. It is what is left of a word, and a word has no blank;
taking quotes away leaves none, and lower-casing makes none. And the line is the lower-case forms of
the fields, as a blank keeps apart what is on its two sides. So a term that is found stands in the
lower-case form of one field, and no two fields can make up a term between them.
-/

namespace SongLibrary.Query

variable {text term : String} {word : List Char}

/-! ## What free terms are made of -/

theorem infix_unquote (word : List Char) : unquote word <:+: word := by
  have hstart : word.dropWhile isQuote <:+: word := (List.dropWhile_suffix isQuote).isInfix
  have hend : unquote word <+: word.dropWhile isQuote := by
    rw [unquote, ← List.reverse_suffix, List.reverse_reverse]
    exact List.dropWhile_suffix isQuote
  exact hend.isInfix.trans hstart

/-- A free term is the lower-case form of a text that is not empty and has no white space. -/
theorem exists_word_of_mem_terms (h : term ∈ (ofText text).terms) :
    ∃ word, word ≠ [] ∧ (∀ c ∈ word, Text.isBlank c = false) ∧
      term = Text.lowercase (String.ofList word) := by
  simp only [ofText, termsOf, List.mem_map, List.mem_filter] at h
  obtain ⟨_, ⟨⟨word, hword, rfl⟩, hne⟩, rfl⟩ := h
  refine ⟨unquote word, by simpa using hne, fun c hc => ?_, rfl⟩
  exact Text.isBlank_of_mem_words hword c ((infix_unquote word).subset hc)

theorem ne_nil_of_mem_terms (h : term ∈ (ofText text).terms) : term.toList ≠ [] := by
  obtain ⟨word, hne, -, rfl⟩ := exists_word_of_mem_terms h
  rw [Text.lowercase, String.toList_ofList, String.toList_ofList, Text.lowerChars,
    ← Text.lowerBetween_nil]
  exact fun hnil => hne (Text.lowerBetween_eq_nil_iff.mp hnil)

theorem blank_notMem_of_mem_terms (h : term ∈ (ofText text).terms) : ' ' ∉ term.toList := by
  obtain ⟨word, -, hblank, rfl⟩ := exists_word_of_mem_terms h
  rw [Text.lowercase, String.toList_ofList, String.toList_ofList]
  exact Text.blank_notMem_lowerFrom (fun hmem => absurd (hblank ' ' hmem) (by decide)) false

/-! ## Where they are found -/

/-- **Free terms are found within fields.** A free term of a query is found in a song just if the
lower-case text of one of its fields holds it. So a song meets a query just if it passes every
filter and every free term stands in some field, each in one of its own. -/
theorem terms_inOneField (text : String) (song : Song) (index : VersionIndex) :
    (∀ term ∈ (ofText text).terms, Text.contains (searchText song) term = true ↔
      ∃ field ∈ Field.all, Text.contains (Text.lowercase (song.field field)) term = true) ∧
    ((ofText text).matchesSong song index = true ↔
      (∀ f ∈ (ofText text).filters, f.matchesSong song index = true) ∧
      ∀ term ∈ (ofText text).terms,
        ∃ field ∈ Field.all, Text.contains (Text.lowercase (song.field field)) term = true) := by
  have hfound : ∀ term ∈ (ofText text).terms, Text.contains (searchText song) term = true ↔
      ∃ field ∈ Field.all, Text.contains (Text.lowercase (song.field field)) term = true := by
    intro term hterm
    rw [Text.contains, Text.occursIn_iff, toList_searchText,
      Text.infix_intercalate_iff (blank_notMem_of_mem_terms hterm) (ne_nil_of_mem_terms hterm)]
    simp only [List.mem_map, exists_exists_and_eq_and, Text.contains, Text.occursIn_iff]
  refine ⟨hfound, ?_⟩
  rw [matchesSong, Bool.and_eq_true, List.all_eq_true, List.all_eq_true]
  exact and_congr_right fun _ => forall₂_congr hfound

/-- A quoted word that ends with `Σ` stands in the title, and the other term in the file name. -/
theorem terms_inOneField_quoted :
    let song := songTitled "ΑΣ"
    let text := "\"ΑΣ\" A.MP3"
    "ας" ∈ (ofText text).terms ∧
    (∃ field ∈ Field.all, Text.contains (Text.lowercase (song.field field)) "ας" = true) ∧
    (ofText text).matchesSong song .empty = true := by
  intro song text
  have hterms : (ofText text).filters = [] ∧ (ofText text).terms = ["ας", "a.mp3"] := by
    decide +kernel
  obtain ⟨hfound, hmatches⟩ := terms_inOneField text song .empty
  have hterm : "ας" ∈ (ofText text).terms := by simp [hterms.2]
  have htitle := (hfound "ας" hterm).mp (by decide +kernel)
  refine ⟨hterm, htitle, hmatches.mpr ⟨by simp [hterms.1], fun term hmem => ?_⟩⟩
  rw [hterms.2] at hmem
  rcases List.mem_pair.mp hmem with rfl | rfl
  · exact htitle
  · exact ⟨.file, by decide, by decide +kernel⟩

end SongLibrary.Query
