import SongLibrary.Proofs.Text.Lowercase
import SongLibrary.Proofs.View.Query

/-!
# Searching for what stands in a field

Both the text of a song and what is searched for are put into lower case, each by itself. So what
stands in a field as it is searched for is found, unless lower-casing takes a `Σ` at one of its ends
for the end of a word and the same `Σ` in the field for the middle of one, or the other way round.
-/

namespace SongLibrary

variable {song : Song} {index : VersionIndex} {field : Field} {value : String}
  {front back word : List Char}

/-! ## One field -/

/-- A text holds, in lower case, what stands in it. -/
theorem Text.contains_lowercase {text part : String}
    (htext : text.toList = front ++ part.toList ++ back)
    (hkeeps : KeepsSigmas front part.toList back) :
    contains (lowercase text) (lowercase part) = true := by
  rw [contains, occursIn_iff, lowercase, lowercase, String.toList_ofList, String.toList_ofList,
    htext]
  exact infix_lowerChars hkeeps

namespace Filter

/-- The two symbols for containment find what stands in a field. -/
theorem matchesSong_of_contains {symbol : String} (hsymbol : symbol ∈ ["=", "~"])
    (hlatest : ¬(field = .version ∧ Text.equalsIgnoringAsciiCase value "latest"))
    (hcontains : Text.contains (Text.lowercase (song.field field)) (Text.lowercase value) = true) :
    ∃ comparison, Comparison.ofSymbol? symbol = some comparison ∧
      matchesSong ⟨field, comparison, value⟩ song index = true := by
  refine ⟨.contains, ?_, ?_⟩
  · simp only [List.mem_cons, List.not_mem_nil, or_false] at hsymbol
    rcases hsymbol with rfl | rfl <;> rfl
  · rw [matchesSong, latestWanted?, if_neg hlatest]
    exact hcontains

/-- The symbol for its opposite does not. -/
theorem not_matchesSong_of_contains
    (hlatest : ¬(field = .version ∧ Text.equalsIgnoringAsciiCase value "latest"))
    (hcontains : Text.contains (Text.lowercase (song.field field)) (Text.lowercase value) = true) :
    ∃ comparison, Comparison.ofSymbol? "!~" = some comparison ∧
      matchesSong ⟨field, comparison, value⟩ song index = false := by
  refine ⟨.notContains, rfl, ?_⟩
  rw [matchesSong, latestWanted?, if_neg hlatest]
  simp only [compares, hcontains, Bool.not_true]

end Filter

/-! ## All fields -/

namespace Query

/-- The text that is searched is the lower-case forms of the fields with blanks between them. -/
theorem toList_searchText (song : Song) : (searchText song).toList = [' '].intercalate
    (Field.all.map fun field => (Text.lowercase (song.field field)).toList) := by
  rw [searchText, Text.lowercase, String.toList_ofList, String.toList_intercalate,
    show " ".toList = [' '] from rfl, Text.lowerChars_intercalate]
  simp only [List.map_map, Function.comp_def, Text.lowercase, String.toList_ofList]

/-- The text that is searched holds the lower-case form of every field. -/
theorem field_infix_searchText (song : Song) (field : Field) :
    (Text.lowercase (song.field field)).toList <:+: (searchText song).toList := by
  have hall : field ∈ Field.all := by cases field <;> decide
  rw [toList_searchText]
  exact Text.infix_intercalate (List.mem_map_of_mem hall)

/-- A term that a field holds is found. -/
theorem contains_searchText {term : String}
    (h : Text.contains (Text.lowercase (song.field field)) term = true) :
    Text.contains (searchText song) term = true := by
  rw [Text.contains, Text.occursIn_iff] at h ⊢
  exact h.trans (field_infix_searchText song field)

/-- A word without quotes outside the filters is a free term. -/
theorem mem_terms {text : String} (h : word ∈ Text.words ((parts text).map Part.outside))
    (hquotes : ∀ c ∈ word, isQuote c = false) :
    Text.lowercase (String.ofList word) ∈ (ofText text).terms := by
  have hne : word ≠ [] := by
    simpa using (List.mem_filter.mp h).2
  refine List.mem_map.mpr ⟨word, List.mem_filter.mpr ⟨?_, by simpa using hne⟩, rfl⟩
  exact List.mem_map.mpr ⟨word, h, unquote_of_forall hquotes⟩

/--
**What stands in a field is found.**

A filter with `=` or `~` matches every song that has its value in its field, and one with `!~` does
not, unless the value asks for the latest version. A word of the query that is neither quoted nor
part of a filter is a free term, and it is found in every song that has the word in some field. All
this holds if each `Σ` in the value or the word ends a word there just if it does so in the field.
Otherwise lower-casing makes something else of this place in the field. The ends of words are the
same if there is no `Σ`, and if what stands around the place in the field keeps it apart.
-/
theorem occurrence_found (song : Song) (index : VersionIndex) (field : Field) :
    (∀ front value back, (song.field field).toList = front ++ value.toList ++ back →
      ¬(field = .version ∧ Text.equalsIgnoringAsciiCase value "latest") →
      Text.KeepsSigmas front value.toList back →
      (∀ symbol ∈ ["=", "~"], ∃ comparison, Comparison.ofSymbol? symbol = some comparison ∧
        Filter.matchesSong ⟨field, comparison, value⟩ song index = true) ∧
      ∃ comparison, Comparison.ofSymbol? "!~" = some comparison ∧
        Filter.matchesSong ⟨field, comparison, value⟩ song index = false) ∧
    (∀ text word, word ∈ Text.words ((parts text).map Part.outside) →
      (∀ c ∈ word, isQuote c = false) →
      Text.lowercase (String.ofList word) ∈ (ofText text).terms ∧
      ∀ front back, (song.field field).toList = front ++ word ++ back →
        Text.KeepsSigmas front word back →
        Text.contains (searchText song) (Text.lowercase (String.ofList word)) = true) ∧
    (∀ front part back, Text.KeepsSigmas front part back ↔
      Text.lowerBetween (front.foldl Text.casedAfter false) part back = Text.lowerChars part) ∧
    (∀ front part back, 'Σ' ∉ part → Text.KeepsSigmas front part back) ∧
    (∀ front part back, (∀ c, front.getLast? = some c → Text.separates c = true) →
      (∀ c, back.head? = some c → Text.separates c = true) →
      Text.KeepsSigmas front part back) := by
  refine ⟨fun front value back htext hlatest hkeeps => ?_, fun text word hword hquotes => ?_,
    fun front part back => (Text.lowerBetween_eq_iff front part back).symm,
    fun front part back hnone => Text.keepsSigmas_of_notMem hnone front back,
    fun front part back => Text.keepsSigmas_of_separated⟩
  · have hcontains := Text.contains_lowercase htext hkeeps
    exact ⟨fun symbol hsymbol => Filter.matchesSong_of_contains hsymbol hlatest hcontains,
      Filter.not_matchesSong_of_contains hlatest hcontains⟩
  · refine ⟨mem_terms hword hquotes, fun front back htext hkeeps => ?_⟩
    have htext' : (song.field field).toList = front ++ (String.ofList word).toList ++ back := by
      rw [String.toList_ofList, htext]
    have hkeeps' : Text.KeepsSigmas front (String.ofList word).toList back := by
      rwa [String.toList_ofList]
    exact contains_searchText (Text.contains_lowercase htext' hkeeps')

/-- A song with a title and no other data. -/
def songTitled (title : String) : Song := ⟨⟨"a.mp3"⟩, [("Title", .string title)], ""⟩

/-- A word of the title that ends with `Σ` is found, since a blank stands behind it. -/
theorem occurrence_found_word :
    let song := songTitled "ΑΣ ΤΗΣ"
    (∃ comparison, Comparison.ofSymbol? "=" = some comparison ∧
      Filter.matchesSong ⟨.title, comparison, "ΑΣ"⟩ song .empty = true) ∧
    Text.lowercase "ΑΣ" ∈ (ofText "ΑΣ").terms ∧
      Text.contains (searchText song) (Text.lowercase "ΑΣ") = true := by
  intro song
  obtain ⟨hfilter, hterm, -, -, hapart⟩ := occurrence_found song .empty .title
  have htitle : (song.field .title).toList = [] ++ ['Α', 'Σ'] ++ [' ', 'Τ', 'Η', 'Σ'] := by
    decide +kernel
  have hkeeps : Text.KeepsSigmas [] ['Α', 'Σ'] [' ', 'Τ', 'Η', 'Σ'] :=
    hapart _ _ _ (fun c hc => absurd hc (by simp)) fun c hc => by
      rw [← Option.some.inj hc]
      decide +kernel
  have hword : ['Α', 'Σ'] ∈ Text.words ((parts "ΑΣ").map Part.outside) := by decide +kernel
  obtain ⟨hmem, hfound⟩ := hterm "ΑΣ" ['Α', 'Σ'] hword (by simp [isQuote])
  exact ⟨(hfilter [] "ΑΣ" _ htitle (by decide) hkeeps).1 "=" (by simp), hmem,
    hfound [] _ htitle hkeeps⟩

/-- A `Σ` within a word of the title: the title holds what is searched for, and nothing finds it. -/
theorem occurrence_found_sigma :
    let song := songTitled "ΑΣΑ"
    (song.field .title).toList = [] ++ "ΑΣ".toList ++ ['Α'] ∧
    Filter.matchesSong ⟨.title, .contains, "ΑΣ"⟩ song .empty = false ∧
    Filter.matchesSong ⟨.title, .notContains, "ΑΣ"⟩ song .empty = true ∧
    (ofText "ΑΣ").matchesSong song .empty = false := by
  decide +kernel

end Query

end SongLibrary
