import SongLibrary.Text.Split
import SongLibrary.Text.Word
import SongLibrary.View.Filter

/-!
# Queries

A query is a text of filters and free terms. A filter is a name, a symbol and a value, with blanks
around the symbol at will. The name starts where a word does. The value stands in double or single
quotes, or ends at the next blank; a quote that is not closed is part of such a value. Text of this
form whose name is no field is left as it is. What stands outside the filters is cut into words, and
these, without the quotes around them and in lower case, are the free terms.
-/

namespace SongLibrary

/-- A parsed query. -/
structure Query where
  filters : List Filter
  terms : List String
  deriving DecidableEq, Repr

namespace Query

/-- The characters of names. -/
def isNameChar (c : Char) : Bool := c.isAlpha || c == '_'

/-- The symbols in the order in which they are tried, so that the longer of two comes first. -/
def symbolsTried : List String := ["==", "!=", ">=", "<=", "!~", "=", "~", ">", "<"]

/-- The text behind a part that it begins with. -/
def behind? : List Char → List Char → Option (List Char)
  | [], cs => some cs
  | _ :: _, [] => none
  | c :: part, d :: cs => if c = d then behind? part cs else none

/-- Reads a quoted value: the text up to the next such quote, and what stands behind that. -/
def quoted? (quote : Char) : List Char → Option (List Char × List Char)
  | [] => none
  | c :: cs =>
    if c = quote ∧ quote ∈ cs then
      some (cs.takeWhile (· ≠ quote), (cs.dropWhile (· ≠ quote)).drop 1)
    else none

/-- Reads a value that ends at a blank. -/
def bare? (cs : List Char) : Option (List Char × List Char) :=
  let value := cs.takeWhile (fun c => !Text.isBlank c)
  if value.isEmpty then none else some (value, cs.dropWhile (fun c => !Text.isBlank c))

/-- Reads a value behind blanks. -/
def value? (cs : List Char) : Option (List Char × List Char) :=
  let cs := cs.dropWhile Text.isBlank
  (quoted? '"' cs).or ((quoted? '\'' cs).or (bare? cs))

/-- A text of the form of a filter, and the text behind it. -/
structure Match where
  name : String
  symbol : String
  value : String
  rest : List Char

/-- Reads a text of the form of a filter. -/
def match? (cs : List Char) : Option Match :=
  let name := cs.takeWhile isNameChar
  let fromSymbol := (cs.dropWhile isNameChar).dropWhile Text.isBlank
  if name.isEmpty then none
  else
    symbolsTried.findSome? fun symbol => do
      let (value, rest) ← value? (← behind? symbol.toList fromSymbol)
      return ⟨String.ofList name, symbol, String.ofList value, rest⟩

/-- The filter of a text of that form, if its name is a field. -/
def Match.filter? (m : Match) : Option Filter := do
  return ⟨← Field.ofName? m.name, ← Comparison.ofSymbol? m.symbol, m.value⟩

/-! ### What a filter leaves is shorter -/

theorem length_behind? {part cs rest : List Char} (h : behind? part cs = some rest) :
    rest.length ≤ cs.length := by
  induction part generalizing cs with
  | nil => rw [behind?, Option.some.injEq] at h; exact Nat.le_of_eq (congrArg List.length h.symm)
  | cons c part ih =>
      cases cs with
      | nil => exact absurd h (by simp [behind?])
      | cons d cs =>
          rw [behind?] at h
          split at h
          · exact Nat.le_succ_of_le (ih h)
          · exact absurd h (by simp)

theorem length_quoted? {quote : Char} {cs value rest : List Char}
    (h : quoted? quote cs = some (value, rest)) : rest.length ≤ cs.length := by
  cases cs with
  | nil => exact absurd h (by simp [quoted?])
  | cons c cs =>
      rw [quoted?] at h
      split at h
      · simp only [Option.some.injEq, Prod.mk.injEq] at h
        rw [← h.2, List.length_drop, List.length_cons]
        have := Text.length_dropWhile_le (fun x : Char => decide (x ≠ quote)) cs
        omega
      · exact absurd h (by simp)

theorem length_value? {cs value rest : List Char} (h : value? cs = some (value, rest)) :
    rest.length ≤ cs.length := by
  have hblank := Text.length_dropWhile_le Text.isBlank cs
  simp only [value?, Option.or_eq_some_iff] at h
  rcases h with h | ⟨_, h | ⟨_, h⟩⟩
  · exact Nat.le_trans (length_quoted? h) hblank
  · exact Nat.le_trans (length_quoted? h) hblank
  · simp only [bare?] at h
    split at h
    · exact absurd h (by simp)
    · simp only [Option.some.injEq, Prod.mk.injEq] at h
      rw [← h.2]
      exact Nat.le_trans (Text.length_dropWhile_le _ _) hblank

theorem length_match? {cs : List Char} {m : Match} (h : match? cs = some m) :
    m.rest.length < cs.length := by
  simp only [match?] at h
  split at h
  · exact absurd h (by simp)
  · rename_i hname
    obtain ⟨symbol, _, hm⟩ := List.exists_of_findSome?_eq_some h
    simp only [Option.bind_eq_bind, Option.bind_eq_some_iff] at hm
    obtain ⟨fromValue, hbehind, ⟨value, rest⟩, hvalue, hm⟩ := hm
    simp only [pure, Option.some.injEq] at hm
    subst hm
    have hlen : (cs.takeWhile isNameChar).length + (cs.dropWhile isNameChar).length
        = cs.length := by
      rw [← List.length_append, List.takeWhile_append_dropWhile]
    have hpos : 0 < (cs.takeWhile isNameChar).length :=
      List.length_pos_iff.mpr (by simpa using hname)
    have h1 := length_value? hvalue
    have h2 := length_behind? hbehind
    have h3 := Text.length_dropWhile_le Text.isBlank (cs.dropWhile isNameChar)
    show rest.length < cs.length
    omega

/-- A part of a query: a filter, or a character outside filters. -/
inductive Part where
  | filter (f : Filter)
  | char (c : Char)

/-- Whether the character before the last `n` of a text belongs to a word. -/
def endsInWord (cs : List Char) (n : Nat) : Bool :=
  (cs.take (cs.length - n)).getLast?.any Text.isWordChar

/-- The parts of a text that stands behind a word character or not. -/
def partsFrom (afterWord : Bool) (cs : List Char) : List Part :=
  match cs with
  | [] => []
  | c :: rest =>
    match _h : if afterWord then none else match? (c :: rest) with
    | none => .char c :: partsFrom (Text.isWordChar c) rest
    | some m =>
      let found :=
        match m.filter? with
        | some f => [.filter f]
        | none => ((c :: rest).take ((c :: rest).length - m.rest.length)).map .char
      found ++ partsFrom (endsInWord (c :: rest) m.rest.length) m.rest
termination_by cs.length
decreasing_by
  · simp
  · split at _h
    · exact absurd _h (by simp)
    · exact length_match? _h

/-- The parts of a query. -/
def parts (text : String) : List Part := partsFrom false text.toList

/-- The filter of a part. -/
def Part.filter? : Part → Option Filter
  | .filter f => some f
  | .char _ => none

/-- What a part leaves outside the filters: a filter leaves a blank. -/
def Part.outside : Part → Char
  | .filter _ => ' '
  | .char c => c

/-- Whether a character is a quote. -/
def isQuote (c : Char) : Bool := c == '"' || c == '\''

/-- A word without the quotes around it. -/
def unquote (word : List Char) : List Char :=
  ((word.dropWhile isQuote).reverse.dropWhile isQuote).reverse

/-- The free terms of a text without filters. -/
def termsOf (cs : List Char) : List String :=
  (((Text.words cs).map unquote).filter (fun word => !word.isEmpty)).map
    (fun word => Text.lowercase (String.ofList word))

/-- Parses a query. -/
def ofText (text : String) : Query where
  filters := (parts text).filterMap Part.filter?
  terms := termsOf ((parts text).map Part.outside)

/-- Whether the query asks for nothing. -/
def isEmpty (q : Query) : Bool := q.filters.isEmpty && q.terms.isEmpty

/-- The text of a song that free terms are looked for in: its fields in order, in lower case. -/
def searchText (song : Song) : String :=
  Text.lowercase (" ".intercalate (Field.all.map song.field))

/-- Whether a song passes every filter and has every free term. -/
def matchesSong (q : Query) (song : Song) (index : VersionIndex) : Bool :=
  q.filters.all (fun f => f.matchesSong song index)
    && q.terms.all (fun term => Text.contains (searchText song) term)

/-- The query in words. -/
def describe (q : Query) : String :=
  ", ".intercalate (q.filters.map Filter.describe ++ q.terms.map (fun t => "'" ++ t ++ "'"))

end Query

end SongLibrary
