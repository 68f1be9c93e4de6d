import Mathlib.Data.List.Basic
import SongLibrary.View.Query
import SongLibrary.Proofs.Text.Words

/-!
# Reading a query undoes writing it

A query is written item by item with a blank between two items. An item is a filter, in one of the
ways a filter can be written, or a plain word. The difficulty is in what stands next to each other:
a name could be read together with the symbol of a later item, a symbol as the longer one that
begins with it, and a quoted value may hold text of the form of a filter. So each part of a filter
is read in front of an arbitrary rest, and the rest of an item is only asked to begin with a blank
and a character that starts no symbol.
-/

namespace SongLibrary.Query

/-! ## The notation -/

/-- The characters of symbols. -/
def isSymbolChar (c : Char) : Bool := ['=', '!', '<', '>', '~'].contains c

/-- The ways to write a value. -/
inductive Quoting where
  | double
  | single
  | bare

namespace Quoting

/-- The values that can be written so. -/
def Allows : Quoting → List Char → Prop
  | .double, value => '"' ∉ value
  | .single, value => '\'' ∉ value
  | .bare, value =>
      value ≠ [] ∧ (∀ c ∈ value, Text.isBlank c = false) ∧
        ∀ c, value.head? = some c → isQuote c = false ∧ c ≠ '='

/-- A value as it is written. -/
def write : Quoting → List Char → List Char
  | .double, value => '"' :: value ++ ['"']
  | .single, value => '\'' :: value ++ ['\'']
  | .bare, value => value

end Quoting

/-- A filter together with the way it is written. -/
structure WrittenFilter where
  name : String
  field : Field
  symbol : String
  comparison : Comparison
  /-- The white space in front of the symbol. -/
  before : List Char
  /-- The white space behind the symbol. -/
  after : List Char
  quoting : Quoting
  value : String
  isAlpha_name : ∀ c ∈ name.toList, c.isAlpha = true
  ofName?_name : Field.ofName? name = some field
  ofSymbol?_symbol : Comparison.ofSymbol? symbol = some comparison
  isBlank_before : ∀ c ∈ before, Text.isBlank c = true
  isBlank_after : ∀ c ∈ after, Text.isBlank c = true
  allows_value : quoting.Allows value.toList

/-- A word that is neither quoted nor mistaken for a part of a filter. -/
structure PlainWord where
  chars : List Char
  ne_nil : chars ≠ []
  isBlank_chars : ∀ c ∈ chars, Text.isBlank c = false
  isQuote_chars : ∀ c ∈ chars, isQuote c = false
  isSymbolChar_chars : ∀ c ∈ chars, isSymbolChar c = false

/-- What a query is written of. -/
inductive Item where
  | filter (f : WrittenFilter)
  | word (w : PlainWord)

namespace WrittenFilter

/-- The filter without the way it is written. -/
def filter (f : WrittenFilter) : Filter := ⟨f.field, f.comparison, f.value⟩

/-- The text of the value with the white space in front of it. -/
def valueChars (f : WrittenFilter) : List Char := f.after ++ f.quoting.write f.value.toList

/-- The text of a filter. -/
def chars (f : WrittenFilter) : List Char :=
  f.name.toList ++ (f.before ++ (f.symbol.toList ++ f.valueChars))

end WrittenFilter

namespace Item

/-- The text of an item. -/
def chars : Item → List Char
  | .filter f => f.chars
  | .word w => w.chars

/-- The parts that an item is read as. -/
def parts : Item → List Part
  | .filter f => [.filter f.filter]
  | .word w => w.chars.map .char

/-- The filter that an item asks for. -/
def filter? : Item → Option Filter
  | .filter f => some f.filter
  | .word _ => none

/-- The free term that an item asks for. -/
def term? : Item → Option String
  | .filter _ => none
  | .word w => some (Text.lowercase (String.ofList w.chars))

end Item

/-- The query of some items, with a blank between two of them. -/
def written (items : List Item) : String :=
  String.ofList (Text.joinWith [' '] (items.map Item.chars))

/-! ## The characters of names and symbols -/

theorem toNat_of_isAlpha {c : Char} (h : c.isAlpha = true) :
    (0x41 ≤ c.toNat ∧ c.toNat ≤ 0x5a) ∨ (0x61 ≤ c.toNat ∧ c.toNat ≤ 0x7a) := by
  rcases Bool.or_eq_true_iff.mp h with hupper | hlower
  · exact .inl (of_decide_eq_true hupper)
  · exact .inr ((Bool.and_eq_true_iff.mp hlower).imp of_decide_eq_true of_decide_eq_true)

theorem isBlank_of_isNameChar {c : Char} (h : isNameChar c = true) : Text.isBlank c = false := by
  refine Bool.eq_false_iff.mpr fun hblank => ?_
  rw [isNameChar, Bool.or_eq_true, beq_iff_eq] at h
  rcases h with h | rfl
  · have hletter := toNat_of_isAlpha h
    obtain ⟨r, hr, hfirst, hlast⟩ := Text.exists_range_of_inRanges hblank
    simp only [Text.blankTable, List.mem_cons, List.not_mem_nil, or_false] at hr
    rcases hr with rfl | rfl | rfl | rfl | rfl | rfl | rfl | rfl | rfl | rfl <;>
      simp only at hfirst hlast <;> omega
  · exact absurd hblank (by decide)

theorem isNameChar_of_isBlank {c : Char} (h : Text.isBlank c = true) : isNameChar c = false :=
  Bool.eq_false_iff.mpr fun hname => absurd (isBlank_of_isNameChar hname) (by simp [h])

theorem mem_of_isSymbolChar {c : Char} (h : isSymbolChar c = true) :
    c = '=' ∨ c = '!' ∨ c = '<' ∨ c = '>' ∨ c = '~' := by
  simpa [isSymbolChar] using h

theorem isNameChar_of_isSymbolChar {c : Char} (h : isSymbolChar c = true) :
    isNameChar c = false := by
  rcases mem_of_isSymbolChar h with rfl | rfl | rfl | rfl | rfl <;> decide

theorem isBlank_of_isSymbolChar {c : Char} (h : isSymbolChar c = true) :
    Text.isBlank c = false := by
  rcases mem_of_isSymbolChar h with rfl | rfl | rfl | rfl | rfl <;> decide

theorem isSymbolChar_of_isNameChar {c : Char} (h : isNameChar c = true) :
    isSymbolChar c = false :=
  Bool.eq_false_iff.mpr fun hsymbol => absurd (isNameChar_of_isSymbolChar hsymbol) (by simp [h])

theorem isNameChar_of_isAlpha {c : Char} (h : c.isAlpha = true) : isNameChar c = true := by
  rw [isNameChar, h, Bool.true_or]

/-! ## Reading a value -/

section

variable {value cs rest : List Char}

theorem quoted?_of_notMem {quote : Char} (h : quote ∉ value) :
    quoted? quote (quote :: (value ++ quote :: rest)) = some (value, rest) := by
  have hrun : ∀ c ∈ value, decide (c ≠ quote) = true :=
    fun c hc => decide_eq_true fun heq => h (heq ▸ hc)
  have hstops : Text.Stops (fun c => decide (c ≠ quote)) (quote :: rest) := by
    simp [Text.Stops]
  rw [quoted?, if_pos ⟨rfl, by simp⟩, Text.takeWhile_run hrun hstops,
    Text.dropWhile_run hrun hstops]
  rfl

theorem quoted?_of_ne {quote c : Char} (h : c ≠ quote) : quoted? quote (c :: cs) = none := by
  rw [quoted?, if_neg fun hc => h hc.1]

theorem bare?_run (hne : value ≠ []) (hvalue : ∀ c ∈ value, Text.isBlank c = false)
    (hrest : Text.Stops (fun c => !Text.isBlank c) rest) :
    bare? (value ++ rest) = some (value, rest) := by
  have hrun : ∀ c ∈ value, (!Text.isBlank c) = true := fun c hc => by rw [hvalue c hc]; rfl
  simp [bare?, Text.takeWhile_run hrun hrest, Text.dropWhile_run hrun hrest, hne]

/-- A written value starts with a character that does not make a symbol longer. -/
theorem Quoting.head_write {quoting : Quoting} (h : quoting.Allows value) :
    ∃ c cs, quoting.write value = c :: cs ∧ Text.isBlank c = false ∧ c ≠ '=' := by
  cases quoting with
  | double => exact ⟨_, _, rfl, by decide, by decide⟩
  | single => exact ⟨_, _, rfl, by decide, by decide⟩
  | bare =>
      obtain ⟨hne, hblank, hhead⟩ := h
      obtain ⟨c, cs, rfl⟩ := List.exists_cons_of_ne_nil hne
      exact ⟨c, cs, rfl, hblank c (by simp), (hhead c rfl).2⟩

theorem value?_write {quoting : Quoting} (h : quoting.Allows value) {after : List Char}
    (hafter : ∀ c ∈ after, Text.isBlank c = true)
    (hrest : Text.Stops (fun c => !Text.isBlank c) rest) :
    value? (after ++ (quoting.write value ++ rest)) = some (value, rest) := by
  obtain ⟨c, cs, hwrite, hblank, -⟩ := Quoting.head_write h
  have hstops : Text.Stops Text.isBlank (quoting.write value ++ rest) := by
    simp [Text.Stops, hwrite, hblank]
  rw [value?, Text.dropWhile_run hafter hstops]
  cases quoting with
  | double =>
      simp only [Quoting.write, List.cons_append, List.append_assoc, List.nil_append]
      rw [quoted?_of_notMem h, Option.some_or]
  | single =>
      simp only [Quoting.write, List.cons_append, List.append_assoc, List.nil_append]
      rw [quoted?_of_ne (by decide), quoted?_of_notMem h, Option.none_or, Option.some_or]
  | bare =>
      obtain ⟨hne, hsolid, hhead⟩ := h
      have hvalue : value = c :: cs := hwrite
      have hquote := (hhead c (by rw [hvalue]; rfl)).1
      simp only [isQuote, Bool.or_eq_false_iff, beq_eq_false_iff_ne] at hquote
      have hbare := bare?_run hne hsolid hrest
      rw [hvalue, List.cons_append] at hbare
      rw [hwrite, List.cons_append, quoted?_of_ne hquote.1, quoted?_of_ne hquote.2, hbare, hvalue,
        Option.none_or, Option.none_or]

end

/-! ## Reading a symbol -/

section

variable {symbol : String} {comparison : Comparison} {c : Char} {cs : List Char}

/-- Every symbol that stands for a comparison is tried. -/
theorem mem_symbolsTried (h : Comparison.ofSymbol? symbol = some comparison) :
    symbol ∈ symbolsTried := by
  have hall : ∀ entry ∈ Comparison.symbols, entry.1 ∈ symbolsTried := by decide
  obtain ⟨before, behind, hsymbols, -⟩ := List.lookup_eq_some_iff.mp h
  exact hall (symbol, comparison) (by rw [hsymbols]; simp)

theorem head_of_mem_symbolsTried (h : symbol ∈ symbolsTried) :
    ∃ c cs, symbol.toList = c :: cs ∧ isSymbolChar c = true := by
  simp only [symbolsTried, List.mem_cons, List.not_mem_nil, or_false] at h
  rcases h with rfl | rfl | rfl | rfl | rfl | rfl | rfl | rfl | rfl <;>
    exact ⟨_, _, rfl, by decide⟩

/-- The symbol that is found is the written one, unless the text behind it makes it longer: a symbol
that is tried before another and begins with it goes on with an equals sign. -/
theorem findSome?_symbolsTried {β : Type} {read : String → List Char → Option β} {found : β}
    (h : symbol ∈ symbolsTried) (hc : c ≠ '=') (hread : read symbol (c :: cs) = some found) :
    symbolsTried.findSome? (fun tried => (behind? tried.toList (symbol.toList ++ c :: cs)).bind
      (read tried)) = some found := by
  have hne : ¬('=' = c) := fun heq => hc heq.symm
  simp only [symbolsTried, List.mem_cons, List.not_mem_nil, or_false] at h
  rcases h with rfl | rfl | rfl | rfl | rfl | rfl | rfl | rfl | rfl <;>
    simp [symbolsTried, behind?, hne, hread]

theorem behind?_of_stops (h : symbol ∈ symbolsTried)
    (hcs : Text.Stops isSymbolChar cs) : behind? symbol.toList cs = none := by
  obtain ⟨d, ds, hsymbol, hd⟩ := head_of_mem_symbolsTried h
  cases cs with
  | nil => rw [hsymbol, behind?]
  | cons c cs =>
      have hne : d ≠ c := fun heq => by rw [heq, hcs c rfl] at hd; exact absurd hd (by simp)
      rw [hsymbol, behind?, if_neg hne]

end

/-! ## Reading a filter -/

/-- What may stand behind an item. -/
inductive Follows : List Char → Prop where
  | nil : Follows []
  | blank {c : Char} {cs : List Char} : Text.isBlank c = false → isSymbolChar c = false →
      Follows (' ' :: c :: cs)

theorem Follows.stops {rest : List Char} (h : Follows rest) :
    Text.Stops (fun c => !Text.isBlank c) rest := by
  cases h with
  | nil => exact fun c hc => absurd hc (by simp)
  | blank _ _ => exact fun c hc => by cases hc; decide

namespace WrittenFilter

variable (f : WrittenFilter)

theorem mem_symbolsTried_symbol : f.symbol ∈ symbolsTried := mem_symbolsTried f.ofSymbol?_symbol

theorem name_ne_nil : f.name.toList ≠ [] := by
  intro hname
  have hempty : f.name = "" := String.toList_inj.mp hname
  have hfield := f.ofName?_name
  rw [hempty, show Field.ofName? "" = none by decide] at hfield
  exact absurd hfield (by simp)

theorem isNameChar_name (c : Char) (hc : c ∈ f.name.toList) : isNameChar c = true :=
  isNameChar_of_isAlpha (f.isAlpha_name c hc)

/-- No symbol is made longer by what stands behind it. -/
theorem head_valueChars : ∃ c cs, f.valueChars = c :: cs ∧ c ≠ '=' := by
  obtain ⟨v, vs, hwrite, -, hv⟩ := Quoting.head_write f.allows_value
  rw [valueChars, hwrite]
  cases hafter : f.after with
  | nil => exact ⟨v, vs, rfl, hv⟩
  | cons c cs =>
      refine ⟨c, cs ++ v :: vs, rfl, fun heq => ?_⟩
      have hblank := f.isBlank_after c (by simp [hafter])
      rw [heq] at hblank
      exact absurd hblank (by decide)

/-- **A written filter is read as it was written.** -/
theorem match?_chars {rest : List Char} (h : Follows rest) :
    match? (f.chars ++ rest) = some ⟨f.name, f.symbol, f.value, rest⟩ := by
  obtain ⟨s, ss, hsymbol, hs⟩ := head_of_mem_symbolsTried f.mem_symbolsTried_symbol
  obtain ⟨v, vs, hvalue, hv⟩ := f.head_valueChars
  -- The name ends at the symbol or at the white space in front of it, and that ends at the symbol.
  have hbefore : Text.Stops Text.isBlank (f.symbol.toList ++ (f.valueChars ++ rest)) := by
    simp [Text.Stops, hsymbol, isBlank_of_isSymbolChar hs]
  have hname : Text.Stops isNameChar (f.before ++ (f.symbol.toList ++ (f.valueChars ++ rest))) :=
    Text.Stops.append (fun c hc => isNameChar_of_isBlank (f.isBlank_before c hc))
      (by simp [Text.Stops, hsymbol, isNameChar_of_isSymbolChar hs])
  have hread : value? (f.valueChars ++ rest) = some (f.value.toList, rest) := by
    rw [valueChars, List.append_assoc]
    exact value?_write f.allows_value f.isBlank_after h.stops
  simp only [match?, chars, List.append_assoc, Text.takeWhile_run f.isNameChar_name hname,
    Text.dropWhile_run f.isNameChar_name hname, Text.dropWhile_run f.isBlank_before hbefore]
  rw [hvalue, List.cons_append] at hread ⊢
  rw [if_neg (by simpa using f.name_ne_nil)]
  exact findSome?_symbolsTried f.mem_symbolsTried_symbol hv (by simp [hread])

/-- The text of a filter is a match of its own name, symbol and value. -/
theorem filter?_match (rest : List Char) :
    Match.filter? ⟨f.name, f.symbol, f.value, rest⟩ = some f.filter := by
  simp [Match.filter?, f.ofName?_name, f.ofSymbol?_symbol, filter]

end WrittenFilter

/-! ## Reading a word -/

/-- Behind a name and the white space after it, no symbol follows in the text of a word. -/
theorem stops_dropWhile {run rest : List Char} (hblank : ∀ c ∈ run, Text.isBlank c = false)
    (hsymbol : ∀ c ∈ run, isSymbolChar c = false) (h : Follows rest) :
    Text.Stops isSymbolChar (((run ++ rest).dropWhile isNameChar).dropWhile Text.isBlank) := by
  induction run with
  | nil =>
      cases h with
      | nil => simp [Text.Stops]
      | blank hcb hcs =>
          simp [Text.Stops, hcb, hcs, show isNameChar ' ' = false by decide,
            show Text.isBlank ' ' = true by decide]
  | cons c run ih =>
      cases hc : isNameChar c with
      | true =>
          rw [List.cons_append, List.dropWhile_cons_of_pos hc]
          exact ih (fun d hd => hblank d (by simp [hd])) fun d hd => hsymbol d (by simp [hd])
      | false =>
          simp [Text.Stops, hc, hblank c (by simp), hsymbol c (by simp)]

theorem match?_eq_none {cs : List Char}
    (h : Text.Stops isSymbolChar ((cs.dropWhile isNameChar).dropWhile Text.isBlank)) :
    match? cs = none := by
  rw [match?]
  split
  · rfl
  · refine List.findSome?_eq_none_iff.mpr fun symbol hsymbol => ?_
    rw [behind?_of_stops hsymbol h]
    rfl

/-! ## The parts of a query -/

theorem partsFrom_char {afterWord : Bool} {c : Char} {cs : List Char}
    (h : match? (c :: cs) = none) :
    partsFrom afterWord (c :: cs) = .char c :: partsFrom (Text.isWordChar c) cs := by
  rw [partsFrom]
  split
  · rfl
  · next m hm =>
      split at hm
      · exact absurd hm (by simp)
      · rw [h] at hm; exact absurd hm (by simp)

theorem partsFrom_filter {c : Char} {cs : List Char} {m : Match} {f : Filter}
    (h : match? (c :: cs) = some m) (hf : m.filter? = some f) :
    partsFrom false (c :: cs) =
      .filter f :: partsFrom (endsInWord (c :: cs) m.rest.length) m.rest := by
  rw [partsFrom]
  split
  · next hnone => rw [if_neg (by simp), h] at hnone; exact absurd hnone (by simp)
  · next m' hm =>
      rw [if_neg (by simp), h, Option.some.injEq] at hm
      rw [← hm, hf]
      rfl

theorem partsFrom_blank (afterWord : Bool) (cs : List Char) :
    partsFrom afterWord (' ' :: cs) = .char ' ' :: partsFrom false cs :=
  partsFrom_char (by simp [match?, show isNameChar ' ' = false by decide])

/-- Behind an item it does not matter what the item ended with. -/
theorem Follows.partsFrom {rest : List Char} (h : Follows rest) (afterWord : Bool) :
    Query.partsFrom afterWord rest = Query.partsFrom false rest := by
  cases h with
  | nil => rw [Query.partsFrom, Query.partsFrom]
  | blank _ _ => rw [partsFrom_blank, partsFrom_blank]

theorem partsFrom_word {run rest : List Char} (hblank : ∀ c ∈ run, Text.isBlank c = false)
    (hsymbol : ∀ c ∈ run, isSymbolChar c = false) (h : Follows rest) (afterWord : Bool) :
    partsFrom afterWord (run ++ rest) = run.map .char ++ partsFrom false rest := by
  induction run generalizing afterWord with
  | nil => exact h.partsFrom afterWord
  | cons c run ih =>
      have hnone := match?_eq_none (stops_dropWhile hblank hsymbol h)
      rw [List.cons_append] at hnone ⊢
      rw [partsFrom_char hnone, ih (fun d hd => hblank d (by simp [hd]))
        (fun d hd => hsymbol d (by simp [hd]))]
      rfl

namespace Item

/-- An item starts with a character that neither separates items nor belongs to a symbol. -/
theorem head_chars (item : Item) :
    ∃ c cs, item.chars = c :: cs ∧ Text.isBlank c = false ∧ isSymbolChar c = false := by
  cases item with
  | filter f =>
      obtain ⟨c, cs, hname⟩ := List.exists_cons_of_ne_nil f.name_ne_nil
      have hc := f.isNameChar_name c (by simp [hname])
      exact ⟨c, _, by rw [chars, WrittenFilter.chars, hname, List.cons_append],
        isBlank_of_isNameChar hc, isSymbolChar_of_isNameChar hc⟩
  | word w =>
      obtain ⟨c, cs, hchars⟩ := List.exists_cons_of_ne_nil w.ne_nil
      have hc : c ∈ w.chars := by simp [hchars]
      exact ⟨c, cs, hchars, w.isBlank_chars c hc, w.isSymbolChar_chars c hc⟩

/-- **An item is read as its parts**, whatever follows it. -/
theorem partsFrom_chars (item : Item) {rest : List Char} (h : Follows rest) :
    partsFrom false (item.chars ++ rest) = item.parts ++ partsFrom false rest := by
  cases item with
  | filter f =>
      have hmatch := f.match?_chars h
      obtain ⟨c, cs, hchars, -⟩ := head_chars (.filter f)
      simp only [chars] at hchars ⊢
      rw [hchars, List.cons_append] at hmatch ⊢
      rw [partsFrom_filter hmatch (f.filter?_match rest), h.partsFrom]
      rfl
  | word w => exact partsFrom_word w.isBlank_chars w.isSymbolChar_chars h false

end Item

theorem Follows.items (item : Item) (items : List Item) :
    Follows (' ' :: Text.joinWith [' '] (item.chars :: items.map Item.chars)) := by
  obtain ⟨c, cs, hchars, hblank, hsymbol⟩ := item.head_chars
  cases items with
  | nil => rw [List.map_nil, Text.joinWith, hchars]; exact .blank hblank hsymbol
  | cons next items =>
      rw [List.map_cons, Text.joinWith_cons_cons, hchars]
      exact .blank hblank hsymbol

theorem partsFrom_joinWith (items : List Item) :
    partsFrom false (Text.joinWith [' '] (items.map Item.chars)) =
      Text.joinWith [.char ' '] (items.map Item.parts) := by
  induction items with
  | nil => simp [Text.joinWith, partsFrom]
  | cons item items ih =>
      cases items with
      | nil => simpa [Text.joinWith, partsFrom] using item.partsFrom_chars .nil
      | cons next items =>
          simp only [List.map_cons, Text.joinWith_cons_cons, List.append_assoc,
            List.singleton_append] at ih ⊢
          rw [item.partsFrom_chars (.items next items), partsFrom_blank, ih]

/-! ## The free terms -/

theorem termsOf_joinWith {blank : Char} (h : Text.isBlank blank = true)
    (pieces : List (List Char)) :
    termsOf (Text.joinWith [blank] pieces) = pieces.flatMap termsOf := by
  simp only [termsOf, Text.words_joinWith h, List.map_flatMap, List.filter_flatMap]
  rfl

theorem unquote_of_forall {word : List Char} (h : ∀ c ∈ word, isQuote c = false) :
    unquote word = word := by
  have hstart : Text.Stops isQuote word := fun c hc => h c (List.mem_of_head? hc)
  have hend : Text.Stops isQuote word.reverse :=
    fun c hc => h c (List.mem_reverse.mp (List.mem_of_head? hc))
  rw [unquote, Text.dropWhile_of_stops hstart, Text.dropWhile_of_stops hend, List.reverse_reverse]

namespace Item

theorem filterMap_parts (item : Item) :
    item.parts.filterMap Part.filter? = item.filter?.toList := by
  cases item with
  | filter f => rfl
  | word w => simp [parts, filter?, Part.filter?, Function.comp_def]

theorem termsOf_parts (item : Item) :
    termsOf (item.parts.map Part.outside) = item.term?.toList := by
  cases item with
  | filter f => rfl
  | word w =>
      have houtside : (w.chars.map Part.char).map Part.outside = w.chars := by
        simp [Function.comp_def, Part.outside]
      simp [parts, houtside, termsOf, Text.words_of_solid w.ne_nil w.isBlank_chars,
        unquote_of_forall w.isQuote_chars, w.ne_nil, term?]

end Item

/-- **Reading a query undoes writing it**: its filters are those that were written, with their
field, comparison and value, and its free terms are the words in lower case. -/
theorem ofText_written (items : List Item) :
    ofText (written items) = ⟨items.filterMap Item.filter?, items.filterMap Item.term?⟩ := by
  have hparts : parts (written items) = Text.joinWith [.char ' '] (items.map Item.parts) := by
    rw [parts, written, String.toList_ofList, partsFrom_joinWith]
  have hfilters :
      (parts (written items)).filterMap Part.filter? = items.filterMap Item.filter? := by
    rw [hparts, Text.filterMap_joinWith rfl, List.flatMap_map, List.filterMap_eq_flatMap_toList]
    simp only [Item.filterMap_parts]
  have hterms : termsOf ((parts (written items)).map Part.outside) =
      items.filterMap Item.term? := by
    rw [hparts, Text.map_joinWith, List.map_map, List.filterMap_eq_flatMap_toList]
    simp only [List.map_cons, List.map_nil, Part.outside]
    rw [termsOf_joinWith (by decide), List.flatMap_map]
    simp only [Function.comp_apply, Item.termsOf_parts]
  rw [ofText, hfilters, hterms]

/-- A quoted value may have the form of a filter, and a word may be the name of a field. -/
example : written [
    .word ⟨['t', 'i', 't', 'l', 'e'], by simp, by simp; decide, by simp [isQuote],
      by simp [isSymbolChar]⟩,
    .filter ⟨"Artist", .artist, ">=", .greaterOrEqual, [], [' '], .single, "disc<2",
      List.all_eq_true.mp rfl, rfl, rfl, by simp, List.all_eq_true.mp rfl,
      by simp [Quoting.Allows]⟩]
    = "title Artist>= 'disc<2'" := rfl

end SongLibrary.Query
