import SongLibrary.Proofs.Json.Number

/-!
# A written value as tokens

`lex` reads a text character by character. This file says what it makes of each kind of token that a
printer writes, and from that what it makes of a whole value in compact form: `tokens`, the tokens
of the value in order.

All statements are about a text that goes on behind what is written. A name or a number has no end
of its own, so behind it the text must go on with a delimiter, or be over.
-/

namespace SongLibrary.Json

/-! ## Punctuation and words -/

/-- What may follow a name or a number. -/
def EndsWord (rest : List Char) : Prop := ∀ c, rest.head? = some c → isDelimiter c = true

theorem EndsWord.cons {c : Char} (h : isDelimiter c = true) (rest : List Char) :
    EndsWord (c :: rest) := by
  intro d hd
  obtain rfl : c = d := Option.some.inj hd
  exact h

theorem EndsWord.nil : EndsWord [] := fun c hc => absurd hc (by simp)

theorem lexFrom_cons {mode mode' : Mode} {found found' : List Token} {c : Char} {cs : List Char}
    (h : readChar c found mode = some (mode', found')) :
    lexFrom mode found (c :: cs) = lexFrom mode' found' cs := by
  rw [lexFrom, h]

theorem lexFrom_punctuation {c : Char} (token : Token) (h : punctuation? c = some token)
    (found : List Token) (rest : List Char) :
    lexFrom .between found (c :: rest) = lexFrom .between (token :: found) rest := by
  have hspace : isSpace c = false := by
    unfold punctuation? at h
    split at h <;> first | rfl | exact absurd h (by simp)
  refine lexFrom_cons ?_
  simp [readChar, start, hspace, h]

theorem lexFrom_word_chars {word : List Char} (hword : ∀ c ∈ word, isDelimiter c = false)
    (read : List Char) (found : List Token) (rest : List Char) :
    lexFrom (.word read) found (word ++ rest)
      = lexFrom (.word (word.reverse ++ read)) found rest := by
  induction word generalizing read with
  | nil => rfl
  | cons c cs ih =>
      have hc := hword c (by simp)
      have hread : readChar c found (.word read) = some (.word (c :: read), found) := by
        simp [readChar, hc]
      rw [List.cons_append, lexFrom_cons hread, ih fun d hd => hword d (by simp [hd])]
      simp

/-- The delimiter behind a word is read as if it stood alone. -/
theorem lexFrom_word_end {read rest : List Char} {token : Token}
    (htoken : wordToken? read.reverse = some token) (hrest : EndsWord rest) (found : List Token) :
    lexFrom (.word read) found rest = lexFrom .between (token :: found) rest := by
  cases rest with
  | nil => simp [lexFrom, finish, htoken]
  | cons c cs =>
      have hc := hrest c rfl
      simp [lexFrom, readChar, hc, htoken]

theorem lexFrom_word {word rest : List Char} {token : Token} (hne : word ≠ [])
    (hword : ∀ c ∈ word, isDelimiter c = false) (htoken : wordToken? word = some token)
    (hrest : EndsWord rest) (found : List Token) :
    lexFrom .between found (word ++ rest) = lexFrom .between (token :: found) rest := by
  cases word with
  | nil => exact absurd rfl hne
  | cons c cs =>
      have hc := hword c (by simp)
      -- the first character begins a word because it is no delimiter
      simp only [isDelimiter, Bool.or_eq_false_iff, Option.isSome_eq_false_iff,
        Option.isNone_iff_eq_none, beq_eq_false_iff_ne, ne_eq] at hc
      obtain ⟨⟨hspace, hpunctuation⟩, hquote⟩ := hc
      have hread : readChar c found .between = some (.word [c], found) := by
        simp [readChar, start, hspace, hpunctuation, hquote]
      have htoken' : wordToken? (cs.reverse ++ [c]).reverse = some token := by simpa using htoken
      rw [List.cons_append, lexFrom_cons hread,
        lexFrom_word_chars fun d hd => hword d (by simp [hd]), lexFrom_word_end htoken' hrest]

/-! ## Numbers -/

theorem isDelimiter_of_isDigit {c : Char} (h : c.isDigit = true) : isDelimiter c = false := by
  have hall : [' ', '\t', '\n', '\r', '[', ']', '\x7b', '\x7d', ':', ',', '"'].all
      (fun d => !d.isDigit) = true := by decide
  have hne : ∀ d ∈ [' ', '\t', '\n', '\r', '[', ']', '\x7b', '\x7d', ':', ',', '"'], c ≠ d := by
    intro d hd he
    have hd' := List.all_eq_true.mp hall d hd
    rw [← he, h] at hd'
    exact Bool.noConfusion hd'
  have hpunctuation : punctuation? c = none := by
    unfold punctuation?
    split <;> first | rfl | exact absurd rfl (hne _ (by decide))
  simp only [List.mem_cons, List.not_mem_nil, or_false, forall_eq_or_imp, forall_eq] at hne
  simp [isDelimiter, isSpace, hpunctuation, hne]

theorem wordToken?_write {n : Numeral} (h : n.Written) :
    wordToken? n.write = some (.number (Number.ofNumeral? n)) := by
  obtain ⟨c, cs, hwrite, hc⟩ := Numeral.head_write h
  have hname : ∀ name : String, name.toList.head?.all (fun d => !d.isDigit && d != '-') = true →
      name ≠ "" → String.ofList n.write ≠ name := by
    intro name hname hne he
    rw [← he, String.toList_ofList, hwrite] at hname
    rcases hc with hc | rfl <;> simp_all
  unfold wordToken?
  split
  · exact absurd (by assumption) (hname "null" (by decide) (by decide))
  · exact absurd (by assumption) (hname "true" (by decide) (by decide))
  · exact absurd (by assumption) (hname "false" (by decide) (by decide))
  · rw [Numeral.ofChars?_write h]
    simp [Number.wellFormed_of_written h]

theorem lexFrom_number (n : Number) {rest : List Char} (hrest : EndsWord rest)
    (found : List Token) :
    lexFrom .between found (n.write ++ rest)
      = lexFrom .between (.number (some n) :: found) rest := by
  obtain ⟨numeral, hwritten, hwrite, hnumber⟩ := Number.exists_numeral n
  rw [← hwrite]
  refine lexFrom_word ?_ ?_ ?_ hrest found
  · obtain ⟨c, cs, hcs, -⟩ := Numeral.head_write hwritten
    rw [hcs]
    simp
  · intro c hc
    rcases hwritten.spells.mem hc with hdigit | hother
    · exact isDelimiter_of_isDigit hdigit
    · simp only [List.mem_cons, List.not_mem_nil, or_false] at hother
      rcases hother with rfl | rfl | rfl | rfl | rfl <;> rfl
  · rw [wordToken?_write hwritten, hnumber]

/-! ## Strings -/

/-- What a written character is read as: a control character without a short escape as a unit of
sixteen bits, any other as itself. -/
def Piece.ofWritten (c : Char) : Piece :=
  if (escapeChar c).length = 6 then .unit c.toNat else .char c

theorem Piece.decode_unit {n : Nat} (h : n < 0xd800) (rest : List Piece) :
    decode (.unit n :: rest) = (decode rest).map (Char.ofNat n :: ·) := by
  have hhigh : Text.isHighSurrogate n = false := by simp [Text.isHighSurrogate]; omega
  have hlow : Text.isLowSurrogate n = false := by simp [Text.isLowSurrogate]; omega
  cases rest with
  | nil => simp [decode, hhigh, hlow]
  | cons piece rest => cases piece <;> simp [decode, hhigh, hlow]

theorem lt_space_of_length {c : Char} (h : (escapeChar c).length = 6) : c < ' ' := by
  unfold escapeChar at h
  split at h
  case h_8 =>
    split at h
    · assumption
    · exact absurd h (by simp)
  all_goals exact absurd h (by simp)

theorem Piece.decode_ofWritten (cs : List Char) : decode (cs.map ofWritten) = some cs := by
  induction cs with
  | nil => rfl
  | cons c cs ih =>
      rw [List.map_cons, ofWritten]
      split
      · rename_i hlength
        have hlt : c.toNat < 32 := lt_space_of_length hlength
        rw [decode_unit (by omega), ih, Char.ofNat_toNat]
        rfl
      · rw [decode, ih]
        rfl

theorem hexValue?_hexDigit {n : Nat} (h : n < 16) : hexValue? (hexDigit n) = some n := by
  have hall : ∀ n, n < 16 → hexValue? (hexDigit n) = some n := by decide
  exact hall n h

theorem lexFrom_unit {c : Char} (h : c < ' ') (read : List Piece) (found : List Token)
    (rest : List Char) :
    lexFrom (.string read) found
        ('\\' :: 'u' :: '0' :: '0' :: hexDigit (c.toNat / 16) :: hexDigit (c.toNat % 16) :: rest)
      = lexFrom (.string (.unit c.toNat :: read)) found rest := by
  have hlt : c.toNat < 32 := h
  have hzero : hexValue? '0' = some 0 := rfl
  have hhigh := hexValue?_hexDigit (n := c.toNat / 16) (by omega)
  have hlow := hexValue?_hexDigit (n := c.toNat % 16) (by omega)
  have hsum : 16 * (c.toNat / 16) + c.toNat % 16 = c.toNat := by omega
  simp [lexFrom, readChar, hzero, hhigh, hlow, hsum]

theorem lexFrom_escapeChar (c : Char) (read : List Piece) (found : List Token)
    (rest : List Char) :
    lexFrom (.string read) found (escapeChar c ++ rest)
      = lexFrom (.string (.ofWritten c :: read)) found rest := by
  by_cases hlength : (escapeChar c).length = 6
  · have hlt := lt_space_of_length hlength
    have hunit : Piece.ofWritten c = .unit c.toNat := if_pos hlength
    rw [hunit, ← lexFrom_unit hlt]
    unfold escapeChar at hlength ⊢
    split at hlength
    -- only the last branch of the printer writes six characters
    case h_8 => rw [if_pos hlt]; rfl
    all_goals exact absurd hlength (by simp)
  · have hchar : Piece.ofWritten c = .char c := if_neg hlength
    rw [hchar]
    unfold escapeChar at hlength ⊢
    split at hlength
    case h_8 hquote hbackslash _ _ _ _ _ =>
      split at hlength
      · exact absurd rfl hlength
      · rename_i hge
        -- a character that needs no escape
        rw [if_neg hge]
        exact lexFrom_cons (by rw [readChar, if_neg hquote, if_neg hbackslash, if_neg hge])
    all_goals rfl

theorem lexFrom_chars (cs : List Char) (read : List Piece) (found : List Token)
    (rest : List Char) :
    lexFrom (.string read) found (cs.flatMap escapeChar ++ rest)
      = lexFrom (.string ((cs.map Piece.ofWritten).reverse ++ read)) found rest := by
  induction cs generalizing read with
  | nil => rfl
  | cons c cs ih =>
      rw [List.flatMap_cons, List.append_assoc, lexFrom_escapeChar, ih]
      simp

/-- **A string in quotes is one token, with the characters of the string.** -/
theorem lexFrom_quote (s : String) (found : List Token) (rest : List Char) :
    lexFrom .between found (quote s ++ rest)
      = lexFrom .between (.string (some s) :: found) rest := by
  -- the opening quote, then the characters, then the closing quote
  have hopen : lexFrom .between found (quote s ++ rest)
      = lexFrom (.string []) found (s.toList.flatMap escapeChar ++ '"' :: rest) := by
    rw [quote, List.append_assoc, List.cons_append]
    exact lexFrom_cons rfl
  rw [hopen, lexFrom_chars]
  refine lexFrom_cons ?_
  simp [readChar, Piece.decode_ofWritten, String.ofList_toList]

/-! ## Values -/

mutual

/-- The tokens of a value. -/
def tokens : Json → List Token
  | .null => [.null]
  | .bool value => [.bool value]
  | .number value => [.number (some value)]
  | .string value => [.string (some value)]
  | .array [] => [.openArray, .closeArray]
  | .array (item :: rest) =>
    .openArray :: (tokens item ++ (tokensOfItems rest ++ [.closeArray]))
  | .object [] => [.openObject, .closeObject]
  | .object ((key, value) :: rest) =>
    .openObject :: .string (some key) :: .colon ::
      (tokens value ++ (tokensOfMembers rest ++ [.closeObject]))

/-- The tokens of further items of an array. -/
def tokensOfItems : List Json → List Token
  | [] => []
  | item :: rest => .comma :: (tokens item ++ tokensOfItems rest)

/-- The tokens of further members of an object. -/
def tokensOfMembers : List (String × Json) → List Token
  | [] => []
  | (key, value) :: rest =>
    .comma :: .string (some key) :: .colon :: (tokens value ++ tokensOfMembers rest)

end

theorem endsWord_items (items : List Json) (rest : List Char) :
    EndsWord (writeCompactItems items ++ ']' :: rest) := by
  cases items with
  | nil => exact EndsWord.cons rfl _
  | cons item items => exact EndsWord.cons rfl _

theorem endsWord_members (members : List (String × Json)) (rest : List Char) :
    EndsWord (writeCompactMembers members ++ '\x7d' :: rest) := by
  cases members with
  | nil => exact EndsWord.cons rfl _
  | cons member members => obtain ⟨key, value⟩ := member; exact EndsWord.cons rfl _

/-- A word that is written out, such as a truth value, is read as its token. -/
theorem lexFrom_fixedWord (word : List Char) {rest : List Char} {token : Token} (hne : word ≠ [])
    (hword : word.all (fun c => !isDelimiter c) = true) (htoken : wordToken? word = some token)
    (hrest : EndsWord rest) (found : List Token) :
    lexFrom .between found (word ++ rest) = lexFrom .between (token :: found) rest := by
  refine lexFrom_word hne (fun c hc => ?_) htoken hrest found
  simpa using List.all_eq_true.mp hword c hc

theorem lexFrom_bool (value : Bool) {rest : List Char} (hrest : EndsWord rest)
    (found : List Token) :
    lexFrom .between found (writeBool value ++ rest)
      = lexFrom .between (.bool value :: found) rest := by
  cases value with
  | true => exact lexFrom_fixedWord "true".toList (by decide) (by decide) rfl hrest found
  | false => exact lexFrom_fixedWord "false".toList (by decide) (by decide) rfl hrest found

mutual

/-- **A value in compact form is read as its tokens.** -/
theorem lexFrom_writeCompact (v : Json) {rest : List Char} (hrest : EndsWord rest)
    (found : List Token) :
    lexFrom .between found (writeCompact v ++ rest)
      = lexFrom .between ((tokens v).reverse ++ found) rest := by
  match v with
  | .null =>
      rw [writeCompact]
      exact lexFrom_fixedWord "null".toList (by decide) (by decide) rfl hrest found
  | .bool value => rw [writeCompact]; exact lexFrom_bool value hrest found
  | .number value => rw [writeCompact]; exact lexFrom_number value hrest found
  | .string value => rw [writeCompact]; exact lexFrom_quote value found rest
  | .array [] =>
      rw [writeCompact]
      exact (lexFrom_punctuation _ rfl _ _).trans (lexFrom_punctuation _ rfl _ _)
  | .array (item :: items) =>
      have hitems := endsWord_items items rest
      simp only [writeCompact, List.cons_append, List.append_assoc, List.nil_append]
      rw [lexFrom_punctuation .openArray rfl, lexFrom_writeCompact item hitems,
        lexFrom_writeCompactItems items (EndsWord.cons rfl _),
        lexFrom_punctuation .closeArray rfl]
      simp [tokens]
  | .object [] =>
      rw [writeCompact]
      exact (lexFrom_punctuation _ rfl _ _).trans (lexFrom_punctuation _ rfl _ _)
  | .object ((key, value) :: members) =>
      have hmembers := endsWord_members members rest
      simp only [writeCompact, List.cons_append, List.append_assoc, List.nil_append]
      rw [lexFrom_punctuation .openObject rfl, lexFrom_quote,
        lexFrom_punctuation .colon rfl, lexFrom_writeCompact value hmembers,
        lexFrom_writeCompactMembers members (EndsWord.cons rfl _),
        lexFrom_punctuation .closeObject rfl]
      simp [tokens]

theorem lexFrom_writeCompactItems (items : List Json) {rest : List Char} (hrest : EndsWord rest)
    (found : List Token) :
    lexFrom .between found (writeCompactItems items ++ rest)
      = lexFrom .between ((tokensOfItems items).reverse ++ found) rest := by
  match items with
  | [] => rfl
  | item :: items =>
      have hitems : EndsWord (writeCompactItems items ++ rest) := by
        cases items with
        | nil => exact hrest
        | cons next items => exact EndsWord.cons rfl _
      simp only [writeCompactItems, List.cons_append, List.append_assoc]
      rw [lexFrom_punctuation .comma rfl, lexFrom_writeCompact item hitems,
        lexFrom_writeCompactItems items hrest]
      simp [tokensOfItems]

theorem lexFrom_writeCompactMembers (members : List (String × Json)) {rest : List Char}
    (hrest : EndsWord rest) (found : List Token) :
    lexFrom .between found (writeCompactMembers members ++ rest)
      = lexFrom .between ((tokensOfMembers members).reverse ++ found) rest := by
  match members with
  | [] => rfl
  | (key, value) :: members =>
      have hmembers : EndsWord (writeCompactMembers members ++ rest) := by
        cases members with
        | nil => exact hrest
        | cons next members => exact EndsWord.cons rfl _
      simp only [writeCompactMembers, List.cons_append, List.append_assoc]
      rw [lexFrom_punctuation .comma rfl, lexFrom_quote,
        lexFrom_punctuation .colon rfl, lexFrom_writeCompact value hmembers,
        lexFrom_writeCompactMembers members hrest]
      simp [tokensOfMembers]

end

theorem lex_writeCompact (v : Json) : lex (writeCompact v) = some (tokens v) := by
  have h := lexFrom_writeCompact v EndsWord.nil []
  rw [List.append_nil, List.append_nil] at h
  rw [lex, h]
  simp [lexFrom, finish]

end SongLibrary.Json
