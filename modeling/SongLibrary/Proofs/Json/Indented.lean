import SongLibrary.Proofs.Json.RoundTrip

/-!
# The indented form read back

New lines and the blanks that indent them stand between tokens only, where the reader passes them
over. So the indented form of a value has the tokens that its compact form has, and is read as the
same document. The level at which a value stands does not matter.
-/

namespace SongLibrary.Json

/-- Blanks between tokens are passed over. -/
theorem lexFrom_spaces (blanks : List Char) (h : ∀ c ∈ blanks, isSpace c = true)
    (found : List Token) (rest : List Char) :
    lexFrom .between found (blanks ++ rest) = lexFrom .between found rest := by
  induction blanks with
  | nil => rfl
  | cons c blanks ih =>
      have hread : readChar c found .between = some (.between, found) := by
        simp [readChar, start, h c (by simp)]
      rw [List.cons_append, lexFrom_cons hread, ih fun d hd => h d (List.mem_cons_of_mem _ hd)]

theorem lexFrom_lineAt (level : Nat) (found : List Token) (rest : List Char) :
    lexFrom .between found (lineAt level ++ rest) = lexFrom .between found rest := by
  refine lexFrom_spaces _ (fun c hc => ?_) found rest
  rcases List.mem_cons.mp hc with rfl | hc
  · rfl
  · rw [(List.mem_replicate.mp hc).2]
    rfl

theorem endsWord_lineAt (level : Nat) (rest : List Char) : EndsWord (lineAt level ++ rest) :=
  EndsWord.cons rfl _

theorem endsWord_indentedItems (level : Nat) (items : List Json) {rest : List Char}
    (hrest : EndsWord rest) : EndsWord (writeIndentedItems level items ++ rest) := by
  cases items with
  | nil => exact hrest
  | cons item items => exact EndsWord.cons rfl _

theorem endsWord_indentedMembers (level : Nat) (members : List (String × Json)) {rest : List Char}
    (hrest : EndsWord rest) : EndsWord (writeIndentedMembers level members ++ rest) := by
  cases members with
  | nil => exact hrest
  | cons member members => obtain ⟨key, value⟩ := member; exact EndsWord.cons rfl _

/-- A key, its colon and the blank behind that. -/
theorem lexFrom_key (key : String) (found : List Token) (rest : List Char) :
    lexFrom .between found (quote key ++ ':' :: ' ' :: rest)
      = lexFrom .between (.colon :: .string (some key) :: found) rest := by
  rw [lexFrom_quote, lexFrom_punctuation .colon rfl]
  refine lexFrom_spaces [' '] (fun c hc => ?_) _ rest
  rw [List.mem_singleton.mp hc]
  rfl

mutual

/-- **A value in indented form is read as its tokens.** -/
theorem lexFrom_writeIndented (level : Nat) (v : Json) {rest : List Char} (hrest : EndsWord rest)
    (found : List Token) :
    lexFrom .between found (writeIndented level v ++ rest)
      = lexFrom .between ((tokens v).reverse ++ found) rest := by
  match v with
  | .null =>
      rw [writeIndented]
      exact lexFrom_fixedWord "null".toList (by decide) (by decide) rfl hrest found
  | .bool value => rw [writeIndented]; exact lexFrom_bool value hrest found
  | .number value => rw [writeIndented]; exact lexFrom_number value hrest found
  | .string value => rw [writeIndented]; exact lexFrom_quote value found rest
  | .array [] =>
      rw [writeIndented]
      exact (lexFrom_punctuation _ rfl _ _).trans (lexFrom_punctuation _ rfl _ _)
  | .array (item :: items) =>
      have hline := endsWord_lineAt level (']' :: rest)
      have hitems := endsWord_indentedItems (level + 1) items hline
      simp only [writeIndented, List.cons_append, List.append_assoc, List.nil_append]
      rw [lexFrom_punctuation .openArray rfl, lexFrom_lineAt,
        lexFrom_writeIndented (level + 1) item hitems,
        lexFrom_writeIndentedItems (level + 1) items hline, lexFrom_lineAt,
        lexFrom_punctuation .closeArray rfl]
      simp [tokens]
  | .object [] =>
      rw [writeIndented]
      exact (lexFrom_punctuation _ rfl _ _).trans (lexFrom_punctuation _ rfl _ _)
  | .object ((key, value) :: members) =>
      have hline := endsWord_lineAt level ('\x7d' :: rest)
      have hmembers := endsWord_indentedMembers (level + 1) members hline
      simp only [writeIndented, List.cons_append, List.append_assoc, List.nil_append]
      rw [lexFrom_punctuation .openObject rfl, lexFrom_lineAt, lexFrom_key,
        lexFrom_writeIndented (level + 1) value hmembers,
        lexFrom_writeIndentedMembers (level + 1) members hline, lexFrom_lineAt,
        lexFrom_punctuation .closeObject rfl]
      simp [tokens]

theorem lexFrom_writeIndentedItems (level : Nat) (items : List Json) {rest : List Char}
    (hrest : EndsWord rest) (found : List Token) :
    lexFrom .between found (writeIndentedItems level items ++ rest)
      = lexFrom .between ((tokensOfItems items).reverse ++ found) rest := by
  match items with
  | [] => rfl
  | item :: items =>
      have hitems := endsWord_indentedItems level items hrest
      simp only [writeIndentedItems, List.cons_append, List.append_assoc]
      rw [lexFrom_punctuation .comma rfl, lexFrom_lineAt, lexFrom_writeIndented level item hitems,
        lexFrom_writeIndentedItems level items hrest]
      simp [tokensOfItems]

theorem lexFrom_writeIndentedMembers (level : Nat) (members : List (String × Json))
    {rest : List Char} (hrest : EndsWord rest) (found : List Token) :
    lexFrom .between found (writeIndentedMembers level members ++ rest)
      = lexFrom .between ((tokensOfMembers members).reverse ++ found) rest := by
  match members with
  | [] => rfl
  | (key, value) :: members =>
      have hmembers := endsWord_indentedMembers level members hrest
      simp only [writeIndentedMembers, List.cons_append, List.append_assoc]
      rw [lexFrom_punctuation .comma rfl, lexFrom_lineAt, lexFrom_key,
        lexFrom_writeIndented level value hmembers,
        lexFrom_writeIndentedMembers level members hrest]
      simp [tokensOfMembers]

end

theorem lex_writeIndented (level : Nat) (v : Json) :
    lex (writeIndented level v) = some (tokens v) := by
  have h := lexFrom_writeIndented level v EndsWord.nil []
  rw [List.append_nil, List.append_nil] at h
  rw [lex, h]
  simp [lexFrom, finish]

/-- **The document of a value is read back from its indented form.** -/
theorem Document.ofChars?_writeIndented (level : Nat) (v : Json) :
    Document.ofChars? (writeIndented level v) = some v.toDocument :=
  Document.ofChars?_of_lex (lex_writeIndented level v)

/-- **A readable value is read back from its indented form.** -/
theorem ofChars?_indented {v : Json} (h : Readable v) : ofChars? v.indented.toList = some v := by
  rw [ofChars?, indented, String.toList_ofList, Document.ofChars?_writeIndented]
  exact toJson?_toDocument v h.depth_le h.distinctKeys

end SongLibrary.Json
