import SongLibrary.Json.Document
import SongLibrary.Proofs.Assoc
import SongLibrary.Proofs.Json.Lexing

/-!
# Written values read back

From the tokens of a value the machine of `assemble` builds the document of the value, and the
document denotes the value again. The second step asks two things of a value: it is nested no deeper
than the limit of the reader, and its objects do not repeat a key, since a repeated key would keep
one place only. `Readable` says both.

It asks no more than that: whatever the reader accepts is `Readable`, so what has been read can be
written and read again without end.
-/

namespace SongLibrary.Json

/-! ## Documents from tokens -/

/-- A token that can begin a value does not close an array. -/
def BeginsValue (token : Token) : Prop :=
  ∀ items frames, close (.array items :: frames) token = none

theorem tokens_head (v : Json) : ∃ token rest, tokens v = token :: rest ∧ BeginsValue token := by
  cases v with
  | array items => cases items <;> exact ⟨_, _, by rw [tokens], fun _ _ => rfl⟩
  | object members =>
      cases members with
      | nil => exact ⟨_, _, by rw [tokens], fun _ _ => rfl⟩
      | cons member members =>
          obtain ⟨key, value⟩ := member
          exact ⟨_, _, by rw [tokens], fun _ _ => rfl⟩
  | _ => exact ⟨_, _, by rw [tokens], fun _ _ => rfl⟩

theorem assemble_cons {frames : List Frame} {await : Await} {token : Token}
    (progress : Progress) (h : readToken frames token await = some progress) (rest : List Token) :
    assemble (.unfinished frames await) (token :: rest) = assemble progress rest := by
  rw [assemble, h]

/-- The first item of an array is read like any value. -/
theorem assemble_first (v : Json) (frames : List Frame) (rest : List Token) :
    assemble (.unfinished (.array [] :: frames) .first) (tokens v ++ rest)
      = assemble (.unfinished (.array [] :: frames) .value) (tokens v ++ rest) := by
  obtain ⟨token, more, htokens, hbegins⟩ := tokens_head v
  have hread : readToken (.array [] :: frames) token .first
      = readToken (.array [] :: frames) token .value := by
    simp [readToken, hbegins [] frames]
  rw [htokens, List.cons_append, assemble, assemble, hread]

mutual

/-- **The tokens of a value are assembled into its document.** -/
theorem assemble_tokens (v : Json) (frames : List Frame) (rest : List Token) :
    assemble (.unfinished frames .value) (tokens v ++ rest)
      = assemble (supply v.toDocument frames) rest := by
  match v with
  | .null => rw [tokens, toDocument]; exact assemble_cons _ rfl rest
  | .bool value => rw [tokens, toDocument]; exact assemble_cons _ rfl rest
  | .number value => rw [tokens, toDocument]; exact assemble_cons _ rfl rest
  | .string value => rw [tokens, toDocument]; exact assemble_cons _ rfl rest
  | .array [] =>
      rw [tokens, toDocument]
      exact (assemble_cons _ rfl _).trans (assemble_cons _ rfl rest)
  | .array (item :: items) =>
      simp only [tokens, List.cons_append, List.append_assoc, List.nil_append]
      rw [assemble_cons (.unfinished (.array [] :: frames) .first) rfl,
        assemble_first, assemble_tokens item]
      -- the first item stands in the frame of the array
      show assemble (.unfinished (.array [item.toDocument] :: frames) .separator) _ = _
      rw [assemble_tokensOfItems items]
      refine (assemble_cons _ rfl rest).trans ?_
      simp [toDocument, itemsToDocument]
  | .object [] =>
      rw [tokens, toDocument]
      exact (assemble_cons _ rfl _).trans (assemble_cons _ rfl rest)
  | .object ((key, value) :: members) =>
      simp only [tokens, List.cons_append, List.append_assoc, List.nil_append]
      rw [assemble_cons (.unfinished (.object [] none :: frames) .first) rfl,
        assemble_cons (.unfinished (.object [] (some key) :: frames) .colon) rfl,
        assemble_cons (.unfinished (.object [] (some key) :: frames) .value) rfl,
        assemble_tokens value]
      show assemble
        (.unfinished (.object [(some key, value.toDocument)] none :: frames) .separator) _ = _
      rw [assemble_tokensOfMembers members]
      refine (assemble_cons _ rfl rest).trans ?_
      simp [toDocument, membersToDocument]

theorem assemble_tokensOfItems (items : List Json) (read : List Document) (frames : List Frame)
    (rest : List Token) :
    assemble (.unfinished (.array read :: frames) .separator) (tokensOfItems items ++ rest)
      = assemble
          (.unfinished (.array ((itemsToDocument items).reverse ++ read) :: frames) .separator)
          rest := by
  match items with
  | [] => rfl
  | item :: items =>
      simp only [tokensOfItems, List.cons_append, List.append_assoc]
      rw [assemble_cons (.unfinished (.array read :: frames) .value) rfl,
        assemble_tokens item]
      show assemble (.unfinished (.array (item.toDocument :: read) :: frames) .separator) _ = _
      rw [assemble_tokensOfItems items]
      simp [itemsToDocument]

theorem assemble_tokensOfMembers (members : List (String × Json))
    (read : List (Option String × Document)) (frames : List Frame) (rest : List Token) :
    assemble (.unfinished (.object read none :: frames) .separator)
        (tokensOfMembers members ++ rest)
      = assemble
          (.unfinished (.object ((membersToDocument members).reverse ++ read) none :: frames)
            .separator) rest := by
  match members with
  | [] => rfl
  | (key, value) :: members =>
      simp only [tokensOfMembers, List.cons_append, List.append_assoc]
      rw [assemble_cons (.unfinished (.object read none :: frames) .key) rfl,
        assemble_cons (.unfinished (.object read (some key) :: frames) .colon) rfl,
        assemble_cons (.unfinished (.object read (some key) :: frames) .value) rfl,
        assemble_tokens value]
      show assemble (.unfinished (.object ((some key, value.toDocument) :: read) none :: frames)
        .separator) _ = _
      rw [assemble_tokensOfMembers members]
      simp [membersToDocument]

end

/-- A text with the tokens of a value is read as the document of the value. -/
theorem Document.ofChars?_of_lex {v : Json} {cs : List Char} (h : lex cs = some (tokens v)) :
    Document.ofChars? cs = some v.toDocument := by
  have hassemble := assemble_tokens v [] []
  rw [List.append_nil] at hassemble
  rw [Document.ofChars?, h]
  exact hassemble.trans rfl

theorem Document.ofChars?_writeCompact (v : Json) :
    Document.ofChars? (writeCompact v) = some v.toDocument :=
  Document.ofChars?_of_lex (lex_writeCompact v)

/-! ## Values from documents -/

theorem distinctKeysMembers_iff {members : List (String × Json)} :
    DistinctKeysMembers members ↔ ∀ e ∈ members, DistinctKeys e.2 := by
  induction members with
  | nil => simp [DistinctKeysMembers]
  | cons e rest ih => obtain ⟨key, value⟩ := e; simp [DistinctKeysMembers, ih]

theorem depthMembers_le_iff {members : List (String × Json)} {n : Nat} :
    depthMembers members ≤ n ↔ ∀ e ∈ members, depth e.2 ≤ n := by
  induction members with
  | nil => simp [depthMembers]
  | cons e rest ih =>
      obtain ⟨key, value⟩ := e
      rw [depthMembers, Nat.max_le, ih]
      simp

mutual

/-- **The document of a value denotes the value**, if that is not nested too deeply and its objects
do not repeat a key. -/
theorem toJson?_toDocument (v : Json) {limit : Nat} (hdepth : depth v ≤ limit)
    (hkeys : DistinctKeys v) : v.toDocument.toJson? limit = some v := by
  match v with
  | .null => rfl
  | .bool value => rfl
  | .number value => rfl
  | .string value => rfl
  | .array items =>
      rw [depth] at hdepth
      obtain ⟨limit, rfl⟩ := Nat.exists_eq_add_of_le' (Nat.le_of_add_left_le hdepth)
      rw [DistinctKeys] at hkeys
      rw [toDocument, Document.toJson?,
        itemsToJson?_itemsToDocument items (Nat.le_of_add_le_add_right hdepth) hkeys]
      rfl
  | .object members =>
      rw [depth] at hdepth
      obtain ⟨limit, rfl⟩ := Nat.exists_eq_add_of_le' (Nat.le_of_add_left_le hdepth)
      rw [DistinctKeys] at hkeys
      rw [toDocument, Document.toJson?,
        membersToJson?_membersToDocument members (Nat.le_of_add_le_add_right hdepth) hkeys.2,
        Option.map_some, Assoc.merge_nil hkeys.1]

theorem itemsToJson?_itemsToDocument (items : List Json) {limit : Nat}
    (hdepth : depthItems items ≤ limit) (hkeys : DistinctKeysItems items) :
    itemsToJson? limit (itemsToDocument items) = some items := by
  match items with
  | [] => rfl
  | item :: items =>
      rw [depthItems, Nat.max_le] at hdepth
      rw [DistinctKeysItems] at hkeys
      rw [itemsToDocument, itemsToJson?, toJson?_toDocument item hdepth.1 hkeys.1,
        itemsToJson?_itemsToDocument items hdepth.2 hkeys.2]
      rfl

theorem membersToJson?_membersToDocument (members : List (String × Json)) {limit : Nat}
    (hdepth : depthMembers members ≤ limit) (hkeys : DistinctKeysMembers members) :
    membersToJson? limit (membersToDocument members) = some members := by
  match members with
  | [] => rfl
  | (key, value) :: members =>
      rw [depthMembers, Nat.max_le] at hdepth
      rw [DistinctKeysMembers] at hkeys
      rw [membersToDocument, membersToJson?, toJson?_toDocument value hdepth.1 hkeys.1,
        membersToJson?_membersToDocument members hdepth.2 hkeys.2]
      rfl

end

mutual

/-- What a document denotes is not nested too deeply and does not repeat a key. -/
theorem readable_of_toJson? (d : Document) {limit : Nat} {v : Json}
    (h : d.toJson? limit = some v) : depth v ≤ limit ∧ DistinctKeys v := by
  match d with
  | .null => obtain rfl := Option.some.inj h; exact ⟨Nat.zero_le _, trivial⟩
  | .bool value => obtain rfl := Option.some.inj h; exact ⟨Nat.zero_le _, trivial⟩
  | .number value =>
      obtain ⟨n, -, rfl⟩ := Option.map_eq_some_iff.mp h
      exact ⟨Nat.zero_le _, trivial⟩
  | .string value =>
      obtain ⟨s, -, rfl⟩ := Option.map_eq_some_iff.mp h
      exact ⟨Nat.zero_le _, trivial⟩
  | .array items =>
      cases limit with
      | zero => exact absurd h (by simp [Document.toJson?])
      | succ limit =>
          obtain ⟨values, hvalues, rfl⟩ := Option.map_eq_some_iff.mp h
          obtain ⟨hdepth, hkeys⟩ := readable_of_itemsToJson? items hvalues
          exact ⟨Nat.succ_le_succ hdepth, hkeys⟩
  | .object members =>
      cases limit with
      | zero => exact absurd h (by simp [Document.toJson?])
      | succ limit =>
          obtain ⟨values, hvalues, rfl⟩ := Option.map_eq_some_iff.mp h
          have hreadable := readable_of_membersToJson? members hvalues
          -- a repeated key keeps one of its values, so what is merged comes from what was read
          have hmerged : ∀ e ∈ Assoc.merge [] values, depth e.2 ≤ limit ∧ DistinctKeys e.2 := by
            intro e he
            rcases Assoc.mem_merge he with he | he
            · exact absurd he (by simp)
            · exact hreadable e he
          refine ⟨Nat.succ_le_succ (depthMembers_le_iff.mpr fun e he => (hmerged e he).1), ?_⟩
          exact ⟨Assoc.nodup_keys_merge (m := []) List.nodup_nil values,
            distinctKeysMembers_iff.mpr fun e he => (hmerged e he).2⟩

theorem readable_of_itemsToJson? (items : List Document) {limit : Nat} {values : List Json}
    (h : itemsToJson? limit items = some values) :
    depthItems values ≤ limit ∧ DistinctKeysItems values := by
  match items with
  | [] => obtain rfl := Option.some.inj h; exact ⟨Nat.zero_le _, trivial⟩
  | item :: items =>
      simp only [itemsToJson?, Option.bind_eq_bind, Option.bind_eq_some_iff, Option.pure_def,
        Option.some.injEq] at h
      obtain ⟨value, hvalue, rest, hrest, rfl⟩ := h
      obtain ⟨hdepth, hkeys⟩ := readable_of_toJson? item hvalue
      obtain ⟨hdepths, hkeyss⟩ := readable_of_itemsToJson? items hrest
      exact ⟨Nat.max_le.mpr ⟨hdepth, hdepths⟩, hkeys, hkeyss⟩

theorem readable_of_membersToJson? (members : List (Option String × Document)) {limit : Nat}
    {values : List (String × Json)} (h : membersToJson? limit members = some values) :
    ∀ e ∈ values, depth e.2 ≤ limit ∧ DistinctKeys e.2 := by
  match members with
  | [] =>
      obtain rfl := Option.some.inj h
      exact fun e he => absurd he (by simp)
  | (key, item) :: members =>
      simp only [membersToJson?, Option.bind_eq_bind, Option.bind_eq_some_iff, Option.pure_def,
        Option.some.injEq] at h
      obtain ⟨name, -, value, hvalue, rest, hrest, rfl⟩ := h
      intro e he
      rcases List.mem_cons.mp he with rfl | he
      · exact readable_of_toJson? item hvalue
      · exact readable_of_membersToJson? members hrest e he

end

/-! ## Texts -/

/-- A value that can be read: nested no deeper than the limit, and without a repeated key. -/
structure Readable (v : Json) : Prop where
  depth_le : depth v ≤ nestingLimit
  distinctKeys : DistinctKeys v

/-- **A readable value is read back from its compact form.** -/
theorem ofChars?_writeCompact {v : Json} (h : Readable v) : ofChars? (writeCompact v) = some v := by
  rw [ofChars?, Document.ofChars?_writeCompact]
  exact toJson?_toDocument v h.depth_le h.distinctKeys

/-- **Only readable values are read.** -/
theorem readable_of_ofChars? {cs : List Char} {v : Json} (h : ofChars? cs = some v) :
    Readable v := by
  obtain ⟨d, -, hd⟩ := Option.bind_eq_some_iff.mp h
  obtain ⟨hdepth, hkeys⟩ := readable_of_toJson? d hd
  exact ⟨hdepth, hkeys⟩

end SongLibrary.Json
