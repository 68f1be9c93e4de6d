import SongLibrary.Proofs.Json.RoundTrip
import SongLibrary.Song.Embedded

/-!
# Comments that bear data, written and read back

A comment is cut at its first opening brace and its last closing one. In a comment that was composed
these are the outer braces of the data, whatever strings inside the data hold: the text before it
has no opening brace, and the data ends with a closing one. What is cut out is then the compact form
of the data, which reads back.

`Restorable` says of data what this needs. All that is read from comments is restorable, also what
has been merged from several of them.
-/

namespace SongLibrary.Embedded

/-- Data that comes back when it is written into a comment: no opening brace stands before it, and
as an object it can be read. -/
structure Restorable (e : Embedded) : Prop where
  lead : '\x7b' ∉ e.lead.toList
  data : Json.Readable (.object e.data)

/-! ## The outermost braces -/

/-- **The first opening and the last closing brace are the outer ones.** -/
theorem braceSpan?_append {lead behind : List Char} (hlead : '\x7b' ∉ lead)
    (hbehind : '\x7d' ∉ behind) (body : List Char) :
    braceSpan? (lead ++ '\x7b' :: (body ++ '\x7d' :: behind))
      = some (lead, '\x7b' :: (body ++ ['\x7d'])) := by
  have hother : ∀ c ∈ lead, decide (c ≠ '\x7b') = true := by
    intro c hc
    refine decide_eq_true fun he => ?_
    exact hlead (he ▸ hc)
  -- read from its end, the object starts with its closing brace
  have hspan : (('\x7b' :: (body ++ '\x7d' :: behind)).reverse.dropWhile
      (fun c => decide (c ≠ '\x7d'))).reverse = '\x7b' :: (body ++ ['\x7d']) := by
    have hother' : ∀ c ∈ behind.reverse, decide (c ≠ '\x7d') = true := by
      intro c hc
      refine decide_eq_true fun he => ?_
      exact hbehind (he ▸ List.mem_reverse.mp hc)
    have hreverse : ('\x7b' :: (body ++ '\x7d' :: behind)).reverse =
        behind.reverse ++ '\x7d' :: (body.reverse ++ ['\x7b']) := by simp
    rw [hreverse, List.dropWhile_append_of_pos hother', List.dropWhile_cons_of_neg (by simp)]
    simp
  unfold braceSpan?
  simp only [List.dropWhile_append_of_pos hother, List.takeWhile_append_of_pos hother]
  rw [List.dropWhile_cons_of_neg (by simp), List.takeWhile_cons_of_neg (by simp), hspan]
  simp

theorem notMem_takeWhile (c : Char) (cs : List Char) :
    c ∉ cs.takeWhile (fun d => decide (d ≠ c)) := by
  intro h
  have hall := List.all_eq_true.mp List.all_takeWhile c h
  simp at hall

/-- The outermost braces of a text. -/
structure OuterBraces (text lead span : List Char) : Prop where
  braces : ∃ body, span = '\x7b' :: (body ++ ['\x7d'])
  /-- No opening brace stands before them, -/
  before : '\x7b' ∉ lead
  /-- and no closing one behind them. -/
  behind : ∃ rest, text = lead ++ (span ++ rest) ∧ '\x7d' ∉ rest

/-- A text that ends with something else than `c`, up to its last `c`. -/
theorem exists_last_of_dropWhile {c : Char} {cs : List Char}
    (h : (cs.reverse.dropWhile (fun d => decide (d ≠ c))).reverse ≠ []) :
    ∃ front rest, (cs.reverse.dropWhile (fun d => decide (d ≠ c))).reverse = front ++ [c] ∧
      cs = front ++ c :: rest ∧ c ∉ rest := by
  have hcut := List.takeWhile_append_dropWhile (p := fun d => decide (d ≠ c)) (l := cs.reverse)
  have hlast := List.head?_dropWhile_not (fun d => decide (d ≠ c)) cs.reverse
  cases hdrop : cs.reverse.dropWhile (fun d => decide (d ≠ c)) with
  | nil => exact absurd (by rw [hdrop]; rfl) h
  | cons d front =>
      rw [hdrop] at hcut hlast
      obtain rfl : d = c := by simpa using hlast
      refine ⟨front.reverse, (cs.reverse.takeWhile (fun d' => decide (d' ≠ d))).reverse,
        List.reverse_cons, ?_, ?_⟩
      · have hall := congrArg List.reverse hcut
        rw [List.reverse_reverse, List.reverse_append, List.reverse_cons, List.append_assoc] at hall
        exact hall.symm
      · rw [List.mem_reverse]
        exact notMem_takeWhile d _

theorem braceSpan?_eq_some_iff {text lead span : List Char} :
    braceSpan? text = some (lead, span) ↔ OuterBraces text lead span := by
  constructor
  · intro h
    unfold braceSpan? at h
    dsimp only at h
    split at h
    · exact absurd h (by simp)
    rename_i hspan
    obtain ⟨rfl, rfl⟩ := Prod.mk.inj (Option.some.inj h)
    rw [List.isEmpty_iff] at hspan
    obtain ⟨front, rest, hfront, hfrom, hrest⟩ := exists_last_of_dropWhile hspan
    have hfirst := List.head?_dropWhile_not (fun d => decide (d ≠ '\x7b')) text
    have htext := List.takeWhile_append_dropWhile (p := fun d => decide (d ≠ '\x7b')) (l := text)
    rw [hfrom] at hfirst htext
    rw [hfront]
    -- what begins with an opening brace has more than its closing one
    cases front with
    | nil => exact absurd hfirst (by simp)
    | cons c body =>
        obtain rfl : c = '\x7b' := by simpa using hfirst
        refine ⟨⟨body, rfl⟩, notMem_takeWhile _ _, rest, ?_, hrest⟩
        refine htext.symm.trans ?_
        simp
  · rintro ⟨⟨body, rfl⟩, hlead, rest, rfl, hrest⟩
    have hspan := braceSpan?_append hlead hrest body
    simpa using hspan

/-- **What a text bears**: the object between its outermost braces, behind the text before them. -/
theorem ofText?_eq_some_iff {text : String} {e : Embedded} :
    ofText? text = some e ↔ ∃ span, OuterBraces text.toList e.lead.toList span ∧
      Json.ofChars? span = some (.object e.data) := by
  constructor
  · intro h
    rw [ofText?] at h
    split at h
    · exact absurd h (by simp)
    rename_i lead span hspan
    split at h
    · rename_i members hmembers
      obtain rfl := Option.some.inj h
      refine ⟨span, ?_, hmembers⟩
      rw [String.toList_ofList]
      exact braceSpan?_eq_some_iff.mp hspan
    · exact absurd h (by simp)
  · rintro ⟨span, hbraces, hread⟩
    rw [ofText?, braceSpan?_eq_some_iff.mpr hbraces]
    simp only [hread, String.ofList_toList]

/-! ## What is written bears what is written -/

/-- An object in compact form stands in braces. -/
theorem writeCompact_object (members : Json.Members) :
    ∃ body, (Json.object members).writeCompact = '\x7b' :: (body ++ ['\x7d']) := by
  cases members with
  | nil => exact ⟨[], by rw [Json.writeCompact]; rfl⟩
  | cons member members =>
      obtain ⟨key, value⟩ := member
      exact ⟨_, by rw [Json.writeCompact, List.cons_append, ← List.cons_append]; rfl⟩

theorem ofText?_compose {e : Embedded} (h : e.Restorable) :
    ofText? (compose e.lead e.data) = some e := by
  refine ofText?_eq_some_iff.mpr ⟨_, ⟨writeCompact_object e.data, h.lead, [], ?_,
    List.not_mem_nil⟩, Json.ofChars?_writeCompact h.data⟩
  rw [compose, String.toList_append, Json.compact, String.toList_ofList, List.append_nil]

theorem ofTexts?_singleton (text : String) : ofTexts? [text] = ofText? text := by
  rw [ofTexts?]
  cases h : ofText? text <;> simp [h]

/-! ## What is read is restorable -/

theorem restorable_of_ofText? {text : String} {e : Embedded} (h : ofText? text = some e) :
    e.Restorable := by
  obtain ⟨span, hbraces, hdata⟩ := ofText?_eq_some_iff.mp h
  exact ⟨hbraces.before, Json.readable_of_ofChars? hdata⟩

theorem readable_object_iff {members : Json.Members} :
    Json.Readable (.object members) ↔ (Assoc.keys members).Nodup
      ∧ ∀ e ∈ members, Json.depth e.2 + 1 ≤ Json.nestingLimit ∧ Json.DistinctKeys e.2 := by
  constructor
  · rintro ⟨hdepth, hnodup, hkeys⟩
    refine ⟨hnodup, fun e he => ⟨?_, Json.distinctKeysMembers_iff.mp hkeys e he⟩⟩
    have := Json.depthMembers_le_iff.mp (Nat.le_refl (Json.depthMembers members)) e he
    rw [Json.depth] at hdepth
    omega
  · rintro ⟨hnodup, hall⟩
    refine ⟨?_, hnodup, Json.distinctKeysMembers_iff.mpr fun e he => (hall e he).2⟩
    have hmembers : Json.depthMembers members ≤ Json.nestingLimit - 1 :=
      Json.depthMembers_le_iff.mpr fun e he => by have := (hall e he).1; omega
    have hlimit : Json.nestingLimit = 127 := rfl
    rw [Json.depth]
    omega

theorem Restorable.extend {e later : Embedded} (h : e.Restorable) (hlater : later.Restorable) :
    (e.extend later).Restorable := by
  obtain ⟨hnodup, hall⟩ := readable_object_iff.mp h.data
  obtain ⟨-, hallLater⟩ := readable_object_iff.mp hlater.data
  refine ⟨h.lead, readable_object_iff.mpr ⟨Assoc.nodup_keys_merge hnodup _, fun m hm => ?_⟩⟩
  rcases Assoc.mem_merge hm with hm | hm
  · exact hall m hm
  · exact hallLater m hm

theorem Restorable.foldl {e : Embedded} (h : e.Restorable) {later : List Embedded}
    (hlater : ∀ l ∈ later, l.Restorable) : (later.foldl Embedded.extend e).Restorable := by
  induction later generalizing e with
  | nil => exact h
  | cons l rest ih => exact ih (h.extend (hlater l (by simp))) fun m hm => hlater m (by simp [hm])

/-- What texts bear together is what the first of them bears, extended by the others. -/
theorem ofTexts?_cases {texts : List String} {e : Embedded} (h : ofTexts? texts = some e) :
    ∃ first rest, texts.filterMap ofText? = first :: rest ∧
      e = rest.foldl Embedded.extend first := by
  unfold ofTexts? at h
  split at h
  · exact absurd h (by simp)
  · rename_i first rest hbearing
    exact ⟨first, rest, hbearing, (Option.some.inj h).symm⟩

/-- **What comments bear together is restorable.** -/
theorem restorable_of_ofTexts? {texts : List String} {e : Embedded}
    (h : ofTexts? texts = some e) : e.Restorable := by
  have hall : ∀ l ∈ texts.filterMap ofText?, l.Restorable := by
    intro l hl
    obtain ⟨text, -, htext⟩ := List.mem_filterMap.mp hl
    exact restorable_of_ofText? htext
  obtain ⟨first, rest, hbearing, rfl⟩ := ofTexts?_cases h
  rw [hbearing] at hall
  exact (hall first (by simp)).foldl fun l hl => hall l (by simp [hl])

/-! ## The round trip -/

/--
**The comment codec round-trips.** A text without an opening brace and an object of at most 127
levels come back from the comment composed of them, with the keys in the same order; and so does
whatever has been read from comments.
-/
theorem ofTexts?_compose :
    (∀ (lead : String) (data : Json.Members), '\x7b' ∉ lead.toList →
      Json.depth (.object data) ≤ 127 → Json.DistinctKeys (.object data) →
      ofTexts? [compose lead data] = some ⟨lead, data⟩)
    ∧ (∀ (texts : List String) (e : Embedded), ofTexts? texts = some e →
      '\x7b' ∉ e.lead.toList ∧ ofTexts? [compose e.lead e.data] = some e) := by
  refine ⟨fun lead data hlead hdepth hkeys => ?_, fun texts e h => ?_⟩
  · rw [ofTexts?_singleton]
    exact ofText?_compose (e := ⟨lead, data⟩) ⟨hlead, hdepth, hkeys⟩
  · have hrestorable := restorable_of_ofTexts? h
    exact ⟨hrestorable.lead, by rw [ofTexts?_singleton, ofText?_compose hrestorable]⟩

/-- Braces before the data and in its strings, and the largest integer. -/
theorem ofTexts?_compose_braces :
    let lead := "a \x7d \"b\"\n"
    let data : Json.Members :=
      [("\x7d\\", .string "\x7b\"\x01"), ("n", .number (.ofNat 18446744073709551615)),
       ("in", .array [.object [("\x7b", .null)], .number (.float (.zero true))])]
    ofTexts? [compose lead data] = some ⟨lead, data⟩ ∧ '\x7b' ∉ lead.toList := by
  intro lead data
  have hlead : '\x7b' ∉ lead.toList := by decide
  have hdepth : Json.depth (.object data) ≤ 127 := by decide
  have hkeys : Json.DistinctKeys (.object data) := by
    simp [data, Json.DistinctKeys, Json.DistinctKeysItems, Json.DistinctKeysMembers, Assoc.keys]
  have hread := ofTexts?_compose.1 lead data hlead hdepth hkeys
  exact ⟨(ofTexts?_compose.2 _ _ hread).2, hlead⟩

end SongLibrary.Embedded
