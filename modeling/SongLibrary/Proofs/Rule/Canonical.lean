import SongLibrary.Proofs.Json.RoundTrip
import SongLibrary.Proofs.Rule.Form
import Mathlib.Data.List.Forall2

/-!
# The canonical form of a preset

The reader of presets takes much that its writer never writes: members in any order, missing or
unknown ones, rules that are arrays, a logic that is null or in small letters. All of this has one
form in which it is written. There every member is present and in its place, a text is the one that
was read, and a logic is one of two words.

A document has a canonical form just if it is read, and the canonical form is its own canonical
form. So a preset that has been read stays as it is, however often it is written and read again.
-/

namespace SongLibrary

open Json (Document)

/-! ## Members -/

/-- What is written for a text: the text that was read, or the default of a missing member. -/
inductive TextMember (record : Document.Record) (name default : String) : String → Prop where
  | missing : record.member? name = none → TextMember record name default default
  | present {text : String} : record.member? name = some (.string (some text)) →
      TextMember record name default text

/-- What is written for a logic. -/
inductive LogicMember (record : Document.Record) (name : String) : String → Prop where
  | missing : record.member? name = none → LogicMember record name "AND"
  | null : record.member? name = some .null → LogicMember record name "AND"
  /-- Blank text and `and` in any case. -/
  | and {text : String} : record.member? name = some (.string (some text)) →
      Text.trim text = "" ∨ Text.equalsIgnoringAsciiCase (Text.trim text) "and" = true →
      LogicMember record name "AND"
  | or {text : String} : record.member? name = some (.string (some text)) →
      ¬(Text.trim text = "" ∨ Text.equalsIgnoringAsciiCase (Text.trim text) "and" = true) →
      LogicMember record name "OR"

/-- What is written for a list: the canonical forms of its items; a missing member has none. -/
inductive ListMember (Canonical : Document → Json → Prop) (record : Document.Record)
    (name : String) : List Json → Prop where
  | missing : record.member? name = none → ListMember Canonical record name []
  | present {items : List Document} {values : List Json} :
      record.member? name = some (.array items) → List.Forall₂ Canonical items values →
      ListMember Canonical record name values

section

variable {record : Document.Record} {name default text : String} {d : Document}

theorem text?_eq_some_iff : d.text? = some text ↔ d = .string (some text) := by
  constructor
  · intro h
    cases d with
    | string value =>
        rw [show value = some text from h]
    | _ => exact absurd h (by simp [Document.text?])
  · rintro rfl
    rfl

/-- A text is written as it was read. -/
theorem textMember_iff :
    TextMember record name default text ↔ record.get name default Document.text? = some text := by
  rw [Document.Record.get]
  constructor
  · rintro (hnone | hsome)
    · rw [hnone]
    · rw [hsome]
      rfl
  · intro h
    split at h
    · rename_i hnone
      rw [← Option.some.inj h]
      exact .missing hnone
    · rename_i hsome
      rw [text?_eq_some_iff.mp h] at hsome
      exact .present hsome

/-- An operator is written as the text that was read, known or not. -/
theorem operatorMember_iff :
    TextMember record name Operator.is.text text ↔
      ∃ o, record.get name Operator.is (fun d => d.text?.map Operator.ofText) = some o ∧
        o.text = text := by
  rw [Document.Record.get]
  constructor
  · rintro (hnone | hsome)
    · rw [hnone]
      exact ⟨.is, rfl, rfl⟩
    · rw [hsome]
      exact ⟨.ofText text, rfl, Operator.text_ofText text⟩
  · rintro ⟨o, ho, rfl⟩
    split at ho
    · rename_i hnone
      rw [← Option.some.inj ho]
      exact .missing hnone
    · rename_i hsome
      obtain ⟨text, htext, rfl⟩ := Option.map_eq_some_iff.mp ho
      rw [text?_eq_some_iff.mp htext] at hsome
      rw [Operator.text_ofText]
      exact .present hsome

/-- A logic is read from null or from a text. -/
theorem Logic.ofDocument?_eq_some_iff {l : Logic} :
    Logic.ofDocument? d = some l ↔
      (d = .null ∧ l = .and) ∨ ∃ text, d = .string (some text) ∧ l = .ofText text := by
  constructor
  · intro h
    obtain ⟨text?, htext, rfl⟩ := Option.map_eq_some_iff.mp h
    cases d with
    | null =>
        refine Or.inl ⟨rfl, ?_⟩
        obtain rfl := Option.some.inj htext
        decide
    | string value =>
        obtain ⟨text, hvalue, rfl⟩ := Option.map_eq_some_iff.mp htext
        obtain rfl : value = some text := hvalue
        exact Or.inr ⟨text, rfl, rfl⟩
    | _ => exact absurd htext (by simp [Document.nullable?, Document.text?])
  · rintro (⟨rfl, rfl⟩ | ⟨text, rfl, rfl⟩)
    · decide
    · rfl

/-- A logic is written as one of two words. -/
theorem logicMember_iff :
    LogicMember record name text ↔
      ∃ l, record.get name Logic.and Logic.ofDocument? = some l ∧ l.name = text := by
  rw [Document.Record.get]
  constructor
  -- the four ways to write a logic are the four branches of the reader
  · rintro (hnone | hnull | ⟨htext, hand⟩ | ⟨htext, hor⟩)
    · rw [hnone]
      exact ⟨.and, rfl, rfl⟩
    · rw [hnull]
      exact ⟨.and, by decide, rfl⟩
    · rw [htext]
      exact ⟨_, rfl, congrArg Logic.name (if_pos hand)⟩
    · rw [htext]
      exact ⟨_, rfl, congrArg Logic.name (if_neg hor)⟩
  · rintro ⟨l, hl, rfl⟩
    split at hl
    · rename_i hnone
      rw [← Option.some.inj hl]
      exact .missing hnone
    · rename_i hsome
      rcases Logic.ofDocument?_eq_some_iff.mp hl with ⟨rfl, rfl⟩ | ⟨text, rfl, rfl⟩
      · exact .null hsome
      · by_cases hand : Text.trim text = "" ∨
            Text.equalsIgnoringAsciiCase (Text.trim text) "and" = true
        · rw [show Logic.ofText text = .and from if_pos hand]
          exact .and hsome hand
        · rw [show Logic.ofText text = .or from if_neg hand]
          exact .or hsome hand

end

section

variable {α : Type} {read? : Document → Option α} {write : α → Json}
  {Canonical : Document → Json → Prop} {record : Document.Record} {name : String}

/-- Lists have canonical forms if their items have. -/
theorem forall₂_canonical_iff (hitem : ∀ d v, Canonical d v ↔ ∃ a, read? d = some a ∧ write a = v)
    {items : List Document} {values : List Json} :
    List.Forall₂ Canonical items values ↔
      ∃ list, items.mapM read? = some list ∧ list.map write = values := by
  induction items generalizing values with
  | nil =>
      rw [List.forall₂_nil_left_iff]
      constructor
      · rintro rfl
        exact ⟨[], rfl, rfl⟩
      · rintro ⟨list, hlist, rfl⟩
        obtain rfl : [] = list := Option.some.inj hlist
        rfl
  | cons d items ih =>
      rw [List.forall₂_cons_left_iff]
      constructor
      · rintro ⟨v, rest, hv, hrest, rfl⟩
        obtain ⟨a, ha, rfl⟩ := (hitem d v).mp hv
        obtain ⟨list, hlist, rfl⟩ := ih.mp hrest
        refine ⟨a :: list, ?_, rfl⟩
        rw [List.mapM_cons, ha, hlist]
        rfl
      · rintro ⟨list, hlist, rfl⟩
        rw [List.mapM_cons] at hlist
        obtain ⟨a, ha, hrest⟩ := Option.bind_eq_some_iff.mp hlist
        obtain ⟨rest, hitems, hcons⟩ := Option.bind_eq_some_iff.mp hrest
        obtain rfl := Option.some.inj hcons
        exact ⟨write a, rest.map write, (hitem d _).mpr ⟨a, ha, rfl⟩,
          ih.mpr ⟨rest, hitems, rfl⟩, rfl⟩

theorem listMember_iff (hitem : ∀ d v, Canonical d v ↔ ∃ a, read? d = some a ∧ write a = v)
    {values : List Json} :
    ListMember Canonical record name values ↔
      ∃ list, record.get name [] (Document.list? read?) = some list ∧ list.map write = values := by
  rw [Document.Record.get]
  constructor
  · rintro (hnone | ⟨hsome, hitems⟩)
    · rw [hnone]
      exact ⟨[], rfl, rfl⟩
    · rw [hsome]
      exact (forall₂_canonical_iff hitem).mp hitems
  · rintro ⟨list, hlist, rfl⟩
    split at hlist
    · rename_i hnone
      rw [← Option.some.inj hlist]
      exact .missing hnone
    · rename_i d hsome
      cases d with
      | array items => exact .present hsome ((forall₂_canonical_iff hitem).mpr ⟨list, hlist, rfl⟩)
      | _ => exact absurd hlist (by simp [Document.list?])

end

/-! ## Rules and presets -/

/-- The canonical form of a rule: all members in order, each as the rule was read. -/
inductive Rule.Canonical (d : Document) : Json → Prop where
  | members {record : Document.Record} {logic field operator value template : String} :
      d.record? Rule.memberNames = some record →
      LogicMember record "logic" logic →
      TextMember record "if_field" "" field →
      TextMember record "if_operator" Operator.is.text operator →
      TextMember record "if_value" "" value →
      TextMember record "then_template" "" template →
      Canonical d (.object [("logic", .string logic), ("if_field", .string field),
        ("if_operator", .string operator), ("if_value", .string value),
        ("then_template", .string template)])

/-- **A rule is written in its canonical form**, and it has one just if it is read. -/
theorem Rule.canonical_iff (d : Document) (v : Json) :
    Rule.Canonical d v ↔ ∃ r, Rule.ofDocument? d = some r ∧ r.toJson = v := by
  constructor
  · rintro ⟨hrecord, hlogic, hfield, hoperator, hvalue, htemplate⟩
    obtain ⟨logic, hreadLogic, rfl⟩ := logicMember_iff.mp hlogic
    obtain ⟨operator, hreadOperator, rfl⟩ := operatorMember_iff.mp hoperator
    refine ⟨⟨logic, _, operator, _, _⟩, Rule.ofDocument?_eq_some_iff.mpr ⟨_, hrecord, hreadLogic,
      textMember_iff.mp hfield, hreadOperator, textMember_iff.mp hvalue,
      textMember_iff.mp htemplate⟩, rfl⟩
  · rintro ⟨r, hr, rfl⟩
    obtain ⟨record, hrecord, hlogic, hfield, hoperator, hvalue, htemplate⟩ :=
      Rule.ofDocument?_eq_some_iff.mp hr
    exact .members hrecord (logicMember_iff.mpr ⟨_, hlogic, rfl⟩) (textMember_iff.mpr hfield)
      (operatorMember_iff.mpr ⟨_, hoperator, rfl⟩) (textMember_iff.mpr hvalue)
      (textMember_iff.mpr htemplate)

/-- The canonical form of a preset: all lists in order, and each rule in its canonical form. -/
inductive Preset.Canonical (d : Document) : Json → Prop where
  | members {record : Document.Record} {title artist album : List Json} :
      d.record? Preset.memberNames = some record →
      ListMember Rule.Canonical record "title" title →
      ListMember Rule.Canonical record "artist" artist →
      ListMember Rule.Canonical record "album" album →
      Canonical d (.object [("title", .array title), ("artist", .array artist),
        ("album", .array album)])

/-- **A preset is written in its canonical form**, and it has one just if it is read. -/
theorem Preset.canonical_iff (d : Document) (v : Json) :
    Preset.Canonical d v ↔ ∃ p, Preset.ofDocument? d = some p ∧ p.toJson = v := by
  constructor
  · rintro ⟨hrecord, htitle, hartist, halbum⟩
    obtain ⟨title, hreadTitle, rfl⟩ := (listMember_iff Rule.canonical_iff).mp htitle
    obtain ⟨artist, hreadArtist, rfl⟩ := (listMember_iff Rule.canonical_iff).mp hartist
    obtain ⟨album, hreadAlbum, rfl⟩ := (listMember_iff Rule.canonical_iff).mp halbum
    exact ⟨⟨title, artist, album⟩, Preset.ofDocument?_eq_some_iff.mpr
      ⟨_, hrecord, hreadTitle, hreadArtist, hreadAlbum⟩, rfl⟩
  · rintro ⟨p, hp, rfl⟩
    obtain ⟨record, hrecord, htitle, hartist, halbum⟩ := Preset.ofDocument?_eq_some_iff.mp hp
    exact .members hrecord ((listMember_iff Rule.canonical_iff).mpr ⟨_, htitle, rfl⟩)
      ((listMember_iff Rule.canonical_iff).mpr ⟨_, hartist, rfl⟩)
      ((listMember_iff Rule.canonical_iff).mpr ⟨_, halbum, rfl⟩)

namespace Preset

variable {text : String} {p q : Preset}

theorem ofText?_compact (h : p.Readable) : ofText? p.toJson.compact = some p := by
  rw [ofText?, Json.compact, String.toList_ofList, Json.Document.ofChars?_writeCompact]
  exact ofDocument?_toJson h

/--
**A preset that has been read is written in one form, and stays as it is.**

Whatever a text looks like that is read as a preset, the canonical form of its document is what is
written of the preset. This form, indented or compact, is read as the same preset, which is written
in the same form again and makes the same texts of every song. No other preset is written so.
-/
theorem ofText?_canonical (h : ofText? text = some p) :
    (∃ d, Document.ofChars? text.toList = some d ∧ ∀ v, Canonical d v ↔ v = p.toJson) ∧
    (∀ written ∈ [p.toJson.indented, p.toJson.compact], ∃ q, ofText? written = some q ∧ q = p ∧
      Canonical q.toJson.toDocument p.toJson ∧
      q.toJson.indented = p.toJson.indented ∧ q.toJson.compact = p.toJson.compact ∧
      ∀ policy song index, q.outputs policy song index = p.outputs policy song index) ∧
    ∀ text' q, ofText? text' = some q → q.toJson.indented = p.toJson.indented → q = p := by
  have hreadable := readable_of_ofText? h
  have hindented := ofText?_indented hreadable
  refine ⟨?_, ?_, ?_⟩
  · rw [ofText?] at h
    obtain ⟨d, hd, hp⟩ := Option.bind_eq_some_iff.mp h
    refine ⟨d, hd, fun v => (canonical_iff d v).trans ?_⟩
    rw [hp]
    simp [eq_comm]
  · intro written hwritten
    refine ⟨p, ?_, rfl, ?_, rfl, rfl, fun _ _ _ => rfl⟩
    · simp only [List.mem_cons, List.not_mem_nil, or_false] at hwritten
      rcases hwritten with rfl | rfl
      · exact hindented
      · exact ofText?_compact hreadable
    · exact (canonical_iff _ _).mpr ⟨p, ofDocument?_toJson hreadable, rfl⟩
  · -- what is written of both is read in one way
    intro text' q hq hsame
    have hback := ofText?_indented (readable_of_ofText? hq)
    rw [hsame, hindented] at hback
    exact (Option.some.inj hback).symm

/-- Lists out of order and one of them missing, a member that is not known and has no value, a logic
that is null, an operator that is not known, and a rule that is an array. -/
theorem ofText?_canonical_liberal :
    let text := "\x7b\"extra\":1e999,\"album\":[[\"nand\",\"Artist\"]]," ++
      "\"title\":[\x7b\"if_operator\":\"Matches\",\"logic\":null\x7d]\x7d"
    let p : Preset :=
      ⟨[⟨.and, "", .unknown "Matches", "", ""⟩], [], [⟨.or, "Artist", .is, "", ""⟩]⟩
    let written := "\x7b\"title\":[\x7b\"logic\":\"AND\",\"if_field\":\"\"," ++
      "\"if_operator\":\"Matches\",\"if_value\":\"\",\"then_template\":\"\"\x7d]," ++
      "\"artist\":[],\"album\":[\x7b\"logic\":\"OR\",\"if_field\":\"Artist\"," ++
      "\"if_operator\":\"is\",\"if_value\":\"\",\"then_template\":\"\"\x7d]\x7d"
    ofText? text = some p ∧ p.toJson.compact = written ∧
      ∃ q, ofText? written = some q ∧ q = p ∧ q.toJson.compact = written := by
  intro text p written
  have h : ofText? text = some p := by decide +kernel
  have hwritten : p.toJson.compact = written := by decide +kernel
  obtain ⟨q, hread, hq, -, -, hcompact, -⟩ :=
    (ofText?_canonical h).2.1 p.toJson.compact (by simp)
  rw [hwritten] at hread hcompact
  exact ⟨h, hwritten, q, hread, hq, hcompact⟩

end Preset

end SongLibrary
