import SongLibrary.Files.PresetFolder
import SongLibrary.Proofs.Json.Indented
import SongLibrary.Proofs.Json.Shape

/-!
# Presets read back

A preset is written with all members of all rules, and each member is read back as it was, with one
exception: an operator is written as its text, and the text of a known operator is read as that
operator, even if it was kept as that of an unknown one. No reader makes such an operator, so
whatever has been read is read back.
-/

namespace SongLibrary

open Json (Document)

theorem Logic.ofText_name (l : Logic) : ofText l.name = l := by
  cases l <;> decide +kernel

theorem Logic.ofDocument?_name (l : Logic) :
    ofDocument? (Json.string l.name).toDocument = some l :=
  congrArg some l.ofText_name

namespace Rule

/-- A rule whose operator is not that of an unknown text that is known. -/
def Readable (r : Rule) : Prop := Operator.ofText r.operator.text = r.operator

instance (r : Rule) : Decidable r.Readable :=
  inferInstanceAs (Decidable (Operator.ofText r.operator.text = r.operator))

theorem ofDocument?_toJson {r : Rule} (h : r.Readable) :
    ofDocument? r.toJson.toDocument = some r := by
  obtain ⟨logic, field, operator, value, template⟩ := r
  have hoperator : Operator.ofText operator.text = operator := h
  have hlogic : Logic.ofDocument? (.string (some logic.name)) = some logic := logic.ofDocument?_name
  have hnames : memberNames.Nodup := by decide
  rw [ofDocument?, toJson, Document.record?_object]
  · simp [Json.toDocument, Document.text?, hlogic, hoperator]
  · exact hnames

/-- A rule is read member by member. -/
theorem ofDocument?_eq_some_iff {d : Document} {r : Rule} :
    ofDocument? d = some r ↔ ∃ record, d.record? memberNames = some record ∧
      record.get "logic" .and Logic.ofDocument? = some r.logic ∧
      record.get "if_field" "" Document.text? = some r.field ∧
      record.get "if_operator" .is (fun d => d.text?.map Operator.ofText) = some r.operator ∧
      record.get "if_value" "" Document.text? = some r.value ∧
      record.get "then_template" "" Document.text? = some r.template := by
  constructor
  · intro h
    rw [ofDocument?] at h
    obtain ⟨record, hrecord, h⟩ := Option.bind_eq_some_iff.mp h
    obtain ⟨logic, hlogic, h⟩ := Option.bind_eq_some_iff.mp h
    obtain ⟨field, hfield, h⟩ := Option.bind_eq_some_iff.mp h
    obtain ⟨operator, hoperator, h⟩ := Option.bind_eq_some_iff.mp h
    obtain ⟨value, hvalue, h⟩ := Option.bind_eq_some_iff.mp h
    obtain ⟨template, htemplate, h⟩ := Option.bind_eq_some_iff.mp h
    obtain rfl := Option.some.inj h
    exact ⟨record, hrecord, hlogic, hfield, hoperator, hvalue, htemplate⟩
  · rintro ⟨record, hrecord, hlogic, hfield, hoperator, hvalue, htemplate⟩
    simp [ofDocument?, hrecord, hlogic, hfield, hoperator, hvalue, htemplate]

/-- A rule that was read is read back. -/
theorem readable_of_ofDocument? {d : Document} {r : Rule} (h : ofDocument? d = some r) :
    r.Readable := by
  obtain ⟨record, -, -, -, hoperator, -, -⟩ := ofDocument?_eq_some_iff.mp h
  rw [Readable]
  rcases Document.Record.get_cases hoperator with his | ⟨d', hd'⟩
  · rw [his]
    rfl
  · obtain ⟨text, -, htext⟩ := Option.map_eq_some_iff.mp hd'
    rw [← htext, Operator.text_ofText]

end Rule

namespace Preset

/-- A preset all of whose rules are read back. -/
structure Readable (p : Preset) : Prop where
  title : ∀ r ∈ p.title, r.Readable
  artist : ∀ r ∈ p.artist, r.Readable
  album : ∀ r ∈ p.album, r.Readable

theorem ofDocument?_toJson {p : Preset} (h : p.Readable) :
    ofDocument? p.toJson.toDocument = some p := by
  have hrules : ∀ rules : List Rule, (∀ r ∈ rules, r.Readable) →
      Document.list? Rule.ofDocument? (Json.array (rules.map Rule.toJson)).toDocument
        = some rules := fun rules hreadable =>
    Document.list?_array fun r hr => Rule.ofDocument?_toJson (hreadable r hr)
  have hnames : memberNames.Nodup := by decide
  rw [ofDocument?, toJson, Document.record?_object]
  · simp [hrules _ h.title, hrules _ h.artist, hrules _ h.album]
  · exact hnames

/-- A preset is read list by list. -/
theorem ofDocument?_eq_some_iff {d : Document} {p : Preset} :
    ofDocument? d = some p ↔ ∃ record, d.record? memberNames = some record ∧
      record.get "title" [] (Document.list? Rule.ofDocument?) = some p.title ∧
      record.get "artist" [] (Document.list? Rule.ofDocument?) = some p.artist ∧
      record.get "album" [] (Document.list? Rule.ofDocument?) = some p.album := by
  constructor
  · intro h
    rw [ofDocument?] at h
    obtain ⟨record, hrecord, h⟩ := Option.bind_eq_some_iff.mp h
    obtain ⟨title, htitle, h⟩ := Option.bind_eq_some_iff.mp h
    obtain ⟨artist, hartist, h⟩ := Option.bind_eq_some_iff.mp h
    obtain ⟨album, halbum, h⟩ := Option.bind_eq_some_iff.mp h
    obtain rfl := Option.some.inj h
    exact ⟨record, hrecord, htitle, hartist, halbum⟩
  · rintro ⟨record, hrecord, htitle, hartist, halbum⟩
    simp [ofDocument?, hrecord, htitle, hartist, halbum]

/-- A preset that was read is read back. -/
theorem readable_of_ofDocument? {d : Document} {p : Preset} (h : ofDocument? d = some p) :
    p.Readable := by
  have hrules : ∀ {record : Document.Record} {name : String} {rules : List Rule},
      record.get name [] (Document.list? Rule.ofDocument?) = some rules →
      ∀ r ∈ rules, r.Readable := by
    intro record name rules hget r hr
    rcases Document.Record.get_cases hget with rfl | ⟨d', hd'⟩
    · exact absurd hr List.not_mem_nil
    · obtain ⟨d'', hd''⟩ := Document.exists_of_mem_list? hd' r hr
      exact Rule.readable_of_ofDocument? hd''
  obtain ⟨record, -, htitle, hartist, halbum⟩ := ofDocument?_eq_some_iff.mp h
  exact ⟨hrules htitle, hrules hartist, hrules halbum⟩

/-- **What is written of a preset that has been read is read as that preset.** -/
theorem ofText?_indented {p : Preset} (h : p.Readable) : ofText? p.toJson.indented = some p := by
  rw [ofText?, Json.indented, String.toList_ofList, Json.Document.ofChars?_writeIndented]
  exact ofDocument?_toJson h

theorem readable_of_ofText? {text : String} {p : Preset} (h : ofText? text = some p) :
    p.Readable := by
  rw [ofText?] at h
  obtain ⟨d, -, hd⟩ := Option.bind_eq_some_iff.mp h
  exact readable_of_ofDocument? hd

end Preset

end SongLibrary
