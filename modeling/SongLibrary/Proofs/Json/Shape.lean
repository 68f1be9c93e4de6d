import SongLibrary.Json.Shape
import SongLibrary.Proofs.Assoc

/-!
# Records and lists read back

The document of an object whose keys are all different is read as a record that has under every name
what the object has there. The document of an array is read as a list if each of its items can be
read. So whoever writes a record with all its members reads them back one by one.
-/

namespace SongLibrary.Json.Document

/-! ## Records -/

theorem keys?_membersToDocument (members : Members) :
    keys? (membersToDocument members) = some (Assoc.keys members) := by
  induction members with
  | nil => rfl
  | cons member rest ih =>
      obtain ⟨key, value⟩ := member
      rw [membersToDocument, keys?, ih]
      rfl

theorem find?_membersToDocument (members : Members) (name : String) :
    find? name (membersToDocument members) = (Assoc.find? members name).map toDocument := by
  induction members with
  | nil => rfl
  | cons member rest ih =>
      obtain ⟨key, value⟩ := member
      rw [membersToDocument, find?, Assoc.find?, ih]
      by_cases h : key = name
      · rw [if_pos (congrArg some h), if_pos h]
        rfl
      · rw [if_neg (mt Option.some.inj h), if_neg h]

/-- The record of the members of an object. -/
def Record.ofMembers (members : Members) : Record :=
  ⟨fun name => (Assoc.find? members name).map toDocument⟩

/-- **An object is read as the record of its members.** -/
theorem record?_object {members : Members} (h : (Assoc.keys members).Nodup) (names : List String) :
    (Json.object members).toDocument.record? names = some (.ofMembers members) := by
  have hknown : ((Assoc.keys members).filter (· ∈ names)).Nodup := h.filter _
  rw [toDocument, record?, keys?_membersToDocument]
  simp only [Option.bind_eq_bind, Option.bind_some, find?_membersToDocument]
  exact if_pos hknown

section

variable {α : Type} {name key : String} {v : Json} {rest : Members} {default : α}
  {read? : Document → Option α}

@[simp] theorem Record.member?_ofMembers_self :
    (ofMembers ((name, v) :: rest)).member? name = some v.toDocument := by
  simp [ofMembers, Assoc.find?]

@[simp] theorem Record.member?_ofMembers_of_ne (h : key ≠ name) :
    (ofMembers ((key, v) :: rest)).member? name = (ofMembers rest).member? name := by
  simp [ofMembers, Assoc.find?, h]

/-- The first member is read from its value. -/
@[simp] theorem Record.get_ofMembers_self :
    (ofMembers ((name, v) :: rest)).get name default read? = read? v.toDocument := by
  rw [get, member?_ofMembers_self]

/-- The other members are read from what follows it. -/
@[simp] theorem Record.get_ofMembers_of_ne (h : key ≠ name) :
    (ofMembers ((key, v) :: rest)).get name default read? =
      (ofMembers rest).get name default read? := by
  rw [get, get, member?_ofMembers_of_ne h]

@[simp] theorem Record.require_ofMembers_self :
    (ofMembers ((name, v) :: rest)).require name read? = read? v.toDocument := by
  rw [require, member?_ofMembers_self, Option.bind_some]

end

/-- What a member holds was read from a document, unless it is the default. -/
theorem Record.get_cases {α : Type} {r : Record} {name : String} {default a : α}
    {read? : Document → Option α} (h : r.get name default read? = some a) :
    a = default ∨ ∃ d, read? d = some a := by
  rw [Record.get] at h
  split at h
  · exact Or.inl (Option.some.inj h).symm
  · rename_i d _
    exact Or.inr ⟨d, h⟩

/-! ## Lists -/

variable {α : Type} {read? : Document → Option α}

/-- **A list whose items can be read back can be read back.** -/
theorem list?_array {write : α → Json} {items : List α}
    (h : ∀ a ∈ items, read? (write a).toDocument = some a) :
    list? read? (Json.array (items.map write)).toDocument = some items := by
  rw [toDocument, list?]
  induction items with
  | nil => rfl
  | cons a items ih =>
      rw [List.map_cons, itemsToDocument, List.mapM_cons, h a List.mem_cons_self,
        ih fun b hb => h b (List.mem_cons_of_mem _ hb)]
      rfl

/-- Every item of a list that was read was read from a document. -/
theorem exists_of_mem_list? {d : Document} {items : List α} (h : list? read? d = some items) :
    ∀ a ∈ items, ∃ d', read? d' = some a := by
  unfold list? at h
  split at h
  · rename_i documents
    induction documents generalizing items with
    | nil =>
        obtain rfl : [] = items := Option.some.inj h
        exact fun a ha => absurd ha List.not_mem_nil
    | cons d documents ih =>
        rw [List.mapM_cons] at h
        obtain ⟨b, hb, hrest⟩ := Option.bind_eq_some_iff.mp h
        obtain ⟨bs, hbs, hitems⟩ := Option.bind_eq_some_iff.mp hrest
        obtain rfl := Option.some.inj hitems
        intro a ha
        rcases List.mem_cons.mp ha with rfl | ha
        · exact ⟨d, hb⟩
        · exact ih hbs a ha
  · exact absurd h (by simp)

end SongLibrary.Json.Document
