import SongLibrary.Proofs.Song.Comment
import Mathlib

/-!
# What several comments bear together

Each comment that bears data bears a text before it and members in the order in which they are
written, a key perhaps more than once. What all of them bear together is then said of the members
one after another: a key stands where it appears first and has the value it is given last, and the
text is that of the first comment that bears any. This is `ofTexts?_eq`, and all else is read off
it: comments that bear nothing do not matter, and what two lists of comments bear is known from what
each of them bears.

The merging itself works on objects that have been read already, without repeated keys. Why that
makes no difference is `Assoc.merge_merge_nil`.
-/

namespace SongLibrary

namespace Json

/-- The members of an object as its text writes them, those with a repeated key included. -/
def writtenMembers? (cs : List Char) : Option Members :=
  match Document.ofChars? cs with
  | some (.object members) => membersToJson? (nestingLimit - 1) members
  | _ => none

/-- An object that is read is put together from its members as they are written. -/
theorem ofChars?_eq_object_iff {cs : List Char} {members : Members} :
    ofChars? cs = some (.object members) ↔
      ∃ written, writtenMembers? cs = some written ∧ Assoc.merge [] written = members := by
  rw [ofChars?, writtenMembers?]
  cases Document.ofChars? cs with
  | none => simp
  | some d =>
      cases d with
      | object items =>
          show (membersToJson? (nestingLimit - 1) items).map
            (fun ms => Json.object (Assoc.merge [] ms)) = _ ↔ _
          simp
      | array items => simp [Document.toJson?, nestingLimit]
      | number value => cases value <;> simp [Document.toJson?]
      | string value => cases value <;> simp [Document.toJson?]
      | _ => simp [Document.toJson?]

end Json

namespace Embedded

/-! ## What one comment bears -/

/-- A text bears data: between its outermost braces, behind a text, an object is written with these
members. -/
def Bears (text lead : String) (members : Json.Members) : Prop :=
  ∃ span, OuterBraces text.toList lead.toList span ∧ Json.writtenMembers? span = some members

/-- What a text bears, if it bears data. -/
def borne? (text : String) : Option (String × Json.Members) := do
  let (lead, span) ← braceSpan? text.toList
  return (String.ofList lead, ← Json.writtenMembers? span)

theorem borne?_eq_some_iff {text lead : String} {members : Json.Members} :
    borne? text = some (lead, members) ↔ Bears text lead members := by
  simp only [borne?, Bears, Option.bind_eq_bind, Option.bind_eq_some_iff, Option.pure_def,
    Option.some.injEq, Prod.mk.injEq, Prod.exists, ← braceSpan?_eq_some_iff]
  constructor
  · rintro ⟨lead', span, hspan, members', hmembers, rfl, rfl⟩
    exact ⟨span, by rw [String.toList_ofList, hspan], hmembers⟩
  · rintro ⟨span, hspan, hmembers⟩
    exact ⟨_, span, hspan, members, hmembers, String.ofList_toList, rfl⟩

/-- The data of a text is put together from the members that it bears. -/
theorem ofText?_eq (text : String) :
    ofText? text = (borne? text).map fun b => ⟨b.1, Assoc.merge [] b.2⟩ := by
  rw [ofText?, borne?]
  cases braceSpan? text.toList with
  | none => rfl
  | some cut =>
      obtain ⟨lead, span⟩ := cut
      dsimp only
      have hobject : ∀ members, Json.ofChars? span = some (.object members) ↔
          ∃ written, Json.writtenMembers? span = some written ∧ Assoc.merge [] written = members :=
        fun _ => Json.ofChars?_eq_object_iff
      cases hwritten : Json.writtenMembers? span with
      | some written =>
          rw [(hobject (Assoc.merge [] written)).mpr ⟨written, hwritten, rfl⟩]
          simp [hwritten]
      | none =>
          split
          · rename_i members hread
            obtain ⟨written, hsome, -⟩ := (hobject members).mp hread
            rw [hwritten] at hsome
            exact absurd hsome (by simp)
          · simp [hwritten]

/-! ## What several comments bear -/

/-- What comes of what several comments bear, one after another. -/
def gather : List (String × Json.Members) → Option Embedded
  | [] => none
  | first :: later => some ⟨first.1, Assoc.merge [] ((first :: later).flatMap Prod.snd)⟩

/-- Merging one object after another is merging their members one after another. -/
theorem foldl_extend_eq {e : Embedded} (he : (Assoc.keys e.data).Nodup)
    (later : List (String × Json.Members)) :
    (later.map fun b => (⟨b.1, Assoc.merge [] b.2⟩ : Embedded)).foldl extend e =
      ⟨e.lead, Assoc.merge e.data (later.flatMap Prod.snd)⟩ := by
  induction later generalizing e with
  | nil => rfl
  | cons b later ih =>
      rw [List.map_cons, List.foldl_cons, ih (Assoc.nodup_keys_merge he _), List.flatMap_cons,
        Assoc.merge_append, extend, Assoc.merge_merge_nil he]

/-- **What comments bear together is gathered from their members as they are written.** -/
theorem ofTexts?_eq (texts : List String) : ofTexts? texts = gather (texts.filterMap borne?) := by
  have hborne : texts.filterMap ofText? =
      (texts.filterMap borne?).map fun b => ⟨b.1, Assoc.merge [] b.2⟩ := by
    rw [List.map_filterMap]
    exact List.filterMap_congr fun text _ => ofText?_eq text
  rw [ofTexts?, hborne]
  cases texts.filterMap borne? with
  | nil => rfl
  | cons first later =>
      have hfirst := Assoc.nodup_keys_merge (m := []) List.nodup_nil first.2
      rw [List.map_cons]
      dsimp only
      rw [foldl_extend_eq hfirst, ← Assoc.merge_append, gather, List.flatMap_cons]

/-- What is gathered from comments. -/
structure Gathers (borne : List (String × Json.Members)) (e : Embedded) : Prop where
  /-- The text is that of the first one. -/
  lead : borne.head?.map Prod.fst = some e.lead
  /-- The keys stand in the order of their first appearance. -/
  keys : Assoc.keys e.data = (borne.flatMap fun b => Assoc.keys b.2).eraseDups
  /-- A key has its last value in the last comment that has the key. -/
  values : ∀ key, Assoc.find? e.data key =
    borne.reverse.findSome? fun b => Assoc.find? b.2.reverse key

/-- Among members one after another the last comment with a key decides. -/
theorem find?_reverse_flatMap (borne : List (String × Json.Members)) (key : String) :
    Assoc.find? (borne.flatMap Prod.snd).reverse key =
      borne.reverse.findSome? fun b => Assoc.find? b.2.reverse key := by
  induction borne with
  | nil => rfl
  | cons b borne ih =>
      rw [List.flatMap_cons, List.reverse_append, Assoc.find?_append, ih, List.reverse_cons,
        List.findSome?_append]
      simp

theorem gathers_of_gather {borne : List (String × Json.Members)} {e : Embedded}
    (h : gather borne = some e) : Gathers borne e := by
  cases borne with
  | nil => exact absurd h (by simp [gather])
  | cons first later =>
      rw [gather, Option.some.injEq] at h
      subst h
      refine ⟨rfl, ?_, fun key => ?_⟩
      · rw [Assoc.keys_merge]
        simp [Assoc.keys, List.map_flatMap]
      · rw [Assoc.find?_merge_last, find?_reverse_flatMap, Assoc.find?, Option.or_none]

/-! ## Two lists of comments -/

/-- What two lists of comments bear together, from what each of them bears. -/
def combine : Option Embedded → Option Embedded → Option Embedded
  | none, later => later
  | some e, none => some e
  | some e, some later => some (e.extend later)

/-- The first of two has the say over the text and over the order, the second over the values. -/
structure Overlays (e later both : Embedded) : Prop where
  lead : both.lead = e.lead
  /-- New keys go to the end. -/
  keys : Assoc.keys both.data =
    Assoc.keys e.data ++ (Assoc.keys later.data).removeAll (Assoc.keys e.data)
  values : ∀ key, Assoc.find? both.data key =
    (Assoc.find? later.data key).or (Assoc.find? e.data key)

theorem overlays_extend (e : Embedded) {later : Embedded} (h : (Assoc.keys later.data).Nodup) :
    Overlays e later (e.extend later) where
  lead := rfl
  keys := Assoc.keys_merge_of_nodup e.data h
  values := Assoc.find?_merge e.data h

theorem gather_append (borne later : List (String × Json.Members)) :
    gather (borne ++ later) = combine (gather borne) (gather later) := by
  cases borne with
  | nil => rfl
  | cons first rest =>
      cases later with
      | nil => rw [List.append_nil]; rfl
      | cons next others =>
          have hfirst := Assoc.nodup_keys_merge (m := []) List.nodup_nil
            ((first :: rest).flatMap Prod.snd)
          rw [gather, gather, combine, extend, Assoc.merge_merge_nil hfirst, ← Assoc.merge_append,
            ← List.flatMap_append]
          rfl

/-- **What comments bear is merged comment by comment.** They bear nothing together just if none
does. Otherwise the text is that of the first one that bears data, the keys stand in the order of
their first appearance, and each has its last value in the last comment that has it. Comments that
bear nothing may be put in and left out anywhere, and what two lists of comments bear one after the
other is known from what each bears: the second one puts its values over those of the first and its
new keys behind them, and the text of the first one stays. -/
theorem ofTexts?_merges (texts : List String) :
    let borne := texts.filterMap borne?
    (∀ text lead members, borne? text = some (lead, members) ↔ Bears text lead members) ∧
    (ofTexts? texts = none ↔ ∀ text ∈ texts, ∀ lead members, ¬Bears text lead members) ∧
    (∀ e, ofTexts? texts = some e → Gathers borne e) ∧
    (∀ others, others.filter (fun text => (borne? text).isSome) =
      texts.filter (fun text => (borne? text).isSome) → ofTexts? others = ofTexts? texts) ∧
    (∀ later, ofTexts? (texts ++ later) = combine (ofTexts? texts) (ofTexts? later)) ∧
    ∀ later e e', ofTexts? texts = some e → ofTexts? later = some e' →
      Overlays e e' (e.extend e') := by
  intro borne
  refine ⟨fun _ _ _ => borne?_eq_some_iff, ?_, fun e h => ?_, fun others h => ?_, fun later => ?_,
    fun later e e' _ h => ?_⟩
  · have hnone : gather borne = none ↔ borne = [] := by cases borne <;> simp [gather]
    rw [ofTexts?_eq, hnone, List.filterMap_eq_nil_iff]
    refine forall₂_congr fun text _ => ?_
    rw [Option.eq_none_iff_forall_ne_some, Prod.forall]
    exact forall₂_congr fun lead members => not_congr borne?_eq_some_iff
  · rw [ofTexts?_eq] at h
    exact gathers_of_gather h
  · -- only those that bear data are looked at
    have hbearing : ∀ list : List String, list.filterMap borne? =
        (list.filter fun text => (borne? text).isSome).filterMap borne? := fun list => by
      rw [List.filterMap_filter]
      refine List.filterMap_congr fun text _ => ?_
      cases borne? text <;> rfl
    rw [ofTexts?_eq, ofTexts?_eq, hbearing, h, ← hbearing]
  · rw [ofTexts?_eq, ofTexts?_eq, ofTexts?_eq, List.filterMap_append, gather_append]
  · exact overlays_extend e (readable_object_iff.mp (restorable_of_ofTexts? h).data).1

/-- A key that is written twice, a comment that bears nothing, and a later comment that changes one
key and brings another. -/
theorem ofTexts?_merges_changed :
    let texts := ["x\x7b\"k\":1,\"l\":2,\"k\":3\x7d", "\x7d\x7b"]
    let later := ["y\x7b\"m\":null,\"l\":4\x7d."]
    let number := fun n h => Json.number (.ofNat n h)
    let e : Embedded := ⟨"x", [("k", number 3 (by decide)), ("l", number 2 (by decide))]⟩
    let e' : Embedded := ⟨"y", [("m", .null), ("l", number 4 (by decide))]⟩
    Gathers (texts.filterMap borne?) e ∧ Overlays e e' (e.extend e') ∧
    ofTexts? (texts ++ later) =
      some ⟨"x", [("k", number 3 (by decide)), ("l", number 4 (by decide)), ("m", .null)]⟩ := by
  intro texts later number e e'
  have hfirst : ofTexts? texts = some e := by cbv
  have hlater : ofTexts? later = some e' := by cbv
  obtain ⟨-, -, hgathers, -, happend, hoverlays⟩ := ofTexts?_merges texts
  refine ⟨hgathers e hfirst, hoverlays later e e' hfirst hlater, ?_⟩
  rw [happend, hfirst, hlater]
  rfl

end Embedded

end SongLibrary
