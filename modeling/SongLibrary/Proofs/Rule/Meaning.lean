import SongLibrary.Proofs.Rule.Blocks
import SongLibrary.Rule.Engine
import Mathlib.Data.List.Forall2

/-!
# What a list of rules means

`Rule.output` walks over blocks that `Rule.blocks` has built. `Meaning` says what it computes
without either of them, by positions in the list alone: the output is that of the first block whose
conditions all hold and whose output counts, and empty if there is none.

An output depends on the blocks, and on a block only through its conditions, in any order, and its
last template. `Alike` is that relation on blocks; what may change in a list of rules without a
change of its output is read off from it.
-/

namespace SongLibrary.Rule

variable {policy : Policy} {song : Song} {index : VersionIndex}

/-! ## Blocks that make the same -/

/-- The condition of a rule: what it compares, how, and with what. -/
def condition (r : Rule) : String × Operator × String := (r.field, r.operator, r.value)

theorem holds_of_condition {r s : Rule} (h : r.condition = s.condition) (song : Song)
    (index : VersionIndex) : r.holds song index = s.holds song index := by
  simp only [condition, Prod.mk.injEq] at h
  obtain ⟨hfield, hoperator, hvalue⟩ := h
  simp only [holds, hfield, hoperator, hvalue]

/-- Blocks with the same conditions in any order and the same last template. -/
structure Alike (b c : List Rule) : Prop where
  conditions : (b.map condition).Perm (c.map condition)
  template : b.getLast?.map template = c.getLast?.map template

theorem Alike.refl (b : List Rule) : Alike b b := ⟨List.Perm.refl _, rfl⟩

theorem Alike.symm {b c : List Rule} (h : Alike b c) : Alike c b :=
  ⟨h.conditions.symm, h.template.symm⟩

theorem Alike.ne_nil {b c : List Rule} (h : Alike b c) (hb : b ≠ []) : c ≠ [] := by
  intro hc
  have hlen := h.conditions.length_eq
  rw [hc, List.length_map, List.length_map] at hlen
  exact hb (List.length_eq_zero_iff.mp hlen)

theorem blockHolds_iff {b : List Rule} :
    blockHolds b song index = true ↔ b ≠ [] ∧ ∀ r ∈ b, r.holds song index = true := by
  simp [blockHolds]

theorem Alike.blockHolds {b c : List Rule} (h : Alike b c)
    (hb : blockHolds b song index = true) : blockHolds c song index = true := by
  obtain ⟨hne, hall⟩ := blockHolds_iff.mp hb
  refine blockHolds_iff.mpr ⟨h.ne_nil hne, fun s hs => ?_⟩
  have hmem := h.conditions.mem_iff.mpr (List.mem_map_of_mem hs)
  obtain ⟨r, hr, hcondition⟩ := List.mem_map.mp hmem
  rw [← holds_of_condition hcondition]
  exact hall r hr

/-- Whether a text counts as the output of a block. -/
def Counts (policy : Policy) (text : String) : Prop :=
  policy = .skipBlankOutput → Text.isBlankText text = false

theorem blockOutput?_of_holds {b : List Rule} {r : Rule}
    (hb : blockHolds b song index = true) (hr : b.getLast? = some r) :
    blockOutput? policy song index b =
      if policy = .skipBlankOutput ∧ Text.isBlankText (Template.render r.template song) = true
      then none else some (Template.render r.template song) := by
  unfold blockOutput?
  rw [if_pos hb, hr]
  cases policy <;> simp

theorem blockOutput?_eq_some_iff {b : List Rule} {text : String} :
    blockOutput? policy song index b = some text ↔
      blockHolds b song index = true
        ∧ (∃ r, b.getLast? = some r ∧ text = Template.render r.template song)
        ∧ Counts policy text := by
  constructor
  · intro h
    have hb : blockHolds b song index = true := by
      unfold blockOutput? at h
      split at h
      · assumption
      · exact absurd h (by simp)
    have hr := List.getLast?_eq_some_getLast (blockHolds_iff.mp hb).1
    rw [blockOutput?_of_holds hb hr] at h
    split at h
    · exact absurd h (by simp)
    · rename_i hcounts
      have htext := (Option.some.inj h).symm
      rw [← htext] at hcounts
      exact ⟨hb, ⟨_, hr, htext⟩, fun hp => Bool.eq_false_iff.mpr fun hblank => hcounts ⟨hp, hblank⟩⟩
  · rintro ⟨hb, ⟨r, hr, rfl⟩, hcounts⟩
    rw [blockOutput?_of_holds hb hr, if_neg]
    rintro ⟨hp, hblank⟩
    rw [hcounts hp] at hblank
    exact absurd hblank (by simp)

/-- Blocks that are alike make the same of every song. -/
theorem Alike.blockOutput? {b c : List Rule} (h : Alike b c) :
    blockOutput? policy song index b = blockOutput? policy song index c := by
  have key : ∀ {b c : List Rule} {text : String}, Alike b c →
      Rule.blockOutput? policy song index b = some text →
      Rule.blockOutput? policy song index c = some text := by
    intro b c text h hb
    obtain ⟨hholds, ⟨r, hr, htext⟩, hcounts⟩ := blockOutput?_eq_some_iff.mp hb
    have hlast := h.template
    rw [hr, Option.map_some] at hlast
    obtain ⟨s, hs, htemplate⟩ := Option.map_eq_some_iff.mp hlast.symm
    exact blockOutput?_eq_some_iff.mpr
      ⟨h.blockHolds hholds, ⟨s, hs, by rw [htemplate]; exact htext⟩, hcounts⟩
  exact Option.ext fun text => ⟨key h, key h.symm⟩

/-- Lists whose blocks are alike, one by one, have the same output. -/
theorem output_of_alike {rules rules' : List Rule}
    (h : List.Forall₂ Alike (blocks rules) (blocks rules')) :
    output policy rules song index = output policy rules' song index := by
  have hfind : ∀ {bs bs' : List (List Rule)}, List.Forall₂ Alike bs bs' →
      bs.findSome? (Rule.blockOutput? policy song index)
        = bs'.findSome? (Rule.blockOutput? policy song index) := by
    intro bs bs' h
    induction h with
    | nil => rfl
    | cons halike _ ih => rw [List.findSome?_cons, List.findSome?_cons, halike.blockOutput?, ih]
  rw [output, output, hfind h]

/-! ## The meaning by positions -/

/-- The block from `first` up to `last` fits a song: all its conditions hold. -/
structure Fits (rules : List Rule) (song : Song) (index : VersionIndex) (first last : Nat) :
    Prop where
  isBlock : IsBlock rules first last
  holds : ∀ i r, first ≤ i → i < last → rules[i]? = some r → r.holds song index = true

/-- The block from `first` up to `last` makes `text`: it fits, its last rule has the template of the
text, and the text counts. -/
structure Makes (policy : Policy) (rules : List Rule) (song : Song) (index : VersionIndex)
    (first last : Nat) (text : String) : Prop where
  fits : Fits rules song index first last
  render : ∃ r, rules[last - 1]? = some r ∧ text = Template.render r.template song
  counts : Counts policy text

/-- **What rules make of a song**: what the first block makes that makes anything, or nothing. -/
inductive Meaning (policy : Policy) (rules : List Rule) (song : Song) (index : VersionIndex) :
    String → Prop where
  | first {first last : Nat} {text : String} :
      Makes policy rules song index first last text →
      (∀ first' last' text', first' < first →
        ¬Makes policy rules song index first' last' text') →
      Meaning policy rules song index text
  | nothing :
      (∀ first last text, ¬Makes policy rules song index first last text) →
      Meaning policy rules song index ""

theorem fits_iff {rules : List Rule} {first last : Nat} (h : IsBlock rules first last) :
    Fits rules song index first last ↔ blockHolds (slice rules first last) song index = true := by
  rw [blockHolds_iff]
  constructor
  · rintro ⟨-, hholds⟩
    refine ⟨slice_ne_nil h.lt h.le, fun s hs => ?_⟩
    obtain ⟨i, hf, hl, hi⟩ := mem_slice.mp hs
    exact hholds i s hf hl hi
  · rintro ⟨-, hall⟩
    exact ⟨h, fun i s hf hl hi => hall s (mem_slice.mpr ⟨i, hf, hl, hi⟩)⟩

theorem makes_iff {rules : List Rule} {first last : Nat} {text : String}
    (h : IsBlock rules first last) :
    Makes policy rules song index first last text ↔
      blockOutput? policy song index (slice rules first last) = some text := by
  rw [blockOutput?_eq_some_iff, ← fits_iff h, getLast?_slice h.lt h.le]
  exact ⟨fun ⟨hfits, hrender, hcounts⟩ => ⟨hfits, hrender, hcounts⟩,
    fun ⟨hfits, hrender, hcounts⟩ => ⟨hfits, hrender, hcounts⟩⟩

/-- What the first of the blocks makes that makes anything. -/
abbrev made? (policy : Policy) (rules : List Rule) (song : Song) (index : VersionIndex) :
    Option String :=
  (blocks rules).findSome? (blockOutput? policy song index)

theorem output_eq (policy : Policy) (rules : List Rule) (song : Song) (index : VersionIndex) :
    output policy rules song index = (made? policy rules song index).getD "" := rfl

theorem made?_eq_none_iff {rules : List Rule} :
    made? policy rules song index = none ↔
      ∀ first last text, ¬Makes policy rules song index first last text := by
  constructor
  · intro hnone first last text hmakes
    have hblock := hmakes.fits.isBlock
    have hmem : slice rules first last ∈ blocks rules := by
      rw [blocks_of_isBlock hblock]; simp
    have hsome := (makes_iff hblock).mp hmakes
    rw [List.findSome?_eq_none_iff.mp hnone _ hmem] at hsome
    exact absurd hsome (by simp)
  · intro hnone
    refine List.findSome?_eq_none_iff.mpr fun b hb => ?_
    obtain ⟨first, last, hblock, rfl⟩ := exists_isBlock_of_mem hb
    cases htext : blockOutput? policy song index (slice rules first last) with
    | none => rfl
    | some text => exact absurd ((makes_iff hblock).mpr htext) (hnone first last text)

theorem meaning_output (policy : Policy) (rules : List Rule) (song : Song) (index : VersionIndex) :
    Meaning policy rules song index (output policy rules song index) := by
  rw [output_eq]
  cases hfind : made? policy rules song index with
  | none => exact .nothing (made?_eq_none_iff.mp hfind)
  | some text =>
      obtain ⟨before, b, behind, hblocks, hsome, hnone⟩ := List.findSome?_eq_some_iff.mp hfind
      obtain ⟨hblock, hslice⟩ := isBlock_of_blocks hblocks
      refine .first ((makes_iff hblock).mpr (by rw [hslice]; exact hsome)) ?_
      intro first' last' text' hlt hmakes
      have hmem := slice_mem_of_lt hblocks hmakes.fits.isBlock hlt
      have hsome' := (makes_iff hmakes.fits.isBlock).mp hmakes
      rw [hnone _ hmem] at hsome'
      exact absurd hsome' (by simp)

theorem Makes.text_unique {rules : List Rule} {first last last' : Nat} {text text' : String}
    (h : Makes policy rules song index first last text)
    (h' : Makes policy rules song index first last' text') : text = text' := by
  obtain rfl := h.fits.isBlock.last_unique h'.fits.isBlock
  obtain ⟨r, hr, htext⟩ := h.render
  obtain ⟨r', hr', htext'⟩ := h'.render
  rw [hr] at hr'
  rw [htext, htext', Option.some.inj hr']

/-- Rules mean one text. -/
theorem Meaning.unique {rules : List Rule} {text text' : String}
    (h : Meaning policy rules song index text) (h' : Meaning policy rules song index text') :
    text = text' := by
  cases h with
  | @first first last _ hmakes hearlier =>
      cases h' with
      | @first first' last' _ hmakes' hearlier' =>
          -- the earlier one of the two would have come first in either meaning
          rcases Nat.lt_trichotomy first first' with hlt | rfl | hgt
          · exact absurd hmakes (hearlier' first last text hlt)
          · exact hmakes.text_unique hmakes'
          · exact absurd hmakes' (hearlier first' last' text' hgt)
      | nothing hnone => exact absurd hmakes (hnone first last text)
  | nothing hnone =>
      cases h' with
      | @first first' last' _ hmakes' _ => exact absurd hmakes' (hnone first' last' text')
      | nothing _ => rfl

/-! ## Lists joined at a cut -/

theorem output_append {a b : List Rule} (ha : a ≠ []) (hb : StartsWithOr b) :
    output policy (a ++ b) song index =
      ((made? policy a song index).or (made? policy b song index)).getD "" := by
  rw [output, blocks_append ha hb, List.findSome?_append]

theorem isBlankText_empty : Text.isBlankText "" = true := rfl

/-- Under the policy that skips blank output, only an output that is not blank is made. -/
theorem made?_skip {rules : List Rule} :
    made? .skipBlankOutput rules song index = none ↔
      Text.isBlankText (output .skipBlankOutput rules song index) = true := by
  rw [output_eq]
  cases hfind : made? .skipBlankOutput rules song index with
  | none => simp [isBlankText_empty]
  | some text =>
      obtain ⟨b, -, hb⟩ := List.exists_of_findSome?_eq_some hfind
      have hcounts := (blockOutput?_eq_some_iff.mp hb).2.2 rfl
      simp [hcounts]

/-- Under the policy that stops, an output is made where a block fits. -/
theorem made?_stop {rules : List Rule} :
    made? .stopAtFirstMatch rules song index = none ↔
      ¬∃ first last, Fits rules song index first last := by
  rw [made?_eq_none_iff]
  constructor
  · rintro hnone ⟨first, last, hfits⟩
    have hlt := hfits.isBlock.lt
    have hle := hfits.isBlock.le
    have hlast : rules[last - 1]? = some rules[last - 1] := List.getElem?_eq_getElem (by omega)
    exact hnone first last _ ⟨hfits, ⟨_, hlast, rfl⟩, fun hp => Policy.noConfusion hp⟩
  · intro hnone first last text hmakes
    exact hnone ⟨first, last, hmakes.fits⟩

/-! ## What does not matter -/

/-- The rule at a position is the last of its block. -/
def ClosesBlock (rules : List Rule) (i : Nat) : Prop :=
  i + 1 = rules.length ∨ OpensBlock rules (i + 1)

theorem ClosesBlock.cons {r : Rule} {rest : List Rule} {i : Nat} (h : ClosesBlock rest i) :
    ClosesBlock (r :: rest) (i + 1) := by
  rcases h with hlen | hz | ⟨s, hs, hor⟩
  · exact Or.inl (by rw [List.length_cons, hlen])
  · omega
  · exact Or.inr (Or.inr ⟨s, by rw [List.getElem?_cons_succ]; exact hs, hor⟩)

theorem joinsBlock_congr {rest rest' : List Rule} (h : rest.map logic = rest'.map logic) :
    joinsBlock rest = joinsBlock rest' := by
  cases rest with
  | nil => cases rest' with
    | nil => rfl
    | cons s later => simp at h
  | cons r later => cases rest' with
    | nil => simp at h
    | cons s later' =>
        rw [List.map_cons, List.map_cons] at h
        simp only [joinsBlock, (List.cons.inj h).1]

theorem alike_cons {r r' : Rule} {b b' : List Rule} (hr : r.condition = r'.condition)
    (h : Alike b b') (hb : b ≠ []) : Alike (r :: b) (r' :: b') := by
  obtain ⟨s, c, rfl⟩ := List.exists_cons_of_ne_nil hb
  obtain ⟨s', c', rfl⟩ := List.exists_cons_of_ne_nil (h.ne_nil hb)
  refine ⟨?_, ?_⟩
  · rw [List.map_cons, List.map_cons, hr]
    exact h.conditions.cons _
  · rw [List.getLast?_cons_cons, List.getLast?_cons_cons]
    exact h.template

theorem alike_consToFirst {r r' : Rule} {bs bs' : List (List Rule)}
    (hr : r.condition = r'.condition) (h : List.Forall₂ Alike bs bs') (hbs : bs ≠ [])
    (hne : ∀ b ∈ bs, b ≠ []) : List.Forall₂ Alike (consToFirst r bs) (consToFirst r' bs') := by
  cases h with
  | nil => exact absurd rfl hbs
  | cons halike hlater => exact .cons (alike_cons hr halike (hne _ (by simp))) hlater

/-- **What an output reads**: the conditions, the logics behind the first rule, and the templates
that close a block. -/
theorem alike_blocks {rules rules' : List Rule}
    (hcondition : rules.map condition = rules'.map condition)
    (hlogic : rules.tail.map logic = rules'.tail.map logic)
    (htemplate : ∀ i, ClosesBlock rules i → rules[i]?.map template = rules'[i]?.map template) :
    List.Forall₂ Alike (blocks rules) (blocks rules') := by
  induction rules generalizing rules' with
  | nil =>
      obtain rfl := List.map_eq_nil_iff.mp hcondition.symm
      exact .nil
  | cons r rest ih =>
      cases rules' with
      | nil => simp at hcondition
      | cons r' rest' =>
          rw [List.map_cons, List.map_cons] at hcondition
          obtain ⟨hr, hrest⟩ := List.cons.inj hcondition
          rw [List.tail_cons, List.tail_cons] at hlogic
          have hlater : List.Forall₂ Alike (blocks rest) (blocks rest') := by
            refine ih hrest ?_ ?_
            · rw [List.map_tail, List.map_tail, hlogic]
            · intro i hi
              have := htemplate (i + 1) hi.cons
              rwa [List.getElem?_cons_succ, List.getElem?_cons_succ] at this
          rw [blocks, blocks, ← joinsBlock_congr hlogic]
          split
          · rename_i hjoins
            refine alike_consToFirst hr hlater ?_ fun b hb => ne_nil_of_mem_blocks hb
            refine blocks_ne_nil fun hnil => ?_
            rw [hnil] at hjoins
            exact absurd hjoins (by simp [joinsBlock])
          · rename_i hjoins
            refine .cons ⟨by simp [hr], ?_⟩ hlater
            -- the rule is a block of its own, so its template is read
            have hcloses : ClosesBlock (r :: rest) 0 := by
              cases rest with
              | nil => exact Or.inl rfl
              | cons s later =>
                  refine Or.inr (Or.inr ⟨s, rfl, ?_⟩)
                  cases hs : s.logic with
                  | and => exact absurd (by simp [joinsBlock, hs]) hjoins
                  | or => rfl
            simpa using htemplate 0 hcloses

/-- A block may be put in the place of one that is alike. -/
theorem alike_blocks_of_isBlock {before behind b c : List Rule}
    (hb : IsBlock (before ++ b ++ behind) before.length (before.length + b.length))
    (hc : IsBlock (before ++ c ++ behind) before.length (before.length + c.length))
    (h : Alike b c) :
    List.Forall₂ Alike (blocks (before ++ b ++ behind)) (blocks (before ++ c ++ behind)) := by
  have key : ∀ {d : List Rule},
      IsBlock (before ++ d ++ behind) before.length (before.length + d.length) →
      blocks (before ++ d ++ behind) = blocks before ++ d :: blocks behind := by
    intro d hd
    have hblocks := blocks_of_isBlock hd
    have hdrop : (before ++ d ++ behind).drop (before.length + d.length) = behind := by
      rw [← List.length_append, List.drop_left]
    rw [hdrop, slice, Nat.add_sub_cancel_left, List.append_assoc, List.take_left, List.drop_left,
      List.take_left] at hblocks
    rw [List.append_assoc]
    exact hblocks
  rw [key hb, key hc]
  have hrefl : ∀ bs : List (List Rule), List.Forall₂ Alike bs bs := fun bs =>
    List.forall₂_same.mpr fun b _ => Alike.refl b
  exact List.rel_append (hrefl _) (.cons h (hrefl _))

/-! ## The declarative meaning -/

/--
**The output of rules is their meaning by positions**, under either policy.

Lists joined where the second starts with `or` are tried one after the other. The logic of the first
rule, the templates of rules that do not close a block, and the order of the conditions inside a
block do not matter.
-/
theorem output_by_positions (song : Song) (index : VersionIndex) :
    (∀ (policy : Policy) (rules : List Rule) (text : String),
      Meaning policy rules song index text ↔ output policy rules song index = text)
    ∧ (∀ a b : List Rule, a ≠ [] → StartsWithOr b →
      ((∃ first last, Fits a song index first last) →
        output .stopAtFirstMatch (a ++ b) song index = output .stopAtFirstMatch a song index)
      ∧ ((¬∃ first last, Fits a song index first last) →
        output .stopAtFirstMatch (a ++ b) song index = output .stopAtFirstMatch b song index)
      ∧ (Text.isBlankText (output .skipBlankOutput a song index) = false →
        output .skipBlankOutput (a ++ b) song index = output .skipBlankOutput a song index)
      ∧ (Text.isBlankText (output .skipBlankOutput a song index) = true →
        output .skipBlankOutput (a ++ b) song index = output .skipBlankOutput b song index))
    ∧ (∀ (policy : Policy) (r : Rule) (l : Logic) (rest : List Rule),
      output policy ({ r with logic := l } :: rest) song index
        = output policy (r :: rest) song index)
    ∧ (∀ (policy : Policy) (rules rules' : List Rule),
      rules.map condition = rules'.map condition → rules.map logic = rules'.map logic →
      (∀ i, ClosesBlock rules i → rules[i]?.map template = rules'[i]?.map template) →
      output policy rules song index = output policy rules' song index)
    ∧ (∀ (policy : Policy) (before b c behind : List Rule),
      IsBlock (before ++ b ++ behind) before.length (before.length + b.length) →
      IsBlock (before ++ c ++ behind) before.length (before.length + c.length) →
      (b.map condition).Perm (c.map condition) →
      b.getLast?.map template = c.getLast?.map template →
      output policy (before ++ b ++ behind) song index
        = output policy (before ++ c ++ behind) song index) := by
  refine ⟨fun policy rules text => ?_, fun a b ha hb => ⟨?_, ?_, ?_, ?_⟩, ?_, ?_, ?_⟩
  · constructor
    · intro h
      exact (meaning_output policy rules song index).unique h
    · rintro rfl
      exact meaning_output policy rules song index
  · intro hfits
    have hmade : made? .stopAtFirstMatch a song index ≠ none := fun h => made?_stop.mp h hfits
    obtain ⟨text, htext⟩ := Option.ne_none_iff_exists'.mp hmade
    rw [output_append ha hb, output_eq, htext, Option.some_or]
  · intro hfits
    rw [output_append ha hb, output_eq, made?_stop.mpr hfits, Option.none_or]
  · intro hblank
    have hmade : made? .skipBlankOutput a song index ≠ none := by
      intro h
      rw [made?_skip.mp h] at hblank
      exact Bool.noConfusion hblank
    obtain ⟨text, htext⟩ := Option.ne_none_iff_exists'.mp hmade
    rw [output_append ha hb, output_eq, htext, Option.some_or]
  · intro hblank
    rw [output_append ha hb, output_eq, made?_skip.mpr hblank, Option.none_or]
  · intro policy r l rest
    refine output_of_alike (alike_blocks rfl rfl fun i _ => ?_)
    cases i <;> rfl
  · intro policy rules rules' hcondition hlogic htemplate
    refine output_of_alike (alike_blocks hcondition ?_ htemplate)
    rw [List.map_tail, List.map_tail, hlogic]
  · intro policy before b c behind hb hc hconditions htemplate
    exact output_of_alike (alike_blocks_of_isBlock hb hc ⟨hconditions, htemplate⟩)

/-- A block of two rules, the first of which has a logic and a template that do not matter. -/
def pairOfRules : List Rule :=
  [⟨.or, "Artist", .is, "Ann", "unused"⟩, ⟨.and, "Title", .isNotEmpty, "", "{Title}!"⟩]

/-- The same conditions the other way round. -/
def swappedRules : List Rule :=
  [⟨.or, "Title", .isNotEmpty, "", "other"⟩, ⟨.and, "Artist", .is, "Ann", "{Title}!"⟩]

/-- A rule behind a cut. -/
def laterRules : List Rule := [⟨.or, "Artist", .is, "Ann", "later"⟩]

theorem isBlock_pair {r s : Rule} (hs : s.logic = .and) : IsBlock [r, s] 0 2 := by
  refine ⟨by decide, Nat.le_refl 2, Or.inl rfl, Or.inl rfl, fun i hlo hhi => ?_⟩
  obtain rfl : i = 1 := by omega
  rintro (hz | ⟨t, ht, hor⟩)
  · exact absurd hz (by decide)
  · obtain rfl : s = t := Option.some.inj ht
    rw [hs] at hor
    exact Logic.noConfusion hor

/-- The laws at a song that both blocks fit. -/
theorem output_by_positions_pair :
    let song : Song := ⟨⟨"a.mp3"⟩, [("Artist", .string "Ann"), ("Title", .string "Song")], ""⟩
    Meaning .stopAtFirstMatch pairOfRules song .empty "Song!"
      ∧ output .stopAtFirstMatch (pairOfRules ++ laterRules) song .empty = "Song!"
      ∧ output .skipBlankOutput (pairOfRules ++ laterRules) song .empty = "Song!"
      ∧ output .stopAtFirstMatch ([] ++ swappedRules ++ []) song .empty = "Song!" := by
  intro song
  have hlaws := output_by_positions song .empty
  have hout : output .stopAtFirstMatch pairOfRules song .empty = "Song!" := by decide +kernel
  have hskip : output .skipBlankOutput pairOfRules song .empty = "Song!" := by decide +kernel
  have hpair : IsBlock pairOfRules 0 2 := isBlock_pair rfl
  have hfits : Fits pairOfRules song .empty 0 2 := (fits_iff hpair).mpr (by decide +kernel)
  have hjoined := hlaws.2.1 pairOfRules laterRules (by simp [pairOfRules]) ⟨_, _, rfl, rfl⟩
  have hswapped := hlaws.2.2.2.2 .stopAtFirstMatch [] pairOfRules swappedRules []
    (isBlock_pair rfl) (isBlock_pair rfl) (List.Perm.swap _ _ []) rfl
  refine ⟨(hlaws.1 _ _ _).mpr hout, (hjoined.1 ⟨0, 2, hfits⟩).trans hout, ?_, ?_⟩
  · exact (hjoined.2.2.1 (by rw [hskip]; decide)).trans hskip
  · exact hswapped.symm.trans hout

end SongLibrary.Rule
