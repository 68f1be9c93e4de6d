import SongLibrary.Rule.Block

/-!
# Blocks by position

`Rule.blocks` builds the blocks of a list from its end. Here a block is said by its position in the
list alone: it opens at the first rule or at one with the logic `or`, and runs up to where the next
one opens.

The two agree. `blocks_of_isBlock` takes the list of blocks apart around a block by position, and
`isBlock_of_blocks` gives each of the blocks its position. The first rests on `blocks_append`: a
rule with the logic `or` cuts the list, whatever stands before it.

The blocks can also be said without positions, as a cut of the list: what holds in each block and
where a block starts leave only one way to cut it (`CutInto.eq_blocks`).
-/

namespace SongLibrary.Rule

/-! ## Blocks by position -/

/-- A block opens at the first position and at every rule with the logic `or`. -/
def OpensBlock (rules : List Rule) (i : Nat) : Prop :=
  i = 0 ∨ ∃ r, rules[i]? = some r ∧ r.logic = .or

/-- The rules from `first` up to, and without, `last` are a block. -/
structure IsBlock (rules : List Rule) (first last : Nat) : Prop where
  /-- It has a rule. -/
  lt : first < last
  le : last ≤ rules.length
  opens : OpensBlock rules first
  /-- The next block opens behind it, unless the list ends there. -/
  ends : last = rules.length ∨ OpensBlock rules last
  /-- No block opens inside it. -/
  joined : ∀ i, first < i → i < last → ¬OpensBlock rules i

/-- The rules from `first` up to, and without, `last`. -/
def slice (rules : List Rule) (first last : Nat) : List Rule :=
  (rules.drop first).take (last - first)

/-- Where a block starts, only one block starts. -/
theorem IsBlock.last_unique {rules : List Rule} {first last last' : Nat}
    (h : IsBlock rules first last) (h' : IsBlock rules first last') : last = last' := by
  rcases Nat.lt_trichotomy last last' with hlt | heq | hgt
  · rcases h.ends with he | ho
    · have := h'.le; omega
    · exact absurd ho (h'.joined last h.lt hlt)
  · exact heq
  · rcases h'.ends with he | ho
    · have := h.le; omega
    · exact absurd ho (h.joined last' h'.lt hgt)

theorem slice_append_drop {rules : List Rule} {first last : Nat} (h : first ≤ last) :
    slice rules first last ++ rules.drop last = rules.drop first := by
  have hdrop : rules.drop last = (rules.drop first).drop (last - first) := by
    rw [List.drop_drop, Nat.add_sub_of_le h]
  rw [slice, hdrop, List.take_append_drop]

theorem getElem?_slice {rules : List Rule} {first last i : Nat} (h : i < last - first) :
    (slice rules first last)[i]? = rules[first + i]? := by
  rw [slice, List.getElem?_take_of_lt h, List.getElem?_drop]

theorem length_slice {rules : List Rule} {first last : Nat} (hl : last ≤ rules.length) :
    (slice rules first last).length = last - first := by
  rw [slice, List.length_take, List.length_drop]
  omega

theorem slice_ne_nil {rules : List Rule} {first last : Nat} (h : first < last)
    (hl : last ≤ rules.length) : slice rules first last ≠ [] := by
  refine List.ne_nil_of_length_pos ?_
  rw [length_slice hl]
  omega

/-- The rules of a slice are those at its positions. -/
theorem mem_slice {rules : List Rule} {first last : Nat} {r : Rule} :
    r ∈ slice rules first last ↔ ∃ i, first ≤ i ∧ i < last ∧ rules[i]? = some r := by
  constructor
  · intro hr
    obtain ⟨i, hi⟩ := List.mem_iff_getElem?.mp hr
    have hlt : i < last - first := by
      have := (List.getElem?_eq_some_iff.mp hi).1
      rw [slice, List.length_take] at this
      omega
    rw [getElem?_slice hlt] at hi
    exact ⟨first + i, by omega, by omega, hi⟩
  · rintro ⟨i, hf, hl, hi⟩
    refine List.mem_iff_getElem?.mpr ⟨i - first, ?_⟩
    rw [getElem?_slice (by omega), Nat.add_sub_of_le hf]
    exact hi

theorem getLast?_slice {rules : List Rule} {first last : Nat} (h : first < last)
    (hl : last ≤ rules.length) : (slice rules first last).getLast? = rules[last - 1]? := by
  rw [List.getLast?_eq_getElem?, length_slice hl, getElem?_slice (by omega)]
  congr 1
  omega

/-! ## How blocks are put together -/

/-- Whether the first of some rules has the logic `or`. -/
def StartsWithOr (rules : List Rule) : Prop := ∃ r rest, rules = r :: rest ∧ r.logic = .or

theorem joinsBlock_append {a : List Rule} (ha : a ≠ []) (b : List Rule) :
    joinsBlock (a ++ b) = joinsBlock a := by
  cases a with
  | nil => exact absurd rfl ha
  | cons r rest => rfl

theorem blocks_ne_nil {rules : List Rule} (h : rules ≠ []) : blocks rules ≠ [] := by
  intro hnil
  have := flatten_blocks rules
  rw [hnil] at this
  exact h this.symm

theorem consToFirst_append {r : Rule} {bs : List (List Rule)} (h : bs ≠ [])
    (bs' : List (List Rule)) : consToFirst r (bs ++ bs') = consToFirst r bs ++ bs' := by
  cases bs with
  | nil => exact absurd rfl h
  | cons b later => rfl

/-- A rule with the logic `or` cuts the list. -/
theorem blocks_append {a b : List Rule} (ha : a ≠ []) (hb : StartsWithOr b) :
    blocks (a ++ b) = blocks a ++ blocks b := by
  induction a with
  | nil => exact absurd rfl ha
  | cons r rest ih =>
      cases rest with
      | nil =>
          obtain ⟨s, later, rfl, hs⟩ := hb
          simp [blocks, joinsBlock, hs]
      | cons s later =>
          have ih := ih (by simp)
          have hjoin := joinsBlock_append (a := s :: later) (by simp) b
          rw [List.cons_append, blocks, blocks, hjoin, ih]
          split
          · exact consToFirst_append (blocks_ne_nil (by simp)) _
          · rfl

/-- Rules that all join the one before them are one block. -/
theorem blocks_of_joined {r : Rule} {rest : List Rule} (h : ∀ s ∈ rest, s.logic = .and) :
    blocks (r :: rest) = [r :: rest] := by
  induction rest generalizing r with
  | nil => rfl
  | cons s later ih =>
      have hs : joinsBlock (s :: later) = true := by
        simp [joinsBlock, h s (by simp)]
      rw [blocks, if_pos hs, ih (fun t ht => h t (by simp [ht]))]
      rfl

theorem startsWithOr_drop {rules : List Rule} {i : Nat} {r : Rule} (hi : rules[i]? = some r)
    (hr : r.logic = .or) : StartsWithOr (rules.drop i) := by
  obtain ⟨hlt, hget⟩ := List.getElem?_eq_some_iff.mp hi
  exact ⟨r, rules.drop (i + 1), by rw [← hget]; exact List.drop_eq_getElem_cons hlt, hr⟩

theorem blocks_drop {rules : List Rule} {first last : Nat} (h : IsBlock rules first last) :
    blocks (rules.drop first) = slice rules first last :: blocks (rules.drop last) := by
  have hlt := h.lt
  have hsplit : rules.drop first = slice rules first last ++ rules.drop last :=
    (slice_append_drop (Nat.le_of_lt hlt)).symm
  have hone : blocks (slice rules first last) = [slice rules first last] := by
    cases hs : slice rules first last with
    | nil => exact absurd hs (slice_ne_nil hlt h.le)
    | cons r rest =>
        -- a rule inside the block that did not join would open a block there
        refine blocks_of_joined fun s hsmem => ?_
        obtain ⟨i, hi⟩ := List.mem_iff_getElem?.mp hsmem
        have hbound : i + 1 < last - first := by
          have := (List.getElem?_eq_some_iff.mp hi).1
          have hlength : (slice rules first last).length = last - first := length_slice h.le
          rw [← hlength, hs]
          simpa using this
        have hget : rules[first + (i + 1)]? = some s := by
          rw [← getElem?_slice hbound, hs]
          exact hi
        cases hlogic : s.logic with
        | and => rfl
        | or =>
            exact absurd (Or.inr ⟨s, hget, hlogic⟩)
              (h.joined (first + (i + 1)) (by omega) (by omega))
  rcases h.ends with he | hz | ⟨r, hr, hor⟩
  · have hnil : rules.drop last = [] := by rw [he, List.drop_length]
    rw [hsplit, hnil, List.append_nil, hone]
    rfl
  · omega
  · rw [hsplit, blocks_append (slice_ne_nil hlt h.le) (startsWithOr_drop hr hor), hone]
    rfl

/-- **A block by positions is one of the blocks**, and what stands before and behind it is cut on
its own. -/
theorem blocks_of_isBlock {rules : List Rule} {first last : Nat} (h : IsBlock rules first last) :
    blocks rules =
      blocks (rules.take first) ++ slice rules first last :: blocks (rules.drop last) := by
  rw [← blocks_drop h]
  rcases h.opens with hz | ⟨r, hr, hor⟩
  · subst hz; rfl
  · rcases Nat.eq_zero_or_pos first with hz | hpos
    · subst hz; rfl
    · have hne : rules.take first ≠ [] := by
        have := h.le
        have := h.lt
        exact List.ne_nil_of_length_pos (by rw [List.length_take]; omega)
      rw [← blocks_append hne (startsWithOr_drop hr hor), List.take_append_drop]

/-! ## Every block has its positions -/

/-- The first block starts with the first rule. -/
theorem first_block {s : Rule} {later first : List Rule} {others : List (List Rule)}
    (h : blocks (s :: later) = first :: others) : ∃ joined, first = s :: joined := by
  have hflat := flatten_blocks (s :: later)
  rw [h, List.flatten_cons] at hflat
  cases first with
  | nil =>
      have hmem : [] ∈ blocks (s :: later) := by rw [h]; simp
      exact absurd rfl (ne_nil_of_mem_blocks hmem)
  | cons t joined =>
      rw [List.cons_append] at hflat
      exact ⟨joined, by rw [(List.cons.inj hflat).1]⟩

theorem startsWithOr_of_mem_tail {rules b : List Rule} (h : b ∈ (blocks rules).tail) :
    StartsWithOr b := by
  induction rules generalizing b with
  | nil => exact absurd h (by simp [blocks])
  | cons r rest ih =>
      rw [blocks] at h
      split at h
      · cases hb : blocks rest with
        | nil => rw [hb] at h; simp [consToFirst] at h
        | cons first later =>
            rw [hb] at h
            exact ih (by rw [hb]; exact h)
      · rename_i hjoin
        cases rest with
        | nil => simp [blocks] at h
        | cons s later =>
            have hs : s.logic = .or := by
              cases hl : s.logic with
              | and => exact absurd (by simp [joinsBlock, hl]) hjoin
              | or => rfl
            -- the block behind the cut is the first one of `rest`; the others are in its tail
            rw [List.tail_cons] at h
            cases hb : blocks (s :: later) with
            | nil => rw [hb] at h; simp at h
            | cons first others =>
                rw [hb] at h
                rcases List.mem_cons.mp h with rfl | h
                · obtain ⟨joined, rfl⟩ := first_block hb
                  exact ⟨s, joined, rfl, hs⟩
                · exact ih (by rw [hb]; exact h)

theorem and_of_mem_tail_block {rules b : List Rule} (h : b ∈ blocks rules) :
    ∀ r ∈ b.tail, r.logic = .and := by
  induction rules generalizing b with
  | nil => exact absurd h (by simp [blocks])
  | cons r rest ih =>
      rw [blocks] at h
      split at h
      · rename_i hjoin
        cases rest with
        | nil => exact absurd hjoin (by simp [joinsBlock])
        | cons s later =>
            cases hb : blocks (s :: later) with
            | nil => exact absurd hb (blocks_ne_nil (by simp))
            | cons first others =>
                obtain ⟨joined, rfl⟩ := first_block hb
                rw [hb] at h
                rcases List.mem_cons.mp h with rfl | h
                · intro t ht
                  rw [List.tail_cons] at ht
                  -- behind `r` comes the rule that joins it, and then what joined that one
                  rcases List.mem_cons.mp ht with rfl | ht
                  · simpa [joinsBlock] using hjoin
                  · exact ih (b := s :: joined) (by rw [hb]; simp) t ht
                · exact ih (by rw [hb]; exact List.mem_cons_of_mem _ h)
      · rcases List.mem_cons.mp h with rfl | h
        · simp
        · exact ih h

/-- Each of the blocks stands where the blocks before it end. -/
theorem isBlock_of_blocks {rules b : List Rule} {before behind : List (List Rule)}
    (h : blocks rules = before ++ b :: behind) :
    IsBlock rules before.flatten.length (before.flatten.length + b.length)
      ∧ slice rules before.flatten.length (before.flatten.length + b.length) = b := by
  have hflat : before.flatten ++ (b ++ behind.flatten) = rules := by
    have := flatten_blocks rules
    rwa [h, List.flatten_append, List.flatten_cons] at this
  have hmem : b ∈ blocks rules := by rw [h]; simp
  have hget : ∀ i, i < b.length → rules[before.flatten.length + i]? = b[i]? := by
    intro i hi
    rw [← hflat, List.getElem?_append_right (by omega), Nat.add_sub_cancel_left,
      List.getElem?_append_left hi]
  have hlen : rules.length = before.flatten.length + (b.length + behind.flatten.length) := by
    rw [← hflat, List.length_append, List.length_append]
  have hpos : 0 < b.length := List.length_pos_iff.mpr (ne_nil_of_mem_blocks hmem)
  refine ⟨⟨by omega, by omega, ?_, ?_, ?_⟩, ?_⟩
  · cases before with
    | nil => exact Or.inl rfl
    | cons c cs =>
        have htail : b ∈ (blocks rules).tail := by rw [h]; simp
        obtain ⟨r, rest, rfl, hor⟩ := startsWithOr_of_mem_tail htail
        exact Or.inr ⟨r, by rw [← Nat.add_zero (List.length _), hget 0 hpos]; rfl, hor⟩
  · cases behind with
    | nil => left; simp [hlen]
    | cons c cs =>
        have htail : c ∈ (blocks rules).tail := by
          rw [h]
          cases before <;> simp
        obtain ⟨r, rest, rfl, hor⟩ := startsWithOr_of_mem_tail htail
        refine Or.inr (Or.inr ⟨r, ?_, hor⟩)
        rw [← hflat, List.getElem?_append_right (by omega), Nat.add_sub_cancel_left,
          List.getElem?_append_right (Nat.le_refl _), Nat.sub_self]
        rfl
  · rintro i hlo hhi (hz | ⟨r, hr, hor⟩)
    · omega
    · have hi : i = before.flatten.length + (i - before.flatten.length) := by omega
      rw [hi, hget _ (by omega)] at hr
      have hrmem : r ∈ b.tail := by
        refine List.mem_iff_getElem?.mpr ⟨i - before.flatten.length - 1, ?_⟩
        rw [List.getElem?_tail]
        rwa [show i - before.flatten.length - 1 + 1 = i - before.flatten.length by omega]
      rw [and_of_mem_tail_block hmem r hrmem] at hor
      exact Logic.noConfusion hor
  · rw [slice, ← hflat, List.drop_left, Nat.add_sub_cancel_left, List.take_left]

theorem exists_isBlock_of_mem {rules b : List Rule} (h : b ∈ blocks rules) :
    ∃ first last, IsBlock rules first last ∧ slice rules first last = b := by
  obtain ⟨before, behind, hblocks⟩ := List.append_of_mem h
  exact ⟨_, _, isBlock_of_blocks hblocks⟩

/-- A block that opens before some position is one of the blocks before it. -/
theorem slice_mem_of_lt {rules : List Rule} {before behind : List (List Rule)} {first last : Nat}
    (hblocks : blocks rules = before ++ behind) (h : IsBlock rules first last)
    (hlt : first < before.flatten.length) : slice rules first last ∈ before := by
  have hlen : (blocks (rules.take first)).flatten.length = first := by
    have := h.lt
    have := h.le
    rw [flatten_blocks, List.length_take]
    omega
  have hsplit := (blocks_of_isBlock h).symm.trans hblocks
  -- either the block is among those before the position, or these make up what is before it
  rcases List.append_eq_append_iff.mp hsplit with ⟨as, hbefore, hrest⟩ | ⟨as, htake, -⟩
  · cases as with
    | nil =>
        rw [hbefore, List.append_nil, hlen] at hlt
        exact absurd hlt (Nat.lt_irrefl _)
    | cons a as =>
        rw [hbefore, (List.cons.inj hrest).1]
        simp
  · rw [htake, List.flatten_append, List.length_append] at hlen
    omega

/-! ## The one way to cut a list -/

/-- Some blocks are a cut of the rules at their `or`s. -/
structure CutInto (rules : List Rule) (bs : List (List Rule)) : Prop where
  /-- The blocks in order are the rules in order. -/
  flatten : bs.flatten = rules
  ne_nil : ∀ b ∈ bs, b ≠ []
  /-- Every rule behind the first of its block joins the one before it. -/
  joined : ∀ b ∈ bs, ∀ r ∈ b.tail, r.logic = .and
  /-- Every block behind the first opens with an `or`. The first may open with any rule. -/
  opened : ∀ b ∈ bs.tail, StartsWithOr b

theorem cutInto_blocks (rules : List Rule) : CutInto rules (blocks rules) where
  flatten := flatten_blocks rules
  ne_nil _ := ne_nil_of_mem_blocks
  joined _ := and_of_mem_tail_block
  opened _ := startsWithOr_of_mem_tail

theorem StartsWithOr.append {a : List Rule} (h : StartsWithOr a) (b : List Rule) :
    StartsWithOr (a ++ b) := by
  obtain ⟨r, rest, rfl, hor⟩ := h
  exact ⟨r, rest ++ b, rfl, hor⟩

/-- Behind the first block, the rest of a cut is a cut of the rest of the rules. -/
theorem CutInto.later {rules b : List Rule} {later : List (List Rule)}
    (h : CutInto rules (b :: later)) : CutInto later.flatten later where
  flatten := rfl
  ne_nil c hc := h.ne_nil c (List.mem_cons_of_mem _ hc)
  joined c hc := h.joined c (List.mem_cons_of_mem _ hc)
  opened c hc := h.opened c (List.mem_of_mem_tail hc)

/-- **There is no other cut.** -/
theorem CutInto.eq_blocks {rules : List Rule} {bs : List (List Rule)} (h : CutInto rules bs) :
    bs = blocks rules := by
  induction bs generalizing rules with
  | nil =>
      rw [← h.flatten]
      rfl
  | cons b later ih =>
      obtain ⟨r, rest, rfl⟩ := List.exists_cons_of_ne_nil (h.ne_nil b List.mem_cons_self)
      have hone : blocks (r :: rest) = [r :: rest] :=
        blocks_of_joined (h.joined _ List.mem_cons_self)
      have hlater : later = blocks later.flatten := ih h.later
      rw [← h.flatten, List.flatten_cons]
      cases later with
      | nil => rw [List.flatten_nil, List.append_nil, hone]
      | cons c others =>
          -- the second block opens with an `or`, so the list is cut in front of it
          have hor : StartsWithOr (c :: others).flatten := by
            rw [List.flatten_cons]
            exact (h.opened c List.mem_cons_self).append _
          rw [blocks_append (List.cons_ne_nil _ _) hor, hone, ← hlater]
          rfl

/-- **The blocks are the one cut of the rules.** In order they are the rules in order, none is
empty, every rule behind the first of its block has the logic `and`, and every block behind the
first opens with an `or`. Blocks of which all this holds are the blocks of the rules. So what comes
behind some rules, from an `or` on, is cut on its own. -/
theorem blocks_unique (rules : List Rule) :
    CutInto rules (blocks rules) ∧
    (∀ bs, CutInto rules bs → bs = blocks rules) ∧
    ∀ later, rules ≠ [] → StartsWithOr later →
      blocks (rules ++ later) = blocks rules ++ blocks later :=
  ⟨cutInto_blocks rules, fun _ h => h.eq_blocks, fun _ => blocks_append⟩

/-- An `or` in front of all rules opens no block of its own. -/
theorem blocks_unique_leading :
    let rule (logic : Logic) : Rule := ⟨logic, "Title", .isNotEmpty, "", "{Title}"⟩
    CutInto [rule .or, rule .and] [[rule .or, rule .and]] ∧
    [[rule .or, rule .and]] = blocks [rule .or, rule .and] ∧
    StartsWithOr [rule .or, rule .and] ∧
    blocks ([rule .or, rule .and] ++ [rule .or, rule .and]) =
      [[rule .or, rule .and], [rule .or, rule .and]] := by
  intro rule
  have hcut : CutInto [rule .or, rule .and] [[rule .or, rule .and]] :=
    ⟨rfl, by simp, by simp [rule], by simp⟩
  have hor : StartsWithOr [rule .or, rule .and] := ⟨_, _, rfl, rfl⟩
  obtain ⟨-, hunique, happend⟩ := blocks_unique [rule .or, rule .and]
  have hblocks := hunique _ hcut
  refine ⟨hcut, hblocks, hor, ?_⟩
  rw [happend _ (List.cons_ne_nil _ _) hor, ← hblocks]
  rfl

end SongLibrary.Rule
