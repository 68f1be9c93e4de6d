import Mathlib.Data.List.Basic
import SongLibrary.Text.Lowercase

/-!
# Lower-casing the parts of a text

What becomes of a character depends on its neighbours only if it is a `Σ`. So the lower-case form of
a part stands in that of the whole text, at the place of the part, if each `Σ` of the part ends a
word there just if it ends one when the part stands alone; otherwise something else stands there.

A character that neither has a case nor is passed over keeps apart what is on its two sides. Blanks
are such characters, so a text can be lower-cased piece by piece between them.
-/

namespace SongLibrary.Text

variable {front part back : List Char} {c : Char}

/-! ## A part and what surrounds it -/

/-- Whether a `Σ` between two texts ends a word. -/
def endsWord (before after : List Char) : Bool :=
  before.foldl casedAfter false && !casedAhead after

/-- Every `Σ` of a part ends a word in the whole text just if it does so in the part alone. -/
def KeepsSigmas (front part back : List Char) : Prop :=
  ∀ before after, part = before ++ 'Σ' :: after →
    endsWord (front ++ before) (after ++ back) = endsWord before after

/-- The lower-case form of a text that follows a cased letter or not, and that others follow. -/
def lowerBetween (casedBefore : Bool) : List Char → List Char → List Char
  | [], _ => []
  | c :: rest, back =>
    lowerAt casedBefore c (rest ++ back) ++ lowerBetween (casedAfter casedBefore c) rest back

theorem lowerBetween_nil (casedBefore : Bool) (cs : List Char) :
    lowerBetween casedBefore cs [] = lowerFrom casedBefore cs := by
  induction cs generalizing casedBefore with
  | nil => rfl
  | cons c rest ih => rw [lowerBetween, lowerFrom, ih, List.append_nil]

/-- **A text is lower-cased part by part**, each with an eye on what is around it. -/
theorem lowerFrom_append (casedBefore : Bool) (xs ys : List Char) :
    lowerFrom casedBefore (xs ++ ys) =
      lowerBetween casedBefore xs ys ++ lowerFrom (xs.foldl casedAfter casedBefore) ys := by
  induction xs generalizing casedBefore with
  | nil => rfl
  | cons c rest ih =>
      rw [List.cons_append, lowerFrom, lowerBetween, ih, List.append_assoc, List.foldl_cons]

theorem lowerAt_eq_iff {b b' : Bool} {rest rest' : List Char} :
    lowerAt b c rest = lowerAt b' c rest' ↔
      (c = 'Σ' → (b && !casedAhead rest) = (b' && !casedAhead rest')) := by
  rw [lowerAt, lowerAt]
  by_cases hc : c = 'Σ'
  · rw [if_pos hc, if_pos hc]
    cases b && !casedAhead rest <;> cases b' && !casedAhead rest' <;> simp [hc]
  · simp [hc]

theorem length_lowerAt (b b' : Bool) (c : Char) (rest rest' : List Char) :
    (lowerAt b c rest).length = (lowerAt b' c rest').length := by
  rw [lowerAt, lowerAt]
  split
  · split <;> split <;> rfl
  · split <;> rfl

/-- Two surroundings make the same of a part just if each `Σ` ends a word in both or in neither. -/
theorem lowerBetween_eq_lowerBetween_iff {b b' : Bool} :
    lowerBetween b part back = lowerBetween b' part [] ↔
      ∀ before after, part = before ++ 'Σ' :: after →
        (before.foldl casedAfter b && !casedAhead (after ++ back)) =
          (before.foldl casedAfter b' && !casedAhead after) := by
  induction part generalizing b b' with
  | nil => simp [lowerBetween]
  | cons c part ih =>
      rw [lowerBetween, lowerBetween, List.append_nil]
      constructor
      · intro h before after hpart
        obtain ⟨hhead, hrest⟩ := List.append_inj h (length_lowerAt _ _ _ _ _)
        cases before with
        | nil =>
            obtain ⟨hc, rfl⟩ := List.cons.inj hpart
            exact lowerAt_eq_iff.mp hhead hc
        | cons d before =>
            obtain ⟨rfl, rfl⟩ := List.cons.inj hpart
            exact ih.mp hrest before after rfl
      · intro h
        have hhead : lowerAt b c (part ++ back) = lowerAt b' c part :=
          lowerAt_eq_iff.mpr fun hc => h [] part (by rw [hc]; rfl)
        rw [hhead, ih.mpr fun before after hpart => h (c :: before) after (by rw [hpart]; rfl)]

/-- **The lower-case form of a part stands at its place just if no `Σ` comes to end a word, or to
end none.** -/
theorem lowerBetween_eq_iff (front part back : List Char) :
    lowerBetween (front.foldl casedAfter false) part back = lowerChars part ↔
      KeepsSigmas front part back := by
  rw [lowerChars, ← lowerBetween_nil, lowerBetween_eq_lowerBetween_iff]
  simp only [KeepsSigmas, endsWord, List.foldl_append]

/-- The lower-case form of a part is a part of that of the whole text. -/
theorem infix_lowerChars (h : KeepsSigmas front part back) :
    lowerChars part <:+: lowerChars (front ++ part ++ back) := by
  refine ⟨lowerBetween false front (part ++ back),
    lowerFrom (part.foldl casedAfter (front.foldl casedAfter false)) back, ?_⟩
  rw [← (lowerBetween_eq_iff front part back).mpr h, List.append_assoc, List.append_assoc,
    ← lowerFrom_append, ← lowerFrom_append]
  rfl

theorem keepsSigmas_of_notMem (h : 'Σ' ∉ part) (front back : List Char) :
    KeepsSigmas front part back := by
  rintro before after rfl
  exact absurd (List.mem_append_right before List.mem_cons_self) h

/-! ## Characters that keep words apart -/

/-- Whether a character keeps apart what is on its two sides. -/
def separates (c : Char) : Bool := !isCaseIgnorable c && !isCased c

theorem casedAhead_separator (hc : separates c = true) (xs ys : List Char) :
    casedAhead (xs ++ c :: ys) = casedAhead xs := by
  rw [separates, Bool.and_eq_true, Bool.not_eq_true', Bool.not_eq_true'] at hc
  rw [casedAhead, casedAhead, List.dropWhile_append]
  cases hxs : xs.dropWhile isCaseIgnorable with
  | nil => simp [hc]
  | cons x rest => rfl

theorem foldl_casedAfter_separator (hc : separates c = true) (b : Bool) (xs ys : List Char) :
    (xs ++ c :: ys).foldl casedAfter b = ys.foldl casedAfter false := by
  rw [separates, Bool.and_eq_true, Bool.not_eq_true', Bool.not_eq_true'] at hc
  rw [List.foldl_append, List.foldl_cons, casedAfter, hc.1, hc.2]
  rfl

/-- **A part between characters that separate words keeps its lower-case form.** -/
theorem keepsSigmas_of_separated (hfront : ∀ c, front.getLast? = some c → separates c = true)
    (hback : ∀ c, back.head? = some c → separates c = true) : KeepsSigmas front part back := by
  intro before after _
  have hbefore : (front ++ before).foldl casedAfter false = before.foldl casedAfter false := by
    cases hlast : front.getLast? with
    | none => rw [List.getLast?_eq_none_iff.mp hlast, List.nil_append]
    | some c =>
        obtain ⟨front', rfl⟩ := List.getLast?_eq_some_iff.mp hlast
        rw [List.append_assoc, List.singleton_append,
          foldl_casedAfter_separator (hfront c hlast)]
  have hafter : casedAhead (after ++ back) = casedAhead after := by
    cases back with
    | nil => rw [List.append_nil]
    | cons c back => exact casedAhead_separator (hback c rfl) after back
  rw [endsWord, endsWord, hbefore, hafter]

theorem lowerBetween_separator (hc : separates c = true) (b : Bool) (xs ys : List Char) :
    lowerBetween b xs (c :: ys) = lowerFrom b xs := by
  induction xs generalizing b with
  | nil => rfl
  | cons x rest ih =>
      rw [lowerBetween, lowerFrom, ih, lowerAt_eq_iff.mpr fun _ => ?_]
      rw [casedAhead_separator hc]

/-- A blank separates, and it has no other form. -/
theorem lowerChars_space (xs ys : List Char) :
    lowerChars (xs ++ ' ' :: ys) = lowerChars xs ++ ' ' :: lowerChars ys := by
  have hspace : separates ' ' = true := by decide +kernel
  have hlower : ∀ b rest, lowerAt b ' ' rest = [' '] := fun b rest => by
    rw [lowerAt, if_neg (by decide), if_neg (by decide)]
    decide +kernel
  have hbehind := foldl_casedAfter_separator hspace (xs.foldl casedAfter false) [] []
  rw [lowerChars, lowerFrom_append, lowerBetween_separator hspace, lowerFrom, hlower]
  exact congrArg (lowerFrom false xs ++ ' ' :: lowerFrom · ys) hbehind

/-- **Texts with blanks between them are lower-cased one by one.** -/
theorem lowerChars_intercalate (pieces : List (List Char)) :
    lowerChars ([' '].intercalate pieces) = [' '].intercalate (pieces.map lowerChars) := by
  induction pieces with
  | nil => rfl
  | cons piece pieces ih =>
      cases pieces with
      | nil => simp
      | cons next pieces =>
          rw [List.intercalate_cons_cons, List.append_assoc, List.singleton_append,
            lowerChars_space, ih, List.map_cons, List.map_cons, List.map_cons,
            List.intercalate_cons_cons]
          simp

theorem infix_intercalate {α : Type} {separator piece : List α} {pieces : List (List α)}
    (h : piece ∈ pieces) : piece <:+: separator.intercalate pieces := by
  induction pieces with
  | nil => exact absurd h (by simp)
  | cons first pieces ih =>
      cases pieces with
      | nil => simp [List.mem_singleton.mp h]
      | cons next pieces =>
          rw [List.intercalate_cons_cons]
          rcases List.mem_cons.mp h with rfl | h
          · exact (List.prefix_append _ _).isInfix.trans (List.prefix_append _ _).isInfix
          · exact (ih h).trans (List.suffix_append _ _).isInfix

/-- What does not hold the separator stands before it or behind it. -/
theorem infix_append_cons_iff {α : Type} {x : α} {part : List α} (h : x ∉ part) (xs ys : List α) :
    part <:+: xs ++ x :: ys ↔ part <:+: xs ∨ part <:+: ys := by
  constructor
  · intro hpart
    rcases List.infix_append_iff.mp hpart with hxs | hys | ⟨front, back, rfl, hfront, hback⟩
    · exact .inl hxs
    · rcases List.infix_cons_iff.mp hys with hprefix | hys
      · rcases List.prefix_cons_iff.mp hprefix with rfl | ⟨rest, rfl, -⟩
        · exact .inl List.nil_infix
        · exact absurd List.mem_cons_self h
      · exact .inr hys
    · -- a part that reaches over the separator would hold it
      rcases List.prefix_cons_iff.mp hback with rfl | ⟨rest, rfl, -⟩
      · rw [List.append_nil]
        exact .inl hfront.isInfix
      · exact absurd (List.mem_append_right front List.mem_cons_self) h
  · rintro (hxs | hys)
    · exact hxs.trans (List.prefix_append _ _).isInfix
    · exact hys.trans ((List.suffix_cons _ _).isInfix.trans (List.suffix_append _ _).isInfix)

/-- **What does not hold the separator stands in one piece.** -/
theorem infix_intercalate_iff {α : Type} {x : α} {part : List α} {pieces : List (List α)}
    (h : x ∉ part) (hne : part ≠ []) :
    part <:+: [x].intercalate pieces ↔ ∃ piece ∈ pieces, part <:+: piece := by
  constructor
  · intro hpart
    induction pieces with
    | nil => exact absurd (List.infix_nil.mp hpart) hne
    | cons first pieces ih =>
        cases pieces with
        | nil => exact ⟨first, List.mem_cons_self, by simpa using hpart⟩
        | cons next pieces =>
            rw [List.intercalate_cons_cons, List.append_assoc, List.singleton_append,
              infix_append_cons_iff h] at hpart
            rcases hpart with hfirst | hrest
            · exact ⟨first, List.mem_cons_self, hfirst⟩
            · obtain ⟨piece, hpiece, hpart⟩ := ih hrest
              exact ⟨piece, List.mem_cons_of_mem _ hpiece, hpart⟩
  · rintro ⟨piece, hpiece, hpart⟩
    exact hpart.trans (infix_intercalate hpiece)

end SongLibrary.Text
