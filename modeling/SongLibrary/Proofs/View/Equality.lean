import Mathlib
import SongLibrary.Proofs.Number.Reading
import SongLibrary.Proofs.View.Literal

/-!
# What the filter for equality matches

The filter compares two texts as numbers if both are numeric, and as texts otherwise. The numbers
are compared after rounding. So texts that denote one number are equal to the filter, and texts that
denote different ones are not if both numbers are doubles, as small whole numbers are.
-/

namespace SongLibrary

variable {a b : String} {x y x' y' : Quantity}

/-- One of two numeric texts names the value that is not a number. -/
def Incomparable (left right : List Char) : Prop :=
  IsNaN left ∧ IsNumeric right ∨ IsNumeric left ∧ IsNaN right

/-! ## The order of two texts -/

/-- **Texts that denote numbers are equal just if the numbers round to the same value.** -/
theorem orderTexts_eq_iff_of_denotes (hx : Denotes (Text.trimChars a.toList) x)
    (hy : Denotes (Text.trimChars b.toList) y) (hx' : x.Rounds x') (hy' : y.Rounds y') :
    orderTexts a b = .eq ↔ x' = y' := by
  obtain ⟨m, v, hm, hv, hxv⟩ := hx.ofChars?_eq
  obtain ⟨n, w, hn, hw, hyw⟩ := hy.ofChars?_eq
  obtain ⟨o, horder, ho⟩ := Numeric.order?_eq_some hv hw
  rw [hxv.unique hx', hyw.unique hy'] at ho
  rw [orderTexts, hm, hn]
  simp only [horder, Option.getD_some, ho]

theorem orderTexts_of_incomparable
    (h : Incomparable (Text.trimChars a.toList) (Text.trimChars b.toList)) :
    orderTexts a b = .eq := by
  rcases h with ⟨⟨_, hnan⟩, hnumeric⟩ | ⟨hnumeric, ⟨_, hnan⟩⟩
  · obtain ⟨n, hn⟩ := isNumeric_iff.mp hnumeric
    rw [orderTexts, Numeric.ofChars?_nan hnan, hn]
    simp only [Numeric.order?_eq_none (.inl rfl), Option.getD_none]
  · obtain ⟨m, hm⟩ := isNumeric_iff.mp hnumeric
    rw [orderTexts, Numeric.ofChars?_nan hnan, hm]
    simp only [Numeric.order?_eq_none (.inr rfl), Option.getD_none]

/-- Texts that are not both numeric are compared by their characters. -/
theorem orderTexts_of_text
    (h : ¬(IsNumeric (Text.trimChars a.toList) ∧ IsNumeric (Text.trimChars b.toList))) :
    orderTexts a b = compare a b := by
  rw [orderTexts]
  split
  · rename_i hm hn
    exact absurd ⟨isNumeric_iff.mpr ⟨_, hm⟩, isNumeric_iff.mpr ⟨_, hn⟩⟩ h
  · rfl

/-- A text is equal to itself, even if it names the value that is not a number. -/
theorem orderTexts_self (a : String) : orderTexts a a = .eq := by
  by_cases hnumeric : IsNumeric (Text.trimChars a.toList)
  · rcases hnumeric with hnan | ⟨x, hx⟩
    · exact orderTexts_of_incomparable (.inl ⟨hnan, .inl hnan⟩)
    · obtain ⟨-, v, -, -, hv⟩ := hx.ofChars?_eq
      exact (orderTexts_eq_iff_of_denotes hx hx hv hv).mpr rfl
  · rw [orderTexts_of_text fun hboth => hnumeric hboth.1]
    exact Std.LawfulEqOrd.compare_eq_iff_eq.mpr rfl

/-- **Equal texts, and numbers that round to the same value: nothing else is equal**, unless the
value that is not a number is compared. -/
theorem orderTexts_eq_iff
    (h : a ≠ b → ¬Incomparable (Text.trimChars a.toList) (Text.trimChars b.toList)) :
    orderTexts a b = .eq ↔ a = b ∨ ∃ x y z, Denotes (Text.trimChars a.toList) x ∧
      Denotes (Text.trimChars b.toList) y ∧ x.Rounds z ∧ y.Rounds z := by
  constructor
  · intro heq
    by_cases hab : a = b
    · exact .inl hab
    have hcomparable := h hab
    by_cases hnumeric : IsNumeric (Text.trimChars a.toList) ∧ IsNumeric (Text.trimChars b.toList)
    · rcases hnumeric with ⟨hnan | ⟨x, hx⟩, hb⟩
      · exact absurd (.inl ⟨hnan, hb⟩) hcomparable
      rcases hb with hnan | ⟨y, hy⟩
      · exact absurd (.inr ⟨.inr ⟨x, hx⟩, hnan⟩) hcomparable
      obtain ⟨-, v, -, -, hv⟩ := hx.ofChars?_eq
      obtain ⟨-, w, -, -, hw⟩ := hy.ofChars?_eq
      obtain rfl := (orderTexts_eq_iff_of_denotes hx hy hv hw).mp heq
      exact .inr ⟨x, y, v, hx, hy, hv, hw⟩
    · rw [orderTexts_of_text hnumeric] at heq
      exact absurd (Std.LawfulEqOrd.compare_eq_iff_eq.mp heq) hab
  · rintro (rfl | ⟨x, y, z, hx, hy, hxz, hyz⟩)
    · exact orderTexts_self a
    · exact (orderTexts_eq_iff_of_denotes hx hy hxz hyz).mpr rfl

/-! ## The filter -/

namespace Filter

/--
**The filter for equality compares texts, and numbers after rounding.**

The text of the field and the value are compared in lower case. Unless they differ and one of them
names the value that is not a number while the other one is numeric, the filter matches just if they
are the same text or, without the blanks at their ends, denote numbers that round to the same double
or infinity. So it matches if they denote one number, and if both numbers are doubles, in particular
if they are whole numbers up to `2 ^ 53`, only then. The filter with `!=` matches all other songs.
-/
theorem equals_iff_rounded (song : Song) (index : VersionIndex) (field : Field) (value : String)
    (hlatest : ¬(field = .version ∧ Text.equalsIgnoringAsciiCase value "latest")) :
    let actual := Text.lowercase (song.field field)
    let expected := Text.lowercase value
    let left := Text.trimChars actual.toList
    let right := Text.trimChars expected.toList
    let found := matchesSong ⟨field, .equals, value⟩ song index
    ((actual ≠ expected → ¬Incomparable left right) →
      (found = true ↔ actual = expected ∨
        ∃ x y z, Denotes left x ∧ Denotes right y ∧ x.Rounds z ∧ y.Rounds z)) ∧
    (∀ x, Denotes left x → Denotes right x → found = true) ∧
    (∀ d e : Double, Denotes left (.finite d.value) → Denotes right (.finite e.value) →
      (found = true ↔ d.value = e.value)) ∧
    (∀ m n : Int, m.natAbs ≤ 2 ^ 53 → n.natAbs ≤ 2 ^ 53 →
      Denotes left (.finite m) → Denotes right (.finite n) → (found = true ↔ m = n)) ∧
    matchesSong ⟨field, .notEquals, value⟩ song index = !found := by
  intro actual expected left right found
  have hfound : found = true ↔ orderTexts actual expected = .eq := by
    show matchesSong _ song index = true ↔ _
    rw [matchesSong, latestWanted?, if_neg hlatest]
    exact beq_iff_eq
  have hdoubles : ∀ d e : Double, Denotes left (.finite d.value) →
      Denotes right (.finite e.value) → (found = true ↔ d.value = e.value) := by
    intro d e hd he
    rw [hfound, orderTexts_eq_iff_of_denotes hd he (Quantity.rounds_value d)
      (Quantity.rounds_value e), Quantity.finite.injEq]
  refine ⟨fun h => hfound.trans (orderTexts_eq_iff h), fun x hx hy => ?_, hdoubles, ?_, ?_⟩
  · obtain ⟨-, v, -, -, hv⟩ := hx.ofChars?_eq
    exact hfound.mpr ((orderTexts_eq_iff_of_denotes hx hy hv hv).mpr rfl)
  · intro m n hm hn hleft hright
    obtain ⟨d, hd⟩ := Double.exists_value_eq hm
    obtain ⟨e, he⟩ := Double.exists_value_eq hn
    rw [hdoubles d e (hd ▸ hleft) (he ▸ hright), hd, he, Int.cast_inj]
  · show matchesSong _ song index = !matchesSong _ song index
    rw [matchesSong, matchesSong, latestWanted?, latestWanted?, if_neg hlatest, if_neg hlatest]
    rfl

/-- Two ways to write a number: a title matches the value that it denotes. -/
theorem equals_iff_rounded_exponent :
    matchesSong ⟨.title, .equals, "15E-1"⟩ (Query.songTitled "1.50") .empty = true ∧
    matchesSong ⟨.title, .notEquals, "15E-1"⟩ (Query.songTitled "1.50") .empty = false := by
  obtain ⟨-, hsame, -, -, hother⟩ :=
    equals_iff_rounded (Query.songTitled "1.50") .empty .title "15E-1" (by decide)
  have hleft : Denotes ['1', '.', '5', '0'] (.finite (3 / 2)) := by
    have hspells : Numeral.Spells ⟨none, ['1'], some ['5', '0'], none⟩ ['1', '.', '5', '0'] :=
      Numeral.spells_of_ofChars? (by decide) (by decide) (by decide)
    have hvalue : Numeral.value ⟨none, ['1'], some ['5', '0'], none⟩ = 3 / 2 := by
      norm_num [Numeral.value, Double.signed, show Numeral.valueOf ['1'] = 1 by decide,
        show Numeral.valueOf ['5', '0'] = 50 by decide, Numeral.negative, Numeral.exponentValue]
    exact hvalue ▸ .numeral hspells
  have hright : Denotes ['1', '5', 'e', '-', '1'] (.finite (3 / 2)) := by
    have hspells : Numeral.Spells ⟨none, ['1', '5'], none, some (some '-', ['1'])⟩
        ['1', '5', 'e', '-', '1'] :=
      Numeral.spells_of_ofChars? (by decide) (by decide) (by decide)
    have hvalue : Numeral.value ⟨none, ['1', '5'], none, some (some '-', ['1'])⟩ = 3 / 2 := by
      norm_num [Numeral.value, Double.signed, show Numeral.valueOf ['1', '5'] = 15 by decide,
        show Numeral.valueOf ['1'] = 1 by decide, show Numeral.valueOf [] = 0 by decide,
        Numeral.negative, Numeral.exponentValue]
    exact hvalue ▸ .numeral hspells
  have htitle : Text.trimChars (Text.lowercase ((Query.songTitled "1.50").field .title)).toList =
      ['1', '.', '5', '0'] := by decide +kernel
  have hvalue : Text.trimChars (Text.lowercase "15E-1").toList = ['1', '5', 'e', '-', '1'] := by
    decide +kernel
  have hfound := hsame _ (htitle ▸ hleft) (hvalue ▸ hright)
  exact ⟨hfound, by rw [hother, hfound]; rfl⟩

/-- Whole numbers beyond `2 ^ 53`: the title and the value differ as texts and as numbers, and the
filter for equality matches. -/
theorem equals_iff_rounded_large :
    let song := Query.songTitled "9007199254740993"
    let actual := Text.lowercase (song.field .title)
    let expected := Text.lowercase "9007199254740992"
    matchesSong ⟨.title, .equals, "9007199254740992"⟩ song .empty = true ∧ actual ≠ expected ∧
    ¬∃ x, Denotes (Text.trimChars actual.toList) x ∧
      Denotes (Text.trimChars expected.toList) x := by
  intro song actual expected
  have hactual : Text.trimChars actual.toList = digitsOf 9007199254740993 := by decide +kernel
  have hexpected : Text.trimChars expected.toList = digitsOf 9007199254740992 := by decide +kernel
  refine ⟨by decide +kernel, by decide +kernel, ?_⟩
  rintro ⟨x, hx, hy⟩
  rw [hactual] at hx
  rw [hexpected] at hy
  have heq := Quantity.finite.inj
    (((denotes_digitsOf _).unique hx).trans (hy.unique (denotes_digitsOf _)))
  norm_num at heq

end Filter

end SongLibrary
