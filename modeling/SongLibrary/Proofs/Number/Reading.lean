import Mathlib
import SongLibrary.Number.Numeric
import SongLibrary.Proofs.Number.Numeral
import SongLibrary.Proofs.Number.Rounding

/-!
# What numeric texts denote

`Denotes` says, apart from how texts are read, which numbers are written by numerals and by the
words for an infinity. `Quantity.Rounds` takes such a number to its value among the doubles and the
infinities. `Numeric.ofChars?` reads a text as the value to which the number that it denotes rounds.
-/

namespace SongLibrary

/-- A rational number or an infinity. -/
inductive Quantity where
  | finite (value : ℚ)
  | infinite (negative : Bool)

/-- The number that a numeral denotes. -/
def Numeral.value (n : Numeral) : ℚ :=
  Double.signed n.negative
    ((valueOf n.whole + valueOf (n.fraction.getD []) / 10 ^ (n.fraction.getD []).length) *
      10 ^ n.exponentValue)

/-- One of some words, in any case of its letters, behind an optional sign. -/
def SpellsWord (words : List String) (negative : Bool) (cs : List Char) : Prop :=
  ∃ sign word, Numeral.IsSign sign ∧ cs = sign.toList ++ word ∧
    String.ofList (word.map Char.toLower) ∈ words ∧ (sign == some '-') = negative

/-- The number that a text denotes. -/
inductive Denotes (cs : List Char) : Quantity → Prop
  | numeral {n : Numeral} (h : n.Spells cs) : Denotes cs (.finite n.value)
  | infinity {negative : Bool} (h : SpellsWord ["inf", "infinity"] negative cs) :
      Denotes cs (.infinite negative)

/-- A text names the value that is not a number. -/
def IsNaN (cs : List Char) : Prop := ∃ negative, SpellsWord ["nan"] negative cs

/-- A text is a number or names the value that is not. -/
def IsNumeric (cs : List Char) : Prop := IsNaN cs ∨ ∃ x, Denotes cs x

/-! ## Rounding -/

namespace Quantity

/-- Where a number stands among the doubles and the infinities: a rational is rounded to the nearest
double, but to an infinity from the half-way mark behind the largest double on. -/
inductive Rounds : Quantity → Quantity → Prop
  | nearest {q : ℚ} {d : Double} (hq : |q| < Double.overflow) (hd : d.IsNearest q) :
      Rounds (.finite q) (.finite d.value)
  | above {q : ℚ} (hq : Double.overflow ≤ q) : Rounds (.finite q) (.infinite false)
  | below {q : ℚ} (hq : q ≤ -Double.overflow) : Rounds (.finite q) (.infinite true)
  | infinite (negative : Bool) : Rounds (.infinite negative) (.infinite negative)

theorem rounds_value (d : Double) : Rounds (.finite d.value) (.finite d.value) :=
  .nearest d.abs_value_lt d.isNearest_value

/-- **A number rounds to one value.** -/
theorem Rounds.unique {x y z : Quantity} (hy : x.Rounds y) (hz : x.Rounds z) : y = z := by
  have hpos := Double.overflow_pos
  cases hy with
  | nearest hq hd =>
      cases hz with
      | nearest _ he => rw [hd.value_eq hq he]
      | above hlarge => exact absurd (abs_lt.mp hq).2 hlarge.not_gt
      | below hlarge => exact absurd (abs_lt.mp hq).1 hlarge.not_gt
  | above hlarge =>
      cases hz with
      | nearest hq _ => exact absurd (abs_lt.mp hq).2 hlarge.not_gt
      | above _ => rfl
      | below hlow => linarith
  | below hlarge =>
      cases hz with
      | nearest hq _ => exact absurd (abs_lt.mp hq).1 hlarge.not_gt
      | above hhigh => linarith
      | below _ => rfl
  | infinite negative =>
      cases hz with
      | infinite _ => rfl

end Quantity

namespace Numeric

/-- The number that a numeric value is. -/
def quantity? : Numeric → Option Quantity
  | .finite d => some (.finite d.value)
  | .infinite negative => some (.infinite negative)
  | .notANumber => none

/-- **Numbers have an order, in which they are equal just if they are the same.** -/
theorem order?_eq_some {m n : Numeric} {x y : Quantity} (hm : m.quantity? = some x)
    (hn : n.quantity? = some y) : ∃ o, m.order? n = some o ∧ (o = .eq ↔ x = y) := by
  cases m with
  | notANumber => exact absurd hm (by simp [quantity?])
  | finite a =>
      obtain rfl := Option.some.inj hm
      cases n with
      | notANumber => exact absurd hn (by simp [quantity?])
      | finite b =>
          obtain rfl := Option.some.inj hn
          refine ⟨_, rfl, ?_⟩
          rw [Double.order, Quantity.finite.injEq, Double.value_eq_iff]
          exact Std.LawfulEqOrd.compare_eq_iff_eq
      | infinite b =>
          obtain rfl := Option.some.inj hn
          exact ⟨_, rfl, by cases b <;> simp⟩
  | infinite a =>
      obtain rfl := Option.some.inj hm
      cases n with
      | notANumber => exact absurd hn (by simp [quantity?])
      | finite b =>
          obtain rfl := Option.some.inj hn
          exact ⟨_, rfl, by cases a <;> simp⟩
      | infinite b =>
          obtain rfl := Option.some.inj hn
          exact ⟨_, rfl, by cases a <;> cases b <;> simp⟩

/-- What is not a number has no order. -/
theorem order?_eq_none {m n : Numeric} (h : m = .notANumber ∨ n = .notANumber) :
    m.order? n = none := by
  rcases h with rfl | rfl
  · rfl
  · cases m <;> rfl

end Numeric

/-! ## Numerals -/

namespace Numeral

theorem value_eq {n : Numeral} {cs : List Char} (h : n.Spells cs) :
    n.value = Double.signed n.negative n.toDecimal.value := by
  have hfraction : AreDigits (n.fraction.getD []) := by
    cases hf : n.fraction with
    | none => simp [AreDigits]
    | some ds => exact h.fraction ds hf
  rw [value, Decimal.value, toDecimal, valueOf_append h.whole hfraction]
  simp only
  congr 1
  rw [zpow_sub₀ (by norm_num), zpow_natCast]
  push_cast
  rw [Nat.pow_eq, Nat.cast_pow]
  field_simp
  norm_num

/-- A numeral begins, behind its sign, with a digit or a point. -/
theorem Spells.takeSign_eq {n : Numeral} {cs : List Char} (h : n.Spells cs) :
    ∃ c rest, takeSign cs = (n.sign, c :: rest) ∧ (c.isDigit = true ∨ c = '.') := by
  obtain ⟨mark, -, rfl⟩ := h.text
  have hbegins : ∃ c rest, n.whole ++ (writeFraction n.fraction ++ markedExponent mark n.exponent) =
      c :: rest ∧ (c.isDigit = true ∨ c = '.') := by
    cases hw : n.whole with
    | cons c rest => exact ⟨c, _, rfl, .inl (h.whole c (by rw [hw]; exact List.mem_cons_self))⟩
    | nil =>
        cases hf : n.fraction with
        | some ds => exact ⟨'.', _, rfl, .inr rfl⟩
        | none => exact absurd (by rw [hw, hf]; rfl) h.digits_ne_nil
  obtain ⟨c, rest, hcs, hc⟩ := hbegins
  refine ⟨c, rest, ?_, hc⟩
  rw [hcs]
  refine takeSign_append h.sign fun d hd => ?_
  obtain rfl := Option.some.inj hd
  rcases hc with hc | rfl
  · exact not_isSign_of_isDigit hc
  · simp [IsSign]

end Numeral

/-! ## Words -/

/-- The words that are numeric. -/
def numericWords : List String := ["inf", "infinity", "nan"]

theorem toLower_of_isDigit {c : Char} (h : c.isDigit = true) : c.toLower = c := by
  rw [Char.isDigit, Bool.and_eq_true, decide_eq_true_iff, decide_eq_true_iff] at h
  refine dif_neg fun hupper => ?_
  exact absurd (UInt32.le_trans hupper.1 h.2) (by decide)

/-- What begins with a digit, a point or a sign is not a word. -/
theorem notMem_numericWords {c : Char}
    (hc : c.isDigit = true ∨ c = '.' ∨ Numeral.IsSign (some c)) (rest : List Char) :
    String.ofList ((c :: rest).map Char.toLower) ∉ numericWords := by
  have hlower : c.toLower = c ∧ c ≠ 'i' ∧ c ≠ 'n' := by
    rcases hc with hc | rfl | hc | hc | hc
    · refine ⟨toLower_of_isDigit hc, ?_, ?_⟩ <;> rintro rfl <;> exact absurd hc (by decide)
    · decide
    · exact absurd hc (by simp)
    · rw [Option.some.inj hc]
      decide
    · rw [Option.some.inj hc]
      decide
  intro hmem
  have hlist : ∀ word ∈ numericWords,
      word.toList.head? = some 'i' ∨ word.toList.head? = some 'n' := by
    simp [numericWords]
  have := hlist _ hmem
  rw [String.toList_ofList, List.map_cons, hlower.1] at this
  simp [hlower.2] at this

/-- The sign is taken off a word. -/
theorem SpellsWord.takeSign_eq {words : List String} {negative : Bool} {cs : List Char}
    (h : SpellsWord words negative cs) (hwords : words ⊆ numericWords) :
    ∃ sign word, Numeral.takeSign cs = (sign, word) ∧
      String.ofList (word.map Char.toLower) ∈ words ∧ (sign == some '-') = negative := by
  obtain ⟨sign, word, hsign, rfl, hword, hnegative⟩ := h
  refine ⟨sign, word, Numeral.takeSign_append hsign fun c hc hsign => ?_, hword, hnegative⟩
  obtain ⟨rest, rfl⟩ := List.head?_eq_some_iff.mp hc
  exact notMem_numericWords (.inr (.inr hsign)) rest (hwords hword)

namespace Numeric

theorem ofChars?_infinity {negative : Bool} {cs : List Char}
    (h : SpellsWord ["inf", "infinity"] negative cs) :
    ofChars? cs = some (.infinite negative) := by
  obtain ⟨sign, word, htake, hword, rfl⟩ := h.takeSign_eq (by simp [numericWords])
  simp only [ofChars?, htake]
  exact if_pos (by simpa using hword)

theorem ofChars?_nan {negative : Bool} {cs : List Char} (h : SpellsWord ["nan"] negative cs) :
    ofChars? cs = some .notANumber := by
  obtain ⟨sign, word, htake, hword, rfl⟩ := h.takeSign_eq (by simp [numericWords])
  have hnan := List.mem_singleton.mp hword
  simp only [ofChars?, htake, hnan]
  rw [if_neg (by decide), if_pos trivial]

/-- **A numeral is read as the double or the infinity that its number rounds to.** -/
theorem ofChars?_spells {n : Numeral} {cs : List Char} (h : n.Spells cs) :
    ∃ m y, ofChars? cs = some m ∧ m.quantity? = some y ∧
      Quantity.Rounds (.finite n.value) y := by
  obtain ⟨c, rest, htake, hc⟩ := h.takeSign_eq
  have hword := notMem_numericWords (hc.imp_right .inl) rest
  simp only [numericWords, List.mem_cons, List.not_mem_nil, or_false, not_or] at hword
  have hexponent : n.exponentComplete = true := by
    cases he : n.exponent with
    | none => rw [Numeral.exponentComplete, he]; rfl
    | some e => simpa [Numeral.exponentComplete, he] using (h.exponent e.1 e.2 he).2.2
  simp only [ofChars?, htake]
  rw [if_neg (by simp only [hword, or_self, not_false_eq_true]), if_neg hword.2.2, h.ofChars?_eq]
  simp only [Option.bind_eq_bind, Option.bind_some, hexponent, Bool.not_true, Bool.or_false,
    List.isEmpty_iff, h.digits_ne_nil, if_false]
  rw [Numeral.value_eq h]
  cases hfound : n.toDecimal.toDouble? n.negative with
  | some d =>
      obtain ⟨hlt, hnearest⟩ := Decimal.toDouble?_eq_some hfound
      refine ⟨_, _, rfl, rfl, .nearest ?_ hnearest⟩
      rwa [Double.abs_signed, abs_of_nonneg n.toDecimal.value_nonneg]
  | none =>
      have hlarge := Decimal.toDouble?_eq_none hfound
      refine ⟨_, _, rfl, rfl, ?_⟩
      cases n.negative
      · exact .above hlarge
      · exact .below (neg_le_neg hlarge)

end Numeric

/-- **A text is read as the value that its number rounds to.** -/
theorem Denotes.ofChars?_eq {cs : List Char} {x : Quantity} (h : Denotes cs x) :
    ∃ m y, Numeric.ofChars? cs = some m ∧ m.quantity? = some y ∧ x.Rounds y := by
  cases h with
  | numeral h => exact Numeric.ofChars?_spells h
  | infinity h => exact ⟨_, _, Numeric.ofChars?_infinity h, rfl, .infinite _⟩

/-- **Only a text that denotes a number or names the value that is not one is numeric.** -/
theorem Numeric.denotes_of_ofChars? {cs : List Char} {m : Numeric} (h : ofChars? cs = some m) :
    (m = .notANumber ∧ IsNaN cs) ∨ ∃ x, Denotes cs x := by
  rcases htake : Numeral.takeSign cs with ⟨sign, word⟩
  obtain ⟨hsign, hcs⟩ := Numeral.takeSign_eq htake
  simp only [ofChars?, htake] at h
  split at h
  · rename_i hword
    exact .inr ⟨_, .infinity ⟨sign, word, hsign, hcs, by simpa using hword, rfl⟩⟩
  split at h
  · rename_i hword
    exact .inl ⟨(Option.some.inj h).symm, _, sign, word, hsign, hcs, by simpa using hword, rfl⟩
  · obtain ⟨n, hn, h⟩ := Option.bind_eq_some_iff.mp h
    split at h
    · exact absurd h (by simp)
    · rename_i hcomplete
      rw [Bool.or_eq_true, not_or, Bool.not_eq_true', Bool.not_eq_false] at hcomplete
      refine .inr ⟨_, .numeral (Numeral.spells_of_ofChars? hn ?_ hcomplete.2)⟩
      simpa using hcomplete.1

/-- The numeric texts are those that can be read. -/
theorem isNumeric_iff {cs : List Char} : IsNumeric cs ↔ ∃ m, Numeric.ofChars? cs = some m := by
  constructor
  · rintro (⟨_, hnan⟩ | ⟨x, hx⟩)
    · exact ⟨_, Numeric.ofChars?_nan hnan⟩
    · obtain ⟨m, -, hm, -⟩ := hx.ofChars?_eq
      exact ⟨m, hm⟩
  · rintro ⟨m, hm⟩
    rcases Numeric.denotes_of_ofChars? hm with ⟨-, hnan⟩ | hx
    · exact .inl hnan
    · exact .inr hx

/-- **A text denotes one number at most.** -/
theorem Denotes.unique {cs : List Char} {x y : Quantity} (hx : Denotes cs x) (hy : Denotes cs y) :
    x = y := by
  have happart : ∀ {n : Numeral} {negative : Bool}, n.Spells cs →
      ¬SpellsWord ["inf", "infinity"] negative cs := by
    intro n negative hn hword
    obtain ⟨c, rest, htake, hc⟩ := hn.takeSign_eq
    obtain ⟨sign, word, htake', hmem, -⟩ := hword.takeSign_eq (by simp [numericWords])
    obtain ⟨-, rfl⟩ := Prod.mk.inj (htake.symm.trans htake')
    exact notMem_numericWords (hc.imp_right .inl) rest (List.mem_append_left ["nan"] hmem)
  cases hx with
  | numeral hn =>
      cases hy with
      | numeral hm => rw [Option.some.inj (hn.ofChars?_eq.symm.trans hm.ofChars?_eq)]
      | infinity hword => exact absurd hword (happart hn)
  | infinity hword =>
      cases hy with
      | numeral hm => exact absurd hword (happart hm)
      | infinity hword' =>
          have hread := Numeric.ofChars?_infinity hword
          rw [Numeric.ofChars?_infinity hword'] at hread
          rw [Numeric.infinite.inj (Option.some.inj hread)]

/-- The digits of a number denote it. -/
theorem denotes_digitsOf (n : Nat) : Denotes (digitsOf n) (.finite n) := by
  have hspells : Numeral.Spells ⟨none, digitsOf n, none, none⟩ (digitsOf n) :=
    ⟨.inl rfl, areDigits_digitsOf n, by simp, by simpa using digitsOf_ne_nil n, by simp, 'e',
      .inl rfl, by simp [Numeral.writeFraction, Numeral.markedExponent]⟩
  have hvalue : Numeral.value ⟨none, digitsOf n, none, none⟩ = n := by
    simp [Numeral.value, Numeral.negative, Double.signed, Numeral.exponentValue, valueOf_digitsOf,
      show Numeral.valueOf [] = 0 from rfl]
  exact hvalue ▸ .numeral hspells

end SongLibrary
