import Mathlib
import SongLibrary.Number.Shortest

/-!
# Reading rounds to the nearest double

`Double.IsNearest` says what it is for a double to be nearest to a rational: no other one is
nearer, and if another one is as near, the mantissa is even. Up to the sign of zero there is just
one such double, and `Double.ofRatio?` finds it, unless the quotient is so large that the next
power of two is as near as the largest double. The short cuts of `Decimal.toDouble?` change
nothing about that.

Magnitudes are compared on the grid that has 53 bits where the quotient is. Of the doubles off this
grid, which lie below it, none is nearer than the lowest double on it.
-/

namespace SongLibrary

theorem abs_mul_sub {c : ℚ} (hc : 0 < c) (n x : ℚ) : |n * c - x| = |n - x / c| * c := by
  rw [← abs_of_pos hc, ← abs_mul, abs_of_pos hc, sub_mul, div_mul_cancel₀ _ hc.ne']

/-! ## Rounding to integers -/

/-- One candidate is nearer than another one, or it is as near and the even one of the two. Given
are the distances and the numbers whose parity counts. -/
def Preferred (near far : ℚ) (n k : Nat) : Prop :=
  near < far ∨ near = far ∧ n % 2 = 0 ∧ k % 2 = 1

namespace Preferred

variable {near far c : ℚ} {n k : Nat}

theorem le (h : Preferred near far n k) : near ≤ far := by
  rcases h with hlt | ⟨heq, -⟩
  · exact hlt.le
  · exact heq.le

theorem mul_right (h : Preferred near far n k) (hc : 0 < c) :
    Preferred (near * c) (far * c) n k := by
  rcases h with hlt | ⟨heq, hparity⟩
  · exact .inl (mul_lt_mul_of_pos_right hlt hc)
  · exact .inr ⟨by rw [heq], hparity⟩

theorem imp (h : Preferred near far n k) {n' k' : Nat} (hn : n % 2 = 0 → n' % 2 = 0)
    (hk : k % 2 = 1 → k' % 2 = 1) : Preferred near far n' k' := by
  rcases h with hlt | ⟨heq, heven, hodd⟩
  · exact .inl hlt
  · exact .inr ⟨heq, hn heven, hk hodd⟩

end Preferred

/-- A whole number is nearest to a rational, and a half away only if it is even. -/
structure IsNearestInt (n : Nat) (q : ℚ) : Prop where
  near : 2 * |(n : ℚ) - q| ≤ 1
  even : 2 * |(n : ℚ) - q| = 1 → n % 2 = 0

theorem isNearestInt_roundHalfEven (num : Nat) {den : Nat} (h : 0 < den) :
    IsNearestInt (roundHalfEven num den) (num / den) := by
  have hden : (0 : ℚ) < den := by exact_mod_cast h
  obtain ⟨t, ht⟩ : ∃ t : ℚ, t = (num % den : ℕ) / den := ⟨_, rfl⟩
  have hdiv : (num : ℚ) / den = (num / den : ℕ) + t := by
    rw [ht, div_eq_iff hden.ne', add_mul, div_mul_cancel₀ _ hden.ne']
    exact_mod_cast (Nat.div_add_mod' num den).symm
  have hnonneg : 0 ≤ t := by rw [ht]; positivity
  have hlt : t < 1 := by rw [ht, div_lt_one hden]; exact_mod_cast Nat.mod_lt num h
  have hlow : 2 * (num % den) < den ↔ 2 * t < 1 := by
    rw [ht, ← mul_div_assoc, div_lt_one hden]; exact_mod_cast Iff.rfl
  have hhigh : den < 2 * (num % den) ↔ 1 < 2 * t := by
    rw [ht, ← mul_div_assoc, one_lt_div hden]; exact_mod_cast Iff.rfl
  rw [hdiv, roundHalfEven]
  split
  · rename_i hbelow
    have habs : |((num / den : ℕ) : ℚ) - ((num / den : ℕ) + t)| = t := by
      rw [sub_add_cancel_left, abs_neg, abs_of_nonneg hnonneg]
    refine ⟨?_, fun heq => absurd heq ?_⟩ <;> rw [habs]
    · exact (hlow.mp hbelow).le
    · exact (hlow.mp hbelow).ne
  split
  · rename_i _ habove
    have habs : |((num / den + 1 : ℕ) : ℚ) - ((num / den : ℕ) + t)| = 1 - t := by
      rw [Nat.cast_succ, add_sub_add_left_eq_sub, abs_of_nonneg (by linarith)]
    have := hhigh.mp habove
    refine ⟨?_, fun heq => absurd heq ?_⟩ <;> rw [habs]
    · linarith
    · linarith
  · rename_i hbelow habove
    have hhalf : 2 * t = 1 := le_antisymm (by rwa [hhigh, not_lt] at habove)
      (by rwa [hlow, not_lt] at hbelow)
    refine ⟨?_, fun _ => by omega⟩
    rcases Nat.mod_two_eq_zero_or_one (num / den) with hmod | hmod
    · rw [hmod, Nat.add_zero, sub_add_cancel_left, abs_neg, abs_of_nonneg hnonneg, hhalf]
    · rw [hmod, Nat.cast_succ, add_sub_add_left_eq_sub, abs_of_nonneg (by linarith)]
      linarith

/-- It is preferred to any other whole number. -/
theorem IsNearestInt.preferred {n k : Nat} {q : ℚ} (h : IsNearestInt n q) (hne : k ≠ n) :
    Preferred |(n : ℚ) - q| |(k : ℚ) - q| n k := by
  have hapart : (1 : ℚ) ≤ |(k : ℚ) - n| := by
    have : (1 : ℤ) ≤ |(k : ℤ) - n| := Int.one_le_abs (by omega)
    exact_mod_cast this
  have htriangle : |(k : ℚ) - n| ≤ |(k : ℚ) - q| + |(n : ℚ) - q| := by
    rw [abs_sub_comm (n : ℚ) q]
    exact abs_sub_le _ _ _
  rcases lt_or_eq_of_le (show |(n : ℚ) - q| ≤ |(k : ℚ) - q| by linarith [h.near]) with hlt | heq
  · exact .inl hlt
  · have hhalf : 2 * |(n : ℚ) - q| = 1 := by linarith [h.near]
    have hnext : |(k : ℚ) - n| = 1 := by linarith
    have hnext' : |(k : ℤ) - n| = 1 := by exact_mod_cast hnext
    have heven := h.even hhalf
    refine .inr ⟨heq, heven, ?_⟩
    rcases eq_or_eq_neg_of_abs_eq hnext' with h' | h' <;> omega

/-! ## The grid of a magnitude -/

namespace Double

/-- The shift at which the whole part of a magnitude has 53 bits, or none if it has fewer. -/
structure Scale (x : ℚ) (shift : Nat) : Prop where
  below : x < 2 ^ 53 * 2 ^ shift
  above : 0 < shift → 2 ^ 52 * 2 ^ shift ≤ x

theorem fullMantissa_eq : fullMantissa = 2 ^ 52 := rfl

theorem scale_log2 (num : Nat) {den : Nat} (h : 0 < den) :
    Scale (num / den) ((num / den).log2 - 52) := by
  have hden : (0 : ℚ) < den := by exact_mod_cast h
  have hbelow : num / den < 2 ^ (53 + ((num / den).log2 - 52)) :=
    Nat.lt_log2_self.trans_le (Nat.pow_le_pow_right (by decide) (by omega))
  constructor
  · rw [div_lt_iff₀ hden, ← pow_add]
    exact_mod_cast (Nat.div_lt_iff_lt_mul h).mp hbelow
  · intro hpos
    have hne : num / den ≠ 0 := by
      intro hzero
      rw [hzero] at hpos
      exact absurd hpos (by decide)
    have habove : 2 ^ (52 + ((num / den).log2 - 52)) ≤ num / den := by
      rw [Nat.add_sub_cancel' (by omega)]
      exact Nat.log2_self_le hne
    rw [le_div_iff₀ hden, ← pow_add]
    exact_mod_cast (Nat.le_div_iff_mul_le h).mp habove

namespace Scale

variable {x : ℚ} {shift r m t : Nat}

/-- The rounded mantissa has at most one bit too much, and it has all bits if it is shifted. -/
theorem mantissa_bounds (hx : Scale x shift) (hr : IsNearestInt r (x / 2 ^ shift)) :
    r ≤ 2 * fullMantissa ∧ (fullMantissa ≤ r ∨ shift = 0) := by
  have hpow : (0 : ℚ) < 2 ^ shift := by positivity
  have hnear := abs_le.mp (show |(r : ℚ) - x / 2 ^ shift| ≤ 1 / 2 by linarith [hr.near])
  rw [fullMantissa_eq]
  constructor
  · have hlt : x / 2 ^ shift < 2 ^ 53 := (div_lt_iff₀ hpow).mpr hx.below
    have : (r : ℚ) < (2 ^ 53 + 1 : ℕ) := by push_cast; linarith
    have := Nat.cast_lt.mp this
    omega
  · rcases Nat.eq_zero_or_pos shift with hzero | hpos
    · exact .inr hzero
    · have hle : 2 ^ 52 ≤ x / 2 ^ shift := (le_div_iff₀ hpow).mpr (hx.above hpos)
      have : ((2 ^ 52 : ℕ) : ℚ) < (r + 1 : ℕ) := by push_cast; linarith
      exact .inl (Nat.lt_succ_iff.mp (Nat.cast_lt.mp this))

/-- The magnitude on the grid is preferred to that of any other double. -/
theorem preferred (hx : Scale x shift) (hr : IsNearestInt r (x / 2 ^ shift)) (hm : Canonical m t)
    (hne : (m * 2 ^ t : ℚ) ≠ r * 2 ^ shift) :
    Preferred |(r : ℚ) * 2 ^ shift - x| |(m : ℚ) * 2 ^ t - x| r m := by
  have hpow : (0 : ℚ) < 2 ^ shift := by positivity
  rcases Nat.lt_or_ge t shift with hlt | hge
  · -- all multiples of the grid step up to the lowest double on the grid are nearer
    left
    have hlow : (m : ℚ) * 2 ^ t < 2 ^ 52 * 2 ^ shift := by
      have hmant : (m : ℚ) < 2 ^ 53 := by exact_mod_cast hm.1
      calc (m : ℚ) * 2 ^ t < 2 ^ 53 * 2 ^ t := mul_lt_mul_of_pos_right hmant (by positivity)
        _ = 2 ^ 52 * 2 ^ (t + 1) := by ring
        _ ≤ 2 ^ 52 * 2 ^ shift :=
          mul_le_mul_of_nonneg_left (pow_le_pow_right₀ (by norm_num) hlt) (by norm_num)
    have habove := hx.above (by omega)
    have hgrid : |(r : ℚ) * 2 ^ shift - x| ≤ |((fullMantissa : ℕ) : ℚ) * 2 ^ shift - x| := by
      rw [abs_mul_sub hpow, abs_mul_sub hpow]
      rcases eq_or_ne fullMantissa r with heq | hne'
      · rw [heq]
      · exact ((hr.preferred hne').mul_right hpow).le
    refine hgrid.trans_lt ?_
    rw [fullMantissa_eq]
    push_cast
    rw [abs_of_nonpos (by linarith), abs_of_nonpos (by linarith)]
    linarith
  · have hsplit : (m : ℚ) * 2 ^ t = ((m * 2 ^ (t - shift) : ℕ) : ℚ) * 2 ^ shift := by
      push_cast
      rw [mul_assoc, ← pow_add, Nat.sub_add_cancel hge]
    rw [hsplit] at hne ⊢
    have hne' : m * 2 ^ (t - shift) ≠ r := fun h => hne (by rw [h])
    rw [abs_mul_sub hpow, abs_mul_sub hpow]
    exact ((hr.preferred hne').mul_right hpow).imp id fun hodd =>
      Nat.odd_iff.mp (Nat.odd_mul.mp (Nat.odd_iff.mpr hodd)).1

/-- A magnitude whose double fits is below the half-way mark behind the largest double. -/
theorem lt_limit (hx : Scale x shift) (hr : IsNearestInt r (x / 2 ^ shift))
    (hfits : shift < 2045 ∨ r < 2 * fullMantissa ∧ shift = 2045) :
    x < (2 ^ 53 - 1 / 2) * 2 ^ 2045 := by
  rcases hfits with hlt | ⟨hlt, rfl⟩
  · have hstep : (2 : ℚ) * 2 ^ shift ≤ 2 ^ 2045 :=
      pow_succ' (2 : ℚ) shift ▸ pow_le_pow_right₀ one_le_two hlt
    calc x < 2 ^ 53 * 2 ^ shift := hx.below
      _ = 2 ^ 52 * (2 * 2 ^ shift) := by ring
      _ ≤ 2 ^ 52 * 2 ^ 2045 := mul_le_mul_of_nonneg_left hstep (by norm_num)
      _ ≤ (2 ^ 53 - 1 / 2) * 2 ^ 2045 :=
        mul_le_mul_of_nonneg_right (by norm_num) (pow_nonneg zero_le_two _)
  · have hpow : (0 : ℚ) < 2 ^ 2045 := pow_pos two_pos _
    rw [← div_lt_iff₀ hpow]
    generalize x / 2 ^ 2045 = y at hr
    rw [fullMantissa_eq] at hlt
    have hle : (r : ℚ) + 1 ≤ 2 ^ 53 := by exact_mod_cast hlt
    have hnear := abs_le.mp (show |(r : ℚ) - y| ≤ 1 / 2 by linarith [hr.near])
    by_contra hge
    -- the largest mantissa is odd, so half a step behind it is not rounded down
    have hmax : (r : ℚ) = 2 ^ 53 - 1 := by linarith
    have hhalf : 2 * |(r : ℚ) - y| = 1 := by
      rw [abs_of_nonpos (by linarith)]
      linarith
    have hodd : r = 2 ^ 53 - 1 := by
      rw [eq_sub_iff_add_eq] at hmax
      have : r + 1 = 2 ^ 53 := by exact_mod_cast hmax
      omega
    have := hr.even hhalf
    omega

/-- A magnitude whose double does not fit is not below it. -/
theorem limit_le (hx : Scale x shift) (hr : IsNearestInt r (x / 2 ^ shift))
    (hfits : 2045 < shift ∨ r = 2 * fullMantissa ∧ shift = 2045) :
    (2 ^ 53 - 1 / 2) * 2 ^ 2045 ≤ x := by
  have hpow : (0 : ℚ) < 2 ^ 2045 := pow_pos two_pos _
  rcases hfits with hlt | ⟨rfl, rfl⟩
  · have hstep : (2 : ℚ) * 2 ^ 2045 ≤ 2 ^ shift :=
      pow_succ' (2 : ℚ) 2045 ▸ pow_le_pow_right₀ one_le_two hlt
    calc (2 ^ 53 - 1 / 2) * 2 ^ 2045 ≤ 2 ^ 53 * (2 : ℚ) ^ 2045 :=
        mul_le_mul_of_nonneg_right (by norm_num) hpow.le
      _ = 2 ^ 52 * (2 * 2 ^ 2045) := by rw [pow_succ 2 52, mul_assoc]
      _ ≤ 2 ^ 52 * 2 ^ shift := mul_le_mul_of_nonneg_left hstep (by norm_num)
      _ ≤ x := hx.above (by omega)
  · rw [← le_div_iff₀ hpow]
    generalize x / 2 ^ 2045 = y at hr
    have hmax : ((2 * fullMantissa : ℕ) : ℚ) = 2 ^ 53 := by rw [fullMantissa_eq]; norm_num
    have hnear := abs_le.mp (show |((2 * fullMantissa : ℕ) : ℚ) - y| ≤ 1 / 2 by
      linarith [hr.near])
    rw [hmax] at hnear
    linarith

end Scale

/-! ## The nearest double -/

/-- The value of a double. -/
def value (d : Double) : ℚ := d.units / unitsInOne

/-- The half-way mark between the largest double and the next power of two. -/
def overflow : ℚ := 2 ^ 1024 - 2 ^ 970

/-- A double is nearest to a rational: no other one is nearer, and if another one is as near, the
mantissa is even. -/
structure IsNearest (d : Double) (q : ℚ) : Prop where
  nearest : ∀ e : Double, |d.value - q| ≤ |e.value - q|
  even : ∀ e : Double, |d.value - q| = |e.value - q| → e.value ≠ d.value → d.mantissa % 2 = 0

/-- A double is preferred to any other one. -/
def Wins (d : Double) (q : ℚ) : Prop :=
  ∀ e : Double, e.value ≠ d.value →
    Preferred |d.value - q| |e.value - q| d.mantissa e.mantissa

/-- A number with a sign. -/
def signed (negative : Bool) (q : ℚ) : ℚ := if negative then -q else q

theorem abs_signed_sub (negative : Bool) (p q : ℚ) :
    |signed negative p - signed negative q| = |p - q| := by
  cases negative
  · rfl
  · rw [signed, signed, if_pos rfl, if_pos rfl, neg_sub_neg, abs_sub_comm]

theorem abs_signed (negative : Bool) (q : ℚ) : |signed negative q| = |q| := by
  cases negative
  · rfl
  · exact abs_neg q

theorem signed_abs (q : ℚ) : signed (decide (q < 0)) |q| = q := by
  rw [signed]
  split
  · rename_i h
    rw [abs_of_neg (of_decide_eq_true h), neg_neg]
  · rename_i h
    rw [decide_eq_true_iff, not_lt] at h
    exact abs_of_nonneg h

theorem unitsInOne_eq : (unitsInOne : ℚ) = 2 ^ places := by
  rw [unitsInOne, Nat.one_shiftLeft, Nat.cast_pow, Nat.cast_ofNat]

theorem unitsInOne_cast_pos : (0 : ℚ) < unitsInOne := by exact_mod_cast unitsInOne_pos

theorem magnitude_eq (d : Double) : (d.magnitude : ℚ) = d.mantissa * 2 ^ d.shift := by
  rw [magnitude, Nat.shiftLeft_eq]
  push_cast
  rfl

theorem value_eq (d : Double) : d.value = signed d.negative (d.magnitude / unitsInOne) := by
  rw [value, units, signed]
  split
  · push_cast
    exact neg_div _ _
  · rfl

namespace Wins

variable {d e : Double} {q : ℚ}

theorem isNearest (h : d.Wins q) : d.IsNearest q := by
  refine ⟨fun e => ?_, fun e heq hne => ?_⟩
  · rcases eq_or_ne e.value d.value with heq | hne
    · rw [heq]
    · exact (h e hne).le
  · rcases h e hne with hlt | ⟨-, heven, -⟩
    · exact absurd heq hlt.ne
    · exact heven

theorem value_eq (h : d.Wins q) (he : e.IsNearest q) : e.value = d.value := by
  by_contra hne
  rcases h e hne with hlt | ⟨heq, -, hodd⟩
  · exact absurd (he.nearest d) hlt.not_ge
  · have := he.even d heq.symm (Ne.symm hne)
    omega

end Wins

theorem ofParts?_eq_some {negative : Bool} {r shift : Nat} {d : Double}
    (h : ofParts? negative r shift = some d) :
    d.negative = negative ∧ (d.magnitude : ℚ) = r * 2 ^ shift ∧ (r % 2 = 0 → d.mantissa % 2 = 0) ∧
      (shift < 2045 ∨ r < 2 * fullMantissa ∧ shift = 2045) := by
  rw [ofParts?] at h
  split at h
  · rename_i hcanonical
    obtain rfl := Option.some.inj h
    refine ⟨rfl, magnitude_eq _, id, ?_⟩
    have := hcanonical.2.1
    have := hcanonical.1
    omega
  · split at h
    · rename_i hcarry
      obtain rfl := Option.some.inj h
      refine ⟨rfl, ?_, fun _ => ?_, .inl hcarry.2⟩
      · rw [magnitude_eq, show (r : ℚ) = 2 * fullMantissa by exact_mod_cast hcarry.1]
        ring
      · show fullMantissa % 2 = 0
        decide
    · exact absurd h (by simp)

theorem ofParts?_eq_none {negative : Bool} {r shift : Nat}
    (hle : r ≤ 2 * fullMantissa) (hfull : fullMantissa ≤ r ∨ shift = 0)
    (h : ofParts? negative r shift = none) :
    2045 < shift ∨ r = 2 * fullMantissa ∧ shift = 2045 := by
  rw [ofParts?] at h
  split at h
  · exact absurd h (by simp)
  · rename_i hcanonical
    split at h
    · exact absurd h (by simp)
    · rename_i hcarry
      unfold Canonical at hcanonical
      omega

/-- How a quotient of at least zero is cut into a mantissa and a shift. -/
theorem ofRatio?_eq_ofParts? (negative : Bool) (num : Nat) {den : Nat} (h : 0 < den) :
    ∃ r shift, ofRatio? negative num den = ofParts? negative r shift ∧
      Scale (num / den * unitsInOne) shift ∧
      IsNearestInt r (num / den * unitsInOne / 2 ^ shift) := by
  have hx : (num : ℚ) / den * unitsInOne = (num * unitsInOne : ℕ) / den := by
    push_cast
    ring
  refine ⟨_, _, rfl, ?_, ?_⟩
  · rw [hx]
    exact scale_log2 _ h
  · have hround := isNearestInt_roundHalfEven (num * unitsInOne)
      (shiftLeft_pos h ((num * unitsInOne / den).log2 - 52))
    rwa [Nat.shiftLeft_eq den, Nat.cast_mul den, Nat.cast_pow, Nat.cast_ofNat,
      ← div_div, ← hx, ← Nat.shiftLeft_eq] at hround

/-- It is enough to compare magnitudes. -/
theorem wins_of_magnitude {d : Double} {q : ℚ} (hq : 0 ≤ q)
    (h : ∀ e : Double, (e.magnitude : ℚ) ≠ d.magnitude →
      Preferred |d.magnitude / unitsInOne - q| |e.magnitude / unitsInOne - q|
        d.mantissa e.mantissa) :
    d.Wins (signed d.negative q) := by
  intro e hne
  rw [value_eq, value_eq] at hne
  rw [value_eq, value_eq, abs_signed_sub]
  by_cases hsign : e.negative = d.negative
  · rw [hsign] at hne ⊢
    rw [abs_signed_sub]
    exact h e fun heq => hne (by rw [heq])
  · -- a double on the other side of zero is farther away than zero
    left
    have hu := unitsInOne_cast_pos
    have hother : ∀ p : ℚ, signed e.negative p = signed d.negative (-p) := by
      intro p
      cases hd : d.negative <;> cases he : e.negative <;> simp_all [signed]
    have hmag : (0 : ℚ) ≤ e.magnitude / unitsInOne := div_nonneg (Nat.cast_nonneg _) hu.le
    rw [hother, abs_signed_sub, abs_of_nonpos (show -(e.magnitude / unitsInOne : ℚ) - q ≤ 0 by
      linarith)]
    by_cases hzero : (d.magnitude : ℚ) = 0
    · have hpos : (e.magnitude : ℚ) ≠ 0 := fun he => hne (by rw [hother, he, hzero]; simp)
      have hlt := lt_of_le_of_ne hmag (div_ne_zero hpos hu.ne').symm
      rw [hzero, zero_div, zero_sub, abs_neg, abs_of_nonneg hq]
      linarith
    · have hmagnitude : ((zero false).magnitude : ℚ) = 0 := by
        exact_mod_cast (by decide : (zero false).magnitude = 0)
      rcases h (zero false) (by rw [hmagnitude]; exact Ne.symm hzero) with hlt | ⟨-, -, hodd⟩
      · rw [hmagnitude, zero_div, zero_sub, abs_neg, abs_of_nonneg hq] at hlt
        linarith
      · exact absurd hodd (by decide)

/-- A number of less than half a unit rounds to zero. -/
theorem wins_zero (negative : Bool) {q : ℚ} (hq : 0 ≤ q) (h : 2 * (q * unitsInOne) < 1) :
    (zero negative).Wins (signed negative q) := by
  have hu := unitsInOne_cast_pos
  have hzero : ((zero negative).magnitude : ℚ) = 0 := by
    have : (zero negative).magnitude = 0 := rfl
    exact_mod_cast this
  refine wins_of_magnitude (d := zero negative) hq fun e hne => .inl ?_
  rw [hzero] at hne
  have hone : (1 : ℚ) ≤ e.magnitude := by
    exact_mod_cast Nat.one_le_iff_ne_zero.mpr (by exact_mod_cast hne)
  rw [hzero, zero_div, zero_sub, abs_neg, abs_of_nonneg hq, lt_abs]
  left
  rw [lt_sub_iff_add_lt, lt_div_iff₀ hu]
  linarith

theorem overflow_units : overflow * unitsInOne = (2 ^ 53 - 1 / 2) * 2 ^ 2045 := by
  have hhigh : 1024 + places = 53 + 2045 := rfl
  have hlow : 970 + places = 2044 := rfl
  have hhalf : (2 : ℚ) ^ 2045 = 2 * 2 ^ 2044 := pow_succ' 2 2044
  rw [overflow, unitsInOne_eq, sub_mul, sub_mul, ← pow_add, ← pow_add, hhigh, hlow, pow_add, hhalf,
    ← mul_assoc (1 / 2), one_div_mul_cancel two_ne_zero, one_mul]

theorem lt_overflow_of_small {q : ℚ} (h : 2 * (q * unitsInOne) < 1) : q < overflow := by
  have hpow : (1 : ℚ) ≤ 2 ^ 2045 := one_le_pow₀ one_le_two
  rw [← mul_lt_mul_iff_left₀ unitsInOne_cast_pos, overflow_units]
  calc q * unitsInOne < 1 / 2 := by linarith
    _ ≤ (2 ^ 53 - 1 / 2) * 1 := by norm_num
    _ ≤ (2 ^ 53 - 1 / 2) * 2 ^ 2045 := mul_le_mul_of_nonneg_left hpow (by norm_num)

/-- **The nearest double is found.** -/
theorem ofRatio?_eq_some {negative : Bool} {num den : Nat} {d : Double} (hden : 0 < den)
    (h : ofRatio? negative num den = some d) :
    (num / den : ℚ) < overflow ∧ d.Wins (signed negative (num / den)) := by
  obtain ⟨r, shift, hparts, hscale, hround⟩ := ofRatio?_eq_ofParts? negative num hden
  obtain ⟨hnegative, hmagnitude, heven, hbound⟩ := ofParts?_eq_some (hparts.symm.trans h)
  have hu := unitsInOne_cast_pos
  constructor
  · rw [← mul_lt_mul_iff_left₀ hu, overflow_units]
    exact hscale.lt_limit hround hbound
  · subst hnegative
    refine wins_of_magnitude (div_nonneg (Nat.cast_nonneg _) (Nat.cast_nonneg _)) fun e hne => ?_
    rw [hmagnitude, magnitude_eq e] at hne
    rw [div_eq_mul_inv, div_eq_mul_inv _ (unitsInOne : ℚ), abs_mul_sub (inv_pos.mpr hu),
      abs_mul_sub (inv_pos.mpr hu), div_inv_eq_mul, hmagnitude, magnitude_eq e]
    exact ((hscale.preferred hround e.canonical hne).mul_right (inv_pos.mpr hu)).imp heven id

/-- **A quotient has no nearest double only if it is too large.** -/
theorem ofRatio?_eq_none {negative : Bool} {num den : Nat} (hden : 0 < den)
    (h : ofRatio? negative num den = none) : overflow ≤ num / den := by
  obtain ⟨r, shift, hparts, hscale, hround⟩ := ofRatio?_eq_ofParts? negative num hden
  obtain ⟨hle, hfull⟩ := hscale.mantissa_bounds hround
  have hu := unitsInOne_cast_pos
  rw [← mul_le_mul_iff_left₀ hu, overflow_units]
  exact hscale.limit_le hround (ofParts?_eq_none hle hfull (hparts.symm.trans h))

/-! ## Uniqueness -/

/-- **Below the half-way mark the nearest double is unique, up to the sign of zero.** -/
theorem IsNearest.value_eq {d e : Double} {q : ℚ} (hq : |q| < overflow) (hd : d.IsNearest q)
    (he : e.IsNearest q) : d.value = e.value := by
  have hratio : signed (decide (q < 0)) (q.num.natAbs / q.den) = q := by
    have habs : ((q.num.natAbs : ℕ) : ℚ) / q.den = |q| := by
      rw [Nat.cast_natAbs, Int.cast_abs, ← abs_of_pos (show (0 : ℚ) < q.den by
        exact_mod_cast q.den_pos), ← abs_div, Rat.num_div_den]
    rw [habs, signed_abs]
  cases hfound : ofRatio? (decide (q < 0)) q.num.natAbs q.den with
  | none =>
      have hlarge := ofRatio?_eq_none q.den_pos hfound
      rw [← hratio, abs_signed, abs_of_nonneg (by positivity)] at hq
      exact absurd hq hlarge.not_gt
  | some best =>
      have hwins := (ofRatio?_eq_some q.den_pos hfound).2
      rw [hratio] at hwins
      rw [hwins.value_eq hd, hwins.value_eq he]

theorem isNearest_value (d : Double) : d.IsNearest d.value := by
  refine ⟨fun e => ?_, fun e heq hne => ?_⟩
  · rw [sub_self, abs_zero]
    exact abs_nonneg _
  · rw [sub_self, abs_zero] at heq
    exact absurd (sub_eq_zero.mp (abs_eq_zero.mp heq.symm)) hne

theorem abs_value_lt (d : Double) : |d.value| < overflow := by
  have hlt := (ofRatio?_eq_some unitsInOne_pos (ofRatio?_magnitude d)).1
  rw [value_eq, abs_signed, abs_of_nonneg (div_nonneg (Nat.cast_nonneg _) (Nat.cast_nonneg _))]
  exact hlt

/-- **A whole number of at most 53 bits is a double, and so is the next one.** -/
theorem exists_value_eq {z : Int} (h : z.natAbs ≤ 2 ^ 53) : ∃ d : Double, d.value = z := by
  obtain ⟨mantissa, shift, hcanonical, hmagnitude⟩ : ∃ mantissa shift,
      Canonical mantissa shift ∧ mantissa * 2 ^ shift = z.natAbs * 2 ^ places := by
    generalize z.natAbs = n at h
    rcases Nat.eq_zero_or_pos n with rfl | hpos
    · exact ⟨0, 0, by decide, by simp⟩
    rcases Nat.eq_or_lt_of_le h with rfl | hlt
    · exact ⟨fullMantissa, places + 1, by decide, by rw [fullMantissa_eq, Nat.pow_succ]; ring⟩
    · -- the number is moved up until it has 53 bits
      have hlog : n.log2 ≤ 52 := Nat.lt_succ_iff.mp ((Nat.log2_lt hpos.ne').mpr hlt)
      have hlow := Nat.mul_le_mul_right (2 ^ (52 - n.log2)) (Nat.log2_self_le hpos.ne')
      have hhigh := Nat.mul_lt_mul_of_pos_right (Nat.lt_log2_self (n := n))
        (Nat.two_pow_pos (52 - n.log2))
      have hbits : n.log2 + 1 + (52 - n.log2) = 53 := by omega
      rw [← Nat.pow_add, Nat.add_sub_cancel' hlog] at hlow
      rw [← Nat.pow_add, hbits] at hhigh
      have hplaces : places = 1074 := rfl
      refine ⟨n * 2 ^ (52 - n.log2), places - (52 - n.log2), ⟨hhigh, by omega, .inl hlow⟩, ?_⟩
      rw [Nat.mul_assoc, ← Nat.pow_add, Nat.add_sub_cancel' (by omega)]
  refine ⟨⟨decide ((z : ℚ) < 0), mantissa, shift, hcanonical⟩, ?_⟩
  have hnatAbs : ((z.natAbs : ℕ) : ℚ) = |(z : ℚ)| := by rw [Nat.cast_natAbs, Int.cast_abs]
  have hunits : ((mantissa * 2 ^ shift : ℕ) : ℚ) = z.natAbs * unitsInOne := by
    rw [hmagnitude, unitsInOne_eq, Nat.cast_mul, Nat.cast_pow, Nat.cast_ofNat]
  rw [value_eq, magnitude, Nat.shiftLeft_eq, hunits,
    mul_div_cancel_right₀ _ unitsInOne_cast_pos.ne', hnatAbs]
  exact signed_abs _

theorem overflow_pos : 0 < overflow := (abs_nonneg _).trans_lt (zero false).abs_value_lt

theorem value_eq_iff {d e : Double} : d.value = e.value ↔ d.units = e.units := by
  rw [value, value, div_left_inj' unitsInOne_cast_pos.ne', Int.cast_inj]

end Double

/-! ## Decimals -/

namespace Decimal

open Double

/-- The number that a decimal is. -/
def value (x : Decimal) : ℚ := x.digits * 10 ^ x.exponent

theorem value_eq_div (x : Decimal) : x.value =
    ((x.digits * Nat.pow 10 x.exponent.toNat : ℕ) : ℚ) / (Nat.pow 10 (-x.exponent).toNat : ℕ) := by
  obtain ⟨digits, exponent⟩ := x
  rw [value]
  simp only [Nat.pow_eq, Nat.cast_mul, Nat.cast_pow, Nat.cast_ofNat]
  obtain ⟨n, rfl | rfl⟩ := Int.eq_nat_or_neg exponent
  · simp
  · simp [div_eq_mul_inv]

theorem value_nonneg (x : Decimal) : 0 ≤ x.value :=
  mul_nonneg (Nat.cast_nonneg _) (zpow_nonneg (by norm_num) _)

/-- The short cut for small decimals is taken below half a unit. -/
theorem units_lt_one_of_small {x : Decimal}
    (h : (x.digits.log2 : Int) + 1080 < -3 * x.exponent) :
    2 * (x.value * unitsInOne) < 1 := by
  obtain ⟨digits, exponent⟩ := x
  simp only at h
  obtain ⟨k, rfl⟩ : ∃ k : Nat, exponent = -(k : Int) := ⟨(-exponent).toNat, by omega⟩
  have hpow : 2 ^ (digits.log2 + 1 + 1080) ≤ 10 ^ k :=
    calc 2 ^ (digits.log2 + 1 + 1080) ≤ 2 ^ (3 * k) := Nat.pow_le_pow_right (by decide) (by omega)
      _ = 8 ^ k := Nat.pow_mul 2 3 k
      _ ≤ 10 ^ k := Nat.pow_le_pow_left (by decide) k
  have hsteps : digits.log2 + 1 + 1080 = digits.log2 + 1 + (places + 6) := rfl
  have hten : (0 : ℚ) < 10 ^ k := by positivity
  have hunits : 2 * (digits * 2 ^ places) < 10 ^ k := by
    have hdigits : digits < 2 ^ (digits.log2 + 1) := Nat.lt_log2_self
    rw [hsteps, Nat.pow_add, Nat.pow_add _ places] at hpow
    have := Nat.mul_lt_mul_of_pos_right hdigits (Nat.two_pow_pos places)
    rw [← Nat.mul_assoc] at hpow
    omega
  rw [value, zpow_neg, zpow_natCast, ← div_eq_mul_inv, unitsInOne_eq, div_mul_eq_mul_div,
    ← mul_div_assoc, div_lt_one hten]
  exact_mod_cast hunits

/-- The short cut for large decimals is taken above the doubles. -/
theorem overflow_le_of_large {x : Decimal} (hzero : x.digits ≠ 0) (h : 309 < x.exponent) :
    overflow ≤ x.value := by
  have hten : 2 ^ 1024 ≤ 10 ^ 310 := by decide +kernel
  have hdigits : (1 : ℚ) ≤ x.digits := by exact_mod_cast Nat.one_le_iff_ne_zero.mpr hzero
  calc overflow ≤ (2 : ℚ) ^ 1024 := sub_le_self _ (pow_nonneg zero_le_two _)
    _ ≤ (10 : ℚ) ^ 310 := by exact_mod_cast hten
    _ = 10 ^ (310 : Int) := rfl
    _ ≤ 10 ^ x.exponent := zpow_le_zpow_right₀ (by norm_num) h
    _ ≤ x.value := le_mul_of_one_le_left (zpow_nonneg (by norm_num) _) hdigits

/-- **A decimal rounds to the nearest double.** -/
theorem toDouble?_eq_some {negative : Bool} {x : Decimal} {d : Double}
    (h : x.toDouble? negative = some d) :
    x.value < overflow ∧ d.IsNearest (signed negative x.value) := by
  have hden : 0 < Nat.pow 10 (-x.exponent).toNat := Nat.pow_pos (by decide)
  have hsmall : 2 * (x.value * unitsInOne) < 1 → d = zero negative →
      x.value < overflow ∧ d.IsNearest (signed negative x.value) := by
    rintro hlow rfl
    exact ⟨lt_overflow_of_small hlow, (wins_zero negative x.value_nonneg hlow).isNearest⟩
  rw [toDouble?] at h
  split at h
  · rename_i hzero
    refine hsmall ?_ (Option.some.inj h).symm
    rw [value, hzero]
    norm_num
  split at h
  · exact absurd h (by simp)
  split at h
  · rename_i hlow
    exact hsmall (units_lt_one_of_small hlow) (Option.some.inj h).symm
  · rw [value_eq_div]
    obtain ⟨hlt, hwins⟩ := ofRatio?_eq_some hden h
    exact ⟨hlt, hwins.isNearest⟩

/-- **A decimal that no double is nearest to is too large.** -/
theorem toDouble?_eq_none {negative : Bool} {x : Decimal} (h : x.toDouble? negative = none) :
    overflow ≤ x.value := by
  have hden : 0 < Nat.pow 10 (-x.exponent).toNat := Nat.pow_pos (by decide)
  rw [toDouble?] at h
  split at h
  · exact absurd h (by simp)
  rename_i hzero
  split at h
  · rename_i hhigh
    exact overflow_le_of_large hzero hhigh
  split at h
  · exact absurd h (by simp)
  · rw [value_eq_div]
    exact ofRatio?_eq_none hden h

end Decimal

end SongLibrary
