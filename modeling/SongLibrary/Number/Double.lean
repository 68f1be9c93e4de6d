/-!
# Doubles

A finite double is a sign and a magnitude. The magnitude is counted in units of `2 ^ -1074`, the
least positive double, so it is the natural number `mantissa * 2 ^ shift`, and the conditions on
the two parts give every magnitude just one form.

`ofRatio?` rounds an exact quotient to the nearest double, a half going to the even mantissa. It is
the only way by which a number that is not a double becomes one.
-/

namespace SongLibrary

/-- The quotient `num / den` rounded to the nearest natural number, a half going to the even
neighbour. -/
def roundHalfEven (num den : Nat) : Nat :=
  let floor := num / den
  let rest := num % den
  if 2 * rest < den then floor
  else if den < 2 * rest then floor + 1
  else floor + floor % 2

/-- The least mantissa that uses all of 53 bits. -/
def Double.fullMantissa : Nat := 4503599627370496

/-- The forms that magnitudes have: at most 53 bits, all of them used unless nothing is shifted. -/
def Double.Canonical (mantissa shift : Nat) : Prop :=
  mantissa < 2 * fullMantissa ∧ shift ≤ 2045 ∧ (fullMantissa ≤ mantissa ∨ shift = 0)

instance (mantissa shift : Nat) : Decidable (Double.Canonical mantissa shift) := by
  unfold Double.Canonical; infer_instance

/-- A finite double, `± mantissa * 2 ^ shift` in units of `2 ^ -1074`. -/
structure Double where
  negative : Bool
  mantissa : Nat
  shift : Nat
  canonical : Double.Canonical mantissa shift
  deriving DecidableEq

namespace Double

/-- The binary places of the least positive double. -/
def places : Nat := 1074

/-- How many units of `2 ^ -1074` make one. -/
def unitsInOne : Nat := 1 <<< places

theorem shiftLeft_pos {n : Nat} (h : 0 < n) (places : Nat) : 0 < n <<< places := by
  rw [Nat.shiftLeft_eq]; exact Nat.mul_pos h (Nat.two_pow_pos places)

theorem unitsInOne_pos : 0 < unitsInOne := shiftLeft_pos Nat.one_pos places

/-- Zero with a sign. -/
def zero (negative : Bool) : Double := ⟨negative, 0, 0, by decide⟩

instance : Inhabited Double := ⟨zero false⟩

/-- The magnitude in units of `2 ^ -1074`. -/
def magnitude (d : Double) : Nat := d.mantissa <<< d.shift

/-- The value in units of `2 ^ -1074`. -/
def units (d : Double) : Int := if d.negative then -(d.magnitude : Int) else d.magnitude

/-- The double of a sign, a mantissa of 53 bits or the next one, and a shift; `none` if it is too
large. -/
def ofParts? (negative : Bool) (mantissa shift : Nat) : Option Double :=
  if h : Canonical mantissa shift then some ⟨negative, mantissa, shift, h⟩
  else if h : mantissa = 2 * fullMantissa ∧ shift < 2045 then
    some ⟨negative, fullMantissa, shift + 1, by decide, h.2, .inl (Nat.le_refl _)⟩
  else none

/-- The double nearest to `± num / den`; `none` if it would be too large. -/
def ofRatio? (negative : Bool) (num den : Nat) : Option Double :=
  let scaled := num * unitsInOne
  let shift := (scaled / den).log2 - 52
  ofParts? negative (roundHalfEven scaled (den <<< shift)) shift

/-- The double nearest to an integer of at most 64 bits, zero being positive. -/
def ofInt (n : Int) : Double := (ofRatio? (n < 0) n.natAbs 1).getD (zero false)

/-- The integer that a double equals, if it equals one. -/
def toInt? (d : Double) : Option Int :=
  if d.magnitude % unitsInOne = 0 then
    let whole : Int := (d.magnitude / unitsInOne : Nat)
    some (if d.negative then -whole else whole)
  else none

/-- The order of the values; the two zeros are equal. -/
def order (a b : Double) : Ordering := compare a.units b.units

end Double

/-! ## Rounding an exact double changes nothing -/

theorem roundHalfEven_mul {den : Nat} (h : 0 < den) (n : Nat) :
    roundHalfEven (n * den) den = n := by
  simp [roundHalfEven, Nat.mul_div_cancel n h, h]

theorem roundHalfEven_mul_right {k : Nat} (h : 0 < k) (num den : Nat) :
    roundHalfEven (num * k) (den * k) = roundHalfEven num den := by
  have hlt : ∀ a b : Nat, a * k < b * k ↔ a < b := fun a b => Nat.mul_lt_mul_right h
  simp only [roundHalfEven, Nat.mul_div_mul_right _ _ h, Nat.mul_mod_mul_right, ← Nat.mul_assoc,
    hlt]

namespace Double

theorem ofParts?_self (d : Double) : ofParts? d.negative d.mantissa d.shift = some d := by
  simp [ofParts?, d.canonical]

/-- A quotient may be reduced before it is rounded. -/
theorem ofRatio?_mul_right {k : Nat} (h : 0 < k) (negative : Bool) (num den : Nat) :
    ofRatio? negative (num * k) (den * k) = ofRatio? negative num den := by
  have h1 : num * k * unitsInOne = num * unitsInOne * k := Nat.mul_right_comm ..
  have h2 : ∀ s : Nat, (den * k) <<< s = den <<< s * k := fun s => by
    rw [Nat.shiftLeft_eq, Nat.shiftLeft_eq, Nat.mul_right_comm]
  simp only [ofRatio?, h1, h2, Nat.mul_div_mul_right _ _ h, roundHalfEven_mul_right h]

theorem log2_magnitude (d : Double) : d.magnitude.log2 - 52 = d.shift := by
  obtain ⟨hlt, _, hfull | hzero⟩ := d.canonical
  · have hne : d.mantissa ≠ 0 := fun h => by rw [h] at hfull; exact absurd hfull (by decide)
    have hlog : d.magnitude.log2 = 52 + d.shift := by
      rw [magnitude, Nat.shiftLeft_eq]
      refine (Nat.log2_eq_iff (Nat.mul_ne_zero hne (Nat.ne_of_gt (Nat.two_pow_pos _)))).mpr ⟨?_, ?_⟩
      · rw [Nat.pow_add]; exact Nat.mul_le_mul_right _ hfull
      · rw [Nat.add_right_comm, Nat.pow_add]
        exact Nat.mul_lt_mul_of_pos_right hlt (Nat.two_pow_pos _)
    rw [hlog, Nat.add_sub_cancel_left]
  · rw [magnitude, hzero, Nat.shiftLeft_zero]
    by_cases hne : d.mantissa = 0
    · rw [hne]; decide
    · exact Nat.sub_eq_zero_of_le (Nat.le_of_lt_succ ((Nat.log2_lt hne).mpr hlt))

/-- The exact value of a double rounds to that double. -/
theorem ofRatio?_magnitude (d : Double) :
    ofRatio? d.negative d.magnitude unitsInOne = some d := by
  have hround :
      roundHalfEven (d.magnitude * unitsInOne) (unitsInOne <<< d.shift) = d.mantissa := by
    have hexact : d.magnitude * unitsInOne = d.mantissa * unitsInOne <<< d.shift := by
      rw [magnitude, Nat.shiftLeft_eq, Nat.shiftLeft_eq, Nat.mul_assoc, Nat.mul_comm unitsInOne]
    rw [hexact]
    exact roundHalfEven_mul (shiftLeft_pos unitsInOne_pos _) _
  simp only [ofRatio?, Nat.mul_div_cancel _ unitsInOne_pos, log2_magnitude, hround, ofParts?_self]

end Double

end SongLibrary
