import SongLibrary.Number.Decimal

/-!
# The shortest decimal of a double

A double is written with the fewest digits that read back as the same double, and of those the
decimal nearest to it. For each number of digits only the two neighbours of the double on the grid
of such decimals can read back, so both are tried, from one digit up to seventeen. Before all, the
power of ten above the double is tried, which has a single digit but one more place.

The exact decimal stands behind the search, so `toDouble?_shortest` needs no argument about how
many digits suffice.
-/

namespace SongLibrary

/-- Which of two decimals is taken when a double lies halfway between them. -/
inductive Tie where
  /-- The one whose last digit is even. -/
  | even
  /-- The larger one. -/
  | up
  deriving DecidableEq

/-- The exponent of the first digit of `num / den`, both positive. -/
def leadingExponent (num den : Nat) : Int :=
  if den ≤ num then ((digitsOf (num / den)).length : Int) - 1
  else -((digitsOf ((den - 1) / num)).length : Int)

namespace Double

/-- The decimal of a double's magnitude to the last digit. -/
def exactDecimal (d : Double) : Decimal := ⟨d.magnitude * Nat.pow 5 places, -(places : Int)⟩

/-- Whether a decimal with the sign of `d` reads as `d`. -/
def reads (d : Double) (x : Decimal) : Bool := x.toDouble? d.negative == some d

/-- The decimal on the grid of multiples of `10 ^ exponent` that reads back as `d`, if one of the
two next to `d` does; of two the nearer. -/
def onGrid? (tie : Tie) (d : Double) (exponent : Int) : Option Decimal :=
  let num := d.magnitude * Nat.pow 10 (-exponent).toNat
  let den := unitsInOne * Nat.pow 10 exponent.toNat
  let below : Decimal := ⟨num / den, exponent⟩
  let above : Decimal := ⟨num / den + 1, exponent⟩
  let rest := 2 * (num % den)
  let belowFirst := rest < den ∨ (rest = den ∧ tie = .even ∧ below.digits % 2 = 0)
  (if belowFirst then [below, above] else [above, below]).find? d.reads

/-- The shortest decimal of a double's magnitude. -/
def shortest (tie : Tie) (d : Double) : Decimal :=
  if d.mantissa = 0 then ⟨0, 0⟩
  else
    let leading := leadingExponent d.magnitude unitsInOne
    let onGrid? := fun n : Nat => d.onGrid? tie (leading + 1 - n)
    ((List.range 18).findSome? onGrid?).getD d.exactDecimal

end Double

/-! ## The shortest decimal reads back -/

theorem Decimal.toDouble?_of_bounds {x : Decimal} (negative : Bool) (hzero : x.digits ≠ 0)
    (hlarge : x.exponent ≤ 309) (hsmall : -3 * x.exponent ≤ x.digits.log2 + 1080) :
    x.toDouble? negative =
      Double.ofRatio? negative (x.digits * Nat.pow 10 x.exponent.toNat)
        (Nat.pow 10 (-x.exponent).toNat) := by
  rw [toDouble?, if_neg hzero, if_neg (by omega), if_neg (by omega)]

/-- A quotient by a power of two is a decimal with as many places. -/
theorem Decimal.toDouble?_mul_pow_five {m n : Nat} (negative : Bool) (hm : 0 < m) (hn : n ≤ 1080) :
    (Decimal.mk (m * Nat.pow 5 n) (-(n : Int))).toDouble? negative =
      Double.ofRatio? negative m (1 <<< n) := by
  have hfive : 0 < Nat.pow 5 n := Nat.pow_pos (by decide)
  have hten : Nat.pow 10 n = 1 <<< n * Nat.pow 5 n := by
    rw [Nat.one_shiftLeft]; exact Nat.mul_pow 2 5 n
  have hne : m * Nat.pow 5 n ≠ 0 := Nat.ne_of_gt (Nat.mul_pos hm hfive)
  have hlog : 2 * n ≤ (m * Nat.pow 5 n).log2 := by
    rw [Nat.le_log2 hne, Nat.pow_mul]
    exact Nat.le_trans (Nat.pow_le_pow_left (by decide) n) (Nat.le_mul_of_pos_left _ hm)
  rw [toDouble?_of_bounds negative hne (by simp only; omega) (by simp only; omega)]
  simp only [Int.neg_neg, Int.toNat_natCast, Int.toNat_neg_natCast]
  rw [hten]
  exact (congrArg (Double.ofRatio? negative · _) (Nat.mul_one _)).trans
    (Double.ofRatio?_mul_right hfive negative m (1 <<< n))

namespace Double

theorem toDouble?_exactDecimal {d : Double} (h : d.mantissa ≠ 0) :
    d.exactDecimal.toDouble? d.negative = some d :=
  (Decimal.toDouble?_mul_pow_five d.negative (shiftLeft_pos (Nat.pos_of_ne_zero h) _)
    (by decide)).trans (ofRatio?_magnitude d)

theorem reads_of_onGrid? {tie : Tie} {d : Double} {exponent : Int} {x : Decimal}
    (h : d.onGrid? tie exponent = some x) : x.toDouble? d.negative = some d := by
  unfold onGrid? at h
  have := List.find?_some h
  rw [reads] at this
  exact eq_of_beq this

/-- The decimal chosen for a double reads back as that double. -/
theorem toDouble?_shortest (tie : Tie) (d : Double) :
    (d.shortest tie).toDouble? d.negative = some d := by
  unfold shortest
  split
  · rename_i hzero
    obtain ⟨negative, mantissa, shift, hcanonical⟩ := d
    simp only at hzero
    subst hzero
    obtain ⟨_, _, hfull | hshift⟩ := hcanonical
    · exact absurd hfull (by decide)
    · subst hshift; rfl
  · rename_i hne
    simp only
    generalize hf :
      (fun n : Nat => d.onGrid? tie (leadingExponent d.magnitude unitsInOne + 1 - n)) = g
    cases hfind : (List.range 18).findSome? g with
    | none => rw [Option.getD_none]; exact toDouble?_exactDecimal hne
    | some x =>
        obtain ⟨n, _, hn⟩ := List.exists_of_findSome?_eq_some hfind
        subst hf
        exact reads_of_onGrid? hn

end Double

end SongLibrary
