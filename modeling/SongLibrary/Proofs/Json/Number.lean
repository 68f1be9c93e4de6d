import SongLibrary.Json.Printer
import SongLibrary.Proofs.Number.Numeral

/-!
# JSON numbers read back

A number that is written is read as the same number: an integer because its numeral has neither
point nor exponent, and a double because its decimal is one that reads back (`toDouble?_shortest`)
and its layout always has a point or an exponent.
-/

namespace SongLibrary.Json

theorem Number.wellFormed_of_written {n : Numeral} (h : n.Written) : wellFormed n = true := by
  have hsign : n.sign ≠ some '+' := by
    rcases h.sign with hs | hs <;> rw [hs] <;> decide
  have hfraction : n.fraction.all (fun digits => !digits.isEmpty) = true := by
    cases hf : n.fraction with
    | none => rfl
    | some ds => simpa using (h.fraction ds hf).2
  have hexponent : n.exponentComplete = true := by
    rw [Numeral.exponentComplete]
    cases he : n.exponent with
    | none => rfl
    | some e => simpa using (h.exponent e.1 e.2 he).2.1
  have hwhole : n.whole.isEmpty = false := by simpa using h.whole_ne_nil
  simp only [wellFormed, hwhole, hfraction, hexponent]
  simpa [hsign] using h.front

theorem Number.ofNumeral?_intNumeral (n : Int) (h : Fits n) :
    ofNumeral? (intNumeral n) = some (.int n h) := by
  have hnegative : (intNumeral n).negative = decide (n < 0) := by
    unfold intNumeral Numeral.negative
    split
    · rename_i hn; simp [hn]
    · rename_i hn; simp [hn]
  have hvalue : Numeral.valueOf (intNumeral n).whole = n.natAbs := valueOf_digitsOf _
  unfold ofNumeral?
  simp only [hnegative, hvalue, decide_eq_true_eq]
  have hplain : (intNumeral n).fraction.isNone = true ∧ (intNumeral n).exponent.isNone = true
      ∧ ¬(n < 0 ∧ n.natAbs = 0) := ⟨rfl, rfl, by omega⟩
  have hint : (if n < 0 then -((n.natAbs : Nat) : Int) else ((n.natAbs : Nat) : Int)) = n := by
    split <;> omega
  rw [if_pos hplain]
  simp only [hint, dif_pos h]

/-- The decimal that is written for a double has an exponent only if it has digits. -/
theorem shortest_zero {tie : Tie} {d : Double} (h : (d.shortest tie).digits = 0) :
    (d.shortest tie).exponent = 0 := by
  have hreads := Double.toDouble?_shortest tie d
  rw [Decimal.toDouble?, if_pos h] at hreads
  have hzero : d.mantissa = 0 := by
    rw [← Option.some.inj hreads]; rfl
  rw [Double.shortest, if_pos hzero]

theorem exists_laysOut (negative : Bool) (x : Decimal) (hx : x.digits = 0 → x.exponent = 0) :
    ∃ n : Numeral, n.LaysOut negative x (x.layOut numberStyle) := by
  have hlayOut : x.layOut numberStyle =
      if -5 ≤ x.leading ∧ x.leading ≤ 15 then x.positional true else x.scientific := by
    simp [Decimal.layOut, numberStyle]
  rw [hlayOut]
  split
  · rename_i hplaces
    have hleading := hplaces.2
    have hlen : 0 < (digitsOf x.digits).length :=
      List.length_pos_iff.mpr (digitsOf_ne_nil _)
    obtain ⟨m, e⟩ := x
    rcases Int.lt_or_le e 0 with hneg | hpos
    · obtain ⟨places, rfl⟩ : ∃ places : Nat, e = -(places : Int) := ⟨e.natAbs, by omega⟩
      -- a zero has no exponent, so there are digits to be put behind the point
      have hm : 0 < m := by
        rcases Nat.eq_zero_or_pos m with hm | hm
        · have := hx hm
          simp only at this
          omega
        · exact hm
      exact Decimal.laysOut_places negative hm (by omega)
    · obtain ⟨e, rfl⟩ := Int.eq_ofNat_of_zero_le hpos
      simp only [Decimal.leading] at hleading hlen
      have hzero : m = 0 → e = 0 := fun hm => Int.ofNat.inj (hx hm)
      exact ⟨_, Decimal.laysOut_whole negative (by omega) hzero⟩
  · exact Decimal.laysOut_scientific negative x

/-- **A number that is written is read back.** -/
theorem Number.exists_numeral (n : Number) :
    ∃ numeral : Numeral, numeral.Written ∧ numeral.write = n.write
      ∧ ofNumeral? numeral = some n := by
  cases n with
  | int value fits =>
      exact ⟨intNumeral value, written_intNumeral value, write_intNumeral value,
        ofNumeral?_intNumeral value fits⟩
  | float d =>
      obtain ⟨n, hn⟩ := exists_laysOut d.negative (d.shortest numberStyle.tie) shortest_zero
      refine ⟨n, hn.written, ?_, ?_⟩
      · rw [hn.write_eq, write, Double.write, signOf]
        split <;> rfl
      · have hreads := hn.value.trans (Double.toDouble?_shortest numberStyle.tie d)
        -- a point or an exponent tells a double from an integer
        have hfloat : ¬(n.fraction.isNone = true ∧ n.exponent.isNone = true
            ∧ ¬(n.negative = true ∧ Numeral.valueOf n.whole = 0)) := by
          rintro ⟨hf, he, -⟩
          rcases hn.not_integer with h | h
          · rw [h] at hf; exact Bool.noConfusion hf
          · rw [h] at he; exact Bool.noConfusion he
        unfold ofNumeral?
        simp only
        rw [if_neg hfloat, hn.negative_eq, hreads]
        rfl

end SongLibrary.Json
