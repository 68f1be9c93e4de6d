import SongLibrary.Number.Style

/-!
# What digits write

A list of digits writes a number, and `digitsOf` gives the digits of a number. The first reads the
second back (`valueOf_digitsOf`), and the value of joined lists is that of the parts, each in its
place (`valueOf_append`). The digits of a positive number do not start with a zero, which is what
the grammar of JSON asks of them. Where zeros may stand in front, any digits at all write a number,
and they are its digits behind those zeros (`Text.natOfDigits?_eq_some_iff`).
-/

namespace SongLibrary

/-- Every character is an ASCII digit. -/
def AreDigits (cs : List Char) : Prop := ∀ c ∈ cs, c.isDigit = true

namespace AreDigits

theorem append {as bs : List Char} (ha : AreDigits as) (hb : AreDigits bs) :
    AreDigits (as ++ bs) := by
  intro c hc
  rcases List.mem_append.mp hc with h | h
  · exact ha c h
  · exact hb c h

theorem replicate (n : Nat) : AreDigits (List.replicate n '0') := by
  intro c hc
  rw [List.eq_of_mem_replicate hc]
  rfl

theorem tail {c : Char} {cs : List Char} (h : AreDigits (c :: cs)) : AreDigits cs :=
  fun d hd => h d (List.mem_cons_of_mem _ hd)

theorem take {cs : List Char} (h : AreDigits cs) (n : Nat) : AreDigits (cs.take n) :=
  fun c hc => h c (List.mem_of_mem_take hc)

theorem drop {cs : List Char} (h : AreDigits cs) (n : Nat) : AreDigits (cs.drop n) :=
  fun c hc => h c (List.mem_of_mem_drop hc)

theorem takeWhile {cs rest : List Char} (h : AreDigits cs)
    (hrest : ∀ c, rest.head? = some c → c.isDigit = false) :
    (cs ++ rest).takeWhile Char.isDigit = cs := by
  rw [List.takeWhile_append_of_pos h]
  cases rest with
  | nil => simp
  | cons c rest => simp [hrest c rfl]

theorem dropWhile {cs rest : List Char} (h : AreDigits cs)
    (hrest : ∀ c, rest.head? = some c → c.isDigit = false) :
    (cs ++ rest).dropWhile Char.isDigit = rest := by
  rw [List.dropWhile_append_of_pos h]
  cases rest with
  | nil => rfl
  | cons c rest => rw [List.dropWhile_cons, if_neg (by simp [hrest c rfl])]

end AreDigits

/-! ## Values -/

namespace Text

theorem digitValue?_of_isDigit {c : Char} (h : c.isDigit = true) :
    digitValue? c = some (c.toNat - '0'.toNat) := by
  rw [digitValue?, if_pos h]

theorem natOfDigitsFrom?_append {as : List Char} (ha : AreDigits as) (bs : List Char) (acc : Nat) :
    natOfDigitsFrom? acc (as ++ bs) = (natOfDigitsFrom? acc as).bind (natOfDigitsFrom? · bs) := by
  induction as generalizing acc with
  | nil => rfl
  | cons c cs ih =>
      have hc := digitValue?_of_isDigit (ha c (by simp))
      simp only [List.cons_append, natOfDigitsFrom?, hc, Option.bind_eq_bind, Option.bind_some]
      exact ih ha.tail _

/-- Digits write a number on top of whatever stands before them. -/
theorem natOfDigitsFrom?_eq {cs : List Char} (h : AreDigits cs) (acc : Nat) :
    natOfDigitsFrom? acc cs = some (acc * Nat.pow 10 cs.length + Numeral.valueOf cs) := by
  have key : ∀ {cs : List Char}, AreDigits cs → ∃ v, ∀ acc : Nat,
      natOfDigitsFrom? acc cs = some (acc * Nat.pow 10 cs.length + v) := by
    intro cs
    induction cs with
    | nil => exact fun _ => ⟨0, fun acc => by simp [natOfDigitsFrom?]⟩
    | cons c cs ih =>
        intro h
        obtain ⟨v, hv⟩ := ih h.tail
        have hc := digitValue?_of_isDigit (h c (by simp))
        refine ⟨(c.toNat - '0'.toNat) * Nat.pow 10 cs.length + v, fun acc => ?_⟩
        simp only [natOfDigitsFrom?, hc, Option.bind_eq_bind, Option.bind_some, hv,
          List.length_cons, Option.some.injEq]
        rw [Nat.add_mul, Nat.mul_comm 10 acc, Nat.mul_assoc, Nat.mul_comm 10 (Nat.pow _ _),
          Nat.add_assoc]
        rfl
  obtain ⟨v, hv⟩ := key h
  have hzero := hv 0
  rw [Nat.zero_mul, Nat.zero_add] at hzero
  rw [hv acc, Numeral.valueOf, hzero, Option.getD_some]

end Text

namespace Numeral

theorem valueOf_append {as bs : List Char} (ha : AreDigits as) (hb : AreDigits bs) :
    valueOf (as ++ bs) = valueOf as * Nat.pow 10 bs.length + valueOf bs := by
  have hboth := Text.natOfDigitsFrom?_append ha bs 0
  rw [Text.natOfDigitsFrom?_eq (ha.append hb), Text.natOfDigitsFrom?_eq ha, Option.bind_some,
    Text.natOfDigitsFrom?_eq hb, Nat.zero_mul, Nat.zero_mul, Nat.zero_add, Nat.zero_add] at hboth
  exact Option.some.inj hboth

theorem valueOf_replicate (n : Nat) : valueOf (List.replicate n '0') = 0 := by
  induction n with
  | zero => rfl
  | succ n ih =>
      have hone : AreDigits ['0'] := AreDigits.replicate 1
      have := valueOf_append hone (AreDigits.replicate n)
      rw [ih] at this
      simpa [List.replicate_succ, valueOf, Text.natOfDigitsFrom?, Text.digitValue?] using this

end Numeral

/-! ## The digits of a number -/

theorem areDigits_digitsOf (n : Nat) : AreDigits (digitsOf n) :=
  fun _ hc => Nat.isDigit_of_mem_toDigits (by decide) (by decide) hc

theorem digitsOf_ne_nil (n : Nat) : digitsOf n ≠ [] := Nat.toDigits_ne_nil

theorem valueOf_digitChar {n : Nat} (h : n < 10) : Numeral.valueOf [Nat.digitChar n] = n := by
  have hall : ∀ n, n < 10 → Numeral.valueOf [Nat.digitChar n] = n := by decide
  exact hall n h

/-- The digits of a number write that number. -/
theorem valueOf_digitsOf (n : Nat) : Numeral.valueOf (digitsOf n) = n := by
  induction n using Nat.strongRecOn with
  | ind n ih =>
    rw [digitsOf, Nat.toDigits_eq_if (by decide)]
    split
    · exact valueOf_digitChar (by assumption)
    · -- the last digit stands behind those of the tenth part
      have hlast : Nat.digitChar (n % 10) ∈ Nat.toDigits 10 (n % 10) := by
        rw [Nat.toDigits_of_lt_base (Nat.mod_lt n (by decide))]; simp
      have hdigit : AreDigits [Nat.digitChar (n % 10)] := by
        intro c hc
        rw [List.mem_singleton.mp hc]
        exact areDigits_digitsOf _ _ hlast
      show Numeral.valueOf (digitsOf (n / 10) ++ [Nat.digitChar (n % 10)]) = n
      rw [Numeral.valueOf_append (areDigits_digitsOf (n / 10)) hdigit,
        valueOf_digitChar (Nat.mod_lt n (by decide)), ih (n / 10) (by omega)]
      show n / 10 * 10 + n % 10 = n
      omega

/-- The digits of a positive number do not start with a zero. -/
theorem head?_digitsOf {n : Nat} (h : 0 < n) : (digitsOf n).head? ≠ some '0' := by
  induction n using Nat.strongRecOn with
  | ind n ih =>
    rw [digitsOf, Nat.toDigits_eq_if (by decide)]
    split
    · rename_i hlt
      have hall : ∀ n, n < 10 → 0 < n → [Nat.digitChar n].head? ≠ some '0' := by decide
      exact hall n hlt h
    · have hhead := ih (n / 10) (by omega) (by omega)
      rw [digitsOf] at hhead
      cases hdigits : Nat.toDigits 10 (n / 10) with
      | nil => exact absurd hdigits Nat.toDigits_ne_nil
      | cons c cs => rwa [hdigits] at hhead

/-! ## Zeros in front -/

/-- The digits of a number with zeros in front. -/
def paddedDigits (zeros n : Nat) : List Char := List.replicate zeros '0' ++ digitsOf n

theorem areDigits_paddedDigits (zeros n : Nat) : AreDigits (paddedDigits zeros n) :=
  (AreDigits.replicate zeros).append (areDigits_digitsOf n)

theorem paddedDigits_ne_nil (zeros n : Nat) : paddedDigits zeros n ≠ [] :=
  List.append_ne_nil_of_right_ne_nil _ (digitsOf_ne_nil n)

theorem valueOf_paddedDigits (zeros n : Nat) : Numeral.valueOf (paddedDigits zeros n) = n := by
  rw [paddedDigits, Numeral.valueOf_append (AreDigits.replicate zeros) (areDigits_digitsOf n),
    Numeral.valueOf_replicate, valueOf_digitsOf, Nat.zero_mul, Nat.zero_add]

namespace Text

theorem natOfDigits?_of_areDigits {cs : List Char} (h : AreDigits cs) (hne : cs ≠ []) :
    natOfDigits? cs = some (Numeral.valueOf cs) := by
  cases cs with
  | nil => exact absurd rfl hne
  | cons c cs =>
      show natOfDigitsFrom? 0 (c :: cs) = _
      rw [natOfDigitsFrom?_eq h, Nat.zero_mul, Nat.zero_add]

/-- A digit is the one digit of its value. -/
theorem digitsOf_of_digitValue? {c : Char} {v : Nat} (h : digitValue? c = some v) :
    v < 10 ∧ digitsOf v = [c] := by
  rw [digitValue?] at h
  split at h
  · rename_i hdigit
    obtain ⟨hlow, hhigh⟩ := Char.isDigit_iff_toNat.mp hdigit
    have hzero : '0'.toNat = 48 := rfl
    have hnine : '9'.toNat = 57 := rfl
    have hv : c.toNat - '0'.toNat = v := Option.some.inj h
    have hlt : v < 10 := by omega
    have hchar : Nat.digitChar v = c := by
      refine Char.toNat_inj.mp ?_
      rw [Nat.toNat_digitChar_of_lt_ten hlt]
      omega
    exact ⟨hlt, by rw [digitsOf, Nat.toDigits_of_lt_base hlt, hchar]⟩
  · exact absurd h (by simp)

/-- Digits that are read on top of a positive number stand behind its digits. -/
theorem digitsOf_append {acc n : Nat} {cs : List Char} (hacc : 0 < acc)
    (h : natOfDigitsFrom? acc cs = some n) : digitsOf acc ++ cs = digitsOf n := by
  induction cs generalizing acc with
  | nil => rw [List.append_nil, Option.some.inj h]
  | cons c cs ih =>
      obtain ⟨v, hv, hrest⟩ := Option.bind_eq_some_iff.mp h
      obtain ⟨hlt, hone⟩ := digitsOf_of_digitValue? hv
      -- what is read so far is positive, so no digit of it is lost in front
      have hnext : digitsOf acc ++ [c] = digitsOf (10 * acc + v) := by
        rw [← hone]
        exact Nat.toDigits_append_toDigits (by decide) hacc hlt
      rw [← ih (by omega) hrest, ← hnext, List.append_assoc, List.singleton_append]

theorem exists_paddedDigits {n : Nat} {cs : List Char} (hne : cs ≠ [])
    (h : natOfDigitsFrom? 0 cs = some n) : ∃ zeros, cs = paddedDigits zeros n := by
  induction cs with
  | nil => exact absurd rfl hne
  | cons c cs ih =>
      obtain ⟨v, hv, hrest⟩ := Option.bind_eq_some_iff.mp h
      obtain ⟨-, hone⟩ := digitsOf_of_digitValue? hv
      rw [Nat.mul_zero, Nat.zero_add] at hrest
      rcases Nat.eq_zero_or_pos v with rfl | hpos
      · -- a zero in front, or the only digit
        obtain rfl : c = '0' := (List.cons.inj hone).1.symm
        cases cs with
        | nil => exact ⟨0, by rw [← Option.some.inj hrest]; rfl⟩
        | cons d cs =>
            obtain ⟨zeros, hzeros⟩ := ih (List.cons_ne_nil _ _) hrest
            exact ⟨zeros + 1, by rw [hzeros]; rfl⟩
      · refine ⟨0, ?_⟩
        have hdigits := digitsOf_append hpos hrest
        rw [hone] at hdigits
        exact hdigits

/-- **The digits that write a number are its own with zeros in front.** -/
theorem natOfDigits?_eq_some_iff {cs : List Char} {n : Nat} :
    natOfDigits? cs = some n ↔ ∃ zeros, cs = paddedDigits zeros n := by
  constructor
  · intro h
    cases cs with
    | nil => exact absurd h (by simp [natOfDigits?])
    | cons c cs => exact exists_paddedDigits (List.cons_ne_nil _ _) h
  · rintro ⟨zeros, rfl⟩
    rw [natOfDigits?_of_areDigits (areDigits_paddedDigits zeros n) (paddedDigits_ne_nil zeros n),
      valueOf_paddedDigits]

/-- The ASCII digits are among the decimal digits. -/
theorem isDecimalDigit_of_isDigit {c : Char} (h : c.isDigit = true) : isDecimalDigit c = true := by
  obtain ⟨hlow, hhigh⟩ := Char.isDigit_iff_toNat.mp h
  have hfirst : ¬c.toNat < 0x30 := Nat.not_lt.mpr hlow
  have hlast : c.toNat ≤ 0x39 := hhigh
  rw [isDecimalDigit, decimalDigitTable, inRanges, if_neg hfirst, decide_eq_true hlast,
    Bool.true_or]

end Text

end SongLibrary
