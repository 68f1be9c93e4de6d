import SongLibrary.Proofs.Number.Digits

/-!
# Numerals read back

`Numeral.ofChars?` cuts a text into the parts of a number. `Numeral.write` puts parts together, and
for parts that stand as they should, `Written`, the first undoes the second.

A decimal is laid out with all its places or with an exponent. Either way the text is that of a
numeral whose value is the decimal again. With all places a whole number gets zeros in the place of
its exponent, which is the one case where the digits change but not the double they are read as.
-/

namespace SongLibrary

namespace Numeral

/-- The text of a fraction. -/
def writeFraction : Option (List Char) → List Char
  | none => []
  | some digits => '.' :: digits

/-- The text of an exponent. -/
def writeExponent : Option (Option Char × List Char) → List Char
  | none => []
  | some (sign, digits) => 'e' :: (sign.toList ++ digits)

/-- The text of a numeral. -/
def write (n : Numeral) : List Char :=
  n.sign.toList ++ (n.whole ++ (writeFraction n.fraction ++ writeExponent n.exponent))

/-- The parts of a numeral as numbers are written: digits wherever they are asked for, no needless
zero at the front, no plus sign but that of the exponent. -/
structure Written (n : Numeral) : Prop where
  sign : n.sign = none ∨ n.sign = some '-'
  whole : AreDigits n.whole
  whole_ne_nil : n.whole ≠ []
  front : n.whole.head? ≠ some '0' ∨ n.whole.length = 1
  fraction : ∀ ds, n.fraction = some ds → AreDigits ds ∧ ds ≠ []
  exponent : ∀ s ds, n.exponent = some (s, ds) →
    AreDigits ds ∧ ds ≠ [] ∧ (s = some '+' ∨ s = some '-')

/-- The signs of numerals and of their exponents. -/
def IsSign (sign : Option Char) : Prop := sign = none ∨ sign = some '+' ∨ sign = some '-'

/-- The text of an exponent behind its mark. -/
def markedExponent (mark : Char) : Option (Option Char × List Char) → List Char
  | none => []
  | some (sign, digits) => mark :: (sign.toList ++ digits)

/-- The texts of a numeral. At least one digit stands before or behind the point, and the mark of an
exponent is an `e` of either case, with digits behind it. -/
structure Spells (n : Numeral) (cs : List Char) : Prop where
  sign : IsSign n.sign
  whole : AreDigits n.whole
  fraction : ∀ ds, n.fraction = some ds → AreDigits ds
  digits_ne_nil : n.whole ++ n.fraction.getD [] ≠ []
  exponent : ∀ s ds, n.exponent = some (s, ds) → IsSign s ∧ AreDigits ds ∧ ds ≠ []
  text : ∃ mark, (mark = 'e' ∨ mark = 'E') ∧
    cs = n.sign.toList ++
      (n.whole ++ (writeFraction n.fraction ++ markedExponent mark n.exponent))

/-! ### Reading what is spelled -/

theorem takeSign_append {sign : Option Char} (h : IsSign sign) {rest : List Char}
    (hrest : ∀ c, rest.head? = some c → ¬IsSign (some c)) :
    takeSign (sign.toList ++ rest) = (sign, rest) := by
  rcases h with rfl | rfl | rfl
  · show takeSign rest = (none, rest)
    unfold takeSign
    split
    · exact absurd (.inr (.inl rfl)) (hrest '+' rfl)
    · exact absurd (.inr (.inr rfl)) (hrest '-' rfl)
    · rfl
  · rfl
  · rfl

theorem not_isSign_of_isDigit {c : Char} (h : c.isDigit = true) : ¬IsSign (some c) := by
  rintro (heq | heq | heq)
  · exact absurd heq (by simp)
  · rw [Option.some.inj heq] at h
    exact absurd h (by decide)
  · rw [Option.some.inj heq] at h
    exact absurd h (by decide)

theorem head?_markedExponent {mark : Char} {e : Option (Option Char × List Char)} {c : Char}
    (h : (markedExponent mark e).head? = some c) : c = mark := by
  cases e with
  | none => exact absurd h (by simp [markedExponent])
  | some e => exact (Option.some.inj h).symm

theorem takeFraction_spelled {mark : Char} (hmark : mark = 'e' ∨ mark = 'E')
    {f : Option (List Char)} {e : Option (Option Char × List Char)}
    (h : ∀ ds, f = some ds → AreDigits ds) :
    takeFraction (writeFraction f ++ markedExponent mark e) = (f, markedExponent mark e) := by
  cases f with
  | none => rcases hmark with rfl | rfl <;> cases e <;> rfl
  | some ds =>
      have hds := h ds rfl
      have hrest : ∀ c, (markedExponent mark e).head? = some c → c.isDigit = false := by
        intro c hc
        rw [head?_markedExponent hc]
        rcases hmark with rfl | rfl <;> rfl
      show (some ((ds ++ markedExponent mark e).takeWhile Char.isDigit),
        (ds ++ markedExponent mark e).dropWhile Char.isDigit) = _
      rw [hds.takeWhile hrest, hds.dropWhile hrest]

theorem readExponent?_spelled {mark : Char} (hmark : mark = 'e' ∨ mark = 'E')
    {e : Option (Option Char × List Char)}
    (h : ∀ s ds, e = some (s, ds) → IsSign s ∧ AreDigits ds ∧ ds ≠ []) :
    readExponent? (markedExponent mark e) = some e := by
  cases e with
  | none => rfl
  | some e =>
      obtain ⟨s, ds⟩ := e
      obtain ⟨hs, hds, -⟩ := h s ds rfl
      have hall : ds.all Char.isDigit = true := List.all_eq_true.mpr hds
      have hhead : ∀ c, ds.head? = some c → ¬IsSign (some c) := fun c hc =>
        not_isSign_of_isDigit (hds c (List.mem_of_mem_head? hc))
      rw [markedExponent, readExponent?, takeSign_append hs hhead]
      exact if_pos ⟨hmark, hall⟩

/-- **A text that spells a numeral is read as this numeral.** -/
theorem Spells.ofChars?_eq {n : Numeral} {cs : List Char} (h : Spells n cs) :
    ofChars? cs = some n := by
  obtain ⟨mark, hmark, rfl⟩ := h.text
  -- behind the whole part stands a point, a mark or nothing
  have hrest : ∀ c, (writeFraction n.fraction ++ markedExponent mark n.exponent).head? = some c →
      c.isDigit = false ∧ ¬IsSign (some c) := by
    intro c hc
    cases hf : n.fraction with
    | none =>
        rw [hf] at hc
        rw [head?_markedExponent hc]
        rcases hmark with rfl | rfl <;> exact ⟨rfl, by simp [IsSign]⟩
    | some ds =>
        rw [hf] at hc
        obtain rfl : '.' = c := Option.some.inj hc
        exact ⟨rfl, by simp [IsSign]⟩
  have hsign : ∀ c, (n.whole ++ (writeFraction n.fraction ++
      markedExponent mark n.exponent)).head? = some c → ¬IsSign (some c) := by
    intro c hc
    cases hw : n.whole with
    | nil =>
        rw [hw] at hc
        exact (hrest c hc).2
    | cons d ds =>
        rw [hw] at hc
        obtain rfl : d = c := Option.some.inj hc
        exact not_isSign_of_isDigit (h.whole d (by rw [hw]; exact List.mem_cons_self))
  have hdigit := fun c hc => (hrest c hc).1
  unfold ofChars?
  rw [takeSign_append h.sign hsign]
  simp only [h.whole.dropWhile hdigit, h.whole.takeWhile hdigit,
    takeFraction_spelled hmark h.fraction, readExponent?_spelled hmark h.exponent]
  rfl

/-! ### Spelling what is read -/

theorem takeSign_eq {cs rest : List Char} {sign : Option Char} (h : takeSign cs = (sign, rest)) :
    IsSign sign ∧ cs = sign.toList ++ rest := by
  unfold takeSign at h
  split at h <;> obtain ⟨rfl, rfl⟩ := Prod.mk.inj h
  · exact ⟨.inr (.inl rfl), rfl⟩
  · exact ⟨.inr (.inr rfl), rfl⟩
  · exact ⟨.inl rfl, rfl⟩

theorem areDigits_takeWhile (cs : List Char) : AreDigits (cs.takeWhile Char.isDigit) :=
  List.all_eq_true.mp List.all_takeWhile

theorem takeFraction_eq {cs rest : List Char} {f : Option (List Char)}
    (h : takeFraction cs = (f, rest)) :
    (∀ ds, f = some ds → AreDigits ds) ∧ cs = writeFraction f ++ rest := by
  unfold takeFraction at h
  split at h <;> obtain ⟨rfl, rfl⟩ := Prod.mk.inj h
  · refine ⟨?_, congrArg ('.' :: ·) List.takeWhile_append_dropWhile.symm⟩
    rintro ds ⟨⟩
    exact areDigits_takeWhile _
  · exact ⟨by simp, rfl⟩

theorem readExponent?_eq_some {cs : List Char} {e : Option (Option Char × List Char)}
    (h : readExponent? cs = some e) :
    ∃ mark, (mark = 'e' ∨ mark = 'E') ∧ cs = markedExponent mark e ∧
      ∀ s ds, e = some (s, ds) → IsSign s ∧ AreDigits ds := by
  cases cs with
  | nil =>
      obtain rfl : none = e := Option.some.inj h
      exact ⟨'e', .inl rfl, rfl, by simp⟩
  | cons c rest =>
      rcases htake : takeSign rest with ⟨sign, digits⟩
      obtain ⟨hsign, hrest⟩ := takeSign_eq htake
      simp only [readExponent?, htake] at h
      split at h
      · rename_i hmark
        obtain rfl := Option.some.inj h
        refine ⟨c, hmark.1, congrArg (c :: ·) hrest, ?_⟩
        rintro s ds ⟨⟩
        exact ⟨hsign, List.all_eq_true.mp hmark.2⟩
      · exact absurd h (by simp)

/-- **What is read as a numeral spells it**, if it has the digits that are asked for. -/
theorem spells_of_ofChars? {cs : List Char} {n : Numeral} (h : ofChars? cs = some n)
    (hdigits : n.whole ++ n.fraction.getD [] ≠ []) (hexponent : n.exponentComplete = true) :
    Spells n cs := by
  rcases hsign : takeSign cs with ⟨sign, unsigned⟩
  rcases hfraction : takeFraction (unsigned.dropWhile Char.isDigit) with ⟨fraction, rest⟩
  obtain ⟨hsigned, rfl⟩ := takeSign_eq hsign
  obtain ⟨hplaces, hrest⟩ := takeFraction_eq hfraction
  simp only [ofChars?, hsign, hfraction, Option.bind_eq_bind, Option.bind_eq_some_iff] at h
  obtain ⟨exponent, hread, hn⟩ := h
  obtain rfl := Option.some.inj hn
  obtain ⟨mark, hmark, rfl, hmarked⟩ := readExponent?_eq_some hread
  refine ⟨hsigned, areDigits_takeWhile _, hplaces, hdigits, fun s ds hds => ?_, mark, hmark, ?_⟩
  · obtain rfl : exponent = some (s, ds) := hds
    have hne : ds ≠ [] := by simpa [exponentComplete] using hexponent
    exact ⟨(hmarked s ds rfl).1, (hmarked s ds rfl).2, hne⟩
  · simp only
    rw [← hrest, List.takeWhile_append_dropWhile]

theorem Written.spells {n : Numeral} (h : Written n) : Spells n n.write where
  sign := h.sign.imp_right .inr
  whole := h.whole
  fraction ds hds := (h.fraction ds hds).1
  digits_ne_nil := List.append_ne_nil_of_left_ne_nil h.whole_ne_nil _
  exponent s ds hds :=
    ⟨.inr (h.exponent s ds hds).2.2, (h.exponent s ds hds).1, (h.exponent s ds hds).2.1⟩
  text := by
    refine ⟨'e', .inl rfl, ?_⟩
    cases he : n.exponent <;> simp [write, markedExponent, he, writeExponent]

/-- **A numeral that is written is read back in the same parts.** -/
theorem ofChars?_write {n : Numeral} (h : Written n) : ofChars? n.write = some n :=
  h.spells.ofChars?_eq

/-- What spells a numeral has no characters but digits, signs, a point and an `e`. -/
theorem Spells.mem {n : Numeral} {cs : List Char} (h : Spells n cs) {c : Char} (hc : c ∈ cs) :
    c.isDigit = true ∨ c ∈ ['+', '-', '.', 'e', 'E'] := by
  have hsigns : ∀ {sign : Option Char}, IsSign sign → c ∈ sign.toList →
      c ∈ ['+', '-', '.', 'e', 'E'] := by
    rintro sign (rfl | rfl | rfl) hc
    · exact absurd hc List.not_mem_nil
    · simp [List.mem_singleton.mp hc]
    · simp [List.mem_singleton.mp hc]
  obtain ⟨mark, hmark, rfl⟩ := h.text
  simp only [List.mem_append] at hc
  rcases hc with hc | hc | hc | hc
  · exact .inr (hsigns h.sign hc)
  · exact .inl (h.whole c hc)
  · cases hf : n.fraction with
    | none => simp [hf, writeFraction] at hc
    | some ds =>
        rw [hf, writeFraction] at hc
        rcases List.mem_cons.mp hc with rfl | hc
        · simp
        · exact .inl (h.fraction ds hf c hc)
  · cases he : n.exponent with
    | none => simp [he, markedExponent] at hc
    | some e =>
        obtain ⟨s, ds⟩ := e
        obtain ⟨hs, hds, -⟩ := h.exponent s ds he
        rw [he, markedExponent] at hc
        rcases List.mem_cons.mp hc with rfl | hc
        · rcases hmark with rfl | rfl <;> simp
        rcases List.mem_append.mp hc with hc | hc
        · exact .inr (hsigns hs hc)
        · exact .inl (hds c hc)

/-- A numeral that is written starts with a digit or a minus sign. -/
theorem head_write {n : Numeral} (h : Written n) :
    ∃ c cs, n.write = c :: cs ∧ (c.isDigit = true ∨ c = '-') := by
  rcases h.sign with hs | hs
  · cases hw : n.whole with
    | nil => exact absurd hw h.whole_ne_nil
    | cons c cs =>
        refine ⟨c, _, by rw [write, hs, hw]; rfl, Or.inl (h.whole c ?_)⟩
        rw [hw]; simp
  · exact ⟨'-', _, by rw [write, hs]; rfl, Or.inr rfl⟩

end Numeral

/-! ## Integers -/

/-- The numeral of an integer. -/
def intNumeral (n : Int) : Numeral :=
  ⟨if n < 0 then some '-' else none, digitsOf n.natAbs, none, none⟩

theorem length_digitsOf_zero : (digitsOf 0).length = 1 := rfl

theorem front_digitsOf (n : Nat) : (digitsOf n).head? ≠ some '0' ∨ (digitsOf n).length = 1 := by
  rcases Nat.eq_zero_or_pos n with rfl | hpos
  · exact Or.inr rfl
  · exact Or.inl (head?_digitsOf hpos)

theorem written_intNumeral (n : Int) : (intNumeral n).Written := by
  refine ⟨?_, areDigits_digitsOf _, digitsOf_ne_nil _, front_digitsOf _, ?_, ?_⟩
  · unfold intNumeral
    split
    · exact Or.inr rfl
    · exact Or.inl rfl
  · intro ds h; exact absurd h (by simp [intNumeral])
  · intro s ds h; exact absurd h (by simp [intNumeral])

theorem write_intNumeral (n : Int) : (intNumeral n).write = writeInt n := by
  unfold intNumeral writeInt
  split <;> simp [Numeral.write, Numeral.writeFraction, Numeral.writeExponent]

/-! ## Decimals -/

/-- The sign of a number that is written. -/
def signOf (negative : Bool) : Option Char := if negative then some '-' else none

theorem signOf_cases (negative : Bool) : signOf negative = none ∨ signOf negative = some '-' := by
  cases negative
  · exact Or.inl rfl
  · exact Or.inr rfl

theorem negative_signOf (negative : Bool) (whole : List Char) (fraction : Option (List Char))
    (exponent : Option (Option Char × List Char)) :
    Numeral.negative ⟨signOf negative, whole, fraction, exponent⟩ = negative := by
  cases negative <;> rfl

/-- A numeral that is read as a decimal with a sign: its text is that of the unsigned layout behind
the sign, it has a point or an exponent, and its value makes the same double. -/
structure Numeral.LaysOut (n : Numeral) (negative : Bool) (x : Decimal) (text : List Char) :
    Prop where
  written : n.Written
  negative_eq : n.negative = negative
  write_eq : n.write = (signOf negative).toList ++ text
  not_integer : n.fraction.isNone = false ∨ n.exponent.isNone = false
  value : n.toDecimal.toDouble? negative = x.toDouble? negative

/-- A double stays the same when zeros take the place of an exponent. -/
theorem Decimal.toDouble?_zeros {m e : Nat} (negative : Bool) (he : e ≤ 309) :
    (Decimal.mk (m * Nat.pow 10 (e + 1)) (-1)).toDouble? negative =
      (Decimal.mk m e).toDouble? negative := by
  rcases Nat.eq_zero_or_pos m with rfl | hm
  · simp [toDouble?]
  · have hten : 0 < Nat.pow 10 (e + 1) := Nat.pow_pos (by decide)
    have hne : m * Nat.pow 10 (e + 1) ≠ 0 := Nat.ne_of_gt (Nat.mul_pos hm hten)
    rw [toDouble?_of_bounds negative hne (by simp only; omega) (by simp only; omega),
      toDouble?_of_bounds negative (Nat.ne_of_gt hm) (by simp only; omega) (by simp only; omega)]
    have hscale := Double.ofRatio?_mul_right (k := 10) (by decide) negative (m * Nat.pow 10 e) 1
    have hstep : Nat.pow 10 e * 10 = Nat.pow 10 (e + 1) := rfl
    rw [Nat.mul_assoc, hstep] at hscale
    simpa using hscale

namespace Decimal

/-- A whole number with all its places. -/
theorem laysOut_whole {m e : Nat} (negative : Bool) (he : e ≤ 309) (hzero : m = 0 → e = 0) :
    (Numeral.mk (signOf negative) (digitsOf m ++ List.replicate e '0') (some ['0'])
      none).LaysOut negative ⟨m, e⟩ ((Decimal.mk m e).positional true) := by
  have hdigits := (areDigits_digitsOf m).append (AreDigits.replicate e)
  have hone : AreDigits ['0'] := AreDigits.replicate 1
  refine ⟨⟨signOf_cases negative, hdigits, ?_, ?_, ?_, ?_⟩, negative_signOf _ _ _ _, ?_,
    Or.inl rfl, ?_⟩
  · simp [digitsOf_ne_nil]
  · rcases Nat.eq_zero_or_pos m with rfl | hpos
    · right; simp [hzero rfl, length_digitsOf_zero]
    · left
      rw [List.head?_append]
      cases hd : (digitsOf m).head? with
      | none => exact absurd (List.head?_eq_none_iff.mp hd) (digitsOf_ne_nil m)
      | some c =>
          have hfront := head?_digitsOf hpos
          rw [hd] at hfront
          exact hfront
  · rintro ds ⟨⟩
    exact ⟨hone, by simp⟩
  · rintro s ds ⟨⟩
  · simp [Numeral.write, Numeral.writeFraction, Numeral.writeExponent, positional]
  · rw [← toDouble?_zeros negative he]
    -- the digits end with the zeros of the exponent and with the one behind the point
    have hvalue : Numeral.valueOf (digitsOf m ++ List.replicate e '0' ++ ['0'])
        = m * Nat.pow 10 (e + 1) := by
      rw [Numeral.valueOf_append hdigits hone,
        Numeral.valueOf_append (areDigits_digitsOf m) (AreDigits.replicate e), valueOf_digitsOf,
        Numeral.valueOf_replicate, List.length_replicate, Nat.add_zero]
      exact Nat.mul_assoc m (Nat.pow 10 e) 10
    show (Decimal.mk (Numeral.valueOf (digitsOf m ++ List.replicate e '0' ++ ['0']))
      _).toDouble? _ = _
    rw [hvalue]
    rfl

/-- A number with places behind the point, all of which are written. -/
theorem laysOut_places {m places : Nat} (negative : Bool) (hm : 0 < m) (hplaces : 0 < places) :
    ∃ n : Numeral, n.LaysOut negative ⟨m, -(places : Int)⟩
      ((Decimal.mk m (-(places : Int))).positional true) := by
  have hneg : ¬(0 : Int) ≤ -(places : Int) := by omega
  generalize hpadded :
    List.replicate (places + 1 - (digitsOf m).length) '0' ++ digitsOf m = padded
  have hlen : padded.length = max (places + 1) (digitsOf m).length := by
    rw [← hpadded, List.length_append, List.length_replicate]
    omega
  have hall : AreDigits padded := by
    rw [← hpadded]
    exact (AreDigits.replicate _).append (areDigits_digitsOf m)
  have hdrop : (padded.drop (padded.length - places)).length = places := by
    rw [List.length_drop]
    omega
  refine ⟨⟨signOf negative, padded.take (padded.length - places),
    some (padded.drop (padded.length - places)), none⟩,
    ⟨signOf_cases negative, hall.take _, ?_, ?_, ?_, ?_⟩, negative_signOf _ _ _ _, ?_,
    Or.inl rfl, ?_⟩
  · refine List.ne_nil_of_length_pos ?_
    rw [List.length_take]
    omega
  · -- zeros are put in front only to reach a single digit before the point
    rcases Nat.lt_or_ge places (digitsOf m).length with hlt | hge
    · left
      have hnone : places + 1 - (digitsOf m).length = 0 := by omega
      rw [hnone, List.replicate_zero, List.nil_append] at hpadded
      rw [List.head?_take, if_neg (by omega), ← hpadded]
      exact head?_digitsOf hm
    · right
      rw [List.length_take]
      omega
  · rintro ds ⟨⟩
    exact ⟨hall.drop _, List.ne_nil_of_length_pos (by omega)⟩
  · rintro s ds ⟨⟩
  · rw [positional, if_neg hneg]
    simp only [Int.neg_neg, Int.toNat_natCast, hpadded, Numeral.write, Numeral.writeFraction,
      Numeral.writeExponent, List.append_nil]
  · show (Decimal.mk (Numeral.valueOf (padded.take _ ++ padded.drop _))
      (0 - ((padded.drop _).length : Int))).toDouble? _ = _
    rw [List.take_append_drop, hdrop, ← hpadded,
      Numeral.valueOf_append (AreDigits.replicate _) (areDigits_digitsOf m),
      Numeral.valueOf_replicate, valueOf_digitsOf, Nat.zero_mul, Nat.zero_add, Int.zero_sub]

/-- A number with an exponent. -/
theorem laysOut_scientific (negative : Bool) (x : Decimal) :
    ∃ n : Numeral, n.LaysOut negative x x.scientific := by
  obtain ⟨m, e⟩ := x
  generalize hl : (Decimal.mk m e).leading = l
  cases hd : digitsOf m with
  | nil => exact absurd hd (digitsOf_ne_nil m)
  | cons d ds =>
      -- one digit stands before the point, and the others, if there are any, behind it
      have hall : AreDigits (d :: ds) := hd ▸ areDigits_digitsOf m
      have hone : AreDigits [d] := fun c hc => hall c (by rw [List.mem_singleton.mp hc]; simp)
      have hle : l - ds.length = e := by
        rw [← hl, leading, hd, List.length_cons]
        push_cast
        omega
      refine ⟨⟨signOf negative, [d], if ds.isEmpty then none else some ds,
        some (some (if l < 0 then '-' else '+'), digitsOf l.natAbs)⟩,
        ⟨signOf_cases negative, hone, by simp, Or.inr rfl, ?_, ?_⟩, negative_signOf _ _ _ _, ?_,
        Or.inr rfl, ?_⟩
      · intro fs hfs
        cases ds with
        | nil => exact absurd hfs (by simp)
        | cons c cs =>
            obtain rfl : c :: cs = fs := Option.some.inj hfs
            exact ⟨hall.tail, by simp⟩
      · rintro s es ⟨⟩
        refine ⟨areDigits_digitsOf _, digitsOf_ne_nil _, ?_⟩
        split
        · exact Or.inr rfl
        · exact Or.inl rfl
      · rw [scientific, hl, hd]
        cases ds with
        | nil => simp [Numeral.write, Numeral.writeFraction, Numeral.writeExponent]
        | cons c cs => simp [Numeral.write, Numeral.writeFraction, Numeral.writeExponent]
      · have hfraction : (if ds.isEmpty then none else some ds).getD [] = ds := by
          cases ds <;> rfl
        have hvalue : Numeral.valueOf ([d] ++ ds) = m := by
          rw [List.singleton_append, ← hd, valueOf_digitsOf]
        simp only [Numeral.toDecimal, Numeral.exponentValue, hfraction, hvalue, valueOf_digitsOf]
        have hsign : (if (some (if l < 0 then '-' else '+') : Option Char) = some '-'
            then -((l.natAbs : Nat) : Int) else ((l.natAbs : Nat) : Int)) = l := by
          by_cases hneg : l < 0
          · rw [if_pos hneg, if_pos rfl]; omega
          · rw [if_neg hneg, if_neg (by decide)]; omega
        rw [hsign, hle]

end Decimal

end SongLibrary
