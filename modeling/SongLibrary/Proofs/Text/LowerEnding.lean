import Mathlib.Data.List.Induction
import SongLibrary.Proofs.Text.Lowercase

/-!
# How a lower-case text ends

Most characters become one character, whatever is around them. So when a lower-case text ends with
such characters, the text it is made of ends with just as many, and each of them is in its place.

A dot has no case, and no letter becomes a dot. Nor does anything become a blank.
-/

namespace SongLibrary.Text

variable {front part back out word : List Char} {b : Bool} {c d : Char}

/-! ## Characters with one form -/

/-- A character has one lower-case form, which is one character. -/
def isSteady (c : Char) : Bool := c != 'Σ' && c != 'İ'

/-- A character is the lower-case form of such characters only. -/
def isForm (d : Char) : Bool := d != 'σ' && d != 'ς' && d != '\u0307'

theorem lowerAt_of_isSteady (h : isSteady c = true) (b : Bool) (rest : List Char) :
    lowerAt b c rest = [lowerChar c] := by
  rw [isSteady, Bool.and_eq_true, bne_iff_ne, bne_iff_ne] at h
  rw [lowerAt, if_neg h.1, if_neg h.2]

theorem lowerFrom_of_isSteady (h : ∀ c ∈ part, isSteady c = true) (b : Bool) :
    lowerFrom b part = part.map lowerChar := by
  induction part generalizing b with
  | nil => rfl
  | cons c rest ih =>
      rw [lowerFrom, lowerAt_of_isSteady (h c List.mem_cons_self),
        ih fun d hd => h d (List.mem_cons_of_mem c hd)]
      rfl

/-- What ends with a form comes from one character. -/
theorem isSteady_of_lowerAt (hd : isForm d = true) (h : out ++ lowerAt b c back = word ++ [d]) :
    isSteady c = true ∧ lowerChar c = d ∧ out = word := by
  simp only [isForm, Bool.and_eq_true, bne_iff_ne] at hd
  obtain ⟨⟨hsigma, hfinal⟩, hdot⟩ := hd
  rw [lowerAt] at h
  split at h
  · split at h
    · exact absurd (List.singleton_inj.mp (List.append_inj' h rfl).2).symm hfinal
    · exact absurd (List.singleton_inj.mp (List.append_inj' h rfl).2).symm hsigma
  rename_i hc
  split at h
  · have hpair : (out ++ ['i']) ++ ['\u0307'] = word ++ [d] := by simpa using h
    exact absurd (List.singleton_inj.mp (List.append_inj' hpair rfl).2).symm hdot
  · rename_i hc'
    obtain ⟨hout, hlast⟩ := List.append_inj' h rfl
    exact ⟨by simp [isSteady, hc, hc'], List.singleton_inj.mp hlast, hout⟩

theorem lowerBetween_concat (b : Bool) (xs : List Char) (c : Char) (back : List Char) :
    lowerBetween b (xs ++ [c]) back =
      lowerBetween b xs (c :: back) ++ lowerAt (xs.foldl casedAfter b) c back := by
  induction xs generalizing b with
  | nil => simp [lowerBetween]
  | cons x rest ih =>
      rw [List.cons_append, lowerBetween, lowerBetween, ih, List.append_assoc, List.append_assoc,
        List.foldl_cons]
      rfl

/-- **An ending made of forms comes from an ending of the text, character by character.** -/
theorem lowerBetween_eq_append (hword : ∀ d ∈ word, isForm d = true)
    (h : lowerBetween b part back = out ++ word) :
    ∃ front last, part = front ++ last ∧ last.map lowerChar = word ∧
      (∀ c ∈ last, isSteady c = true) ∧ lowerBetween b front (last ++ back) = out := by
  induction word using List.reverseRecOn generalizing part back with
  | nil => exact ⟨part, [], by simp, rfl, by simp, by simpa using h⟩
  | append_singleton word d ih =>
      rw [← List.append_assoc] at h
      cases hpart : part.getLast? with
      | none =>
          rw [List.getLast?_eq_none_iff.mp hpart] at h
          exact absurd h.symm (by simp [lowerBetween])
      | some c =>
          obtain ⟨init, rfl⟩ := List.getLast?_eq_some_iff.mp hpart
          rw [lowerBetween_concat] at h
          obtain ⟨hsteady, hc, hinit⟩ := isSteady_of_lowerAt (hword d (by simp)) h
          obtain ⟨front, last, rfl, hlast, hall, hout⟩ :=
            ih (fun d hd => hword d (List.mem_append_left _ hd)) hinit
          refine ⟨front, last ++ [c], by simp, by simp [hlast, hc], fun x hx => ?_, ?_⟩
          · rcases List.mem_append.mp hx with hx | hx
            · exact hall x hx
            · rw [List.mem_singleton.mp hx]
              exact hsteady
          · rw [List.append_assoc]
            exact hout

theorem lowerBetween_eq_nil_iff : lowerBetween b part back = [] ↔ part = [] := by
  cases part with
  | nil => simp [lowerBetween]
  | cons c rest =>
      have hne : lowerAt b c (rest ++ back) ≠ [] := by
        rw [lowerAt]
        repeat' split
        all_goals simp
      simp [lowerBetween, hne]

/-! ## Characters that only they themselves become -/

/-- A code point stays, or one of the runs moves it. -/
theorem shiftBy_cases (n : Nat) (runs : List CapitalRun) : shiftBy n runs = n ∨
    ∃ r ∈ runs, r.first ≤ n ∧ n ≤ r.last ∧ shiftBy n runs = (n + r.shift).toNat := by
  induction runs with
  | nil => exact .inl rfl
  | cons r rest ih =>
      rw [shiftBy]
      split
      · exact .inl rfl
      rename_i hfirst
      split
      · rename_i hrun
        rw [Bool.and_eq_true, decide_eq_true_iff] at hrun
        exact .inr ⟨r, List.mem_cons_self, Nat.not_lt.mp hfirst, hrun.1, rfl⟩
      · rcases ih with hstay | ⟨r', hr', hfound⟩
        · exact .inl hstay
        · exact .inr ⟨r', List.mem_cons_of_mem r hr', hfound⟩

/-- A letter comes from itself, or from the capital that all runs which reach it move to it. -/
theorem lowerChar_cases {capital : Char} (hd : d ≠ '\x00')
    (hruns : ∀ r ∈ capitalRuns, (r.first : Int) ≤ d.toNat - r.shift →
      d.toNat - r.shift ≤ r.last → d.toNat - r.shift = capital.toNat)
    (h : lowerChar c = d) : c = d ∨ c = capital := by
  have hcode : shiftBy c.toNat capitalRuns = d.toNat := by
    rw [lowerChar, Char.ofNat] at h
    by_cases hvalid : (shiftBy c.toNat capitalRuns).isValidChar
    · rw [dif_pos hvalid] at h
      exact congrArg Char.toNat h
    · rw [dif_neg hvalid] at h
      exact absurd h.symm hd
  have hpos : d.toNat ≠ 0 := fun hzero => hd (Char.toNat_inj.mp hzero)
  rw [← Char.toNat_inj, ← Char.toNat_inj]
  rcases shiftBy_cases c.toNat capitalRuns with hstay | ⟨r, hr, hfirst, hlast, hmoved⟩
  · exact Or.inl (hstay.symm.trans hcode)
  · have hcapital := hruns r hr (by omega) (by omega)
    exact Or.inr (by omega)

/-- A character that no run moves a letter to is the form of no other character. -/
theorem eq_of_lowerChar (hd : d ≠ '\x00')
    (hruns : ∀ r ∈ capitalRuns,
      ¬((r.first : Int) ≤ d.toNat - r.shift ∧ d.toNat - r.shift ≤ r.last))
    (h : lowerChar c = d) : c = d :=
  (or_self_iff.mp (lowerChar_cases hd
    (fun r hr hfirst hlast => absurd ⟨hfirst, hlast⟩ (hruns r hr)) h))

/-- **Only a dot becomes a dot.** -/
theorem eq_dot_of_lowerChar (h : lowerChar c = '.') : c = '.' :=
  eq_of_lowerChar (by decide) (by decide +kernel) h

/-- Only a blank becomes a blank. -/
theorem blank_notMem_lowerAt (hc : c ≠ ' ') (b : Bool) (rest : List Char) :
    ' ' ∉ lowerAt b c rest := by
  rw [lowerAt]
  split
  · split <;> decide
  · split
    · decide
    · intro hblank
      exact hc (eq_of_lowerChar (by decide) (by decide +kernel) (List.mem_singleton.mp hblank).symm)

/-- **Lower-casing makes no blanks.** -/
theorem blank_notMem_lowerFrom (h : ' ' ∉ part) (b : Bool) : ' ' ∉ lowerFrom b part := by
  induction part generalizing b with
  | nil => exact List.not_mem_nil
  | cons c rest ih =>
      rw [List.mem_cons, not_or] at h
      rw [lowerFrom, List.mem_append, not_or]
      exact ⟨blank_notMem_lowerAt (Ne.symm h.1) b rest, ih h.2 _⟩

end SongLibrary.Text
