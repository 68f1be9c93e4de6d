import SongLibrary.Proofs.Number.Digits
import SongLibrary.Proofs.Text.Words
import SongLibrary.Song.VersionText
import Mathlib.Data.List.TakeWhile

/-!
# The runs of digits of a version text

What stands before the first digit of a text does not matter, and the first run goes on to where the
digits stop. So the two readers of a version text agree: the number that is read first is the first
of the components.

`Writes` says which texts write a list of components: runs of digits with other text around and
between them, whatever that is. Reading undoes it (`Writes.components_eq`), and every text with a
digit in it writes the components that are read (`writes_components`).
-/

namespace SongLibrary.VersionText

open Text

/-! ## Texts without digits -/

/-- What is passed over before the first digit. -/
abbrev isNoDigit (c : Char) : Bool := !isDecimalDigit c

theorem digitRuns_cons_of_noDigit {c : Char} (h : isNoDigit c = true) (cs : List Char) :
    digitRuns (c :: cs) = digitRuns cs := by
  rw [digitRuns, splitWhere, if_pos h]
  rfl

/-- A text without decimal digits of any script. -/
def DigitFree (cs : List Char) : Prop := ∀ c ∈ cs, isDecimalDigit c = false

namespace DigitFree

variable {cs : List Char}

theorem nil : DigitFree [] := fun _ hc => absurd hc List.not_mem_nil

theorem cons {c : Char} (hc : isDecimalDigit c = false) (h : DigitFree cs) : DigitFree (c :: cs) :=
  List.forall_mem_cons.mpr ⟨hc, h⟩

theorem stops (h : DigitFree cs) : Stops isDecimalDigit cs :=
  fun c hc => h c (List.mem_of_head? hc)

theorem stops_append (h : DigitFree cs) (hne : cs ≠ []) (rest : List Char) :
    Stops isDecimalDigit (cs ++ rest) := by
  cases cs with
  | nil => exact absurd rfl hne
  | cons c cs => exact fun d hd => h.stops d hd

theorem digitRuns_append (h : DigitFree cs) (rest : List Char) :
    digitRuns (cs ++ rest) = digitRuns rest := by
  induction cs with
  | nil => rfl
  | cons c cs ih =>
      have hc : isNoDigit c = true := by rw [isNoDigit, h c List.mem_cons_self]; rfl
      rw [List.cons_append, digitRuns_cons_of_noDigit hc]
      exact ih fun d hd => h d (List.mem_cons_of_mem _ hd)

theorem digitRuns_eq_nil (h : DigitFree cs) : digitRuns cs = [] := by
  rw [← List.append_nil cs, h.digitRuns_append]
  rfl

end DigitFree

/-! ## The first run -/

theorem digitRuns_dropWhile (cs : List Char) :
    digitRuns (cs.dropWhile isNoDigit) = digitRuns cs := by
  have hfree : DigitFree (cs.takeWhile isNoDigit) :=
    fun c hc => by simpa using List.mem_takeWhile_imp hc
  rw [← hfree.digitRuns_append (cs.dropWhile isNoDigit), List.takeWhile_append_dropWhile]

/-- **A run of digits goes on to where the digits stop.** -/
theorem digitRuns_run {run rest : List Char} (hne : run ≠ [])
    (hrun : ∀ c ∈ run, isDecimalDigit c = true) (hrest : Stops isDecimalDigit rest) :
    digitRuns (run ++ rest) = run :: digitRuns rest := by
  have hsplit : splitWhere isNoDigit run = [run] :=
    splitWhere_of_forall fun c hc => by rw [isNoDigit, hrun c hc]; rfl
  have hkept : [run].filter (fun run => !run.isEmpty) = [run] := by simpa using hne
  cases rest with
  | nil =>
      rw [List.append_nil, digitRuns, hsplit, hkept]
      rfl
  | cons c rest =>
      have hc : isNoDigit c = true := by rw [isNoDigit, hrest c rfl]; rfl
      rw [digitRuns_cons_of_noDigit hc, digitRuns, splitWhere_append hc, List.filter_append, hsplit,
        hkept]
      rfl

/-- **The number that is read first is the first component.** -/
theorem components_eq_cons (text : String) :
    ∃ rest, components text = leadingNumber text :: rest := by
  rw [components, leadingNumber, ← digitRuns_dropWhile]
  cases hdigits : text.toList.dropWhile isNoDigit with
  | nil => exact ⟨[], rfl⟩
  | cons c cs =>
      have hc : isDecimalDigit c = true := by
        have hnot := List.head?_dropWhile_not isNoDigit text.toList
        rw [hdigits] at hnot
        simpa using hnot
      have hne : (c :: cs).takeWhile isDecimalDigit ≠ [] := by
        rw [List.takeWhile_cons_of_pos hc]
        exact List.cons_ne_nil _ _
      have hrest : Stops isDecimalDigit ((c :: cs).dropWhile isDecimalDigit) := by
        intro d hd
        have hnot := List.head?_dropWhile_not isDecimalDigit (c :: cs)
        rw [hd] at hnot
        simpa using hnot
      have hruns := digitRuns_run hne (fun d hd => List.mem_takeWhile_imp hd) hrest
      rw [List.takeWhile_append_dropWhile] at hruns
      rw [hruns]
      exact ⟨_, rfl⟩

/-! ## Runs and what they stand for -/

/-- A run of digits stands for a component. -/
inductive StandsFor : List Char → Nat → Prop
  /-- A number of 64 bits, which may have zeros in front. -/
  | number (zeros : Nat) {n : Nat} (h : n < UInt64.size) : StandsFor (paddedDigits zeros n) n
  /-- A number that is too large counts as zero. -/
  | tooLarge (zeros : Nat) {n : Nat} (h : UInt64.size ≤ n) : StandsFor (paddedDigits zeros n) 0
  /-- So does a run with a digit that is not ASCII. -/
  | foreign {run : List Char} {c : Char} (hrun : ∀ d ∈ run, isDecimalDigit d = true)
      (hc : c ∈ run) (h : c.isDigit = false) : StandsFor run 0

namespace StandsFor

variable {run : List Char} {n : Nat}

theorem digits (h : StandsFor run n) : ∀ c ∈ run, isDecimalDigit c = true := by
  cases h with
  | number zeros _ => exact fun c hc => isDecimalDigit_of_isDigit (areDigits_paddedDigits _ _ c hc)
  | tooLarge zeros _ =>
      exact fun c hc => isDecimalDigit_of_isDigit (areDigits_paddedDigits _ _ c hc)
  | foreign hrun _ _ => exact hrun

theorem ne_nil (h : StandsFor run n) : run ≠ [] := by
  cases h with
  | number zeros _ => exact paddedDigits_ne_nil _ _
  | tooLarge zeros _ => exact paddedDigits_ne_nil _ _
  | foreign _ hc _ => exact List.ne_nil_of_mem hc

theorem runValue_eq (h : StandsFor run n) : runValue run = n := by
  cases h with
  | number zeros h =>
      rw [runValue, natOfDigits?_eq_some_iff.mpr ⟨zeros, rfl⟩]
      exact if_pos h
  | tooLarge zeros h =>
      rw [runValue, natOfDigits?_eq_some_iff.mpr ⟨zeros, rfl⟩]
      exact if_neg (Nat.not_lt.mpr h)
  | @foreign _ c _ hc h =>
      cases hread : natOfDigits? run with
      | none => rw [runValue, hread]
      | some n =>
          -- a run that is read as a number has ASCII digits alone
          obtain ⟨zeros, rfl⟩ := natOfDigits?_eq_some_iff.mp hread
          rw [areDigits_paddedDigits zeros n c hc] at h
          exact Bool.noConfusion h

end StandsFor

/-- Every run of digits stands for something. -/
theorem exists_standsFor {run : List Char} (hne : run ≠ [])
    (hrun : ∀ c ∈ run, isDecimalDigit c = true) : ∃ n, StandsFor run n := by
  by_cases hascii : AreDigits run
  · obtain ⟨zeros, hpadded⟩ :=
      natOfDigits?_eq_some_iff.mp (natOfDigits?_of_areDigits hascii hne)
    rw [hpadded]
    rcases Nat.lt_or_ge (Numeral.valueOf run) UInt64.size with hlt | hge
    · exact ⟨_, .number zeros hlt⟩
    · exact ⟨0, .tooLarge zeros hge⟩
  · obtain ⟨c, hc, hforeign⟩ : ∃ c ∈ run, c.isDigit = false := by simpa [AreDigits] using hascii
    exact ⟨0, .foreign hrun hc hforeign⟩

/-- A digit in front of a run is a part of it. -/
theorem StandsFor.cons {c : Char} (hc : isDecimalDigit c = true) {run : List Char} {n : Nat}
    (h : StandsFor run n) : ∃ m, StandsFor (c :: run) m :=
  exists_standsFor (List.cons_ne_nil _ _) (List.forall_mem_cons.mpr ⟨hc, h.digits⟩)

/-! ## Written components -/

/-- A text that starts with a digit writes components: runs of digits that stand for them, each with
other text behind it, so that no two runs touch. -/
inductive WritesFrom : List Char → List Nat → Prop
  | last {run after : List Char} {n : Nat} (hrun : StandsFor run n) (hafter : DigitFree after) :
      WritesFrom (run ++ after) [n]
  | more {run gap rest : List Char} {n : Nat} {ns : List Nat} (hrun : StandsFor run n)
      (hne : gap ≠ []) (hgap : DigitFree gap) (hrest : WritesFrom rest ns) :
      WritesFrom (run ++ (gap ++ rest)) (n :: ns)

/-- A text writes components from its first digit on. -/
def Writes (text : String) (ns : List Nat) : Prop :=
  ∃ before rest, text.toList = before ++ rest ∧ DigitFree before ∧ WritesFrom rest ns

theorem WritesFrom.map_runValue {cs : List Char} {ns : List Nat} (h : WritesFrom cs ns) :
    (digitRuns cs).map runValue = ns := by
  induction h with
  | last hrun hafter =>
      rw [digitRuns_run hrun.ne_nil hrun.digits hafter.stops, hafter.digitRuns_eq_nil,
        List.map_singleton, hrun.runValue_eq]
  | more hrun hne hgap _ ih =>
      -- the gap is not empty, so the run ends there and does not go on into the next one
      rw [digitRuns_run hrun.ne_nil hrun.digits (hgap.stops_append hne _),
        hgap.digitRuns_append, List.map_cons, hrun.runValue_eq, ih]

theorem WritesFrom.ne_nil {cs : List Char} {ns : List Nat} (h : WritesFrom cs ns) : ns ≠ [] := by
  cases h with
  | last _ _ => exact List.cons_ne_nil _ _
  | more _ _ _ _ => exact List.cons_ne_nil _ _

/-- **Reading undoes writing.** -/
theorem Writes.components_eq {text : String} {ns : List Nat} (h : Writes text ns) :
    components text = ns := by
  obtain ⟨before, rest, htext, hbefore, hrest⟩ := h
  rw [components, htext, hbefore.digitRuns_append, hrest.map_runValue]
  cases ns with
  | nil => exact absurd rfl hrest.ne_nil
  | cons n ns => rfl

theorem components_of_digitFree {text : String} (h : DigitFree text.toList) :
    components text = [0] := by
  rw [components, h.digitRuns_eq_nil]
  rfl

/-- A digit that is put in front lengthens the first run. -/
theorem WritesFrom.cons {c : Char} (hc : isDecimalDigit c = true) {cs : List Char} {ns : List Nat}
    (h : WritesFrom cs ns) : ∃ ns', WritesFrom (c :: cs) ns' := by
  cases h with
  | last hrun hafter =>
      obtain ⟨m, hm⟩ := hrun.cons hc
      exact ⟨_, .last hm hafter⟩
  | more hrun hne hgap hrest =>
      obtain ⟨m, hm⟩ := hrun.cons hc
      exact ⟨_, .more hm hne hgap hrest⟩

/-- Every text with a digit writes components from its first digit on. -/
theorem exists_writesFrom (cs : List Char) : DigitFree cs ∨
    ∃ before rest ns, cs = before ++ rest ∧ DigitFree before ∧ WritesFrom rest ns := by
  -- from the end of the text: a character is put in front of what the rest writes
  induction cs with
  | nil => exact .inl .nil
  | cons c cs ih =>
      cases hc : isDecimalDigit c with
      | false =>
          rcases ih with hfree | ⟨before, rest, ns, rfl, hbefore, hrest⟩
          · exact .inl (hfree.cons hc)
          · exact .inr ⟨c :: before, rest, ns, rfl, hbefore.cons hc, hrest⟩
      | true =>
          obtain ⟨n, hn⟩ : ∃ n, StandsFor [c] n :=
            exists_standsFor (List.cons_ne_nil _ _) (by simpa using hc)
          rcases ih with hfree | ⟨before, rest, ns, rfl, hbefore, hrest⟩
          · exact .inr ⟨[], _, [n], rfl, .nil, .last hn hfree⟩
          · -- the digit is a run of its own, unless the next run starts right behind it
            rcases eq_or_ne before [] with rfl | hne
            · obtain ⟨ns', hns'⟩ := hrest.cons hc
              exact .inr ⟨[], _, ns', rfl, .nil, hns'⟩
            · exact .inr ⟨[], _, n :: ns, rfl, .nil, .more hn hne hbefore hrest⟩

/-- Every text with a digit writes the components that are read. -/
theorem writes_components (text : String) : DigitFree text.toList ∨
    Writes text (components text) := by
  rcases exists_writesFrom text.toList with hfree | ⟨before, rest, ns, htext, hbefore, hrest⟩
  · exact .inl hfree
  · have hwrites : Writes text ns := ⟨before, rest, htext, hbefore, hrest⟩
    exact .inr (hwrites.components_eq.symm ▸ hwrites)

/-- **Reading the components is the inverse of writing them.** A text has the components that it
writes, whatever other text stands around and between them and however many zeros in front. A run
that is too large for 64 bits, or has a digit that is not ASCII, counts as zero. Only a text without
digits writes nothing, and it has the component zero alone. So there always is a first component,
and it is the number that is read first. -/
theorem components_written (text : String) :
    (∀ ns, components text = ns ↔ Writes text ns ∨ DigitFree text.toList ∧ ns = [0]) ∧
    components text ≠ [] ∧ (components text).head? = some (leadingNumber text) := by
  obtain ⟨later, hleading⟩ := components_eq_cons text
  refine ⟨fun ns => ⟨?_, ?_⟩, ?_, ?_⟩
  · rintro rfl
    rcases writes_components text with hfree | hwrites
    · exact .inr ⟨hfree, components_of_digitFree hfree⟩
    · exact .inl hwrites
  · rintro (hwrites | ⟨hfree, rfl⟩)
    · exact hwrites.components_eq
    · exact components_of_digitFree hfree
  · rw [hleading]
    exact List.cons_ne_nil _ _
  · rw [hleading]
    rfl

/-- Zeros in front do not count, the largest number of 64 bits does and the next one does not, and
digits of two scripts are one run. -/
theorem components_written_mixed :
    let text := "v02.18446744073709551615-18446744073709551616 rc๓7b"
    Writes text [2, 18446744073709551615, 0, 0] ∧
    components text = [2, 18446744073709551615, 0, 0] ∧ leadingNumber text = 2 := by
  intro text
  have hforeign : WritesFrom (['๓', '7'] ++ ['b']) [0] :=
    .last (.foreign (c := '๓') (List.all_eq_true.mp rfl) (by simp) rfl) (.cons rfl .nil)
  have htooLarge :
      WritesFrom (paddedDigits 0 18446744073709551616 ++ ([' ', 'r', 'c'] ++ _)) [0, 0] :=
    .more (.tooLarge 0 (by decide)) (by simp) (.cons rfl (.cons rfl (.cons rfl .nil))) hforeign
  have hlargest : WritesFrom (paddedDigits 0 18446744073709551615 ++ (['-'] ++ _)) _ :=
    .more (.number 0 (by decide)) (by simp) (.cons rfl .nil) htooLarge
  have hall : WritesFrom (paddedDigits 1 2 ++ (['.'] ++ _)) _ :=
    .more (.number 1 (by decide)) (by simp) (.cons rfl .nil) hlargest
  have hwrites : Writes text [2, 18446744073709551615, 0, 0] :=
    ⟨['v'], _, by decide, .cons rfl .nil, hall⟩
  obtain ⟨hiff, -, hhead⟩ := components_written text
  have hcomponents := (hiff _).mpr (.inl hwrites)
  rw [hcomponents] at hhead
  exact ⟨hwrites, hcomponents, (Option.some.inj hhead).symm⟩

end SongLibrary.VersionText
