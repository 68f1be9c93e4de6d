import SongLibrary.Rule.Template
import SongLibrary.Proofs.Text.Words

/-!
# The grammar of templates

A template is read character by character, with the name of an open placeholder at hand. The grammar
says nothing of reading: a template is made of parts one behind the other, characters other than the
opening brace and names in braces that hold no brace themselves.

Reading finds the parts if there are any. A template that is made of parts and stands in front of
another text does not change how the text is read, and from this it follows that the parts are
unique and that rendering goes part by part.
-/

namespace SongLibrary.Template

/-! ## The grammar -/

/-- How a part is written. -/
def Part.written : Part → List Char
  | .literal c => [c]
  | .field name => '\x7b' :: name ++ ['\x7d']

/-- Whether a part can be written so that it is read as this part. -/
def Part.IsPlain : Part → Prop
  | .literal c => c ≠ '\x7b'
  | .field name => '\x7b' ∉ name ∧ '\x7d' ∉ name

/-- A text is made of some parts. -/
structure MadeOf (cs : List Char) (parts : List Part) : Prop where
  plain : ∀ part ∈ parts, part.IsPlain
  text : parts.flatMap Part.written = cs

/-- A template is made of parts. -/
def WellFormed (template : String) : Prop := ∃ parts, MadeOf template.toList parts

/-- Behind every opening brace there is a closing one, with no other opening brace between them. -/
def BracesClose (cs : List Char) : Prop :=
  ∀ before behind, cs = before ++ '\x7b' :: behind →
    ∃ name rest, behind = name ++ '\x7d' :: rest ∧ '\x7b' ∉ name

variable {cs behind : List Char} {parts : List Part}

theorem madeOf_nil : MadeOf [] [] := ⟨by simp, rfl⟩

theorem MadeOf.cons (h : MadeOf cs parts) (part : Part) (hpart : part.IsPlain) :
    MadeOf (part.written ++ cs) (part :: parts) := by
  refine ⟨fun other hother => ?_, ?_⟩
  · rcases List.mem_cons.mp hother with rfl | hother
    · exact hpart
    · exact h.plain other hother
  · rw [List.flatMap_cons, h.text]

theorem MadeOf.cases_cons {part : Part} (h : MadeOf cs (part :: parts)) :
    ∃ rest, cs = part.written ++ rest ∧ part.IsPlain ∧ MadeOf rest parts :=
  ⟨_, by rw [← h.text, List.flatMap_cons], h.plain part List.mem_cons_self,
    fun other hother => h.plain other (List.mem_cons_of_mem _ hother), rfl⟩

theorem MadeOf.append {parts' : List Part} (h : MadeOf cs parts) (h' : MadeOf behind parts') :
    MadeOf (cs ++ behind) (parts ++ parts') := by
  refine ⟨fun part hpart => ?_, by rw [List.flatMap_append, h.text, h'.text]⟩
  rcases List.mem_append.mp hpart with hpart | hpart
  · exact h.plain part hpart
  · exact h'.plain part hpart

/-! ## Reading finds the parts -/

/-- The rest of a name and its closing brace end a placeholder. -/
theorem partsFrom?_name {name : List Char} (hopen : '\x7b' ∉ name) (hclose : '\x7d' ∉ name)
    (read rest : List Char) :
    partsFrom? (some read) (name ++ '\x7d' :: rest) =
      (partsFrom? none rest).map (.field (read.reverse ++ name) :: ·) := by
  induction name generalizing read with
  | nil => simp [partsFrom?]
  | cons c name ih =>
      rw [List.mem_cons, not_or] at hopen hclose
      rw [List.cons_append, partsFrom?, if_neg (Ne.symm hclose.1), if_neg (Ne.symm hopen.1),
        ih hopen.2 hclose.2]
      simp

/-- **A part in front of a text is read first**, and the text as if it stood alone. -/
theorem partsFrom?_written {part : Part} (hpart : part.IsPlain) (rest : List Char) :
    partsFrom? none (part.written ++ rest) = (partsFrom? none rest).map (part :: ·) := by
  cases part with
  | literal c =>
      rw [Part.written, List.singleton_append, partsFrom?]
      exact if_neg hpart
  | field name =>
      have hread := partsFrom?_name hpart.1 hpart.2 [] rest
      rw [Part.written, List.append_assoc, List.singleton_append, List.cons_append, partsFrom?]
      exact (if_pos rfl).trans hread

theorem partsFrom?_append (h : MadeOf cs parts) (behind : List Char) :
    partsFrom? none (cs ++ behind) = (partsFrom? none behind).map (parts ++ ·) := by
  induction parts generalizing cs with
  | nil =>
      obtain rfl : [] = cs := h.text
      simp
  | cons part parts ih =>
      obtain ⟨rest, rfl, hpart, hrest⟩ := h.cases_cons
      rw [List.append_assoc, partsFrom?_written hpart, ih hrest]
      simp [Function.comp_def]

/-- An open placeholder is read only if its name goes on up to a closing brace. -/
theorem partsFrom?_open {read : List Char} (h : partsFrom? (some read) cs = some parts) :
    ∃ name rest later, cs = name ++ '\x7d' :: rest ∧ ('\x7b' ∉ name ∧ '\x7d' ∉ name) ∧
      parts = .field (read.reverse ++ name) :: later ∧ partsFrom? none rest = some later := by
  induction cs generalizing read with
  | nil => exact absurd h (by simp [partsFrom?])
  | cons c cs ih =>
      rw [partsFrom?] at h
      split at h
      · rename_i hc
        obtain ⟨later, hlater, hparts⟩ := Option.map_eq_some_iff.mp h
        exact ⟨[], cs, later, by rw [hc]; rfl, by simp, by rw [List.append_nil, ← hparts], hlater⟩
      · rename_i hclose
        split at h
        · exact absurd h (by simp)
        · rename_i hopen
          obtain ⟨name, rest, later, rfl, ⟨hname, hname'⟩, rfl, hlater⟩ := ih h
          refine ⟨c :: name, rest, later, rfl, ⟨?_, ?_⟩, by simp, hlater⟩
          · simpa using ⟨Ne.symm hopen, hname⟩
          · simpa using ⟨Ne.symm hclose, hname'⟩

theorem madeOf_of_partsFrom? (h : partsFrom? none cs = some parts) : MadeOf cs parts := by
  -- every part that is read takes a part of the text away, so the induction is on the parts
  induction parts generalizing cs with
  | nil =>
      cases cs with
      | nil => exact madeOf_nil
      | cons c cs =>
          rw [partsFrom?] at h
          split at h
          · obtain ⟨name, rest, later, -, -, hparts, -⟩ := partsFrom?_open h
            exact absurd hparts (by simp)
          · exact absurd h (by simp)
  | cons part parts ih =>
      cases cs with
      | nil => exact absurd h (by simp [partsFrom?])
      | cons c cs =>
          rw [partsFrom?] at h
          split at h
          · rename_i hc
            obtain ⟨name, rest, later, rfl, hname, hparts, hlater⟩ := partsFrom?_open h
            obtain ⟨rfl, rfl⟩ := List.cons.inj hparts
            have hmade := (ih hlater).cons (.field name) hname
            rw [hc]
            simpa [Part.written] using hmade
          · rename_i hc
            obtain ⟨later, hlater, hparts⟩ := Option.map_eq_some_iff.mp h
            obtain ⟨rfl, rfl⟩ := List.cons.inj hparts
            exact (ih hlater).cons (.literal c) hc

/-- **Reading a template gives its parts, if it has any.** -/
theorem parts?_eq_some_iff {template : String} :
    parts? template = some parts ↔ MadeOf template.toList parts := by
  refine ⟨madeOf_of_partsFrom?, fun h => ?_⟩
  have hread := partsFrom?_append h []
  rw [List.append_nil] at hread
  rw [parts?, hread]
  simp [partsFrom?]

theorem parts?_eq_none_iff {template : String} : parts? template = none ↔ ¬WellFormed template := by
  rw [Option.eq_none_iff_forall_ne_some, WellFormed, not_exists]
  exact forall_congr' fun parts => not_congr parts?_eq_some_iff

theorem MadeOf.unique {parts' : List Part} (h : MadeOf cs parts) (h' : MadeOf cs parts') :
    parts = parts' := by
  rw [← String.toList_ofList (l := cs)] at h h'
  exact Option.some.inj ((parts?_eq_some_iff.mpr h).symm.trans (parts?_eq_some_iff.mpr h'))

/-! ## Braces -/

theorem BracesClose.of_append (front : List Char) (h : BracesClose (front ++ cs)) :
    BracesClose cs :=
  fun before behind hbrace => h (front ++ before) behind (by rw [hbrace, List.append_assoc])

/-- A plain part writes an opening brace only where a placeholder begins. -/
theorem Part.IsPlain.open_first {part : Part} (hpart : part.IsPlain) {before more : List Char}
    (h : part.written = before ++ '\x7b' :: more) :
    before = [] ∧ ∃ name, '\x7b' ∉ name ∧ more = name ++ ['\x7d'] := by
  cases part with
  | literal c =>
      have hc : '\x7b' ∈ [c] := by
        rw [written] at h
        rw [h]
        simp
      exact absurd (List.mem_singleton.mp hc).symm hpart
  | field name =>
      cases before with
      | nil => exact ⟨rfl, name, hpart.1, (List.cons.inj h).2.symm⟩
      | cons d before =>
          have htail : name ++ ['\x7d'] = before ++ '\x7b' :: more := (List.cons.inj h).2
          have hname : '\x7b' ∈ name ++ ['\x7d'] := by
            rw [htail]
            simp
          exact absurd hname (by simpa using hpart.1)

theorem bracesClose_of_madeOf (h : MadeOf cs parts) : BracesClose cs := by
  induction parts generalizing cs with
  | nil =>
      obtain rfl : [] = cs := h.text
      exact fun before behind heq => absurd heq (by simp)
  | cons part parts ih =>
      obtain ⟨rest, rfl, hpart, hrest⟩ := h.cases_cons
      intro before behind heq
      rcases List.append_eq_append_iff.mp heq with ⟨more, rfl, hmore⟩ | ⟨more, hwritten, hbehind⟩
      · exact ih hrest more behind hmore
      -- otherwise the brace is written in the first part, which is a placeholder that it opens
      cases more with
      | nil => exact ih hrest [] behind hbehind.symm
      | cons c more =>
          obtain ⟨rfl, rfl⟩ := List.cons.inj hbehind
          obtain ⟨-, name, hname, rfl⟩ := hpart.open_first hwritten
          exact ⟨name, rest, by simp, hname⟩

/-- A name goes up to the first closing brace, which may come before the one that is known. -/
theorem exists_first_close {name rest : List Char} (h : cs = name ++ '\x7d' :: rest)
    (hopen : '\x7b' ∉ name) :
    ∃ first later, cs = first ++ '\x7d' :: later ∧ '\x7b' ∉ first ∧ '\x7d' ∉ first := by
  obtain ⟨first, later, hcs, hclose⟩ := List.eq_append_cons_of_mem
    (show '\x7d' ∈ cs by rw [h]; simp)
  refine ⟨first, later, hcs, fun hmem => ?_, hclose⟩
  rcases List.append_eq_append_iff.mp (hcs.symm.trans h) with ⟨more, rfl, -⟩ | ⟨more, rfl, hmore⟩
  · exact hopen (List.mem_append_left _ hmem)
  · cases more with
    | nil => exact hopen (by simpa using hmem)
    | cons d more =>
        obtain ⟨rfl, -⟩ := List.cons.inj hmore
        exact hclose (by simp)

theorem exists_madeOf_of_bracesClose (h : BracesClose cs) : ∃ parts, MadeOf cs parts := by
  induction hlength : cs.length using Nat.strongRecOn generalizing cs with
  | ind n ih =>
      subst hlength
      cases cs with
      | nil => exact ⟨[], madeOf_nil⟩
      | cons c cs =>
          by_cases hc : c = '\x7b'
          · subst hc
            obtain ⟨name, rest, hname, hopen⟩ := h [] cs rfl
            obtain ⟨first, later, rfl, hfirst⟩ := exists_first_close hname hopen
            have hwritten : '\x7b' :: (first ++ '\x7d' :: later) =
                (Part.field first).written ++ later := by simp [Part.written]
            rw [hwritten] at h ⊢
            obtain ⟨parts, hparts⟩ := ih later.length (by simp; omega) (h.of_append _) rfl
            exact ⟨_, hparts.cons (.field first) hfirst⟩
          · obtain ⟨parts, hparts⟩ := ih cs.length (by simp) (h.of_append [c]) rfl
            exact ⟨_, hparts.cons (.literal c) hc⟩

theorem wellFormed_iff_bracesClose {template : String} :
    WellFormed template ↔ BracesClose template.toList :=
  ⟨fun ⟨_, h⟩ => bracesClose_of_madeOf h, exists_madeOf_of_bracesClose⟩

/-! ## Rendering -/

theorem render_of_madeOf {template : String} (h : MadeOf template.toList parts) (song : Song) :
    render template song = String.ofList (parts.flatMap (Part.render song)) := by
  rw [render, parts?_eq_some_iff.mpr h]

/-- A well-formed template in front of a text says nothing of whether the text is well-formed. -/
theorem wellFormed_append_iff {template : String} (h : WellFormed template) (text : String) :
    WellFormed (template ++ text) ↔ WellFormed text := by
  obtain ⟨parts, hparts⟩ := h
  constructor
  · rintro ⟨whole, hwhole⟩
    have hread := parts?_eq_some_iff.mpr hwhole
    rw [parts?, String.toList_append, partsFrom?_append hparts] at hread
    obtain ⟨later, hlater, -⟩ := Option.map_eq_some_iff.mp hread
    exact ⟨later, parts?_eq_some_iff.mp hlater⟩
  · rintro ⟨later, hlater⟩
    refine ⟨parts ++ later, ?_⟩
    rw [String.toList_append]
    exact hparts.append hlater

/--
**What templates there are, and what becomes of them.**

A template is well-formed just if all its braces close. Then it is made of parts in one way, and it
renders as what its parts become, one behind the other: characters as they are, a closing brace
outside a placeholder among them, and placeholders as what the song has under their names, braces
and all. Another template renders as nothing.

Behind a well-formed template another one is read as it is read alone.
-/
theorem render_grammar (template : String) (song : Song) :
    (WellFormed template ↔ BracesClose template.toList) ∧
    (∀ parts, MadeOf template.toList parts →
      render template song = String.ofList (parts.flatMap (Part.render song)) ∧
      ∀ parts', MadeOf template.toList parts' → parts' = parts) ∧
    (¬WellFormed template → render template song = "") ∧
    (WellFormed template → ∀ text,
      (WellFormed (template ++ text) ↔ WellFormed text) ∧
      (WellFormed text →
        render (template ++ text) song = render template song ++ render text song)) := by
  refine ⟨wellFormed_iff_bracesClose, fun parts hparts => ?_, fun hbad => ?_, fun hwell text => ?_⟩
  · exact ⟨render_of_madeOf hparts song, fun parts' hparts' => hparts'.unique hparts⟩
  · rw [render, parts?_eq_none_iff.mpr hbad]
  · refine ⟨wellFormed_append_iff hwell text, fun htext => ?_⟩
    obtain ⟨parts, hparts⟩ := hwell
    obtain ⟨parts', hparts'⟩ := htext
    have happend : MadeOf (template ++ text).toList (parts ++ parts') := by
      rw [String.toList_append]
      exact hparts.append hparts'
    rw [render_of_madeOf happend, render_of_madeOf hparts, render_of_madeOf hparts',
      List.flatMap_append, String.ofList_append]

/-- A closing brace that is text, and a value that looks like a placeholder. -/
theorem render_grammar_braces :
    let song : Song := ⟨⟨"a.mp3"⟩, [("Title", .string "T"), ("Album", .string "\x7bTitle\x7d")], ""⟩
    let template := "\x7d \x7bAlbum\x7d"
    WellFormed template ∧ WellFormed "\x7bTitle\x7d" ∧ ¬WellFormed "\x7bTi" ∧
    render template song = "\x7d \x7bTitle\x7d" ∧
    render (template ++ "\x7bTitle\x7d") song = "\x7d \x7bTitle\x7dT" ∧
    render (template ++ "\x7bTi") song = "" := by
  intro song template
  have htemplate : MadeOf template.toList
      [.literal '\x7d', .literal ' ', .field ['A', 'l', 'b', 'u', 'm']] :=
    parts?_eq_some_iff.mp (by decide +kernel)
  have htext : MadeOf "\x7bTitle\x7d".toList [.field ['T', 'i', 't', 'l', 'e']] :=
    parts?_eq_some_iff.mp (by decide +kernel)
  have hbad : ¬WellFormed "\x7bTi" := parts?_eq_none_iff.mp (by decide +kernel)
  obtain ⟨-, hrender, -, hbehind⟩ := render_grammar template song
  have hbehind := hbehind ⟨_, htemplate⟩
  have hvalue : render template song = "\x7d \x7bTitle\x7d" := by
    rw [(hrender _ htemplate).1]
    decide +kernel
  refine ⟨⟨_, htemplate⟩, ⟨_, htext⟩, hbad, hvalue, ?_, ?_⟩
  · rw [(hbehind _).2 ⟨_, htext⟩, hvalue, ((render_grammar _ song).2.1 _ htext).1]
    decide +kernel
  · exact (render_grammar _ song).2.2.1 (mt (hbehind _).1.mp hbad)

end SongLibrary.Template
