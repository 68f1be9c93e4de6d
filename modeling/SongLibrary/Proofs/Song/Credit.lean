import SongLibrary.Proofs.Stats
import SongLibrary.Proofs.Text.Trim
import SongLibrary.Proofs.Text.Words

/-!
# The artists that a text credits

`IsSeparator` says what separates two credits: a mark, or a joining word with white space on both
sides. A text is `Whole` if no separator occurs in it. The reader cuts at separators from left to
right, so what it has read so far is `Clear`: no separator begins in it, with an eye on what is to
come. Nothing that begins in a piece can be cut out of it later, so every piece is whole, and it
stays so when it is trimmed.

A whole text is read as one piece. Pieces with marks between them come apart again, because a
separator that begins before a mark also ends before it: a joining word has no marks.
-/

namespace SongLibrary.Credit

open Text

variable {cs part front back rest read : List Char} {c mark : Char}

/-! ## Separators -/

/-- A joining word with white space on both sides. -/
inductive IsJoint : List Char → Prop where
  | around {front word back : List Char} : String.ofList word ∈ joiningWords →
      front ≠ [] → (∀ c ∈ front, isBlank c = true) →
      back ≠ [] → (∀ c ∈ back, isBlank c = true) → IsJoint (front ++ (word ++ back))

/-- What separates two credits. -/
def IsSeparator (part : List Char) : Prop := (∃ mark ∈ marks, part = [mark]) ∨ IsJoint part

/-- No separator occurs in a text. -/
def Whole (cs : List Char) : Prop := ∀ part, part <:+: cs → ¬IsSeparator part

theorem Whole.within (h : Whole cs) (hpart : part <:+: cs) : Whole part :=
  fun separator hseparator => h separator (hseparator.trans hpart)

/-- A joining word has neither white space nor marks. -/
theorem solid_of_mem_joiningWords {word : List Char} (h : String.ofList word ∈ joiningWords) :
    word ≠ [] ∧ ∀ c ∈ word, isBlank c = false ∧ c ∉ marks := by
  have hall : joiningWords.all (fun w => !w.toList.isEmpty &&
      w.toList.all fun c => !isBlank c && !marks.contains c) = true := by decide
  have hword := List.all_eq_true.mp hall _ h
  simpa using hword

theorem mark_notMem_of_blank (h : ∀ c ∈ cs, isBlank c = true) (hmark : mark ∈ marks) :
    mark ∉ cs := by
  have hall : marks.all (fun m => !isBlank m) = true := by decide
  have hsolid := List.all_eq_true.mp hall mark hmark
  exact fun hmem => absurd hsolid (by simp [h mark hmem])

theorem IsJoint.mark_notMem (h : IsJoint part) (hmark : mark ∈ marks) : mark ∉ part := by
  cases h with
  | around hword _ hfront _ hback =>
      rw [List.mem_append, List.mem_append, not_or, not_or]
      exact ⟨mark_notMem_of_blank hfront hmark,
        fun hmem => ((solid_of_mem_joiningWords hword).2 mark hmem).2 hmark,
        mark_notMem_of_blank hback hmark⟩

theorem IsSeparator.ne_nil (h : IsSeparator part) : part ≠ [] := by
  rcases h with ⟨mark, -, rfl⟩ | ⟨-, hne, -⟩
  · exact List.cons_ne_nil _ _
  · simp [hne]

/-! ## Finding a joining word -/

theorem exists_isJoint (h : afterJoiningWord? cs = some rest) :
    ∃ part, IsJoint part ∧ part <+: cs := by
  simp only [afterJoiningWord?] at h
  split at h
  · rename_i hcond
    obtain ⟨hhead, hword, hbehind⟩ := hcond
    have hfront : cs.takeWhile isBlank ≠ [] := by
      cases cs with
      | nil => simp at hhead
      | cons c cs => rw [List.takeWhile_cons_of_pos (by simpa using hhead)]; simp
    obtain ⟨blank, back, hback⟩ := List.exists_cons_of_ne_nil hbehind
    have hblank : isBlank blank = true := by
      have hnot := List.head?_dropWhile_not (fun c => !isBlank c) (cs.dropWhile isBlank)
      rw [hback] at hnot
      simpa using hnot
    have hjoint : IsJoint (cs.takeWhile isBlank ++
        ((cs.dropWhile isBlank).takeWhile (fun c => !isBlank c) ++ [blank])) :=
      .around hword hfront (fun c hc => List.all_eq_true.mp List.all_takeWhile c hc)
        (List.cons_ne_nil _ _) (by simpa using hblank)
    refine ⟨_, hjoint, back, ?_⟩
    calc cs.takeWhile isBlank ++ ((cs.dropWhile isBlank).takeWhile (fun c => !isBlank c) ++
          [blank]) ++ back
        = cs.takeWhile isBlank ++ ((cs.dropWhile isBlank).takeWhile (fun c => !isBlank c) ++
          blank :: back) := by simp
      _ = cs := by rw [← hback, List.takeWhile_append_dropWhile, List.takeWhile_append_dropWhile]
  · exact absurd h (by simp)

theorem afterJoiningWord?_ne_none (h : IsJoint part) (hcs : part <+: cs) :
    afterJoiningWord? cs ≠ none := by
  obtain ⟨rest, rfl⟩ := hcs
  cases h with
  | @around front word back hword hfront hfrontBlank hback hbackBlank =>
      obtain ⟨hne, hsolid⟩ := solid_of_mem_joiningWords hword
      obtain ⟨b, back, rfl⟩ := List.exists_cons_of_ne_nil hback
      have hstart : Stops isBlank (word ++ (b :: back ++ rest)) := by
        obtain ⟨w, word, rfl⟩ := List.exists_cons_of_ne_nil hne
        exact fun c hc => by cases hc; exact (hsolid _ List.mem_cons_self).1
      have hrun : ∀ c ∈ word, (!isBlank c) = true := fun c hc => by rw [(hsolid c hc).1]; rfl
      have hend : Stops (fun c => !isBlank c) (b :: back ++ rest) :=
        fun c hc => by cases hc; simp [hbackBlank]
      have hhead : (front ++ (word ++ (b :: back ++ rest))).head?.any isBlank = true := by
        obtain ⟨f, front, rfl⟩ := List.exists_cons_of_ne_nil hfront
        simpa using hfrontBlank f List.mem_cons_self
      rw [afterJoiningWord?, List.append_assoc, List.append_assoc,
        dropWhile_run hfrontBlank hstart, takeWhile_run hrun hend, dropWhile_run hrun hend,
        if_pos ⟨hhead, hword, by simp⟩]
      exact Option.some_ne_none _

/-- Where a text neither begins with a mark nor with a joining word, no separator begins. -/
theorem not_prefix_isSeparator (hmark : c ∉ marks) (h : afterJoiningWord? (c :: rest) = none) :
    ∀ part, IsSeparator part → ¬part <+: c :: rest := by
  rintro part (⟨mark, hmem, rfl⟩ | hjoint) hprefix
  · rw [List.prefix_cons_iff] at hprefix
    rcases hprefix with hnil | ⟨tail, hc, -⟩
    · exact absurd hnil (by simp)
    · rw [(List.cons.inj hc).1] at hmem
      exact hmark hmem
  · exact afterJoiningWord?_ne_none hjoint hprefix h

/-! ## The pieces of a text -/

theorem splitFrom_mark (hmark : c ∈ marks) (read rest : List Char) :
    splitFrom read (c :: rest) = read.reverse :: splitFrom [] rest := by
  rw [splitFrom, if_pos hmark]

theorem splitFrom_none (hmark : c ∉ marks) (h : afterJoiningWord? (c :: rest) = none)
    (read : List Char) : splitFrom read (c :: rest) = splitFrom (c :: read) rest := by
  rw [splitFrom, if_neg hmark]
  split
  · next hsome => rw [h] at hsome; exact absurd hsome (by simp)
  · rfl

theorem splitFrom_some (hmark : c ∉ marks) {behind : List Char}
    (h : afterJoiningWord? (c :: rest) = some behind) (read : List Char) :
    splitFrom read (c :: rest) = read.reverse :: splitFrom [] behind := by
  rw [splitFrom, if_neg hmark]
  split
  · next hsome => rw [Option.some.inj (h.symm.trans hsome)]
  · next hnone => rw [h] at hnone; exact absurd hnone (by simp)

/-- No separator begins in a text that another one follows. -/
def Clear (front back : List Char) : Prop :=
  ∀ c rest, c :: rest <:+ front → ∀ part, IsSeparator part → ¬part <+: c :: rest ++ back

theorem clear_nil (back : List Char) : Clear [] back := fun _ _ hsuffix =>
  absurd (List.suffix_nil.mp hsuffix) (List.cons_ne_nil _ _)

theorem Clear.whole (h : Clear front back) : Whole front := by
  rintro part ⟨before, after, rfl⟩ hpart
  obtain ⟨c, part, rfl⟩ := List.exists_cons_of_ne_nil hpart.ne_nil
  exact h c (part ++ after) ⟨before, by simp⟩ (c :: part) hpart ⟨after ++ back, by simp⟩

theorem Clear.concat (h : Clear front (c :: rest))
    (hc : ∀ part, IsSeparator part → ¬part <+: c :: rest) : Clear (front ++ [c]) rest := by
  intro d ds hsuffix part hpart
  rcases List.suffix_concat_iff.mp hsuffix with hnil | ⟨ds', hds, hfront⟩
  · exact absurd hnil (List.cons_ne_nil _ _)
  · rw [hds, List.append_assoc, List.singleton_append]
    cases ds' with
    | nil => exact hc part hpart
    | cons d' ds' => exact h d' ds' hfront part hpart

/-- **No separator is left in a piece.** -/
theorem whole_of_mem_splitFrom (hread : Clear read.reverse cs) {piece : List Char}
    (h : piece ∈ splitFrom read cs) : Whole piece := by
  induction read, cs using splitFrom.induct with
  | case1 read =>
      rw [splitFrom, List.mem_singleton] at h
      rw [h]
      exact hread.whole
  | case2 read c rest hmark ih =>
      rw [splitFrom_mark hmark, List.mem_cons] at h
      rcases h with rfl | h
      · exact hread.whole
      · exact ih (clear_nil rest) h
  | case3 read c rest hmark behind hjoint ih =>
      rw [splitFrom_some hmark hjoint, List.mem_cons] at h
      rcases h with rfl | h
      · exact hread.whole
      · exact ih (clear_nil behind) h
  | case4 read c rest hmark hjoint ih =>
      rw [splitFrom_none hmark hjoint] at h
      refine ih ?_ h
      rw [List.reverse_cons]
      exact hread.concat (not_prefix_isSeparator hmark hjoint)

/-- Where no separator begins, the reader goes on. -/
theorem splitFrom_append (read : List Char)
    (h : ∀ c rest, c :: rest <:+ front →
      c ∉ marks ∧ afterJoiningWord? (c :: rest ++ back) = none) :
    splitFrom read (front ++ back) = splitFrom (front.reverse ++ read) back := by
  induction front generalizing read with
  | nil => rfl
  | cons c front ih =>
      obtain ⟨hmark, hnone⟩ := h c front List.suffix_rfl
      rw [List.cons_append] at hnone ⊢
      rw [splitFrom_none hmark hnone,
        ih (c :: read) fun d rest hsuffix => h d rest (hsuffix.trans (List.suffix_cons c front)),
        List.reverse_cons, List.append_assoc, List.singleton_append]

theorem Whole.notMem (h : Whole cs) (hmark : mark ∈ marks) : mark ∉ cs := fun hmem =>
  h [mark] ((List.singleton_infix_iff _ _).mpr hmem) (.inl ⟨mark, hmark, rfl⟩)

/-- A joining word that begins before a mark ends before it. -/
theorem Whole.afterJoiningWord?_eq_none (h : Whole cs)
    (hback : ∀ m, back.head? = some m → m ∈ marks) :
    afterJoiningWord? (cs ++ back) = none := by
  by_contra hne
  obtain ⟨rest, hsome⟩ := Option.ne_none_iff_exists'.mp hne
  obtain ⟨part, hjoint, hprefix⟩ := exists_isJoint hsome
  refine h part ?_ (.inr hjoint)
  cases back with
  | nil => simpa using hprefix.isInfix
  | cons mark back =>
      rcases List.prefix_or_prefix_of_prefix hprefix (List.prefix_append_right_inj cs |>.mpr
        (List.prefix_append [mark] back)) with hpart | hcs
      · rcases List.prefix_concat_iff.mp hpart with rfl | hpart
        · exact absurd (by simp) (hjoint.mark_notMem (hback mark rfl))
        · exact hpart.isInfix
      · exact absurd (hcs.subset (by simp)) (hjoint.mark_notMem (hback mark rfl))

/-- **A whole text in front of a mark is read as one piece.** -/
theorem splitFrom_whole (h : Whole front) (hback : ∀ m, back.head? = some m → m ∈ marks) :
    splitFrom [] (front ++ back) = splitFrom front.reverse back := by
  rw [splitFrom_append [] fun c rest hsuffix => ?_, List.append_nil]
  exact ⟨fun hmark => h.notMem hmark (hsuffix.subset List.mem_cons_self),
    (h.within hsuffix.isInfix).afterJoiningWord?_eq_none hback⟩

/-- Whole texts with commas between them come apart again. -/
theorem splitFrom_intercalate {pieces : List (List Char)} (hne : pieces ≠ [])
    (h : ∀ piece ∈ pieces, Whole piece) : splitFrom [] ([','].intercalate pieces) = pieces := by
  have hcomma : ',' ∈ marks := by decide
  induction pieces with
  | nil => exact absurd rfl hne
  | cons piece pieces ih =>
      have hpiece := h piece List.mem_cons_self
      cases pieces with
      | nil =>
          have hone : splitFrom [] (piece ++ []) = splitFrom piece.reverse [] :=
            splitFrom_whole hpiece (by simp)
          rw [List.append_nil, splitFrom, List.reverse_reverse] at hone
          simpa using hone
      | cons next pieces =>
          have hrest := ih (by simp) fun other hother => h other (List.mem_cons_of_mem _ hother)
          rw [List.intercalate_cons_cons, List.append_assoc, List.singleton_append,
            splitFrom_whole hpiece (by rintro m ⟨⟩; exact hcomma), splitFrom_mark hcomma,
            List.reverse_reverse, hrest]

/-! ## The names -/

/-- A name is a piece of the text, trimmed, that is not empty. -/
theorem mem_names_iff {text name : String} : name ∈ names text ↔
    name ≠ "" ∧ ∃ piece ∈ splitFrom [] text.toList, trimChars piece = name.toList := by
  simp only [names, List.mem_filterMap, List.mem_map]
  constructor
  · rintro ⟨_, ⟨piece, hpiece, rfl⟩, hname⟩
    split at hname
    · exact absurd hname (by simp)
    · rename_i hne
      obtain rfl := Option.some.inj hname
      exact ⟨by simpa using hne, piece, hpiece, String.toList_ofList.symm⟩
  · rintro ⟨hne, piece, hpiece, hname⟩
    exact ⟨_, ⟨piece, hpiece, rfl⟩, by simp [hname, hne]⟩

/-- A name that is whole, trimmed and not empty. -/
structure Atomic (name : String) : Prop where
  ne_empty : name ≠ ""
  trimmed : trim name = name
  whole : Whole name.toList

theorem Atomic.trimChars_eq {name : String} (h : Atomic name) :
    trimChars name.toList = name.toList := by
  have htrimmed := congrArg String.toList h.trimmed
  rwa [trim, String.toList_ofList] at htrimmed

theorem atomic_of_mem_names {text name : String} (h : name ∈ names text) : Atomic name := by
  obtain ⟨hne, piece, hpiece, hname⟩ := mem_names_iff.mp h
  refine ⟨hne, ?_, ?_⟩
  · rw [trim, ← hname, trimChars_trimChars, hname, String.ofList_toList]
  · rw [← hname]
    have hclear : Clear ([] : List Char).reverse text.toList := clear_nil _
    exact (whole_of_mem_splitFrom hclear hpiece).within (infix_trimChars piece)

/-- **Atomic names with commas between them are read as they are.** -/
theorem names_intercalate {ns : List String} (h : ∀ name ∈ ns, Atomic name) :
    names (",".intercalate ns) = ns := by
  rcases eq_or_ne ns [] with rfl | hne
  · simp [names, splitFrom, trimChars, trimStart, trimEnd]
  · have hpieces : splitFrom [] (",".intercalate ns).toList = ns.map String.toList := by
      rw [String.toList_intercalate, show ",".toList = [','] from rfl]
      refine splitFrom_intercalate (by simpa using hne) fun piece hpiece => ?_
      obtain ⟨name, hname, rfl⟩ := List.mem_map.mp hpiece
      exact (h name hname).whole
    rw [names, hpieces, List.map_map, List.filterMap_map]
    have hkept : ∀ name ∈ ns, ((fun name : List Char => if name.isEmpty then none
        else some (String.ofList name)) ∘ (trimChars ∘ String.toList)) name = some name := by
      intro name hname
      simp [(h name hname).trimChars_eq, (h name hname).ne_empty]
    rw [List.filterMap_congr hkept, List.filterMap_some]

theorem names_eq_self_iff {name : String} : names name = [name] ↔ Atomic name := by
  constructor
  · intro h
    have hmem : name ∈ names name := by
      rw [h]
      exact List.mem_singleton.mpr rfl
    exact atomic_of_mem_names hmem
  · intro h
    have hone : names (",".intercalate [name]) = [name] :=
      names_intercalate fun other hother => List.mem_singleton.mp hother ▸ h
    simpa using hone

/-- **Credits are atomic, and joining them with commas is undone.** Every name that a text credits
is trimmed and not empty, and it is read as one name, itself. The names that are read so are those
that are trimmed, not empty and without a separator anywhere. With commas between them they are read
as they are, in their order. The solo artists of a collection are such names. -/
theorem names_atomic (text : String) (ns : List String) (songs : List Song) :
    (∀ name ∈ names text, name ≠ "" ∧ trim name = name ∧ names name = [name]) ∧
    (∀ name, names name = [name] ↔
      name ≠ "" ∧ trim name = name ∧ ∀ part, part <:+: name.toList → ¬IsSeparator part) ∧
    ((∀ name ∈ ns, names name = [name]) → names (",".intercalate ns) = ns) ∧
    ∀ entry ∈ (Stats.of songs).solo, names entry.1 = [entry.1] := by
  refine ⟨fun name hname => ?_, fun name => ?_, fun hns => ?_, fun entry hentry => ?_⟩
  · have hatomic := atomic_of_mem_names hname
    exact ⟨hatomic.ne_empty, hatomic.trimmed, names_eq_self_iff.mpr hatomic⟩
  · rw [names_eq_self_iff]
    exact ⟨fun h => ⟨h.ne_empty, h.trimmed, h.whole⟩, fun h => ⟨h.1, h.2.1, h.2.2⟩⟩
  · exact names_intercalate fun name hname => names_eq_self_iff.mp (hns name hname)
  · rw [Stats.of_eq_byCredits] at hentry
    obtain ⟨name, hname, rfl⟩ := List.mem_map.mp hentry
    obtain ⟨song, -, hcredits⟩ := Stats.mem_soloArtists.mp hname
    have hmem : name ∈ names song.artist := by
      rw [← Song.credits, hcredits]
      exact List.mem_singleton.mpr rfl
    exact names_eq_self_iff.mpr (atomic_of_mem_names hmem)

/-- Joining words that stand alone are names, and a comma does not give them white space. -/
theorem names_atomic_words :
    names "A b x feat. C" = ["A b", "feat. C"] ∧ names "feat. C" = ["feat. C"] ∧
    (∀ name ∈ ["x", "feat.", "A b"], names name = [name]) ∧
    names "x,feat.,A b" = ["x", "feat.", "A b"] := by
  have htext : names "A b x feat. C" = ["A b", "feat. C"] := by cbv
  have halone : ∀ name ∈ ["x", "feat.", "A b"], names name = [name] := by
    simp only [List.forall_mem_cons]
    refine ⟨by cbv, by cbv, by cbv, by simp⟩
  obtain ⟨hatomic, -, hjoined, -⟩ := names_atomic "A b x feat. C" ["x", "feat.", "A b"] []
  exact ⟨htext, (hatomic "feat. C" (by simp [htext])).2.2, halone, hjoined halone⟩

end SongLibrary.Credit
