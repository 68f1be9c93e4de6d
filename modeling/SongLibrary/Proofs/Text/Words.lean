import SongLibrary.Text.Blank

/-!
# Words and what stands between them

A separator cuts a text in two, and the words of the text are those of the two parts. So the words
of pieces that are written with a blank between them are the words of the pieces, one after another.
-/

namespace SongLibrary.Text

/-! ## Runs -/

section

variable {α : Type} {p : α → Bool} {run rest : List α}

/-- A text does not go on with an element that satisfies `p`. -/
def Stops (p : α → Bool) (rest : List α) : Prop := ∀ x, rest.head? = some x → p x = false

theorem takeWhile_of_stops (h : Stops p rest) : rest.takeWhile p = [] := by
  cases rest with
  | nil => rfl
  | cons x rest => exact List.takeWhile_cons_of_neg (by simp [h x rfl])

theorem dropWhile_of_stops (h : Stops p rest) : rest.dropWhile p = rest := by
  cases rest with
  | nil => rfl
  | cons x rest => exact List.dropWhile_cons_of_neg (by simp [h x rfl])

theorem takeWhile_run (hrun : ∀ x ∈ run, p x = true) (hrest : Stops p rest) :
    (run ++ rest).takeWhile p = run := by
  rw [List.takeWhile_append_of_pos hrun, takeWhile_of_stops hrest, List.append_nil]

theorem dropWhile_run (hrun : ∀ x ∈ run, p x = true) (hrest : Stops p rest) :
    (run ++ rest).dropWhile p = rest := by
  rw [List.dropWhile_append_of_pos hrun, dropWhile_of_stops hrest]

/-- The first separator cuts a text in one way. -/
theorem append_cons_inj [DecidableEq α] {x : α} {run' rest' : List α} (hrun : x ∉ run)
    (hrun' : x ∉ run') (h : run ++ x :: rest = run' ++ x :: rest') : run = run' ∧ rest = rest' := by
  have htake : ∀ {run rest : List α}, x ∉ run → (run ++ x :: rest).takeWhile (· ≠ x) = run :=
    fun {run rest} hrun => takeWhile_run (fun y hy => by simpa using ne_of_mem_of_not_mem hy hrun)
      fun y hy => by simpa using (Option.some.inj hy).symm
  have hsame : run = run' := by rw [← htake hrun, h, htake hrun']
  subst hsame
  exact ⟨rfl, (List.cons.inj (List.append_cancel_left h)).2⟩

theorem Stops.append (hrun : ∀ x ∈ run, p x = false) (hrest : Stops p rest) :
    Stops p (run ++ rest) := by
  cases run with
  | nil => exact hrest
  | cons x run => exact fun y hy => hrun y (by cases hy; simp)

/-! ## Pieces -/

theorem splitWhere_of_forall (h : ∀ x ∈ run, p x = false) : splitWhere p run = [run] := by
  induction run with
  | nil => rfl
  | cons x run ih =>
      rw [splitWhere, h x (by simp), ih fun y hy => h y (List.mem_cons_of_mem _ hy)]
      rfl

theorem splitWhere_of_notMem [DecidableEq α] {x : α} (h : x ∉ run) :
    splitWhere (· == x) run = [run] :=
  splitWhere_of_forall fun _ hy => beq_false_of_ne (ne_of_mem_of_not_mem hy h)

/-- A separator cuts a text in two. -/
theorem splitWhere_append {x : α} (hx : p x = true) (xs ys : List α) :
    splitWhere p (xs ++ x :: ys) = splitWhere p xs ++ splitWhere p ys := by
  induction xs with
  | nil => simp [splitWhere, hx]
  | cons y xs ih =>
      rw [List.cons_append, splitWhere, splitWhere, ih]
      split
      · rfl
      · cases hpieces : splitWhere p xs with
        | nil => exact absurd hpieces (splitWhere_ne_nil p xs)
        | cons piece pieces => rfl

/-- No piece holds a separator. -/
theorem of_mem_splitWhere {xs piece : List α} (h : piece ∈ splitWhere p xs) :
    ∀ x ∈ piece, p x = false := by
  induction xs generalizing piece with
  | nil => simp [List.mem_singleton.mp h]
  | cons y xs ih =>
      rw [splitWhere] at h
      split at h
      · rcases List.mem_cons.mp h with rfl | h
        · simp
        · exact ih h
      · rename_i hy
        cases hpieces : splitWhere p xs with
        | nil => exact absurd hpieces (splitWhere_ne_nil _ xs)
        | cons first pieces =>
            rw [hpieces] at h ih
            rcases List.mem_cons.mp h with rfl | h
            · intro x hx
              rcases List.mem_cons.mp hx with rfl | hx
              · exact Bool.eq_false_iff.mpr hy
              · exact ih List.mem_cons_self x hx
            · exact ih (List.mem_cons_of_mem _ h)

theorem notMem_of_mem_splitWhere [DecidableEq α] {x : α} {xs piece : List α}
    (h : piece ∈ splitWhere (· == x) xs) : x ∉ piece :=
  fun hx => absurd (of_mem_splitWhere h x hx) (by simp)

/-- A list whose last piece is empty is empty itself or ends with a separator. -/
theorem getLast?_of_last_piece {xs : List α} (h : (splitWhere p xs).getLast? = some []) :
    xs = [] ∨ ∃ x, xs.getLast? = some x ∧ p x = true := by
  induction xs with
  | nil => exact Or.inl rfl
  | cons x rest ih =>
      right
      have hne := splitWhere_ne_nil p rest
      rw [splitWhere] at h
      cases hpieces : splitWhere p rest with
      | nil => exact absurd hpieces hne
      | cons piece pieces =>
          rw [hpieces] at h ih
          cases hx : p x with
          | true =>
              rw [if_pos hx, List.getLast?_cons_cons] at h
              -- the last piece lies behind this separator, or is empty because nothing does
              rcases ih h with rfl | ⟨y, hy, hsep⟩
              · exact ⟨x, rfl, hx⟩
              · exact ⟨y, by rw [List.getLast?_cons, hy]; rfl, hsep⟩
          | false =>
              rw [if_neg (by simp [hx])] at h
              cases pieces with
              | nil => simp at h
              | cons piece' pieces =>
                  rw [List.getLast?_cons_cons] at h
                  rw [List.getLast?_cons_cons] at ih
                  rcases ih h with rfl | ⟨y, hy, hsep⟩
                  · simp [splitWhere] at hpieces
                  · exact ⟨y, by rw [List.getLast?_cons, hy]; rfl, hsep⟩

/-! ## Written with a separator between them -/

variable {β : Type} {separator : List α}

theorem joinWith_cons_cons (piece next : List α) (pieces : List (List α)) :
    joinWith separator (piece :: next :: pieces) =
      piece ++ separator ++ joinWith separator (next :: pieces) := rfl

theorem joinWith_concat {pieces : List (List α)} (hne : pieces ≠ []) (last : List α) :
    joinWith separator (pieces ++ [last]) = joinWith separator pieces ++ separator ++ last := by
  induction pieces with
  | nil => exact absurd rfl hne
  | cons piece pieces ih =>
      cases pieces with
      | nil => rfl
      | cons next pieces =>
          rw [List.cons_append, List.cons_append, joinWith_cons_cons, ← List.cons_append,
            ih (by simp), joinWith_cons_cons]
          simp only [List.append_assoc]

/-- Pieces without the separator between them come apart again. -/
theorem splitWhere_joinWith [DecidableEq α] {x : α} {pieces : List (List α)} (hne : pieces ≠ [])
    (h : ∀ piece ∈ pieces, x ∉ piece) : splitWhere (· == x) (joinWith [x] pieces) = pieces := by
  induction pieces with
  | nil => exact absurd rfl hne
  | cons piece pieces ih =>
      have hpiece := splitWhere_of_notMem (h piece List.mem_cons_self)
      cases pieces with
      | nil => exact hpiece
      | cons next pieces =>
          have hrest := ih (by simp) fun other hother => h other (List.mem_cons_of_mem _ hother)
          rw [joinWith_cons_cons, List.append_assoc, List.singleton_append,
            splitWhere_append (by simp), hpiece, hrest]
          rfl

theorem map_joinWith (f : α → β) (pieces : List (List α)) :
    (joinWith separator pieces).map f = joinWith (separator.map f) (pieces.map (List.map f)) := by
  induction pieces with
  | nil => rfl
  | cons piece pieces ih =>
      cases pieces with
      | nil => rfl
      | cons next pieces =>
          rw [joinWith_cons_cons, List.map_append, List.map_append, ih]
          rfl

/-- Where nothing is made of the separator, the pieces are dealt with one by one. -/
theorem filterMap_joinWith {f : α → Option β} (h : separator.filterMap f = [])
    (pieces : List (List α)) :
    (joinWith separator pieces).filterMap f = pieces.flatMap (List.filterMap f) := by
  induction pieces with
  | nil => rfl
  | cons piece pieces ih =>
      cases pieces with
      | nil => simp [joinWith]
      | cons next pieces =>
          rw [joinWith_cons_cons, List.filterMap_append, List.filterMap_append, ih, h]
          simp

end

/-! ## Words -/

theorem words_of_solid {word : List Char} (hne : word ≠ [])
    (h : ∀ c ∈ word, isBlank c = false) : words word = [word] := by
  rw [words, splitWhere_of_forall h]
  simp [hne]

theorem isBlank_of_mem_words {cs word : List Char} (h : word ∈ words cs) :
    ∀ c ∈ word, isBlank c = false :=
  of_mem_splitWhere (List.mem_filter.mp h).1

theorem words_append {blank : Char} (h : isBlank blank = true) (xs ys : List Char) :
    words (xs ++ blank :: ys) = words xs ++ words ys := by
  rw [words, splitWhere_append h, List.filter_append]
  rfl

/-- **The words of pieces with blanks between them are the words of the pieces.** -/
theorem words_joinWith {blank : Char} (h : isBlank blank = true) (pieces : List (List Char)) :
    words (joinWith [blank] pieces) = pieces.flatMap words := by
  induction pieces with
  | nil => rfl
  | cons piece pieces ih =>
      cases pieces with
      | nil => simp [joinWith]
      | cons next pieces =>
          rw [joinWith_cons_cons, List.append_assoc, List.singleton_append, words_append h, ih]
          rfl

end SongLibrary.Text
