import Mathlib.Data.List.InsertIdx
import Mathlib.Data.List.Perm.Basic
import SongLibrary.View.SortLevels

/-!
# What editing keeps

However often sort levels are changed, there is at least one and there are never more than the
limit, and the first one stays until it is replaced. A change that is refused leaves everything as
it was; one that is made concerns one level and keeps the others in their order. A level that has
been moved can be moved back.

The list of levels and the limit are all there is, so what is read back from a saved list is what
has been saved.
-/

namespace SongLibrary

namespace SortLevels

variable {s s' : SortLevels} {limit index target : Nat} {places : Int} {level head : SortLevel}

/-! ## The changes -/

theorem push_eq_error_iff {e : Error} :
    s.push level = .error e ↔ s.isFull = true ∧ e = .levelsFull s.limit := by
  rw [push]
  cases s.isFull <;> simp [eq_comm]

theorem push_eq_ok_iff :
    s.push level = .ok s' ↔ s.isFull = false ∧ s' = ⟨s.levels ++ [level], s.limit⟩ := by
  rw [push]
  cases s.isFull <;> simp [eq_comm]

theorem remove?_eq_some_iff : s.remove? index = some s' ↔
    (0 < index ∧ index < s.size) ∧ s' = ⟨s.levels.eraseIdx index, s.limit⟩ := by
  rw [remove?, Option.ite_none_right_eq_some, Option.some_inj]
  exact and_congr_right fun _ => eq_comm

theorem set?_eq_some_iff : s.set? index level = some s' ↔
    index < s.size ∧ s' = ⟨s.levels.set index level, s.limit⟩ := by
  rw [set?, Option.ite_none_right_eq_some, Option.some_inj]
  exact and_congr_right fun _ => eq_comm

/-- A level can be moved to where the number of places leads, if that is neither the first place nor
behind the last. -/
theorem move?_eq_some_iff : s.move? index places = some s' ↔
    ∃ (target : Nat) (h : index < s.levels.length), index + places = target ∧ 0 < index ∧
      0 < target ∧ target < s.levels.length ∧
      s' = ⟨(s.levels.eraseIdx index).insertIdx target s.levels[index], s.limit⟩ := by
  rw [move?]
  dsimp only
  constructor
  · intro h
    split at h
    · rename_i hbounds
      refine ⟨(index + places).toNat, hbounds.2.1, by omega, hbounds.1, by omega, by omega, ?_⟩
      exact (Option.some.inj h).symm
    · exact absurd h (by simp)
  · rintro ⟨target, hindex, htarget, hpos, htarget', hlast, rfl⟩
    obtain rfl : places = target - index := by omega
    rw [dif_pos ⟨hpos, hindex, by omega, by omega⟩]
    congr
    omega

/-- One level is taken out. -/
structure Removed (s s' : SortLevels) (index : Nat) : Prop where
  limit : s'.limit = s.limit
  /-- The others keep their order. -/
  levels : ∃ front level back, front.length = index ∧ s.levels = front ++ level :: back ∧
    s'.levels = front ++ back

theorem removed_of_remove? (h : s.remove? index = some s') : Removed s s' index := by
  obtain ⟨⟨-, hsize⟩, rfl⟩ := remove?_eq_some_iff.mp h
  have hindex : index < s.levels.length := hsize
  refine ⟨rfl, s.levels.take index, s.levels[index], s.levels.drop (index + 1), ?_, ?_, ?_⟩
  · exact List.length_take_of_le (Nat.le_of_lt hindex)
  · rw [List.getElem_cons_drop, List.take_append_drop]
  · exact List.eraseIdx_eq_take_drop_succ s.levels index

/-- One level is moved from an index to another one. -/
structure Moved (s s' : SortLevels) (index target : Nat) : Prop where
  limit : s'.limit = s.limit
  perm : s'.levels.Perm s.levels
  placed : s'.levels[target]? = s.levels[index]?
  /-- The others keep their order. -/
  others : s'.levels.eraseIdx target = s.levels.eraseIdx index

theorem moved_of_insertIdx (hindex : index < s.levels.length) (htarget : target < s.levels.length) :
    Moved s ⟨(s.levels.eraseIdx index).insertIdx target s.levels[index], s.limit⟩ index target := by
  have hle : target ≤ (s.levels.eraseIdx index).length := by
    rw [List.length_eraseIdx_of_lt hindex]
    omega
  refine ⟨rfl, ?_, ?_, ?_⟩
  · exact (List.perm_insertIdx _ _ hle).trans (List.getElem_cons_eraseIdx_perm hindex)
  · rw [List.getElem?_insertIdx_self, if_pos hle, List.getElem?_eq_getElem hindex]
  · exact List.eraseIdx_insertIdx_self _

/-- **Moving a level back undoes the move.** -/
theorem move?_back (h : s.move? index places = some s') :
    s'.move? (index + places).toNat (-places) = some s := by
  obtain ⟨target, hindex, hplaces, hpos, htarget, hlast, rfl⟩ := move?_eq_some_iff.mp h
  have hmoved := moved_of_insertIdx hindex hlast
  have hlength := hmoved.perm.length_eq
  dsimp only at hlength
  rw [hplaces, Int.toNat_natCast]
  refine move?_eq_some_iff.mpr ⟨index, by rw [hlength]; exact hlast, by omega, htarget, hpos,
    by rw [hlength]; exact hindex, ?_⟩
  dsimp only
  rw [List.eraseIdx_insertIdx_self, List.getElem_insertIdx_self, List.insertIdx_eraseIdx_getElem]

/-- **What each change does, and when it is refused.** -/
structure Editable (s : SortLevels) : Prop where
  push_fails : ∀ level, (∃ e, s.push level = .error e) ↔ s.isFull = true
  push_error : ∀ level e, s.push level = .error e → e = .levelsFull s.limit
  pushed : ∀ level s', s.push level = .ok s' → s' = ⟨s.levels ++ [level], s.limit⟩
  remove_made : ∀ index, (s.remove? index).isSome = true ↔ 0 < index ∧ index < s.size
  removed : ∀ index s', s.remove? index = some s' → Removed s s' index
  move_made : ∀ (index : Nat) (places : Int), (s.move? index places).isSome = true ↔
    (1 ≤ index ∧ index < s.size) ∧ 1 ≤ index + places ∧ index + places < s.size
  moved : ∀ (index : Nat) (places : Int) s', s.move? index places = some s' →
    ∃ target : Nat, target = index + places ∧ Moved s s' index target ∧
      s'.move? target (-places) = some s
  set_made : ∀ index level, (s.set? index level).isSome = true ↔ index < s.size
  replaced : ∀ index level s', s.set? index level = some s' →
    s' = ⟨s.levels.set index level, s.limit⟩
  /-- A change that is not made leaves the levels. -/
  refused : ∀ e, (s.edit e).2 ≠ .ok true → (s.edit e).1 = s

theorem move?_isSome_iff : (s.move? index places).isSome = true ↔
    (1 ≤ index ∧ index < s.size) ∧ 1 ≤ index + places ∧ index + places < s.size := by
  rw [Option.isSome_iff_exists]
  constructor
  · rintro ⟨s', h⟩
    obtain ⟨target, hindex, hplaces, hpos, htarget, hlast, -⟩ := move?_eq_some_iff.mp h
    exact ⟨⟨hpos, hindex⟩, by omega, by rw [size]; omega⟩
  · rintro ⟨⟨hpos, hindex⟩, htarget, hlast⟩
    rw [size] at hlast
    exact ⟨_, move?_eq_some_iff.mpr ⟨(index + places).toNat, hindex, by omega, hpos, by omega,
      by omega, rfl⟩⟩

theorem edit_refused {e : LevelEdit} (h : (s.edit e).2 ≠ .ok true) : (s.edit e).1 = s := by
  have hanswer : ∀ changed : Option SortLevels, (edit.answer s changed).2 ≠ .ok true →
      (edit.answer s changed).1 = s := by
    rintro (- | s') hrefused
    · rfl
    · exact absurd rfl hrefused
  cases e with
  | push level =>
      rw [edit] at h ⊢
      split at h
      · exact absurd rfl h
      · rfl
  | remove index => exact hanswer _ h
  | move index places => exact hanswer _ h
  | set index level => exact hanswer _ h

theorem editable (s : SortLevels) : Editable s where
  push_fails level := by simp [push_eq_error_iff]
  push_error level e h := (push_eq_error_iff.mp h).2
  pushed level s' h := (push_eq_ok_iff.mp h).2
  remove_made index := by simp [Option.isSome_iff_exists, remove?_eq_some_iff]
  removed index s' := removed_of_remove?
  move_made index places := move?_isSome_iff
  moved index places s' h := by
    obtain ⟨target, hindex, hplaces, -, -, hlast, rfl⟩ := move?_eq_some_iff.mp h
    have hback := move?_back h
    rw [hplaces, Int.toNat_natCast] at hback
    exact ⟨target, hplaces.symm, moved_of_insertIdx hindex hlast, hback⟩
  set_made index level := by simp [Option.isSome_iff_exists, set?_eq_some_iff]
  replaced index level s' h := (set?_eq_some_iff.mp h).2
  refused e := edit_refused

/-! ## Runs -/

/-- Levels as they are before any change. -/
inductive Origin where
  | single (first : SortLevel)
  | saved (levels : List SortLevel)

namespace Origin

/-- The levels that editing starts from. -/
def levels (limit : Nat) : Origin → SortLevels
  | .single first => SortLevels.single first limit
  | .saved levels => ofSaved levels limit

/-- The first level that editing starts from. -/
def first : Origin → SortLevel
  | .single first => first
  | .saved levels => levels.head?.getD .byTitle

end Origin

/-- The first level after a change: only replacing it changes it. -/
def firstAfter (head : SortLevel) : LevelEdit → SortLevel
  | .set 0 level => level
  | _ => head

/-- What every change keeps, with the first level there is. -/
structure Kept (limit : Nat) (head : SortLevel) (s : SortLevels) : Prop where
  limit : s.limit = max limit 1
  bounded : s.size ≤ s.limit
  first : s.levels[0]? = some head

theorem Kept.nonempty (h : Kept limit head s) : 1 ≤ s.size := by
  obtain ⟨hpos, -⟩ := List.getElem?_eq_some_iff.mp h.first
  exact hpos

theorem kept_levels (limit : Nat) (origin : Origin) :
    Kept limit origin.first (origin.levels limit) := by
  cases origin with
  | single first => exact ⟨rfl, Nat.le_max_right limit 1, rfl⟩
  | saved levels =>
      cases levels with
      | nil => exact ⟨rfl, Nat.le_max_right limit 1, rfl⟩
      | cons first rest =>
          refine ⟨rfl, List.length_take_le _ _, ?_⟩
          have hpos : 0 < max limit 1 := by omega
          show ((first :: rest).take (max limit 1))[0]? = some first
          rw [List.getElem?_take, if_pos hpos]
          rfl

/-- **A change keeps the bounds, and the first level unless it replaces that.** -/
theorem Kept.edit (h : Kept limit head s) (e : LevelEdit) :
    Kept limit (firstAfter head e) (s.edit e).1 := by
  have hpos := h.nonempty
  -- a change that is refused cannot be one of the first level, which is there
  cases e with
  | push level =>
      rw [SortLevels.edit]
      split
      · rename_i s' hs'
        obtain ⟨hfull, rfl⟩ := push_eq_ok_iff.mp hs'
        have hroom : s.size < s.limit := by simpa [isFull] using hfull
        refine ⟨h.limit, ?_, ?_⟩
        · simpa [size, Nat.succ_le_iff] using hroom
        · exact List.getElem?_append_left (i := 0) hpos |>.trans h.first
      · exact h
  | remove index =>
      show Kept limit head ((s.remove? index).getD s)
      cases hs' : s.remove? index with
      | none => exact h
      | some s' =>
          obtain ⟨⟨hindex, -⟩, rfl⟩ := remove?_eq_some_iff.mp hs'
          refine ⟨h.limit, Nat.le_trans (List.length_eraseIdx_le _ _) h.bounded, ?_⟩
          exact (List.getElem?_eraseIdx_of_lt hindex).trans h.first
  | move index places =>
      show Kept limit head ((s.move? index places).getD s)
      cases hs' : s.move? index places with
      | none => exact h
      | some s' =>
          obtain ⟨target, hindex, -, hfrom, hto, hlast, rfl⟩ := move?_eq_some_iff.mp hs'
          have hmoved := moved_of_insertIdx hindex hlast
          refine ⟨h.limit, Nat.le_trans (Nat.le_of_eq hmoved.perm.length_eq) h.bounded, ?_⟩
          exact (List.getElem?_insertIdx_of_lt hto).trans
            ((List.getElem?_eraseIdx_of_lt hfrom).trans h.first)
  | set index level =>
      show Kept limit _ ((s.set? index level).getD s)
      cases hs' : s.set? index level with
      | none =>
          cases index with
          | zero =>
              have hmade : s.set? 0 level = some _ := set?_eq_some_iff.mpr ⟨hpos, rfl⟩
              exact absurd (hs'.symm.trans hmade) (by simp)
          | succ index => exact h
      | some s' =>
          obtain ⟨hindex, rfl⟩ := set?_eq_some_iff.mp hs'
          refine ⟨h.limit, Nat.le_trans (Nat.le_of_eq List.length_set) h.bounded, ?_⟩
          cases index with
          | zero => exact List.getElem?_set_self hpos
          | succ index => exact (List.getElem?_set_ne (by simp)).trans h.first

theorem Kept.run (h : Kept limit head s) (edits : List LevelEdit) :
    Kept limit (edits.foldl firstAfter head) (s.run edits) := by
  induction edits generalizing head s with
  | nil => exact h
  | cons e edits ih => exact ih (h.edit e)

/-- Saved levels are read from the first one on. -/
theorem prefix_ofSaved {saved : List SortLevel} (h : saved ≠ []) (limit : Nat) :
    (ofSaved saved limit).levels <+: saved := by
  rw [ofSaved, if_neg (by simpa using h)]
  exact List.take_prefix _ _

/-- Levels that have been saved are read back as they were. -/
theorem Kept.ofSaved_eq (h : Kept limit head s) : ofSaved s.levels limit = s := by
  have hnonempty : s.levels ≠ [] := List.length_pos_iff.mp h.nonempty
  have hbounded : s.levels.length ≤ max limit 1 := h.limit ▸ h.bounded
  rw [ofSaved, if_neg (by simpa using hnonempty), List.take_of_length_le hbounded, ← h.limit]

/--
**What holds of sort levels after any run of changes.**

There is at least one level, and at most the limit, where a limit of zero counts as one. The first
level is the one that has replaced it last, or the one that was first in the beginning. Each further
change does what it is for or is refused, and the first level changes only by being replaced. What
is read back from the saved list are the levels themselves.
-/
theorem run_keepsBounds (limit : Nat) (origin : Origin) (edits : List LevelEdit) :
    let s := (origin.levels limit).run edits
    (1 ≤ s.size ∧ s.size ≤ max 1 limit) ∧
    (s.isFull = true ↔ s.size = max 1 limit) ∧
    s.levels[0]? = some (edits.foldl firstAfter origin.first) ∧
    (∀ e, (s.edit e).1.levels[0]? ≠ s.levels[0]? → ∃ level, e = .set 0 level) ∧
    Editable s ∧
    ofSaved s.levels limit = s := by
  intro s
  have hkept : Kept limit (edits.foldl firstAfter origin.first) s :=
    (kept_levels limit origin).run edits
  have hbounded : s.size ≤ max 1 limit := by
    rw [Nat.max_comm, ← hkept.limit]
    exact hkept.bounded
  refine ⟨⟨hkept.nonempty, hbounded⟩, ?_, hkept.first, fun e hchanged => ?_, editable s,
    hkept.ofSaved_eq⟩
  · rw [isFull, decide_eq_true_iff, hkept.limit, Nat.max_comm]
    omega
  · rw [(hkept.edit e).first, hkept.first] at hchanged
    rw [ne_eq, Option.some_inj] at hchanged
    unfold firstAfter at hchanged
    split at hchanged
    · exact ⟨_, rfl⟩
    · exact absurd rfl hchanged

end SortLevels

end SongLibrary
