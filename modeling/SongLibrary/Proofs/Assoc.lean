import SongLibrary.Assoc
import Mathlib.Data.List.Basic
import Mathlib.Data.List.Induction

/-!
# Changing and merging association lists

What a change does to the keys and the pairs of a map. For `Assoc.merge`: a value in a merged map
comes from one of the two, and under a key the second map decides if it has the key. A map without
repeated keys is what comes of merging it into nothing.
-/

namespace SongLibrary.Assoc

variable {κ ν : Type} [DecidableEq κ]

omit [DecidableEq κ] in
theorem keys_cons (k : κ) (v : ν) (rest : Assoc κ ν) : keys ((k, v) :: rest) = k :: keys rest := rfl

omit [DecidableEq κ] in
theorem length_keys (m : Assoc κ ν) : (keys m).length = m.length := List.length_map _

theorem find?_eq_none_iff {m : Assoc κ ν} {k : κ} : find? m k = none ↔ k ∉ keys m := by
  induction m with
  | nil => simp [find?, keys]
  | cons e rest ih =>
      obtain ⟨k', v⟩ := e
      by_cases h : k' = k
      · simp [find?, keys, h]
      · simp only [keys] at ih
        simp [find?, keys, h, Ne.symm h, ih]

theorem mem_of_find? {m : Assoc κ ν} {k : κ} {v : ν} (h : find? m k = some v) : (k, v) ∈ m := by
  induction m with
  | nil => exact absurd h (by simp [find?])
  | cons e rest ih =>
      obtain ⟨k', v'⟩ := e
      rw [find?] at h
      split at h
      · rename_i hk
        rw [hk, Option.some.inj h]
        simp
      · exact List.mem_cons_of_mem _ (ih h)

/-- Where no key is repeated, every pair is found. -/
theorem find?_of_mem {m : Assoc κ ν} (hm : (keys m).Nodup) {e : κ × ν} (h : e ∈ m) :
    find? m e.1 = some e.2 := by
  induction m with
  | nil => exact absurd h (by simp)
  | cons e' rest ih =>
      obtain ⟨k', v'⟩ := e'
      rw [keys_cons, List.nodup_cons] at hm
      rw [find?]
      rcases List.mem_cons.mp h with rfl | hrest
      · rw [if_pos rfl]
      · rw [if_neg, ih hm.2 hrest]
        rintro rfl
        exact hm.1 (List.mem_map_of_mem hrest)

theorem mem_put {m : Assoc κ ν} {k : κ} {v : ν} {e : κ × ν} (h : e ∈ put m k v) :
    e ∈ m ∨ e = (k, v) := by
  induction m with
  | nil => exact Or.inr (List.mem_singleton.mp h)
  | cons e' rest ih =>
      obtain ⟨k', v'⟩ := e'
      rw [put] at h
      split at h
      · rename_i hk
        rcases List.mem_cons.mp h with h | h
        · exact Or.inr (by rw [h, hk])
        · exact Or.inl (List.mem_cons_of_mem _ h)
      · rcases List.mem_cons.mp h with h | h
        · exact Or.inl (by rw [h]; simp)
        · rcases ih h with h | h
          · exact Or.inl (List.mem_cons_of_mem _ h)
          · exact Or.inr h

theorem mem_keys_put {m : Assoc κ ν} {k k' : κ} {v : ν} :
    k' ∈ keys (put m k v) ↔ k' ∈ keys m ∨ k' = k := by
  rw [keys_put]
  split
  · rename_i hk
    constructor
    · exact Or.inl
    · rintro (h | rfl)
      · exact h
      · exact hk
  · rw [List.mem_append, List.mem_singleton]

theorem put_of_notMem {m : Assoc κ ν} {k : κ} (h : k ∉ keys m) (v : ν) :
    put m k v = m ++ [(k, v)] := by
  induction m with
  | nil => rfl
  | cons e rest ih =>
      obtain ⟨k', v'⟩ := e
      rw [keys, List.map_cons, List.mem_cons, not_or] at h
      rw [put, if_neg (Ne.symm h.1), ih h.2]
      rfl

theorem keys_erase (m : Assoc κ ν) (k : κ) : keys (erase m k) = (keys m).filter (· ≠ k) := by
  rw [keys, keys, erase, List.filter_map]
  rfl

theorem erase_of_notMem {m : Assoc κ ν} {k : κ} (h : k ∉ keys m) : erase m k = m := by
  refine List.filter_eq_self.mpr fun e he => decide_eq_true ?_
  rintro rfl
  exact h (List.mem_map_of_mem he)

/-- Taking the first key out leaves the rest. -/
theorem erase_head {k : κ} {v : ν} {rest : Assoc κ ν} (h : k ∉ keys rest) :
    erase ((k, v) :: rest) k = rest := by
  rw [erase, List.filter_cons_of_neg (by simp)]
  exact erase_of_notMem h

/-- A map without repeated keys is its keys with what is found under them. -/
theorem filterMap_find?_keys {m : Assoc κ ν} (h : (keys m).Nodup) :
    ((keys m).filterMap fun k => (find? m k).map fun v => (k, v)) = m := by
  induction m with
  | nil => rfl
  | cons e rest ih =>
      obtain ⟨k, v⟩ := e
      rw [keys_cons, List.nodup_cons] at h
      have hrest : ∀ k' ∈ keys rest, find? ((k, v) :: rest) k' = find? rest k' := by
        intro k' hk'
        rw [find?, if_neg]
        rintro rfl
        exact h.1 hk'
      rw [keys_cons, List.filterMap_cons_some (show _ = some (k, v) by simp [find?])]
      refine congrArg _ (Eq.trans (List.filterMap_congr fun k' hk' => ?_) (ih h.2))
      rw [hrest k' hk']

theorem merge_cons (m : Assoc κ ν) (k : κ) (v : ν) (new : Assoc κ ν) :
    merge m ((k, v) :: new) = merge (put m k v) new := rfl

theorem mem_merge {m new : Assoc κ ν} {e : κ × ν} (h : e ∈ merge m new) : e ∈ m ∨ e ∈ new := by
  induction new generalizing m with
  | nil => exact Or.inl h
  | cons e' rest ih =>
      obtain ⟨k, v⟩ := e'
      rw [merge_cons] at h
      rcases ih h with h | h
      · rcases mem_put h with h | h
        · exact Or.inl h
        · exact Or.inr (by rw [h]; simp)
      · exact Or.inr (List.mem_cons_of_mem _ h)

theorem nodup_keys_merge {m : Assoc κ ν} (h : (keys m).Nodup) (new : Assoc κ ν) :
    (keys (merge m new)).Nodup := by
  induction new generalizing m with
  | nil => exact h
  | cons e rest ih => exact ih (nodup_keys_put h e.1 e.2)

theorem merge_of_nodup {m new : Assoc κ ν} (h : (keys (m ++ new)).Nodup) :
    merge m new = m ++ new := by
  induction new generalizing m with
  | nil => simp [merge]
  | cons e rest ih =>
      obtain ⟨k, v⟩ := e
      have hk : k ∉ keys m := by
        rw [keys, List.map_append, List.nodup_append] at h
        intro hmem
        exact h.2.2 k hmem k (by simp) rfl
      rw [merge_cons, put_of_notMem hk, ih (by simpa using h)]
      simp

/-- Nothing changes a map without repeated keys that is put together from its pairs. -/
theorem merge_nil {m : Assoc κ ν} (h : (keys m).Nodup) : merge [] m = m := merge_of_nodup h

/-- **A merged map holds what the second map holds, and the first where the second is silent.** -/
theorem find?_merge (m : Assoc κ ν) {new : Assoc κ ν} (h : (keys new).Nodup) (k : κ) :
    find? (merge m new) k = (find? new k).or (find? m k) := by
  induction new generalizing m with
  | nil => simp [merge, find?]
  | cons e rest ih =>
      obtain ⟨k', v⟩ := e
      rw [keys, List.map_cons, List.nodup_cons] at h
      rw [merge_cons, ih _ h.2, find?_put, find?]
      by_cases hk : k' = k
      · subst hk
        rw [find?_eq_none_iff.mpr h.1]
        simp
      · simp [hk]

/-! ## Pairs that are merged in order -/

/-- A map without repeated keys is known by the order of its keys and by what is found under
them. -/
theorem ext_of_nodup {m n : Assoc κ ν} (hm : (keys m).Nodup) (hkeys : keys m = keys n)
    (hfind : ∀ k, find? m k = find? n k) : m = n := by
  have hn : (keys n).Nodup := hkeys ▸ hm
  calc m = (keys m).filterMap fun k => (find? m k).map fun v => (k, v) :=
        (filterMap_find?_keys hm).symm
    _ = (keys n).filterMap fun k => (find? n k).map fun v => (k, v) := by
        rw [hkeys]
        exact List.filterMap_congr fun k _ => by rw [hfind k]
    _ = n := filterMap_find?_keys hn

theorem merge_append (m a b : Assoc κ ν) : merge m (a ++ b) = merge (merge m a) b :=
  List.foldl_append

theorem find?_append (m n : Assoc κ ν) (k : κ) :
    find? (m ++ n) k = (find? m k).or (find? n k) := by
  induction m with
  | nil => simp [find?]
  | cons e rest ih =>
      obtain ⟨k', v⟩ := e
      rw [List.cons_append, find?, find?, ih]
      split <;> rfl

/-- **Of several pairs with a key the last one that is merged decides.** -/
theorem find?_merge_last (m new : Assoc κ ν) (k : κ) :
    find? (merge m new) k = (find? new.reverse k).or (find? m k) := by
  induction new generalizing m with
  | nil => simp [merge, find?]
  | cons e rest ih =>
      obtain ⟨k', v⟩ := e
      rw [merge_cons, ih, find?_put, List.reverse_cons, find?_append, find?, find?, Option.or_assoc]
      split <;> rfl

omit [DecidableEq κ] in
/-- A list without repetitions has none to lose. -/
theorem eraseDups_of_nodup {α : Type} [BEq α] [LawfulBEq α] {xs : List α} (h : xs.Nodup) :
    xs.eraseDups = xs := by
  induction xs with
  | nil => rfl
  | cons x xs ih =>
      rw [List.nodup_cons] at h
      rw [List.eraseDups_cons, List.filter_eq_self.mpr, ih h.2]
      intro y hy
      have hne : y ≠ x := fun he => h.1 (he ▸ hy)
      simpa using hne

/-- **Keys stand in the order in which they appear first.** -/
theorem keys_merge (m new : Assoc κ ν) :
    keys (merge m new) = keys m ++ ((keys new).removeAll (keys m)).eraseDups := by
  induction new generalizing m with
  | nil => simp [merge, keys]
  | cons e rest ih =>
      obtain ⟨k, v⟩ := e
      rw [merge_cons, ih, keys_put, keys_cons, List.cons_removeAll]
      by_cases hk : k ∈ keys m
      · simp [hk]
      · -- from here on the key counts among those that are there
        have hbehind : (keys rest).removeAll (keys m ++ [k]) =
            ((keys rest).removeAll (keys m)).filter (fun k' => !k' == k) := by
          rw [List.removeAll, List.removeAll, List.filter_filter]
          refine List.filter_congr fun k' _ => ?_
          by_cases hk' : k' = k <;> simp [hk']
        rw [if_neg hk, if_pos (by simpa using hk), List.eraseDups_cons, hbehind]
        simp

theorem keys_merge_of_nodup (m : Assoc κ ν) {new : Assoc κ ν} (h : (keys new).Nodup) :
    keys (merge m new) = keys m ++ (keys new).removeAll (keys m) := by
  have hfresh : ((keys new).removeAll (keys m)).Nodup := h.filter _
  rw [keys_merge, eraseDups_of_nodup hfresh]

theorem merge_put {m n : Assoc κ ν} (hm : (keys m).Nodup) (hn : (keys n).Nodup) (k : κ) (v : ν) :
    merge m (put n k v) = put (merge m n) k v := by
  refine ext_of_nodup (nodup_keys_merge hm _) ?_ fun k' => ?_
  · rw [keys_put (merge m n), keys_merge_of_nodup m (nodup_keys_put hn k v), keys_put,
      keys_merge_of_nodup m hn]
    by_cases hkn : k ∈ keys n
    · simp [hkn, List.removeAll, em]
    · by_cases hkm : k ∈ keys m <;> simp [hkn, hkm, List.removeAll]
  · rw [find?_merge _ (nodup_keys_put hn k v), find?_put, find?_put, find?_merge m hn]
    split <;> simp

/-- It does not matter whether pairs are merged at once or put together first. -/
theorem merge_merge_nil {m : Assoc κ ν} (hm : (keys m).Nodup) (new : Assoc κ ν) :
    merge m (merge [] new) = merge m new := by
  induction new using List.reverseRecOn with
  | nil => rfl
  | append_singleton new e ih =>
      have hnew := nodup_keys_merge (m := []) List.nodup_nil new
      rw [merge_append, merge_append, ← ih]
      exact merge_put hm hnew e.1 e.2

end SongLibrary.Assoc
