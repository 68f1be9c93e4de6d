/-!
# Association lists in the order of insertion

A finite map kept as a list of pairs. A key that is put again keeps its place and gets the new
value; a new key goes to the end. `find?_put` and `keys_put` say what a change does to the two
views of a map, the value under a key and the list of its keys.
-/

namespace SongLibrary

/-- A finite map as a list of pairs. -/
abbrev Assoc (κ ν : Type) := List (κ × ν)

namespace Assoc

variable {κ ν : Type} [DecidableEq κ]

/-- The keys in the order of insertion. -/
def keys (m : Assoc κ ν) : List κ := m.map Prod.fst

/-- The value under a key. -/
def find? (m : Assoc κ ν) (k : κ) : Option ν :=
  match m with
  | [] => none
  | (k', v) :: rest => if k' = k then some v else find? rest k

/-- The map with a value under a key. -/
def put (m : Assoc κ ν) (k : κ) (v : ν) : Assoc κ ν :=
  match m with
  | [] => [(k, v)]
  | (k', v') :: rest => if k' = k then (k', v) :: rest else (k', v') :: put rest k v

/-- The map without a key. -/
def erase (m : Assoc κ ν) (k : κ) : Assoc κ ν := m.filter (fun e => e.1 ≠ k)

/-- The first map with every pair of the second put into it in order. -/
def merge (m new : Assoc κ ν) : Assoc κ ν := new.foldl (fun m e => put m e.1 e.2) m

theorem find?_put (m : Assoc κ ν) (k k' : κ) (v : ν) :
    find? (put m k v) k' = if k = k' then some v else find? m k' := by
  induction m with
  | nil => rfl
  | cons e rest ih =>
      obtain ⟨k₀, v₀⟩ := e
      by_cases h : k₀ = k
      · subst h
        by_cases hk : k₀ = k' <;> simp [put, find?, hk]
      · by_cases hk : k₀ = k'
        · subst hk; simp [put, find?, h, Ne.symm h]
        · simp [put, find?, h, hk, ih]

theorem keys_put (m : Assoc κ ν) (k : κ) (v : ν) :
    keys (put m k v) = if k ∈ keys m then keys m else keys m ++ [k] := by
  induction m with
  | nil => simp [put, keys]
  | cons e rest ih =>
      obtain ⟨k₀, v₀⟩ := e
      by_cases h : k₀ = k
      · simp [put, keys, h]
      · have hne : k ≠ k₀ := Ne.symm h
        by_cases hm : k ∈ keys rest
        · simp only [keys] at ih hm ⊢; simp [put, h, hne, hm, ih]
        · simp only [keys] at ih hm ⊢; simp [put, h, hne, hm, ih]

/-- Putting a value never repeats a key. -/
theorem nodup_keys_put {m : Assoc κ ν} (h : (keys m).Nodup) (k : κ) (v : ν) :
    (keys (put m k v)).Nodup := by
  rw [keys_put]
  split
  · exact h
  · rename_i hk
    refine List.nodup_append.mpr ⟨h, by simp, fun a ha b hb he => ?_⟩
    rw [List.mem_singleton.mp hb] at he
    exact hk (he ▸ ha)

theorem find?_erase (m : Assoc κ ν) (k k' : κ) :
    find? (erase m k) k' = if k = k' then none else find? m k' := by
  induction m with
  | nil => simp [erase, find?]
  | cons e rest ih =>
      obtain ⟨k₀, v₀⟩ := e
      simp only [erase] at ih
      by_cases h : k₀ = k
      · subst h
        by_cases hk : k₀ = k'
        · simp [erase, hk] at ih ⊢; exact ih
        · simp [erase, find?, hk] at ih ⊢; exact ih
      · by_cases hk : k₀ = k'
        · subst hk; simp [erase, find?, h, Ne.symm h]
        · simp [erase, find?, h, hk] at ih ⊢; exact ih

end Assoc

end SongLibrary
