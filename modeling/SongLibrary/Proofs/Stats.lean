import SongLibrary.Proofs.Tally
import Mathlib

/-!
# Counting by credit

Every song credits nobody, one artist or several, so the songs fall into the songs of each solo
artist, the collaborations and the rest. A number that is added up over such classes is that of all
songs: `sum_byCredits` says so of any number that can be added up at all.
-/

namespace SongLibrary

namespace Stats

section

variable {songs : List Song} {f : List Song → Nat}
  (hadd : ∀ p q : List String → Bool, (∀ c, p c = true → q c = false) →
    f (songs.filter fun s => p s.credits || q s.credits) =
      f (songs.filter fun s => p s.credits) + f (songs.filter fun s => q s.credits))
include hadd

/-- What is added up over some solo artists is the number of their songs together. -/
theorem sum_solo {names : List String} (hnames : names.Nodup) :
    (names.map fun name => f (songs.filter fun s => s.credits == [name])).sum =
      f (songs.filter fun s => names.any fun name => s.credits == [name]) := by
  induction names with
  | nil =>
      have hnone := hadd (fun _ => false) (fun _ => false) fun _ _ => rfl
      simp only [Bool.or_false] at hnone
      simp only [List.map_nil, List.sum_nil, List.any_nil]
      omega
  | cons name names ih =>
      -- a song that credits this artist alone credits none of the others alone
      rw [List.nodup_cons] at hnames
      have hsum := hadd (· == [name]) (fun c => names.any fun other => c == [other]) fun c hc => by
        rw [beq_iff_eq.mp hc, List.any_eq_false]
        intro other hother
        simpa using ne_of_mem_of_not_mem hother hnames.1 |>.symm
      simp only [List.map_cons, List.sum_cons, List.any_cons]
      rw [ih hnames.2]
      exact hsum.symm

/-- **What is added up over all credits is the number of all songs.** -/
theorem sum_byCredits :
    ((soloArtists songs).map fun name => f (songs.filter fun s => s.credits == [name])).sum +
        f (songs.filter fun s => 2 ≤ s.credits.length) +
        f (songs.filter fun s => s.credits.isEmpty) = f songs := by
  have hsolo : songs.filter (fun s => (soloArtists songs).any fun name => s.credits == [name]) =
      songs.filter fun s => s.credits.length == 1 := by
    refine List.filter_congr fun s hs => ?_
    rw [Bool.eq_iff_iff, List.any_eq_true, beq_iff_eq, List.length_eq_one_iff]
    constructor
    · rintro ⟨name, -, hname⟩
      exact ⟨name, beq_iff_eq.mp hname⟩
    · rintro ⟨name, hname⟩
      exact ⟨name, mem_soloArtists.mpr ⟨s, hs, hname⟩, beq_iff_eq.mpr hname⟩
  have hseveral := hadd (fun c => c.length == 1) (fun c => 2 ≤ c.length) fun c hc => by
    simp [beq_iff_eq.mp hc]
  have hnone := hadd (fun c => c.length == 1 || decide (2 ≤ c.length)) (fun c => c.isEmpty)
    fun c hc => by cases c <;> simp_all
  have hall : songs.filter (fun s =>
      (s.credits.length == 1 || decide (2 ≤ s.credits.length)) || s.credits.isEmpty) = songs := by
    refine List.filter_eq_self.mpr fun s _ => ?_
    rcases s.credits with _ | ⟨first, _ | ⟨second, rest⟩⟩ <;> simp
  rw [hall, hseveral] at hnone
  rw [sum_solo hadd (nodup_soloArtists songs), hsolo, hnone]

end

end Stats

end SongLibrary
