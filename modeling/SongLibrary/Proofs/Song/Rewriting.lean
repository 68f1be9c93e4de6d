import SongLibrary.Proofs.Json.NulFree
import SongLibrary.Proofs.Song.Comment
import SongLibrary.Proofs.Text.Words

/-!
# Data that is written back behind other comments

Data read from several comments is written back into one, which comes behind those comments that
stay. When the comments are read again, what the others bear is merged first, and the data written
back last. It holds every key that any of them bears, since it was read from them too, so it decides
every value.
-/

namespace SongLibrary

namespace Embedded

/-- Texts that bear no data which others do not bear, whatever text stands before it. -/
def AddNothing (kept texts : List String) : Prop :=
  ∀ text ∈ kept, ∀ l, ofText? text = some l →
    ∃ text' ∈ texts, ∃ l', ofText? text' = some l' ∧ l'.data = l.data

theorem AddNothing.mono {texts texts' kept : List String} (h : AddNothing kept texts)
    (htexts : texts ⊆ texts') : AddNothing kept texts' := by
  intro text htext l hread
  obtain ⟨text', htext', hborne⟩ := h text htext l hread
  exact ⟨text', htexts htext', hborne⟩

/-- Texts that add nothing to texts without data have none. -/
theorem AddNothing.bare {texts kept : List String} (h : AddNothing kept texts)
    (hbare : ∀ text ∈ texts, ofText? text = none) : ∀ text ∈ kept, ofText? text = none := by
  intro text htext
  rw [Option.eq_none_iff_forall_ne_some]
  intro l hread
  obtain ⟨text', htext', l', hread', -⟩ := h text htext l hread
  rw [hbare text' htext'] at hread'
  exact absurd hread' (by simp)

end Embedded

end SongLibrary
