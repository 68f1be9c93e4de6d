import SongLibrary.Proofs.Rule.Meaning
import SongLibrary.Tag.Output

/-!
# How the two policies differ

A block that fits renders its last template. Under the policy that stops, the first such text is the
output. Under the policy that skips blank output, it is the first that is not blank.

So the outputs agree as soon as the first text is not blank. A blank one can only make a difference
to a tag when it hides a later text that is not: `output_hidden_iff` says that this is when one
output is blank and the other is not, and a tag takes any blank output for none.
-/

namespace SongLibrary

namespace Rule

variable {rules : List Rule} {song : Song} {index : VersionIndex}

/-! ## What blocks render -/

/-- The block from `first` up to `last` fits and renders `text`, which may be blank. -/
structure Renders (rules : List Rule) (song : Song) (index : VersionIndex) (first last : Nat)
    (text : String) : Prop where
  fits : Fits rules song index first last
  render : ∃ r, rules[last - 1]? = some r ∧ text = Template.render r.template song

/-- The first block that fits stands at `first` and renders `text`. -/
structure RendersFirst (rules : List Rule) (song : Song) (index : VersionIndex) (first : Nat)
    (text : String) : Prop where
  renders : ∃ last, Renders rules song index first last text
  earliest : ∀ first' last', first' < first → ¬Fits rules song index first' last'

theorem makes_stop_iff {first last : Nat} {text : String} :
    Makes .stopAtFirstMatch rules song index first last text
      ↔ Renders rules song index first last text :=
  ⟨fun h => ⟨h.fits, h.render⟩, fun h => ⟨h.fits, h.render, fun hp => Policy.noConfusion hp⟩⟩

theorem makes_skip_iff {first last : Nat} {text : String} :
    Makes .skipBlankOutput rules song index first last text
      ↔ Renders rules song index first last text ∧ Text.isBlankText text = false :=
  ⟨fun h => ⟨⟨h.fits, h.render⟩, h.counts rfl⟩, fun h => ⟨h.1.fits, h.1.render, fun _ => h.2⟩⟩

theorem Fits.renders {first last : Nat} (h : Fits rules song index first last) :
    ∃ text, Renders rules song index first last text := by
  have hlt := h.isBlock.lt
  have hle := h.isBlock.le
  exact ⟨_, h, rules[last - 1], List.getElem?_eq_getElem (by omega), rfl⟩

theorem Renders.text_unique {first last last' : Nat} {text text' : String}
    (h : Renders rules song index first last text)
    (h' : Renders rules song index first last' text') : text = text' :=
  (makes_stop_iff.mpr h).text_unique (makes_stop_iff.mpr h')

/-! ## The output under each policy -/

/-- Under the policy that stops, the output is what the first block renders that fits. -/
theorem RendersFirst.output_stop {first : Nat} {text : String}
    (h : RendersFirst rules song index first text) :
    output .stopAtFirstMatch rules song index = text := by
  obtain ⟨last, hrenders⟩ := h.renders
  refine (meaning_output .stopAtFirstMatch rules song index).unique ?_
  exact .first (makes_stop_iff.mpr hrenders) fun first' last' _ hlt hmakes =>
    h.earliest first' last' hlt hmakes.fits

theorem output_stop_cases (rules : List Rule) (song : Song) (index : VersionIndex) :
    (∃ first, RendersFirst rules song index first (output .stopAtFirstMatch rules song index))
      ∨ ((∀ first last, ¬Fits rules song index first last)
        ∧ output .stopAtFirstMatch rules song index = "") := by
  have hmeaning := meaning_output .stopAtFirstMatch rules song index
  generalize output .stopAtFirstMatch rules song index = text at hmeaning
  cases hmeaning with
  | @first first last _ hmakes hearlier =>
      refine Or.inl ⟨first, ⟨last, makes_stop_iff.mp hmakes⟩, fun first' last' hlt hfits => ?_⟩
      obtain ⟨text', hrenders⟩ := hfits.renders
      exact hearlier first' last' text' hlt (makes_stop_iff.mpr hrenders)
  | nothing hnone =>
      refine Or.inr ⟨fun first last hfits => ?_, rfl⟩
      obtain ⟨text', hrenders⟩ := hfits.renders
      exact hnone first last text' (makes_stop_iff.mpr hrenders)

theorem output_skip_cases (rules : List Rule) (song : Song) (index : VersionIndex) :
    (Text.isBlankText (output .skipBlankOutput rules song index) = false
        ∧ ∃ first last,
          Renders rules song index first last (output .skipBlankOutput rules song index))
      ∨ ((∀ first last text, Renders rules song index first last text →
          Text.isBlankText text = true)
        ∧ output .skipBlankOutput rules song index = "") := by
  have hmeaning := meaning_output .skipBlankOutput rules song index
  generalize output .skipBlankOutput rules song index = text at hmeaning
  cases hmeaning with
  | @first first last _ hmakes _ =>
      obtain ⟨hrenders, hblank⟩ := makes_skip_iff.mp hmakes
      exact Or.inl ⟨hblank, first, last, hrenders⟩
  | nothing hnone =>
      refine Or.inr ⟨fun first last text' hrenders => ?_, rfl⟩
      by_contra hblank
      exact hnone first last text' (makes_skip_iff.mpr ⟨hrenders, Bool.eq_false_iff.mpr hblank⟩)

/-- An output that is not blank is the same under either policy. -/
theorem output_skip_of_stop
    (h : Text.isBlankText (output .stopAtFirstMatch rules song index) = false) :
    output .skipBlankOutput rules song index = output .stopAtFirstMatch rules song index := by
  rcases output_stop_cases rules song index with ⟨first, ⟨last, hrenders⟩, hearliest⟩ | ⟨-, hempty⟩
  · refine (meaning_output .skipBlankOutput rules song index).unique ?_
    exact .first (makes_skip_iff.mpr ⟨hrenders, h⟩) fun first' last' _ hlt hmakes =>
      hearliest first' last' hlt hmakes.fits
  · rw [hempty, isBlankText_empty] at h
    exact Bool.noConfusion h

/-- Where the outputs differ, the first block that fits renders blank. -/
theorem rendersFirst_blank_of_ne
    (h : output .skipBlankOutput rules song index ≠ output .stopAtFirstMatch rules song index) :
    ∃ first text, RendersFirst rules song index first text ∧ Text.isBlankText text = true := by
  rcases output_stop_cases rules song index with ⟨first, hfirst⟩ | ⟨hnone, hempty⟩
  · refine ⟨first, _, hfirst, ?_⟩
    by_contra hblank
    exact h (output_skip_of_stop (Bool.eq_false_iff.mpr hblank))
  · rcases output_skip_cases rules song index with ⟨-, first, last, hrenders⟩ | ⟨-, hempty'⟩
    · exact absurd hrenders.fits (hnone first last)
    · exact absurd (hempty'.trans hempty.symm) h

/-- The first block that fits renders blank, and a later one that fits does not. -/
def HidesLater (rules : List Rule) (song : Song) (index : VersionIndex) : Prop :=
  ∃ first blank first' last' text,
    RendersFirst rules song index first blank ∧ Text.isBlankText blank = true
      ∧ first < first' ∧ Renders rules song index first' last' text
      ∧ Text.isBlankText text = false

/-- **What a blank text hides**: just there, one output is blank and the other is not. -/
theorem output_hidden_iff :
    Text.isBlankText (output .stopAtFirstMatch rules song index) = true
        ∧ Text.isBlankText (output .skipBlankOutput rules song index) = false
      ↔ HidesLater rules song index := by
  constructor
  · rintro ⟨hstop, hskip⟩
    have hlater := output_skip_cases rules song index
    rcases hlater with ⟨-, first', last', hrenders⟩ | ⟨-, hempty⟩
    · rcases output_stop_cases rules song index with ⟨first, hfirst⟩ | ⟨hnone, -⟩
      · refine ⟨first, _, first', last', _, hfirst, hstop, ?_, hrenders, hskip⟩
        rcases Nat.lt_trichotomy first first' with hlt | rfl | hgt
        · exact hlt
        · -- one block renders one text, and this one cannot be blank and not blank
          obtain ⟨last, hblank⟩ := hfirst.renders
          rw [hblank.text_unique hrenders, hskip] at hstop
          exact Bool.noConfusion hstop
        · exact absurd hrenders.fits (hfirst.earliest first' last' hgt)
      · exact absurd hrenders.fits (hnone first' last')
    · rw [hempty, isBlankText_empty] at hskip
      exact Bool.noConfusion hskip
  · rintro ⟨first, blank, first', last', text, hfirst, hblank, -, hrenders, htext⟩
    refine ⟨by rw [hfirst.output_stop]; exact hblank, ?_⟩
    rcases output_skip_cases rules song index with ⟨hskip, -⟩ | ⟨hnone, -⟩
    · exact hskip
    · rw [hnone first' last' text hrenders] at htext
      exact Bool.noConfusion htext

end Rule

/-! ## What reaches a tag -/

variable {song : Song} {index : VersionIndex}

/-- Outputs a tag takes for the same: both blank, or equal. -/
def SameOutput (a b : String) : Prop :=
  Text.isBlankText a = true ∧ Text.isBlankText b = true ∨ a = b

/-- Where nothing is hidden, a tag takes the outputs for the same. -/
theorem Rule.sameOutput_of_not_hidesLater {rules : List Rule}
    (h : ¬HidesLater rules song index) :
    SameOutput (output .stopAtFirstMatch rules song index)
      (output .skipBlankOutput rules song index) := by
  cases hstop : Text.isBlankText (output .stopAtFirstMatch rules song index) with
  | false => exact Or.inr (output_skip_of_stop hstop).symm
  | true =>
      refine Or.inl ⟨hstop, ?_⟩
      by_contra hskip
      exact h (output_hidden_iff.mp ⟨hstop, Bool.eq_false_iff.mpr hskip⟩)

/-- Outputs that a tag takes for the same make the same update. -/
theorem TagUpdate.ofOutputs_congr {a b : Outputs} (htitle : SameOutput a.title b.title)
    (hartist : SameOutput a.artist b.artist) (halbum : SameOutput a.album b.album) :
    ofOutputs a song = ofOutputs b song := by
  have hkeep : ∀ {x y : String} (current : String), SameOutput x y →
      (if Text.isBlankText x then current else x)
        = if Text.isBlankText y then current else y := by
    rintro x y current (⟨hx, hy⟩ | rfl)
    · rw [if_pos hx, if_pos hy]
    · rfl
  have halbum : (ofOutputs a song).album = (ofOutputs b song).album := by
    rcases halbum with ⟨ha, hb⟩ | heq
    · exact (if_pos ha).trans (if_pos hb).symm
    · rw [ofOutputs, ofOutputs, heq]
  rw [ofOutputs, ofOutputs, TagUpdate.mk.injEq]
  exact ⟨congrArg some (hkeep song.title htitle), congrArg some (hkeep song.artist hartist),
    halbum, rfl, rfl, rfl, rfl⟩

/-- An update has an album where the output for it is not blank. -/
theorem Preset.album_update_eq_some_iff {preset : Preset} {policy : Policy} {album : String} :
    (preset.update policy song index).album = some album ↔
      Rule.output policy preset.album song index = album ∧ Text.isBlankText album = false := by
  have halbum : (preset.update policy song index).album
      = if Text.isBlankText (Rule.output policy preset.album song index) then none
        else some (Rule.output policy preset.album song index) := rfl
  rw [halbum, Option.ite_none_left_eq_some, Option.some_inj, Bool.not_eq_true]
  constructor
  · rintro ⟨hblank, rfl⟩
    exact ⟨rfl, hblank⟩
  · rintro ⟨rfl, hblank⟩
    exact ⟨hblank, rfl⟩

/--
**The policies differ only where a blank text hides a later one**, and a blank output never gets
into a tag.

The output under the policy that skips is empty or not blank. One that is not blank under the policy
that stops is the output under either, and where the two differ, the first block that fits renders
blank. The update of a preset takes an output that is not blank; in the place of a blank title or
artist it has what the song has, and in that of a blank album nothing. So the policies make the
same update unless one of the three lists has a blank text that hides a later one.
-/
theorem Preset.update_policies (song : Song) (index : VersionIndex) :
    (∀ rules : List Rule,
      (Rule.output .skipBlankOutput rules song index = ""
        ∨ Text.isBlankText (Rule.output .skipBlankOutput rules song index) = false)
      ∧ (Text.isBlankText (Rule.output .stopAtFirstMatch rules song index) = false →
        Rule.output .skipBlankOutput rules song index
          = Rule.output .stopAtFirstMatch rules song index)
      ∧ (Rule.output .skipBlankOutput rules song index
          ≠ Rule.output .stopAtFirstMatch rules song index →
        ∃ first text, Rule.RendersFirst rules song index first text
          ∧ Text.isBlankText text = true))
    ∧ (∀ (preset : Preset) (policy : Policy),
      (∀ album, (preset.update policy song index).album = some album ↔
        Rule.output policy preset.album song index = album ∧ Text.isBlankText album = false)
      ∧ (preset.update policy song index).title
        = some (if Text.isBlankText (Rule.output policy preset.title song index) then song.title
          else Rule.output policy preset.title song index)
      ∧ (preset.update policy song index).artist
        = some (if Text.isBlankText (Rule.output policy preset.artist song index) then song.artist
          else Rule.output policy preset.artist song index))
    ∧ (∀ preset : Preset,
      ¬Rule.HidesLater preset.title song index → ¬Rule.HidesLater preset.artist song index →
      ¬Rule.HidesLater preset.album song index →
      preset.update .stopAtFirstMatch song index = preset.update .skipBlankOutput song index) := by
  refine ⟨fun rules => ⟨?_, Rule.output_skip_of_stop, Rule.rendersFirst_blank_of_ne⟩,
    fun preset policy => ⟨fun _ => Preset.album_update_eq_some_iff, rfl, rfl⟩,
    fun preset htitle hartist halbum => ?_⟩
  · rcases Rule.output_skip_cases rules song index with ⟨hblank, -⟩ | ⟨-, hempty⟩
    · exact Or.inr hblank
    · exact Or.inl hempty
  · exact TagUpdate.ofOutputs_congr (Rule.sameOutput_of_not_hidesLater htitle)
      (Rule.sameOutput_of_not_hidesLater hartist) (Rule.sameOutput_of_not_hidesLater halbum)

/-- A block that renders a blank, before one that does not. -/
def Rule.hidingRules : List Rule := ⟨.or, "Artist", .is, "Ann", " "⟩ :: laterRules

/-- The policies at a song that fits all blocks. -/
theorem Preset.update_policies_hiding :
    let song : Song := ⟨⟨"a.mp3"⟩, [("Artist", .string "Ann")], ""⟩
    let preset : Preset := ⟨Rule.laterRules, Rule.laterRules, [⟨.or, "Artist", .is, "Ann", " "⟩]⟩
    (∃ first text, Rule.RendersFirst Rule.hidingRules song .empty first text
        ∧ Text.isBlankText text = true)
      ∧ Rule.output .skipBlankOutput Rule.laterRules song .empty
        = Rule.output .stopAtFirstMatch Rule.laterRules song .empty
      ∧ preset.update .stopAtFirstMatch song .empty
        = preset.update .skipBlankOutput song .empty := by
  intro song preset
  have hpolicies := update_policies song .empty
  have hdiffer : Rule.output .skipBlankOutput Rule.hidingRules song .empty
      ≠ Rule.output .stopAtFirstMatch Rule.hidingRules song .empty := by decide +kernel
  have hlater : ¬Rule.HidesLater Rule.laterRules song .empty := fun h =>
    absurd (Rule.output_hidden_iff.mpr h).1 (by decide +kernel)
  have halbum : ¬Rule.HidesLater preset.album song .empty := fun h =>
    absurd (Rule.output_hidden_iff.mpr h).2 (by decide +kernel)
  exact ⟨(hpolicies.1 Rule.hidingRules).2.2 hdiffer,
    (hpolicies.1 Rule.laterRules).2.1 (by decide +kernel),
    hpolicies.2.2 preset hlater hlater halbum⟩

end SongLibrary
