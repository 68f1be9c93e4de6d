import SongLibrary.Proofs.Files.Folder

/-!
# Another name in the same folder

A path that gets another file name goes through the segments it went through, but for idle ones in
front of the name. Its last component is the new name, and the others are those it had, so it is
the same path just if the name is the same.
-/

namespace SongLibrary

namespace Text

/-- Pieces that are left out make a text shorter, and put nothing into it. -/
theorem joinWith_sublist {α : Type} (separator : List α) {pieces pieces' : List (List α)}
    (h : pieces.Sublist pieces') (hne : pieces ≠ []) :
    (joinWith separator pieces).Sublist (joinWith separator pieces') := by
  induction h with
  | slnil => exact absurd rfl hne
  | @cons pieces pieces' piece h ih =>
      have hne' : pieces' ≠ [] := fun he => hne (List.sublist_nil.mp (he ▸ h))
      obtain ⟨next, rest, rfl⟩ := List.exists_cons_of_ne_nil hne'
      rw [joinWith_cons_cons]
      exact (ih hne).trans (List.sublist_append_right _ _)
  | @cons_cons pieces pieces' piece h ih =>
      cases pieces' with
      | nil => rw [List.sublist_nil.mp h]
      | cons next' rest' =>
          rw [joinWith_cons_cons]
          cases pieces with
          | nil => exact (List.sublist_append_left _ _).trans (List.sublist_append_left _ _)
          | cons next rest =>
              rw [joinWith_cons_cons]
              exact (ih (by simp)).append_left _

theorem utf8ByteSize_le_of_sublist {s s' : String} (h : s.toList.Sublist s'.toList) :
    s.utf8ByteSize ≤ s'.utf8ByteSize := by
  have hcons : ∀ c cs, String.ofList (c :: cs) = String.singleton c ++ String.ofList cs := by
    intro c cs
    rw [← String.toList_inj]
    simp
  rw [← String.ofList_toList (s := s), ← String.ofList_toList (s := s')]
  generalize s.toList = cs at h ⊢
  generalize s'.toList = cs' at h ⊢
  induction h with
  | slnil => exact Nat.le_refl _
  | cons c _ ih =>
      rw [hcons, String.utf8ByteSize_append]
      omega
  | cons_cons c _ ih =>
      rw [hcons, hcons, String.utf8ByteSize_append, String.utf8ByteSize_append]
      omega

end Text

namespace Path

variable {p : Path} {head : Head} {outer body : List String} {old new : String}

/-! ## Beginnings and what stands behind them -/

/-- The text of a path is its segments with separators between them. -/
theorem toList_text (p : Path) :
    p.text.toList = Text.joinWith ['/'] (p.segments.map String.toList) := by
  rw [segments, List.map_map]
  simp [Function.comp_def, Text.joinWith_splitWhere]

theorem trimIdle_append (segments : List String) :
    ∃ idle, segments = trimIdle segments ++ idle ∧ ∀ s ∈ idle, isIdle s = true := by
  refine ⟨(segments.reverse.takeWhile isIdle).reverse, ?_, fun s hs =>
    List.mem_takeWhile_imp (List.mem_reverse.mp hs)⟩
  rw [trimIdle, ← List.reverse_append, List.takeWhile_append_dropWhile, List.reverse_reverse]

theorem filterMap_componentOf_idle {idle : List String} (h : ∀ s ∈ idle, isIdle s = true) :
    idle.filterMap componentOf = [] :=
  List.filterMap_eq_nil_iff.mpr fun s hs => componentOf_of_idle (h s hs)

/-- Without a beginning a path starts with a segment that leads on. -/
theorem busy_of_cut (h : p.cut = (.nothing, body)) {s : String} (hs : body.head? = some s) :
    isIdle s = false := by
  rw [cut] at h
  split at h
  · obtain ⟨-, rfl⟩ := Prod.mk.inj h
    exact absurd hs (by simp)
  · exact absurd (Prod.mk.inj h).1 (by simp)
  · exact absurd (Prod.mk.inj h).1 (by simp)
  · rename_i hempty hroot hcurrent
    obtain ⟨-, rfl⟩ := Prod.mk.inj h
    obtain ⟨rest, hrest⟩ := List.head?_eq_some_iff.mp hs
    rw [isIdle, Bool.or_eq_false_iff]
    refine ⟨?_, beq_eq_false_iff_ne.mpr ?_⟩
    · simpa using fun he : s = "" => hroot rest (he ▸ hrest)
    · exact fun he : s = "." => hcurrent rest (he ▸ hrest)

/-- Segments behind a beginning are cut off there. -/
theorem cut_of_segments (h : p.segments = head.segments ++ body) (hne : body ≠ [])
    (hfirst : head = .nothing → ∀ s, body.head? = some s → isIdle s = false) :
    p.cut = (head, body) := by
  obtain ⟨s, rest, rfl⟩ := List.exists_cons_of_ne_nil hne
  cases head with
  | root => rw [cut, h]; rfl
  | current => rw [cut, h]; rfl
  | nothing =>
      have hbusy := hfirst rfl s rfl
      rw [isIdle, Bool.or_eq_false_iff, beq_eq_false_iff_ne] at hbusy
      replace h : p.segments = s :: rest := h
      rw [cut, h]
      split
      · rename_i heq
        exact absurd (List.cons.inj heq).1 (by simpa using hbusy.1)
      · rename_i heq
        exact absurd (List.cons.inj heq).1 (by simpa using hbusy.1)
      · rename_i heq
        exact absurd (List.cons.inj heq).1 hbusy.2
      · rfl

/-- What goes on behind a joined path goes on behind its segments. -/
theorem base_join (head : Head) (hsolid : ∀ s ∈ body, '/' ∉ s.toList)
    (hlast : body.getLast? ≠ some "") : (join head body).base = head.segments ++ body := by
  cases hbody : body with
  | nil => cases head <;> decide
  | cons s rest =>
      rw [← hbody]
      have hne : body ≠ [] := by simp [hbody]
      rw [base, segments_join head hne hsolid, List.getLast?_append_of_ne_nil _ hne, if_neg hlast]

/-! ## Paths with another file name -/

/-- **A path with another file name goes the same way, but for idle segments.** -/
theorem cut_withFileName (hsegments : p.segments = outer ++ [old]) (hbusy : isIdle old = false)
    (hup : old ≠ "..") (hnew : FileTree.Plain new) :
    ∃ front idle, p.cut.2 = front ++ idle ++ [old] ∧ p.cut.1.segments ++ (front ++ idle) = outer ∧
      (∀ s ∈ idle, isIdle s = true) ∧
      (p.withFileName new).segments = p.cut.1.segments ++ front ++ [new] ∧
      (p.withFileName new).cut = (p.cut.1, front ++ [new]) := by
  obtain ⟨body, hbody, houter⟩ := cut_of_last hsegments hbusy
  obtain ⟨idle, hidle, hallIdle⟩ := trimIdle_append body
  have hparent : p.parent? = some (join p.cut.1 (trimIdle body)) := by
    rw [parent?]
    dsimp only
    rw [hbody, trimIdle_concat body hbusy, List.reverse_append]
    simp
  have hwith : p.withFileName new = join p.cut.1 (trimIdle body) ++ (⟨new⟩ : Path) := by
    rw [withFileName, fileName?_of_last hsegments hbusy hup, hparent]
  have hsolid : ∀ s ∈ trimIdle body, '/' ∉ s.toList := by
    intro s hs
    refine solid_of_mem_segments (p := p) ?_
    rw [hsegments, ← houter, hidle]
    simp [hs]
  have hlast : (trimIdle body).getLast? ≠ some "" := fun he =>
    absurd (isIdle_getLast_trimIdle he) (by decide)
  have hsegments' : (p.withFileName new).segments = p.cut.1.segments ++ trimIdle body ++ [new] := by
    rw [hwith, segments_append _ (isAbsolute_of_notMem hnew.solid), segments_of_notMem hnew.solid,
      base_join _ hsolid hlast]
  refine ⟨trimIdle body, idle, by rw [hbody, ← hidle], by rw [← hidle, houter], hallIdle,
    hsegments', cut_of_segments (by rw [hsegments', List.append_assoc]) (by simp) ?_⟩
  intro hnothing s hs
  cases htrim : trimIdle body with
  | nil =>
      rw [htrim] at hs
      rw [← Option.some.inj hs]
      exact hnew.busy
  | cons first rest =>
      rw [htrim] at hs
      have hcut : p.cut = (.nothing, body ++ [old]) := Prod.ext hnothing hbody
      refine busy_of_cut hcut ?_
      rw [hidle, htrim]
      exact hs

theorem components_withFileName (hsegments : p.segments = outer ++ [old])
    (hbusy : isIdle old = false) (hup : old ≠ "..") (hnew : FileTree.Plain new) :
    ∃ front, p.components = front ++ [.name old] ∧
      (p.withFileName new).components = front ++ [.name new] := by
  obtain ⟨front, idle, hcut, -, hidle, -, hcut'⟩ := cut_withFileName hsegments hbusy hup hnew
  have hname : ∀ name, isIdle name = false → name ≠ ".." →
      [name].filterMap componentOf = [.name name] := by
    intro name hbusy hup
    simp [componentOf, hbusy, hup]
  refine ⟨p.cut.1.components ++ front.filterMap componentOf, ?_, ?_⟩
  · rw [components, hcut, List.filterMap_append, List.filterMap_append,
      filterMap_componentOf_idle hidle, hname old hbusy hup, List.append_nil, List.append_assoc]
  · rw [components, hcut', List.filterMap_append, hname new hnew.busy hnew.notUp,
      List.append_assoc]

/-- **With another file name a path is another path.** -/
theorem components_withFileName_eq_iff (hsegments : p.segments = outer ++ [old])
    (hbusy : isIdle old = false) (hup : old ≠ "..") (hnew : FileTree.Plain new) :
    (p.withFileName new).components = p.components ↔ new = old := by
  obtain ⟨front, hp, hq⟩ := components_withFileName hsegments hbusy hup hnew
  rw [hp, hq]
  simp

/-- With the name it has a path is not written longer, and with no other characters. -/
theorem text_withFileName_sublist (hsegments : p.segments = outer ++ [old])
    (hbusy : isIdle old = false) (hup : old ≠ "..") (hold : FileTree.Plain old) :
    (p.withFileName old).text.toList.Sublist p.text.toList := by
  obtain ⟨front, idle, -, houter, -, hsegments', -⟩ := cut_withFileName hsegments hbusy hup hold
  rw [toList_text, toList_text p, hsegments', hsegments, ← houter, ← List.append_assoc]
  refine Text.joinWith_sublist _ (List.Sublist.map _ ?_) (by simp)
  exact (List.sublist_append_left _ _).append_right _

/-- The file name of a path that goes on by a name is that name. -/
theorem fileName?_append_name (p : Path) (hnew : FileTree.Plain new) :
    (p ++ (⟨new⟩ : Path)).fileName? = some new := by
  obtain ⟨outer, hsegments, -⟩ := segments_append_name p hnew.solid
  exact fileName?_of_last hsegments hnew.busy hnew.notUp

theorem fileName?_withFileName (p : Path) (hnew : FileTree.Plain new) :
    (p.withFileName new).fileName? = some new := by
  rw [withFileName]
  split
  · exact fileName?_append_name _ hnew
  · exact fileName?_append_name p hnew

end Path

namespace FileTree

variable {t : FileTree} {p : Path} {k k' l m : Location} {old new new' : String}
  {idle : List String}

theorem followFrom_idle (hidle : ∀ s ∈ idle, Path.isIdle s = true)
    (h : idle.foldlM t.step l = .ok m) : m = l := by
  induction idle generalizing l with
  | nil => exact (Except.ok.inj h).symm
  | cons s rest ih =>
      obtain ⟨l', hs, hrest⟩ := followFrom_cons h
      rw [ih (fun s' hs' => hidle s' (List.mem_cons_of_mem _ hs')) hrest]
      exact step_of_idle (hidle s List.mem_cons_self) hs

namespace Names

/-- The way of a path to its folder is the way under another file name. -/
theorem way_withFileName (h : t.Names p k old) (hopen : isOpenEnded p = false)
    (hnew : Plain new) :
    ∃ outer, (p.withFileName new).segments = outer ++ [new] ∧
      t.follow (t.origin (p.withFileName new)) outer = .ok k := by
  obtain ⟨outer, hsegments, hfollow⟩ := h.way_closed hopen
  obtain ⟨front, idle, -, rfl, hidle, hsegments', hcut⟩ :=
    Path.cut_withFileName hsegments h.busy h.notUp hnew
  refine ⟨_, hsegments', ?_⟩
  have horigin : t.origin (p.withFileName new) = t.origin p := by
    rw [origin, origin, Path.isAbsolute, hcut, Path.isAbsolute]
  obtain ⟨hreach, hway⟩ := follow_eq_ok_iff.mp hfollow
  rw [← List.append_assoc, List.foldlM_append] at hway
  obtain ⟨k', hk', hrest⟩ := bind_cases hway
  rw [horigin, followFrom_idle hidle hrest]
  exact follow_eq_ok_iff.mpr ⟨hreach, hk'⟩

theorem isOpenEnded_withFileName (hnew : Plain new)
    (hsegments : segmentsOf (p.withFileName new) = .ok (p.withFileName new).segments)
    {outer : List String} (houter : (p.withFileName new).segments = outer ++ [new]) :
    isOpenEnded (p.withFileName new) = false := by
  rw [Bool.eq_false_iff, ne_eq, isOpenEnded_iff hsegments, houter, List.getLast?_concat]
  simpa using hnew.ne_empty

/-- **With another file name a path names an entry of the same folder.** -/
theorem withFileName (h : t.Names p k old) (hopen : isOpenEnded p = false) (hnew : Plain new)
    (hsegments : segmentsOf (p.withFileName new) = .ok (p.withFileName new).segments)
    (hshort : new.utf8ByteSize ≤ nameLimit) :
    t.Names (p.withFileName new) k new ∧ isOpenEnded (p.withFileName new) = false := by
  obtain ⟨outer, houter, hfollow⟩ := h.way_withFileName hopen hnew
  exact ⟨⟨hsegments, ⟨outer, [], houter, by simp, hfollow⟩, h.folder, hnew.busy, hnew.notUp,
    hshort⟩, isOpenEnded_withFileName hnew hsegments houter⟩

/-- It names no other entry. -/
theorem eq_of_withFileName (h : t.Names p k old) (hopen : isOpenEnded p = false)
    (hnew : Plain new) (h' : t.Names (p.withFileName new) k' new') : k' = k ∧ new' = new := by
  obtain ⟨outer, houter, hfollow⟩ := h.way_withFileName hopen hnew
  obtain ⟨outer', houter', hfollow'⟩ :=
    h'.way_closed (isOpenEnded_withFileName hnew h'.followable houter)
  rw [houter] at houter'
  obtain ⟨rfl, hlast⟩ := List.append_inj' houter' rfl
  exact ⟨Except.ok.inj (hfollow'.symm.trans hfollow), (List.singleton_inj.mp hlast).symm⟩

/-- With the name it has a path can be followed, since it is not written longer. -/
theorem followable_same (h : t.Names p k old) (hopen : isOpenEnded p = false) :
    segmentsOf (p.withFileName old) = .ok (p.withFileName old).segments := by
  have hold := h.plain
  obtain ⟨-, hnul, -, hlength⟩ := segmentsOf_eq_ok_iff.mp h.followable
  obtain ⟨outer, hsegments, -⟩ := h.way_closed hopen
  have hsublist := Path.text_withFileName_sublist hsegments h.busy h.notUp hold
  obtain ⟨front, idle, -, -, -, hsegments', -⟩ :=
    Path.cut_withFileName hsegments h.busy h.notUp hold
  refine segmentsOf_eq_ok_iff.mpr ⟨rfl, ?_, ?_, ?_⟩
  · rw [holdsNul, List.contains_eq_mem, decide_eq_false_iff_not] at hnul ⊢
    exact fun hmem => hnul (hsublist.subset hmem)
  · intro hempty
    rw [Path.segments, hempty] at hsegments'
    have hlast := congrArg List.getLast? hsegments'
    rw [List.getLast?_concat] at hlast
    exact hold.ne_empty (Option.some.inj hlast).symm
  · exact Nat.le_trans (Text.utf8ByteSize_le_of_sublist hsublist) hlength

end Names

end FileTree

end SongLibrary
