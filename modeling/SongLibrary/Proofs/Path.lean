import SongLibrary.Path
import SongLibrary.Proofs.Text.Words

/-!
# What the components of a path decide

Two texts with the same components may differ in their idle segments, and in nothing else. In
particular they start at the same folder and have the same file name.

A name that is put behind a path is its last segment, and what is put behind a dot is the extension.
-/

namespace SongLibrary.Path

/-- How a component is written as a segment. -/
def Component.segment : Component → String
  | .root => ""
  | .current => "."
  | .parent => ".."
  | .name text => text

/-- The name that a component is. -/
def Component.name? : Component → Option String
  | .name text => some text
  | _ => none

/-- The segments that lead from one folder to another. -/
def busySegments (segments : List String) : List String := segments.filter (fun s => !isIdle s)

theorem componentOf_of_idle {segment : String} (h : isIdle segment = true) :
    componentOf segment = none := by
  rw [componentOf, if_pos h]

theorem componentOf_of_busy {segment : String} (h : isIdle segment = false) :
    ∃ c, componentOf segment = some c ∧ c.segment = segment ∧ c ≠ .current ∧
      c.name? = if segment = ".." then none else some segment := by
  rw [componentOf, if_neg (by simp [h])]
  by_cases hparent : segment = ".."
  · exact ⟨.parent, by simp [hparent], hparent.symm, by simp, by simp [hparent, Component.name?]⟩
  · exact ⟨.name segment, by simp [hparent], rfl, by simp, by simp [hparent, Component.name?]⟩

theorem map_segment_componentOf (segments : List String) :
    (segments.filterMap componentOf).map Component.segment = busySegments segments := by
  induction segments with
  | nil => rfl
  | cons s rest ih =>
      cases hs : isIdle s with
      | true => simp [busySegments, componentOf_of_idle hs, hs] at ih ⊢; exact ih
      | false =>
          obtain ⟨c, hc, hsegment, -, -⟩ := componentOf_of_busy hs
          simp [busySegments, hc, hs, hsegment] at ih ⊢; exact ih

/-- Whether a component leads from one folder to another. -/
def Component.moves : Component → Bool
  | .parent | .name _ => true
  | .root | .current => false

theorem moves_of_componentOf {segment : String} {c : Component}
    (h : componentOf segment = some c) : c.moves = true := by
  rw [componentOf] at h
  split at h
  · exact absurd h (by simp)
  split at h <;> rw [← Option.some.inj h] <;> rfl

/-- The components of a path are those of its segments, but for the mark of its beginning. -/
theorem filter_components (p : Path) :
    p.components.filter Component.moves = p.segments.filterMap componentOf := by
  have hfilter : ∀ segments : List String,
      (segments.filterMap componentOf).filter Component.moves
        = segments.filterMap componentOf := by
    intro segments
    refine List.filter_eq_self.mpr fun c hc => ?_
    obtain ⟨s, -, hs⟩ := List.mem_filterMap.mp hc
    exact moves_of_componentOf hs
  rw [components, cut, List.filter_append]
  split
  · rename_i heq
    rw [heq]
    rfl
  · rename_i heq
    rw [heq, hfilter]
    rfl
  · rename_i heq
    rw [heq, hfilter]
    rfl
  · exact hfilter _

/-- **Paths with the same components lead through the same segments.** -/
theorem busySegments_congr {p q : Path} (h : p.components = q.components) :
    busySegments p.segments = busySegments q.segments := by
  rw [← map_segment_componentOf, ← map_segment_componentOf, ← filter_components,
    ← filter_components, h]

/-- The component `root` begins an absolute path, and no other. -/
theorem isAbsolute_iff_root {p : Path} : p.isAbsolute = true ↔ .root ∈ p.components := by
  have hbehind : .root ∉ p.cut.2.filterMap componentOf := by
    intro hmem
    obtain ⟨s, -, hs⟩ := List.mem_filterMap.mp hmem
    exact Bool.noConfusion (moves_of_componentOf hs)
  rw [isAbsolute, components, List.mem_append, or_iff_left hbehind]
  cases p.cut.1 <;> decide

/-- Paths with the same components start at the same folder. -/
theorem isAbsolute_congr {p q : Path} (h : p.components = q.components) :
    p.isAbsolute = q.isAbsolute := by
  rw [Bool.eq_iff_iff, isAbsolute_iff_root, isAbsolute_iff_root, h]

theorem getLast?_filterMap_componentOf (segments : List String) :
    (segments.filterMap componentOf).getLast? = (trimIdle segments).getLast?.bind componentOf := by
  have hhead : ∀ r : List String,
      (r.filterMap componentOf).head? = (r.dropWhile isIdle).head?.bind componentOf := by
    intro r
    induction r with
    | nil => rfl
    | cons s rest ih =>
        cases hs : isIdle s with
        | true => rw [List.filterMap_cons_none (componentOf_of_idle hs), ih]; simp [hs]
        | false =>
            obtain ⟨c, hc, -, -, -⟩ := componentOf_of_busy hs
            rw [List.filterMap_cons_some hc]
            simp [hs, hc]
  rw [trimIdle, List.getLast?_reverse, ← hhead, ← List.head?_reverse, List.filterMap_reverse]

/-- The last segment that is kept is not idle. -/
theorem isIdle_getLast_trimIdle {segments : List String} {s : String}
    (h : (trimIdle segments).getLast? = some s) : isIdle s = false := by
  rw [trimIdle, List.getLast?_reverse] at h
  have hnot := List.head?_dropWhile_not isIdle segments.reverse
  rw [h] at hnot
  simpa using hnot

/-- The file name is the last component, if that is a name. -/
theorem fileName?_eq (p : Path) : p.fileName? = p.components.getLast?.bind Component.name? := by
  have hlast := getLast?_filterMap_componentOf p.cut.2
  rw [fileName?, components, List.getLast?_append, hlast]
  cases htrim : (trimIdle p.cut.2).getLast? with
  | none => cases p.cut.1 <;> rfl
  | some s =>
      obtain ⟨c, hc, -, -, hname⟩ := componentOf_of_busy (isIdle_getLast_trimIdle htrim)
      simp [hc, hname]

/-- The segment that a path begins with instead of what stands behind its beginning. -/
def Head.segments : Head → List String
  | .nothing => []
  | .root => [""]
  | .current => ["."]

/-- A last segment that leads on is not part of the beginning of its path. -/
theorem cut_of_last {p : Path} {outer : List String} {last : String}
    (hsegments : p.segments = outer ++ [last]) (hbusy : isIdle last = false) :
    ∃ front, p.cut.2 = front ++ [last] ∧ p.cut.1.segments ++ front = outer := by
  rw [cut, hsegments]
  cases outer with
  | nil =>
      refine ⟨[], ?_⟩
      rw [List.nil_append]
      split
      · rename_i hempty
        rw [(List.cons.inj hempty).1] at hbusy
        exact Bool.noConfusion hbusy
      · rename_i heq
        rw [(List.cons.inj heq).1] at hbusy
        exact Bool.noConfusion hbusy
      · rename_i heq
        rw [(List.cons.inj heq).1] at hbusy
        exact Bool.noConfusion hbusy
      · exact ⟨rfl, rfl⟩
  | cons s outer =>
      rw [List.cons_append]
      split
      · rename_i hempty
        exact absurd (List.cons.inj hempty).2 (by simp)
      · rename_i heq
        obtain ⟨rfl, rfl⟩ := List.cons.inj heq
        exact ⟨outer, rfl, rfl⟩
      · rename_i heq
        obtain ⟨rfl, rfl⟩ := List.cons.inj heq
        exact ⟨outer, rfl, rfl⟩
      · exact ⟨s :: outer, rfl, rfl⟩

theorem trimIdle_concat (front : List String) {last : String} (hbusy : isIdle last = false) :
    trimIdle (front ++ [last]) = front ++ [last] := by
  rw [trimIdle, List.reverse_append, List.reverse_singleton, List.singleton_append,
    List.dropWhile_cons_of_neg (by simp [hbusy]), List.reverse_cons, List.reverse_reverse]

/-- A last segment that leads on is the file name. -/
theorem fileName?_of_last {p : Path} {outer : List String} {last : String}
    (hsegments : p.segments = outer ++ [last]) (hbusy : isIdle last = false) (hup : last ≠ "..") :
    p.fileName? = some last := by
  obtain ⟨front, hfront, -⟩ := cut_of_last hsegments hbusy
  rw [fileName?, hfront, trimIdle_concat front hbusy, List.getLast?_concat]
  exact if_neg hup

/-- A path that leads up in the end has no file name. -/
theorem fileName?_of_up {p : Path} {outer : List String}
    (hsegments : p.segments = outer ++ [".."]) : p.fileName? = none := by
  have hbusy : isIdle ".." = false := by decide
  obtain ⟨front, hfront, -⟩ := cut_of_last hsegments hbusy
  rw [fileName?, hfront, trimIdle_concat front hbusy, List.getLast?_concat]
  exact if_pos rfl

theorem fileName?_congr {p q : Path} (h : p.components = q.components) :
    p.fileName? = q.fileName? := by
  rw [fileName?_eq, fileName?_eq, h]

theorem extension?_congr {p q : Path} (h : p.components = q.components) :
    p.extension? = q.extension? := by
  rw [extension?, extension?, fileName?_congr h]

/-! ## A path behind a path -/

/-- A path starts at the root if its text starts with a separator. -/
theorem isAbsolute_eq (p : Path) : p.isAbsolute = (p.text.toList.head? == some '/') := by
  rw [isAbsolute, cut, segments]
  cases hchars : p.text.toList with
  | nil => rfl
  | cons c cs =>
      have hne := Text.splitWhere_ne_nil (· == '/') cs
      rw [Text.splitWhere]
      cases hpieces : Text.splitWhere (· == '/') cs with
      | nil => exact absurd hpieces hne
      | cons piece pieces =>
          by_cases hc : c = '/'
          · simp [hc]
          · have hempty : String.ofList (c :: piece) ≠ "" := by simp
            have hhead : ((c :: cs).head? == some '/') = false := by simpa using hc
            simp only [beq_iff_eq, hc, if_false, List.map_cons, hhead]
            split
            · rename_i heq
              exact absurd (List.cons.inj heq).1 hempty
            · rename_i heq
              exact absurd (List.cons.inj heq).1 hempty
            · rfl
            · rfl

theorem endsWith_separator_iff {text : String} :
    text.endsWith "/" = true ↔ ∃ front, text.toList = front ++ ['/'] := by
  have hsuffix : text.endsWith "/" = true ↔ "/".toList <:+ text.toList := by
    refine String.Slice.endsWith_string_iff.trans ?_
    rw [String.copy_toSlice]
  rw [hsuffix]
  exact ⟨fun ⟨front, h⟩ => ⟨front, h.symm⟩, fun ⟨front, h⟩ => ⟨front, h.symm⟩⟩

theorem solid_of_mem_segments {p : Path} {s : String} (h : s ∈ p.segments) : '/' ∉ s.toList := by
  obtain ⟨piece, hpiece, rfl⟩ := List.mem_map.mp h
  rw [String.toList_ofList]
  exact Text.notMem_of_mem_splitWhere hpiece

theorem isAbsolute_of_first {p : Path} {first : String} {rest : List String}
    (h : p.segments = first :: rest) (hfirst : first ≠ "") : p.isAbsolute = false := by
  rw [isAbsolute, cut, h]
  split
  · rfl
  · rename_i heq
    exact absurd (List.cons.inj heq).1 hfirst
  · rfl
  · rfl

/-- Segments that are joined behind a beginning are the segments of the path. -/
theorem segments_join (head : Head) {body : List String} (hne : body ≠ [])
    (hsolid : ∀ s ∈ body, '/' ∉ s.toList) : (join head body).segments = head.segments ++ body := by
  have hpieces : Text.splitWhere (· == '/') (Text.joinWith ['/'] (body.map String.toList)) =
      body.map String.toList := by
    refine Text.splitWhere_joinWith (by simpa using hne) fun piece hpiece => ?_
    obtain ⟨s, hs, rfl⟩ := List.mem_map.mp hpiece
    exact hsolid s hs
  have hbody : (body.map String.toList).map String.ofList = body := by
    simp [Function.comp_def]
  cases head with
  | nothing => simp [join, segments, Head.segments, hpieces]
  | root => simp [join, segments, Head.segments, hpieces, Text.splitWhere]
  | current =>
      have hdot := Text.splitWhere_append (p := (· == '/')) (x := '/') rfl ['.']
        (Text.joinWith ['/'] (body.map String.toList))
      have htext : ("./" ++ String.ofList (Text.joinWith ['/'] (body.map String.toList))).toList =
          ['.'] ++ '/' :: Text.joinWith ['/'] (body.map String.toList) := by simp
      rw [join, if_neg (by simpa using hne), segments, htext, hdot, hpieces, List.map_append, hbody]
      rfl

/-- The segments of a path in front of what goes on behind it. -/
def base (p : Path) : List String :=
  if p.segments.getLast? = some "" then p.segments.dropLast else p.segments

theorem base_cases (p : Path) : p.segments = p.base ∨ p.segments = p.base ++ [""] := by
  rw [base]
  split
  · rename_i hlast
    obtain ⟨front, hfront⟩ := List.getLast?_eq_some_iff.mp hlast
    rw [hfront, List.dropLast_concat]
    exact Or.inr rfl
  · exact Or.inl rfl

/-- The base of a path whose last segment is not empty are its segments. -/
theorem base_of_last {p : Path} {outer : List String} {last : String}
    (h : p.segments = outer ++ [last]) (hlast : last ≠ "") : p.base = outer ++ [last] := by
  rw [base, h, List.getLast?_concat, if_neg (by simpa using hlast)]

/-- A path starts at the root if its base does so. -/
theorem isAbsolute_eq_base (p : Path) : p.isAbsolute = (p.base.head? == some "") := by
  rw [isAbsolute, cut, base]
  cases hsegments : p.segments with
  | nil => rfl
  | cons first rest =>
      by_cases hfirst : first = ""
      · cases rest with
        | nil => simp [hfirst]
        | cons second rest =>
            rw [hfirst]
            show true = _
            split <;> rfl
      · have habsolute := isAbsolute_of_first hsegments hfirst
        rw [isAbsolute, cut, hsegments] at habsolute
        rw [habsolute]
        cases rest with
        | nil => simp [hfirst]
        | cons second rest => split <;> simp [hfirst]

/-- What goes on behind the base of a path starts where the path starts. -/
theorem isAbsolute_of_base {p q : Path} {more : List String} (h : q.base = p.base ++ more)
    (hmore : more.head? ≠ some "") : q.isAbsolute = p.isAbsolute := by
  rw [isAbsolute_eq_base, isAbsolute_eq_base, h, List.head?_append]
  cases p.base.head? with
  | none => simpa using hmore
  | some s => rfl

theorem segments_separator (front rest : List Char) :
    (Text.splitWhere (· == '/') (front ++ '/' :: rest)).map String.ofList =
      (Text.splitWhere (· == '/') front).map String.ofList ++
        (Text.splitWhere (· == '/') rest).map String.ofList := by
  rw [Text.splitWhere_append (by rfl), List.map_append]

/-- **A path behind a path adds its segments.** -/
theorem segments_append (p : Path) {q : Path} (hq : q.isAbsolute = false) :
    (p ++ q).segments = p.base ++ q.segments := by
  show (append p q).segments = _
  rw [append, hq, if_neg Bool.false_ne_true]
  by_cases hempty : p.text = ""
  · have hsegments : p.segments = [""] := by rw [segments, hempty]; rfl
    simp [hempty, base, hsegments]
  by_cases hends : p.text.endsWith "/" = true
  · -- the text ends with a separator, so the last segment is empty
    obtain ⟨front, hfront⟩ := endsWith_separator_iff.mp hends
    have hsegments : p.segments = (Text.splitWhere (· == '/') front).map String.ofList ++ [""] := by
      rw [segments, hfront]
      exact segments_separator front []
    rw [if_pos (by simp [hends]), base, hsegments, List.getLast?_concat, if_pos rfl,
      List.dropLast_concat, segments, String.toList_append, hfront, List.append_assoc]
    exact segments_separator front q.text.toList
  · have hlast : p.segments.getLast? ≠ some "" := by
      intro hlast
      rw [segments, List.getLast?_map] at hlast
      obtain ⟨piece, hpiece, hnil⟩ := Option.map_eq_some_iff.mp hlast
      obtain rfl : piece = [] := by simpa using congrArg String.toList hnil
      rcases Text.getLast?_of_last_piece hpiece with hchars | ⟨c, hc, hsep⟩
      · exact hempty (by simpa using hchars)
      · obtain ⟨front, hfront⟩ := List.getLast?_eq_some_iff.mp hc
        rw [beq_iff_eq.mp hsep] at hfront
        exact hends (endsWith_separator_iff.mpr ⟨front, hfront⟩)
    rw [if_neg (by simp [hempty, hends]), base, if_neg hlast, segments, String.toList_append,
      String.toList_append, List.append_assoc]
    exact segments_separator p.text.toList q.text.toList

/-! ## A name behind a path -/

theorem isAbsolute_of_notMem {name : String} (h : '/' ∉ name.toList) :
    (⟨name⟩ : Path).isAbsolute = false := by
  rw [isAbsolute_eq, beq_eq_false_iff_ne]
  exact fun hhead => h (List.mem_of_mem_head? hhead)

/-- A text without a separator is one segment. -/
theorem segments_of_notMem {name : String} (h : '/' ∉ name.toList) :
    (⟨name⟩ : Path).segments = [name] := by
  rw [segments, Text.splitWhere_of_notMem h]
  simp

/-- What stands between a path and a name behind it. -/
def separator (p : Path) : String := if p.text.isEmpty || p.text.endsWith "/" then "" else "/"

theorem nul_notMem_separator (p : Path) : '\x00' ∉ p.separator.toList := by
  rw [separator]
  split <;> decide

theorem text_append_name (p : Path) {name : String} (h : '/' ∉ name.toList) :
    (p ++ (⟨name⟩ : Path)).text = p.text ++ p.separator ++ name := by
  show (append p ⟨name⟩).text = _
  rw [append, isAbsolute_of_notMem h, if_neg Bool.false_ne_true, separator]
  split <;> simp

/-- A path that goes on by a name starts where it started. -/
theorem isAbsolute_append_name (p : Path) {name : String} (h : '/' ∉ name.toList) :
    (p ++ (⟨name⟩ : Path)).isAbsolute = p.isAbsolute := by
  rw [isAbsolute_eq, isAbsolute_eq, text_append_name p h]
  cases hchars : p.text.toList with
  | nil =>
      -- behind the empty path stands the name alone
      have hempty : p.text = "" := by simpa using hchars
      have hrelative := isAbsolute_of_notMem h
      rw [isAbsolute_eq] at hrelative
      simpa [separator, hempty] using hrelative
  | cons c cs => simp [hchars]

/-- **A name behind a path is one more segment.** Only an empty segment at the end of the path makes
way for it. -/
theorem segments_append_name (p : Path) {name : String} (h : '/' ∉ name.toList) :
    ∃ outer, (p ++ (⟨name⟩ : Path)).segments = outer ++ [name] ∧
      (p.segments = outer ∨ p.segments = outer ++ [""]) := by
  refine ⟨p.base, ?_, p.base_cases⟩
  rw [segments_append p (isAbsolute_of_notMem h), segments_of_notMem h]

/-! ## Extensions -/

/-- What stands in front of an extension is cut off at the dot. -/
theorem cutName_append {name extension : String} (hname : name ≠ "")
    (h : '.' ∉ extension.toList) :
    cutName (name ++ "." ++ extension) = (name, some extension) := by
  have hpieces : Text.splitWhere (· == '.') (name ++ "." ++ extension).toList =
      Text.splitWhere (· == '.') name.toList ++ [extension.toList] := by
    rw [String.toList_append, String.toList_append, List.append_assoc,
      ← Text.splitWhere_of_notMem h]
    exact Text.splitWhere_append (by rfl) _ _
  have hne := Text.splitWhere_ne_nil (· == '.') name.toList
  have hstem := Text.joinWith_splitWhere '.' name.toList
  rw [cutName, hpieces, List.reverse_append, List.reverse_singleton, List.singleton_append]
  cases hfront : (Text.splitWhere (· == '.') name.toList).reverse with
  | nil => exact absurd (List.reverse_eq_nil_iff.mp hfront) hne
  | cons piece pieces =>
      dsimp only
      rw [← hfront, List.reverse_reverse, hstem]
      simp [hname]

/-- A dot at the beginning of a name starts no extension. -/
theorem cutName_dot {rest : String} (h : '.' ∉ rest.toList) :
    cutName ("." ++ rest) = ("." ++ rest, none) := by
  have hpieces : Text.splitWhere (· == '.') ("." ++ rest).toList = [[], rest.toList] := by
    rw [String.toList_append, ← Text.splitWhere_of_notMem h]
    exact Text.splitWhere_append (by rfl) [] rest.toList
  rw [cutName, hpieces]
  rfl

/-- A name without an extension is its own stem; otherwise there is a dot between the two. -/
theorem cutName_cases (name : String) :
    cutName name = (name, none) ∨ ∃ stem extension, cutName name = (stem, some extension) ∧
      stem ≠ "" ∧ name = stem ++ "." ++ extension := by
  have hjoin := Text.joinWith_splitWhere '.' name.toList
  rw [cutName]
  split
  · rename_i last piece pieces hpieces
    dsimp only
    split
    · exact Or.inl rfl
    · rename_i hstem
      refine Or.inr ⟨_, _, rfl, ?_, ?_⟩
      · simpa using hstem
      · have hpieces' := congrArg List.reverse hpieces
        rw [List.reverse_reverse, List.reverse_cons] at hpieces'
        rw [hpieces', Text.joinWith_concat (by simp)] at hjoin
        rw [← String.toList_inj, ← hjoin]
        simp
  · exact Or.inl rfl

theorem solid_stem {name : String} (h : '/' ∉ name.toList) : '/' ∉ (cutName name).1.toList := by
  rcases cutName_cases name with hcut | ⟨stem, extension, hcut, -, hname⟩
  · rw [hcut]
    exact h
  · rw [hcut]
    rw [hname] at h
    exact fun hmem => h (by simp [hmem])

/-- A file name with another extension. What would be `.` in front of it makes it the parent. -/
def nameWith (extension name : String) : String :=
  if (cutName name).1 = "." then ".." else (cutName name).1 ++ "." ++ extension

/-- **Another extension changes the last segment of a path.** -/
theorem segments_withExtension {p : Path} {outer : List String} {last : String}
    (hsegments : p.segments = outer ++ [last]) (hbusy : isIdle last = false) (hup : last ≠ "..")
    {extension : String} (hsolid : '/' ∉ extension.toList) :
    (p.withExtension extension).segments = outer ++ [nameWith extension last] := by
  obtain ⟨front, hfront, houter⟩ := cut_of_last hsegments hbusy
  have hname := fileName?_of_last hsegments hbusy hup
  have hwith : p.withExtension extension = join p.cut.1 (front ++ [nameWith extension last]) := by
    rw [withExtension, stem?, hname, hfront, trimIdle_concat front hbusy, List.dropLast_concat,
      List.getLast?_concat]
    simp [nameWith]
  have hlast : '/' ∉ last.toList := solid_of_mem_segments (p := p) (by rw [hsegments]; simp)
  have hnameWith : '/' ∉ (nameWith extension last).toList := by
    rw [nameWith]
    split
    · decide
    · simp [solid_stem hlast, hsolid]
  rw [hwith, segments_join p.cut.1 (by simp), ← List.append_assoc, houter]
  intro s hs
  rcases List.mem_append.mp hs with hs | hs
  · refine solid_of_mem_segments (p := p) ?_
    rw [hsegments, ← houter]
    simp [hs]
  · rw [List.mem_singleton.mp hs]
    exact hnameWith

end SongLibrary.Path
