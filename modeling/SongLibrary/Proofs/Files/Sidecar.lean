import SongLibrary.Files.Scan
import SongLibrary.Files.Sidecar
import SongLibrary.Proofs.Files.Folder

/-!
# Where sidecar files lie

The songs below a folder are known by the names that lead to them. Taken relative to the folder the
path of a song is these names again, whatever the folder is called, so its sidecar lies under the
export folder where the song lies under the root, under its name with another extension.

Songs of one folder whose names differ in their extensions alone have one sidecar. No other songs
have.
-/

namespace SongLibrary

namespace Path

variable {p root folder : Path} {names inner : List String} {name : String}

/-- Two paths to one folder, and on under names that differ in their extensions alone. -/
def Twins (p q : Path) : Prop :=
  p.components.dropLast = q.components.dropLast ∧ p.stem? = q.stem?

instance (p q : Path) : Decidable (p.Twins q) := inferInstanceAs (Decidable (_ ∧ _))

/-! ## Paths that go on by names -/

theorem base_append_name (p : Path) (hname : FileTree.Plain name) :
    (p ++ (⟨name⟩ : Path)).base = p.base ++ [name] := by
  refine base_of_last ?_ hname.ne_empty
  rw [segments_append p (isAbsolute_of_notMem hname.solid), segments_of_notMem hname.solid]

theorem base_descend (p : Path) (hnames : ∀ name ∈ names, FileTree.Plain name) :
    (p.descend names).base = p.base ++ names := by
  induction names generalizing p with
  | nil => simp [descend]
  | cons name rest ih =>
      have hrest := ih (p ++ (⟨name⟩ : Path)) fun s hs => hnames s (List.mem_cons_of_mem _ hs)
      rw [base_append_name p (hnames name (by simp)), List.append_assoc] at hrest
      exact hrest

/-- The names that lead on from a path can be read off where they lead. -/
theorem descend_inj {names' : List String} (hnames : ∀ name ∈ names, FileTree.Plain name)
    (hnames' : ∀ name ∈ names', FileTree.Plain name)
    (h : p.descend names = p.descend names') : names = names' := by
  have hbase := congrArg base h
  rw [base_descend p hnames, base_descend p hnames'] at hbase
  exact List.append_cancel_left hbase

/-- The last name goes on from where the others lead. -/
theorem descend_concat (p : Path) (inner : List String) (name : String) :
    p.descend (inner ++ [name]) = p.descend inner ++ (⟨name⟩ : Path) := by
  rw [descend, List.foldl_append]
  rfl

/-- The segments of a path that goes on by names end with the names. -/
theorem segments_descend (p : Path) (hnames : ∀ n ∈ inner ++ [name], FileTree.Plain n) :
    (p.descend (inner ++ [name])).segments = p.base ++ inner ++ [name] := by
  have hname := hnames name (by simp)
  rw [descend_concat, segments_append _ (isAbsolute_of_notMem hname.solid),
    segments_of_notMem hname.solid, base_descend p fun s hs => hnames s (by simp [hs])]

/-- Only the empty path is a single empty segment. -/
theorem segments_ne_empty (hne : p.text ≠ "") : p.segments ≠ [""] := by
  intro h
  have hpieces : Text.splitWhere (· == '/') p.text.toList = [[]] := by
    obtain ⟨piece, hpiece, hnil⟩ := List.map_eq_singleton_iff.mp h
    rw [hpiece, show piece = [] by simpa using congrArg String.toList hnil]
  have htext := Text.joinWith_splitWhere '/' p.text.toList
  rw [hpieces] at htext
  exact hne (by simpa [Text.joinWith] using htext.symm)

theorem base_ne_nil (hne : p.text ≠ "") : p.base ≠ [] := by
  intro hbase
  have hsegments : p.segments ≠ [] := by simpa [segments] using Text.splitWhere_ne_nil _ _
  rcases p.base_cases with h | h
  · exact hsegments (h.trans hbase)
  · rw [hbase] at h
    exact segments_ne_empty hne h

/-- The beginning of a path is in its first segment, unless there is no other and it is empty. -/
theorem cut_of_first (first : String) :
    ∃ head front, head.components ++ front.filterMap componentOf ≠ [] ∧ ∀ {q : Path} {rest},
      q.segments = first :: rest → (first = "" → rest ≠ []) → q.cut = (head, front ++ rest) := by
  by_cases hempty : first = ""
  · refine ⟨.root, [], by simp [Head.components], fun {q rest} h hrest => ?_⟩
    obtain ⟨second, rest, rfl⟩ := List.exists_cons_of_ne_nil (hrest hempty)
    rw [cut, h, hempty]
    rfl
  by_cases hdot : first = "."
  · refine ⟨.current, [], by simp [Head.components], fun {q rest} h _ => ?_⟩
    rw [cut, h, hdot]
    rfl
  -- a path that begins with no mark begins with a component
  have hbusy : isIdle first = false := by simp [isIdle, hempty, hdot]
  obtain ⟨c, hc, -⟩ := componentOf_of_busy hbusy
  refine ⟨.nothing, [first], by simp [hc], fun {q rest} h _ => ?_⟩
  rw [cut, h]
  split
  · rename_i heq
    exact absurd (List.cons.inj heq).1 hempty
  · rename_i heq
    exact absurd (List.cons.inj heq).1 hempty
  · rename_i heq
    exact absurd (List.cons.inj heq).1 hdot
  · rfl

/-- The beginning of a path. What goes on behind the base of the path does not change it. -/
theorem cut_base (hne : p.text ≠ "") :
    ∃ head front,
      (∀ {q : Path} {more}, q.segments = p.base ++ more → more ≠ [] →
        q.cut = (head, front ++ more)) ∧
      p.components = head.components ++ front.filterMap componentOf ∧ p.components ≠ [] := by
  obtain ⟨first, rest, hbase⟩ := List.exists_cons_of_ne_nil (base_ne_nil hne)
  obtain ⟨head, front, hfirst, hcut⟩ := cut_of_first first
  have hcomponents : p.components = head.components ++ (front ++ rest).filterMap componentOf := by
    rcases p.base_cases with h | h
    · rw [hbase] at h
      have hrest : first = "" → rest ≠ [] := by
        rintro rfl rfl
        exact segments_ne_empty hne h
      rw [components, hcut h hrest]
    · rw [hbase] at h
      rw [components, hcut h (fun _ => by simp)]
      simp [componentOf_of_idle (show isIdle "" = true by decide)]
  refine ⟨head, front ++ rest, fun {q more} hq hmore => ?_, hcomponents, ?_⟩
  · rw [hbase] at hq
    rw [List.append_assoc]
    exact hcut hq fun _ => by simp [hmore]
  · rw [hcomponents, List.filterMap_append, ← List.append_assoc]
    exact List.append_ne_nil_of_left_ne_nil hfirst _

theorem filterMap_componentOf_plain (hnames : ∀ n ∈ names, FileTree.Plain n) :
    names.filterMap componentOf = names.map .name := by
  rw [← List.filterMap_eq_map]
  refine List.filterMap_congr fun n hn => ?_
  rw [componentOf, if_neg (by simp [(hnames n hn).busy]), if_neg (hnames n hn).notUp]
  rfl

/-- The components of a path that goes on by names are those of the path and the names. -/
theorem components_descend (hne : p.text ≠ "")
    (hnames : ∀ n ∈ inner ++ [name], FileTree.Plain n) :
    (p.descend (inner ++ [name])).components = p.components ++ (inner ++ [name]).map .name := by
  obtain ⟨head, front, hcut, hp, -⟩ := cut_base hne
  have hsegments := segments_descend p hnames
  rw [List.append_assoc] at hsegments
  rw [components, hcut hsegments (by simp), List.filterMap_append,
    filterMap_componentOf_plain hnames, hp, List.append_assoc]

theorem dropComponents_append (front rest : List String) :
    dropComponents (front.filterMap componentOf).length (front ++ rest) =
      rest.dropWhile isIdle := by
  induction front with
  | nil => simp [dropComponents]
  | cons s front ih =>
      cases hs : isIdle s with
      | true =>
          -- an idle segment is dropped without being counted
          rw [List.filterMap_cons_none (componentOf_of_idle hs), List.cons_append]
          cases hlength : (front.filterMap componentOf).length with
          | zero =>
              rw [hlength, dropComponents] at ih
              rw [dropComponents, List.dropWhile_cons_of_pos hs]
              exact ih
          | succ n =>
              rw [hlength] at ih
              rw [dropComponents, if_pos hs]
              exact ih
      | false =>
          obtain ⟨c, hc, -⟩ := componentOf_of_busy hs
          rw [List.filterMap_cons_some hc, List.length_cons, List.cons_append, dropComponents,
            if_neg (by simp [hs])]
          exact ih

/-- **A path that goes on by names is these names, relative to where it comes from.** -/
theorem relativeTo?_descend (hne : root.text ≠ "")
    (hnames : ∀ n ∈ inner ++ [name], FileTree.Plain n) :
    (root.descend (inner ++ [name])).relativeTo? root = some (join .nothing (inner ++ [name])) := by
  obtain ⟨head, front, hcut, hroot, hcomponents⟩ := cut_base hne
  have hsegments := segments_descend root hnames
  rw [List.append_assoc] at hsegments
  have hprefix : root.components.isPrefixOf (root.descend (inner ++ [name])).components = true := by
    rw [components_descend hne hnames, List.isPrefixOf_iff_prefix]
    exact List.prefix_append _ _
  have hdrop : (inner ++ [name]).dropWhile isIdle = inner ++ [name] := by
    refine Text.dropWhile_of_stops fun s hs => (hnames s ?_).busy
    exact List.mem_of_mem_head? hs
  have htrim : trimIdle (inner ++ [name]) = inner ++ [name] :=
    trimIdle_concat inner (hnames name (by simp)).busy
  have hcount : root.components.length - head.components.length =
      (front.filterMap componentOf).length := by
    rw [hroot, List.length_append, Nat.add_sub_cancel_left]
  rw [relativeTo?, if_pos hprefix, hcut hsegments (by simp)]
  dsimp only
  rw [hcount, dropComponents_append, hdrop, htrim, if_neg (by simpa using hcomponents)]

/-! ## Sidecars -/

/-- **The sidecar of a song lies where the song does, under another name.** -/
theorem segments_sidecar (hne : root.text ≠ "")
    (hnames : ∀ n ∈ inner ++ [name], FileTree.Plain n) (folder : Path) :
    ((root.descend (inner ++ [name])).sidecar (some root) folder).segments =
      folder.base ++ inner ++ [nameWith "json" name] := by
  have hname := hnames name (by simp)
  have hjoin : (join .nothing (inner ++ [name])).segments = inner ++ [name] :=
    segments_join .nothing (by simp) fun s hs => (hnames s hs).solid
  have hrelative : (join .nothing (inner ++ [name])).isAbsolute = false := by
    obtain ⟨first, rest, hfirst⟩ := List.exists_cons_of_ne_nil (show inner ++ [name] ≠ [] by simp)
    exact isAbsolute_of_first (hjoin.trans hfirst) (hnames first (by simp [hfirst])).ne_empty
  have hsegments := segments_append folder hrelative
  rw [hjoin, ← List.append_assoc] at hsegments
  have hsidecar : (root.descend (inner ++ [name])).sidecar (some root) folder =
      (folder ++ join .nothing (inner ++ [name])).withExtension "json" := by
    rw [sidecar, Option.bind_some, relativeTo?_descend hne hnames]
    rfl
  rw [hsidecar]
  exact segments_withExtension hsegments hname.busy hname.notUp (by decide)

/-- A name with another extension leads on. -/
theorem nameWith_ne_empty (extension name : String) : nameWith extension name ≠ "" := by
  rw [nameWith]
  split <;> simp

/-- The sidecar of a song is looked for where the export folder is. -/
theorem isAbsolute_sidecar (hne : root.text ≠ "")
    (hnames : ∀ n ∈ inner ++ [name], FileTree.Plain n) (folder : Path) :
    ((root.descend (inner ++ [name])).sidecar (some root) folder).isAbsolute =
      folder.isAbsolute := by
  have hbase := base_of_last (segments_sidecar hne hnames folder) (nameWith_ne_empty "json" name)
  rw [List.append_assoc] at hbase
  refine isAbsolute_of_base hbase fun hhead => ?_
  rcases List.mem_append.mp (List.mem_of_mem_head? hhead) with hmem | hmem
  · exact (hnames "" (List.mem_append_left _ hmem)).ne_empty rfl
  · exact nameWith_ne_empty "json" name (List.mem_singleton.mp hmem).symm

/-- **Songs below one folder are twins if the names on the way to them are the same**, and so are
their own names but for the extensions. -/
theorem twins_descend_iff {inner' : List String} {name' : String} (hne : root.text ≠ "")
    (hnames : ∀ n ∈ inner ++ [name], FileTree.Plain n)
    (hnames' : ∀ n ∈ inner' ++ [name'], FileTree.Plain n) :
    (root.descend (inner ++ [name])).Twins (root.descend (inner' ++ [name'])) ↔
      inner = inner' ∧ (cutName name).1 = (cutName name').1 := by
  have hfront : ∀ {inner : List String} {name : String}, (∀ n ∈ inner ++ [name], FileTree.Plain n) →
      (root.descend (inner ++ [name])).components.dropLast =
        root.components ++ inner.map .name := by
    intro inner name hnames
    rw [components_descend hne hnames, List.map_append, ← List.append_assoc,
      List.map_singleton, List.dropLast_concat]
  have hstem : ∀ {inner : List String} {name : String}, (∀ n ∈ inner ++ [name], FileTree.Plain n) →
      (root.descend (inner ++ [name])).stem? = some (cutName name).1 := by
    intro inner name hnames
    have hname := hnames name (by simp)
    rw [stem?, fileName?_of_last (segments_descend root hnames) hname.busy hname.notUp]
    rfl
  have hinjective : Function.Injective Component.name := fun a b h => Component.name.inj h
  rw [Twins, hfront hnames, hfront hnames', hstem hnames, hstem hnames', List.append_right_inj,
    (List.map_injective_iff.mpr hinjective).eq_iff, Option.some_inj]

/-- A name with another extension is a plain name, or it would be the parent. -/
theorem plain_nameWith {extension : String} (hsolid : '/' ∉ extension.toList)
    (hextension : extension ≠ "") (hname : FileTree.Plain name)
    (hup : nameWith extension name ≠ "..") :
    FileTree.Plain (nameWith extension name) ∧
      nameWith extension name = (cutName name).1 ++ "." ++ extension := by
  have hwith : nameWith extension name = (cutName name).1 ++ "." ++ extension := by
    rw [nameWith] at hup ⊢
    split at hup
    · exact absurd rfl hup
    · rename_i hstem
      rw [if_neg hstem]
  refine ⟨⟨?_, ?_, hup⟩, hwith⟩
  · rw [hwith]
    simp [solid_stem hname.solid, hsolid]
  · rw [hwith, isIdle, Bool.or_eq_false_iff]
    refine ⟨by simp, beq_eq_false_iff_ne.mpr fun hdot => hextension ?_⟩
    have hlength := congrArg String.length hdot
    rw [String.length_append, String.length_append, show ".".length = 1 from rfl] at hlength
    rw [← String.length_eq_zero_iff]
    omega

end Path

namespace FileTree

open SongLibrary.Path

variable {t : FileTree} {k l m : Location} {names inner inner' : List String} {name name' : String}
  {root folder : Path} {f f' : File}

/-- Plain names lead down. -/
theorem followFrom_plain (hnames : ∀ n ∈ names, Plain n) (h : names.foldlM t.step l = .ok m) :
    m = l ++ names := by
  induction names generalizing l with
  | nil => rw [List.append_nil]; exact (Except.ok.inj h).symm
  | cons n rest ih =>
      obtain ⟨l', hs, hrest⟩ := followFrom_cons h
      have hn := hnames n (by simp)
      obtain ⟨-, ⟨hidle, -⟩ | ⟨-, hup, -⟩ | ⟨-, -, -, rfl, -⟩⟩ := step_eq_ok_iff.mp hs
      · rw [hn.busy] at hidle
        exact Bool.noConfusion hidle
      · exact absurd hup hn.notUp
      · rw [ih (fun s hs => hnames s (List.mem_cons_of_mem _ hs)) hrest, List.append_assoc]
        rfl

/-- A sidecar that has been written lies below the export folder where its song lies below the
root. -/
theorem location_sidecar (hne : root.text ≠ "") (hnames : ∀ n ∈ inner ++ [name], Plain n)
    (hl : t.locate ((root.descend (inner ++ [name])).sidecar (some root) folder) = .ok l)
    (hf : t.entry? l = some (.file f)) :
    ∃ k, t.follow (t.origin folder) folder.base = .ok k ∧
      l = k ++ inner ++ [(cutName name).1 ++ "." ++ "json"] := by
  have hsegments := segments_sidecar hne hnames folder
  obtain ⟨-, hfollow⟩ := locate_cases hl
  have hup : nameWith "json" name ≠ ".." := by
    intro hup
    -- the path would have no file name, but what it leads to has one
    have hname := fileName?_of_file hl hf
    rw [hup] at hsegments
    rw [fileName?_of_up hsegments] at hname
    rw [List.getLast?_eq_none_iff.mp hname.symm] at hf
    exact absurd hf (by simp [ entry?])
  obtain ⟨hplain, hnameWith⟩ :=
    plain_nameWith (by decide) (by decide) (hnames name (by simp)) hup
  obtain ⟨hreach, hway⟩ := follow_eq_ok_iff.mp hfollow
  rw [hsegments, List.append_assoc, List.foldlM_append, origin, isAbsolute_sidecar hne hnames]
    at hway
  rw [origin, isAbsolute_sidecar hne hnames] at hreach
  obtain ⟨k, hk, hrest⟩ := bind_cases hway
  refine ⟨k, follow_eq_ok_iff.mpr ⟨hreach, hk⟩, ?_⟩
  rw [List.append_assoc, ← hnameWith]
  refine followFrom_plain (fun n hn => ?_) hrest
  rcases List.mem_append.mp hn with hn | hn
  · exact hnames n (List.mem_append_left _ hn)
  · rw [List.mem_singleton.mp hn]
    exact hplain

/-- What lies below a folder is reached from there by plain names. -/
structure Below (root p : Path) (inner : List String) (name : String) : Prop where
  path : p = root.descend (inner ++ [name])
  plain : ∀ n ∈ inner ++ [name], Plain n

/-- **Two sidecars lie at one location just if their songs are twins.** -/
theorem sidecars_eq_iff {p q : Path} (hne : root.text ≠ "")
    (hp : Below root p inner name) (hq : Below root q inner' name')
    (hl : t.locate (p.sidecar (some root) folder) = .ok l) (hf : t.entry? l = some (.file f))
    (hm : t.locate (q.sidecar (some root) folder) = .ok m) (hf' : t.entry? m = some (.file f')) :
    l = m ↔ p.Twins q := by
  obtain ⟨rfl, hnames⟩ := hp
  obtain ⟨rfl, hnames'⟩ := hq
  obtain ⟨k, hk, rfl⟩ := location_sidecar hne hnames hl hf
  obtain ⟨k', hk', rfl⟩ := location_sidecar hne hnames' hm hf'
  obtain rfl := Except.ok.inj (hk.symm.trans hk')
  rw [twins_descend_iff hne hnames hnames', List.append_assoc, List.append_assoc,
    List.append_right_inj]
  constructor
  · intro h
    obtain ⟨hinner, hlast⟩ := List.append_inj' h rfl
    refine ⟨hinner, ?_⟩
    rw [← String.toList_inj]
    simpa [← String.toList_inj] using hlast
  · rintro ⟨rfl, hstem⟩
    rw [hstem]

end FileTree

end SongLibrary
