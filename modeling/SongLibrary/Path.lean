import SongLibrary.Text.Split

/-!
# Paths

A path is a text cut into segments by `/`. Its components leave out what does not matter for where
it leads: empty segments and the segment `.`, except that a leading `/` is the component `root` and
a leading `.` the component `current`. Two texts with the same components are the same path, and
paths are ordered by their components, so a folder comes right before what it holds.

The operations that cut a path keep the text of the part they leave.
-/

namespace SongLibrary

/-- A path as written. -/
structure Path where
  text : String
  deriving DecidableEq, Inhabited

namespace Path

/-- A step of a path. -/
inductive Component where
  | root
  | current
  | parent
  | name (name : String)
  deriving DecidableEq

/-- What a path begins with, apart from its segments. -/
inductive Head where
  | nothing
  | root
  | current
  deriving DecidableEq

/-- Whether a segment is no component. -/
def isIdle (segment : String) : Bool := segment.isEmpty || segment == "."

/-- The texts between the separators. -/
def segments (p : Path) : List String :=
  (Text.splitWhere (· == '/') p.text.toList).map String.ofList

/-- The beginning of a path and the segments behind it. -/
def cut (p : Path) : Head × List String :=
  match p.segments with
  | [""] => (.nothing, [])
  | "" :: rest => (.root, rest)
  | "." :: rest => (.current, rest)
  | segments => (.nothing, segments)

/-- The path of a beginning and segments. -/
def join (head : Head) (segments : List String) : Path :=
  let body := String.ofList (Text.joinWith ['/'] (segments.map String.toList))
  match head with
  | .nothing => ⟨body⟩
  | .root => ⟨"/" ++ body⟩
  | .current => ⟨if segments.isEmpty then "." else "./" ++ body⟩

/-- The component of a beginning. -/
def Head.components : Head → List Component
  | .nothing => []
  | .root => [.root]
  | .current => [.current]

/-- The component of a segment. -/
def componentOf (segment : String) : Option Component :=
  if isIdle segment then none else if segment = ".." then some .parent else some (.name segment)

/-- The components of a path. -/
def components (p : Path) : List Component :=
  p.cut.1.components ++ p.cut.2.filterMap componentOf

/-- The place of a component in the order of components, names apart. -/
def Component.rank : Component → Nat
  | .root => 0
  | .current => 1
  | .parent => 2
  | .name _ => 3

/-- The order of components: `/`, `.`, `..`, then names by their characters. -/
def Component.order : Component → Component → Ordering
  | .name a, .name b => compare a b
  | a, b => compare a.rank b.rank

/-- The order of lists of components: the first difference decides, and a list comes before its
continuations. -/
def orderComponents : List Component → List Component → Ordering
  | [], [] => .eq
  | [], _ :: _ => .lt
  | _ :: _, [] => .gt
  | a :: as, b :: bs => (a.order b).then (orderComponents as bs)

/-- The order of paths. -/
def order (p q : Path) : Ordering := orderComponents p.components q.components

/-- Segments without the idle ones at the end. -/
def trimIdle (segments : List String) : List String := (segments.reverse.dropWhile isIdle).reverse

/-- The path of the folder a path lies in: all but the last component. -/
def parent? (p : Path) : Option Path :=
  let (head, body) := p.cut
  match (trimIdle body).reverse with
  | _ :: front => some (join head (trimIdle front.reverse))
  | [] => if head = .current then some ⟨""⟩ else none

/-- The last component, if it is a name. -/
def fileName? (p : Path) : Option String :=
  match (trimIdle p.cut.2).getLast? with
  | none => none
  | some segment => if segment = ".." then none else some segment

/-- A file name cut at its last dot: what stands before it and, unless that is empty, what stands
behind it. -/
def cutName (name : String) : String × Option String :=
  match (Text.splitWhere (· == '.') name.toList).reverse with
  | last :: front@(_ :: _) =>
    let stem := Text.joinWith ['.'] front.reverse
    if stem.isEmpty then (name, none) else (String.ofList stem, some (String.ofList last))
  | _ => (name, none)

/-- The file name without its extension. -/
def stem? (p : Path) : Option String := p.fileName?.map (fun name => (cutName name).1)

/-- What stands behind the last dot of the file name, unless that dot is its first character. -/
def extension? (p : Path) : Option String := p.fileName?.bind (fun name => (cutName name).2)

/-- Whether a path starts at the root. -/
def isAbsolute (p : Path) : Bool := p.cut.1 == .root

/-- A path that goes on behind another one; an absolute path stands for itself. -/
def append (p q : Path) : Path :=
  if q.isAbsolute then q
  else if p.text.isEmpty || p.text.endsWith "/" then ⟨p.text ++ q.text⟩
  else ⟨p.text ++ "/" ++ q.text⟩

instance : Append Path := ⟨append⟩

/-- The path with another file name; without a file name it gets one. -/
def withFileName (p : Path) (name : String) : Path :=
  match p.fileName?, p.parent? with
  | some _, some folder => folder ++ ⟨name⟩
  | _, _ => p ++ ⟨name⟩

/-- The path with another extension; without a file name it stays. The old extension is taken away
first: a name such as `..a` at the end of the text then is that of the parent folder, which gets no
extension. -/
def withExtension (p : Path) (extension : String) : Path :=
  match p.stem? with
  | none => p
  | some stem =>
    let becomesParent := stem = "." ∧ p.cut.2.getLast? = p.fileName?
    join p.cut.1 ((trimIdle p.cut.2).dropLast ++
      [if becomesParent then ".." else stem ++ "." ++ extension])

/-- Segments behind the first `n` components. -/
def dropComponents : Nat → List String → List String
  | 0, segments => segments.dropWhile isIdle
  | _ + 1, [] => []
  | n + 1, segment :: rest =>
    if isIdle segment then dropComponents (n + 1) rest else dropComponents n rest

/-- The path relative to a folder it lies in. -/
def relativeTo? (p folder : Path) : Option Path :=
  let outer := folder.components
  if outer.isPrefixOf p.components then
    let (head, body) := p.cut
    if outer.isEmpty then some (join head (trimIdle body))
    else
      let count := outer.length - head.components.length
      some (join .nothing (trimIdle (dropComponents count body)))
  else none

end Path

end SongLibrary
