import SongLibrary.Json.Document

/-!
# Reading documents of a fixed shape

A record with named members is written as an object, or as an array of its members in their fixed
order. In an object a member the record does not have is passed over, whatever it holds, and a
member it has may stand only once. In an array members may be missing at the end, and no item may
be left over. The reader of each record says which members have a default.
-/

namespace SongLibrary.Json.Document

/-- The readable keys of an object; `none` if a key has no value. -/
def keys? : List (Option String × Document) → Option (List String)
  | [] => some []
  | (key, _) :: rest => do return (← key) :: (← keys? rest)

/-- The document under a key. -/
def find? (key : String) : List (Option String × Document) → Option Document
  | [] => none
  | (key', d) :: rest => if key' = some key then some d else find? key rest

/-- A record: the documents of its members by name. -/
structure Record where
  member? : String → Option Document

/-- Reads a record whose members have these names. -/
def record? (names : List String) : Document → Option Record
  | .object members => do
    let keys ← keys? members
    if (keys.filter (· ∈ names)).Nodup then return ⟨fun name => find? name members⟩ else none
  | .array items =>
    if items.length ≤ names.length then some ⟨fun name => items[names.idxOf name]?⟩ else none
  | _ => none

/-- Reads a member, or takes its default when it is missing. -/
def Record.get {α : Type} (r : Record) (name : String) (default : α)
    (read? : Document → Option α) : Option α :=
  match r.member? name with
  | none => some default
  | some d => read? d

/-- Reads a member that may not be missing. -/
def Record.require {α : Type} (r : Record) (name : String) (read? : Document → Option α) :
    Option α :=
  (r.member? name).bind read?

/-- Reads a text. -/
def text? : Document → Option String
  | .string value => value
  | _ => none

/-- Reads a truth value. -/
def bool? : Document → Option Bool
  | .bool value => some value
  | _ => none

/-- Reads an integer between two bounds. A number with a point or an exponent is no integer. -/
def intWithin? (least most : Int) : Document → Option Int
  | .number (some (.int value _)) => if least ≤ value ∧ value ≤ most then some value else none
  | _ => none

/-- Reads a value that may be null. -/
def nullable? {α : Type} (read? : Document → Option α) : Document → Option (Option α)
  | .null => some none
  | d => (read? d).map some

/-- Reads every item of an array. -/
def list? {α : Type} (read? : Document → Option α) : Document → Option (List α)
  | .array items => items.mapM read?
  | _ => none

/-- Reads one of some named values: its name, or an object with null under the name. -/
def named? {α : Type} (names : List (String × α)) : Document → Option α
  | .string (some name) => names.lookup name
  | .object [(some name, .null)] => names.lookup name
  | _ => none

end SongLibrary.Json.Document
