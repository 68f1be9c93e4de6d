import SongLibrary.Json.Token

/-!
# JSON documents

A document is a JSON text as it stands: members that repeat a key are all there, and numbers and
strings without a value are kept as such. A reader of a fixed shape works on documents, since it
has to see a repeated member and may pass over one it does not know, whatever that holds.
`Document.toJson?` is the value a document denotes.

Documents are built from tokens by a machine whose stack holds the open arrays and objects.
-/

namespace SongLibrary.Json

/-- A JSON text as it stands. -/
inductive Document where
  | null
  | bool (value : Bool)
  | number (value : Option Number)
  | string (value : Option String)
  | array (items : List Document)
  | object (members : List (Option String × Document))
  deriving Inhabited

/-- An array or object that is still open, its parts in reverse. -/
inductive Frame where
  | array (items : List Document)
  | object (members : List (Option String × Document)) (key : Option String)

/-- What has to come next. -/
inductive Await where
  /-- A value. -/
  | value
  /-- The first part of the innermost frame, or its end. -/
  | first
  /-- A key. -/
  | key
  /-- The colon behind a key. -/
  | colon
  /-- A comma, or the end of the innermost frame. -/
  | separator

/-- How far the machine is: the open frames and what comes next, or the whole document. -/
inductive Progress where
  | unfinished (frames : List Frame) (await : Await)
  | finished (document : Document)

/-- Puts a complete value into the innermost frame. -/
def supply (d : Document) : List Frame → Progress
  | [] => .finished d
  | .array items :: frames => .unfinished (.array (d :: items) :: frames) .separator
  | .object members key :: frames =>
    .unfinished (.object ((key, d) :: members) none :: frames) .separator

/-- Reads the beginning of a value. -/
def beginValue (frames : List Frame) : Token → Option Progress
  | .null => some (supply .null frames)
  | .bool value => some (supply (.bool value) frames)
  | .number value => some (supply (.number value) frames)
  | .string value => some (supply (.string value) frames)
  | .openArray => some (.unfinished (.array [] :: frames) .first)
  | .openObject => some (.unfinished (.object [] none :: frames) .first)
  | _ => none

/-- Reads a key of the innermost frame. -/
def beginMember : List Frame → Token → Option Progress
  | .object members _ :: frames, .string key =>
    some (.unfinished (.object members key :: frames) .colon)
  | _, _ => none

/-- Reads the end of the innermost frame. -/
def close : List Frame → Token → Option Progress
  | .array items :: frames, .closeArray => some (supply (.array items.reverse) frames)
  | .object members _ :: frames, .closeObject => some (supply (.object members.reverse) frames)
  | _, _ => none

/-- Reads a token. -/
def readToken (frames : List Frame) (token : Token) : Await → Option Progress
  | .value => beginValue frames token
  | .key => beginMember frames token
  | .colon => if token = .colon then some (.unfinished frames .value) else none
  | .first =>
    match frames with
    | .array _ :: _ => (close frames token).or (beginValue frames token)
    | _ => (close frames token).or (beginMember frames token)
  | .separator =>
    match frames, token with
    | .array _ :: _, .comma => some (.unfinished frames .value)
    | .object _ _ :: _, .comma => some (.unfinished frames .key)
    | _, _ => close frames token

/-- The document that the tokens complete, all of them used up. -/
def assemble : Progress → List Token → Option Document
  | .finished d, tokens => if tokens.isEmpty then some d else none
  | .unfinished _ _, [] => none
  | .unfinished frames await, token :: tokens =>
    match readToken frames token await with
    | none => none
    | some progress => assemble progress tokens

/-- The document of a text. -/
def Document.ofChars? (cs : List Char) : Option Document := do
  assemble (.unfinished [] .value) (← lex cs)

/-! ## Values and documents -/

mutual

/-- The value of a document nested at most `limit` levels. A repeated member keeps the place of the
first and the value of the last. -/
def Document.toJson? (limit : Nat) : Document → Option Json
  | .null => some .null
  | .bool value => some (.bool value)
  | .number value => value.map .number
  | .string value => value.map .string
  | .array items =>
    match limit with
    | 0 => none
    | limit + 1 => (itemsToJson? limit items).map .array
  | .object members =>
    match limit with
    | 0 => none
    | limit + 1 => (membersToJson? limit members).map (fun ms => .object (Assoc.merge [] ms))

/-- The values of the items. -/
def itemsToJson? (limit : Nat) : List Document → Option (List Json)
  | [] => some []
  | item :: rest => do
    let value ← item.toJson? limit
    let values ← itemsToJson? limit rest
    return value :: values

/-- The keys and values of the members, repeated ones included. -/
def membersToJson? (limit : Nat) : List (Option String × Document) → Option (List (String × Json))
  | [] => some []
  | (key, item) :: rest => do
    let key ← key
    let value ← item.toJson? limit
    let values ← membersToJson? limit rest
    return (key, value) :: values

end

/-- The levels to which the arrays and objects of a text may be nested. -/
def nestingLimit : Nat := 127

/-- The value of a JSON text. -/
def ofChars? (cs : List Char) : Option Json := do
  (← Document.ofChars? cs).toJson? nestingLimit

mutual

/-- The document of a value. -/
def toDocument : Json → Document
  | .null => .null
  | .bool value => .bool value
  | .number value => .number (some value)
  | .string value => .string (some value)
  | .array items => .array (itemsToDocument items)
  | .object members => .object (membersToDocument members)

/-- The documents of the items. -/
def itemsToDocument : List Json → List Document
  | [] => []
  | item :: rest => item.toDocument :: itemsToDocument rest

/-- The members as documents. -/
def membersToDocument : List (String × Json) → List (Option String × Document)
  | [] => []
  | (key, value) :: rest => (some key, value.toDocument) :: membersToDocument rest

end

end SongLibrary.Json
