import OptimisticStore.Toml.Moment
/-!
A reader of TOML documents: keys, tables and their headers.

Settings take their documents through any reader (`Settings.ofToml`); this is one to run them with. A
document is a sequence of lines, each a header, a key with a value, a comment or nothing. Every name
is defined once; a table named only on the way to another one may still get a header of its own, and a
table made by dotted keys may be added to by dotted keys of the same table.
-/
namespace OptimisticStore.Toml

open Text Text.Reader

/-- How deep values may lie within each other, and how many parts a key may have. -/
def depthLimit : Nat := 79

/-! ### Keys -/

def isBareChar (c : Char) : Bool := c.isAlphanum || c == '-' || c == '_'

def simpleKey : Reader String := do
  match ← peek? with
  | some '"' => basicString
  | some '\'' => literalString
  | _ => return String.ofList (← span1 isBareChar)

def key : Reader (List String) := do
  let parts ← separated1 (char '.') (do
    blanks
    let part ← simpleKey
    blanks
    return part)
  require (parts.length ≤ depthLimit)
  return parts

/-! ### Defining names -/

/-- Reach the table at a path below `table`, making tables on the way, and let `act` change it. A value
cannot be entered, nor a table that is complete; by dotted keys only one made by dotted keys or
implied by a header can. Of tables under repeated headers the latest is entered. -/
def descend (byDottedKey : Bool) (act : Origin → Table → Option Table) :
    List String → Origin → Table → Option Table
  | [], origin, table => act origin table
  | name :: path, _, table =>
    match table.get? name with
    | none => do
      let origin := if byDottedKey then .dotted else .implied
      return table ++ [(name, .table origin (← descend byDottedKey act path origin []))]
    | some (.table origin inner) =>
      if origin = .inline ∨ (byDottedKey ∧ origin = .header) then none
      else do return table.replace name (.table origin (← descend byDottedKey act path origin inner))
    | some (.tables elements) =>
      match elements.getLast? with
      | none => none
      | some last => do
        let changed ← descend byDottedKey act path .header last
        return table.replace name (.tables (elements.dropLast ++ [changed]))
    | some _ => none

/-- Give a value to a name of the table that holds it. A dotted key defines names of tables made by
dotted keys, and a plain key those of the table it is written in. -/
def define (path : List String) (name : String) (value : Value) (origin : Origin) (table : Table) :
    Option Table :=
  descend true (fun reached entries =>
    if (reached == .dotted) == path.isEmpty || entries.contains name then none
    else some (entries ++ [(name, value)])) path origin table

def defineKey (parts : List String) (value : Value) (origin : Origin) (table : Table) : Option Table := do
  define parts.dropLast (← parts.getLast?) value origin table

/-! ### Values -/

def gap : Reader Unit := do
  let _ ← many ((one isBlank *> pure ()) <|> newline <|> comment)

def value : Nat → Reader Value
  | 0 => scalar
  | depth + 1 => do
    let item : Reader Value := do
      gap
      let item ← value depth
      gap
      return item
    let member : Reader (List String × Value) := do
      let parts ← key
      char '='
      blanks
      let member ← value depth
      blanks
      return (parts, member)
    match ← peek? with
    | some '[' =>
      char '['
      let items ← separated (char ',') item
      let _ ← optional (do require !items.isEmpty; char ',')
      gap
      char ']'
      return .array items
    | some '\x7b' =>
      char '\x7b'
      let members ← separated (char ',') member
      blanks
      char '\x7d'
      let table := members.foldlM (fun table member => defineKey member.1 member.2 .inline table) []
      match table with
      | some entries => return .table .inline entries
      | none => refuse
    | _ => scalar

/-! ### Documents -/

structure Draft where
  root : Table := []
  current : Table := []
  path : List String := []
  repeated : Bool := false

namespace Draft

def close (draft : Draft) : Option Table :=
  match draft.path.getLast? with
  | none => some draft.current
  | some name => descend false (fun _ parent =>
      match parent.get? name with
      | some (.tables elements) =>
        if draft.repeated then some (parent.replace name (.tables (elements ++ [draft.current])))
        else none
      | some (.table .implied _) =>
        if draft.repeated then none else some (parent.replace name (.table .header draft.current))
      | some _ => none
      | none => some (parent ++ [(name,
          if draft.repeated then .tables [draft.current] else .table .header draft.current)]))
      draft.path.dropLast .header draft.root

def impliedAt (name : String) (parent : Table) : Option Table :=
  match parent.get? name with
  | none => some []
  | some (.table .implied entries) => some entries
  | some _ => none

def openTable (draft : Draft) (path : List String) : Option Draft := do
  let closed ← draft.close
  let name ← path.getLast?
  let root ← descend false (fun _ parent => do
    let _ ← impliedAt name parent
    return parent) path.dropLast .header closed
  let reached ← find path.dropLast root
  let current ← impliedAt name reached
  let root ← descend false (fun _ parent => some (parent.remove name)) path.dropLast .header root
  return { root, current, path, repeated := false }
where
  /-- The table at a path whose tables exist. -/
  find : List String → Table → Option Table
    | [], table => some table
    | name :: rest, table => match table.get? name with
      | some (.table _ inner) => find rest inner
      | some (.tables elements) => elements.getLast?.bind (find rest)
      | _ => none

def openRepeated (draft : Draft) (path : List String) : Option Draft := do
  let closed ← draft.close
  let name ← path.getLast?
  let root ← descend false (fun _ parent =>
    match parent.get? name with
    | none => some (parent ++ [(name, .tables [])])
    | some (.tables _) => some parent
    | some _ => none) path.dropLast .header closed
  return { root, current := [], path, repeated := true }

end Draft

/-- What may follow on a line: blanks, a comment, and its end or that of the text. -/
def restOfLine : Reader Unit := do
  blanks
  let _ ← optional comment
  newline <|> finish

def ofOption {α : Type} : Option α → Reader α
  | some result => pure result
  | none => refuse

def headerLine (draft : Draft) : Reader Draft :=
  (do
    literal "[["
    let path ← key
    literal "]]"
    restOfLine
    ofOption (draft.openRepeated path)) <|> (do
    char '['
    let path ← key
    char ']'
    restOfLine
    ofOption (draft.openTable path))

def keyLine (draft : Draft) : Reader Draft := do
  let parts ← key
  char '='
  blanks
  let item ← value depthLimit
  restOfLine
  let current ← ofOption (defineKey parts item .header draft.current)
  return { draft with current }

def line (draft : Draft) : Reader Draft := do
  blanks
  match ← peek? with
  | some '[' => headerLine draft
  | some '#' | some '\n' | some '\x0d' => do restOfLine; return draft
  | _ => keyLine draft

def lines : Nat → Draft → Reader Draft
  | 0, draft => do
    finish
    return draft
  | bound + 1, draft => do
    blanks
    if (← get).isEmpty then return draft
    lines bound (← line draft)

/-- A whole document in which every table that is marked as a moment spells one; a byte order mark in
front is passed over. -/
def parse (text : String) : Option Table := do
  let draft ← readAll (do
    let _ ← optional (char '\ufeff')
    lines (text.length + 1) {}) text
  let root ← draft.close
  if entriesMarkMoments root then return root else none

def read (text : String) : Except String Table :=
  match parse text with
  | some table => .ok table
  | none => .error "not a TOML document"

end OptimisticStore.Toml
