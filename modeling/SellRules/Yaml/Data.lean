import SellRules.Value.Quoted
import SellRules.Yaml.Meaning
import SellRules.Yaml.Node

/-!
# The data of a YAML document

What the nodes of a document stand for: scalars, lists and tables. Of two keys that stand for the same
number or text the later value counts, in the place of the earlier. A key written `<<` puts the rows
of other tables in front. Faults are looked for level by level: those of the root first, then those in
the lists and tables right below it, and so on.

`Yaml.read` covers documents without tags, anchors and block texts, which it refuses, and knows no
dates, which it takes for texts. What a document may stand for in general has a place in `Data` all
the same (`Data.other`), so that what is said of data holds for every reader.
-/

set_option autoImplicit false

namespace SellRules.Yaml

/-- A value of a kind of its own, such as a date, a moment, bytes or a set: what can be seen of it from
outside. -/
structure Other where
  kind : String
  /-- Its place among the values of its kind. -/
  place : List Int
  truthy : Bool
  /-- How messages show it, if they can. -/
  quoted : Option String
  /-- How it stands inside a running text. -/
  display : String
  deriving DecidableEq, Repr

/-- A key of a table. -/
inductive Key where
  | scalar (a : Scalar)
  | other (o : Other)
  deriving DecidableEq, Repr

/-- What a key can be compared with: keys of the same family. -/
inductive Key.Family where
  | number
  | text
  | other (kind : String)
  deriving DecidableEq, Repr

namespace Key

/-- A key that is a text. -/
abbrev text (s : String) : Key := .scalar (.text s)

/-- Whether two keys stand for the same number, text or other value. -/
def same : Key → Key → Bool
  | .scalar a, .scalar b => a.same b
  | .other a, .other b => a.kind == b.kind && a.place == b.place
  | _, _ => false

/-- The family of a key. Nothing is in none. -/
def family? : Key → Option Family
  | .scalar .null => none
  | .scalar (.text _) => some .text
  | .scalar _ => some .number
  | .other o => some (.other o.kind)

/-- Whether keys can be listed in order: all of one family, or no more than one. -/
def sortable (keys : List Key) : Bool :=
  keys.length ≤ 1 || match keys.head?.bind family? with
    | some family => keys.all (·.family? == some family)
    | none => false

/-- The order of keys of one family. -/
def order : Key → Key → Ordering
  | .scalar a, .scalar b => a.order b
  | .other a, .other b => compare a.place b.place
  | .scalar _, .other _ => .lt
  | .other _, .scalar _ => .gt

/-- Whether a key can be shown inside a running text. -/
def isShown : Key → Bool
  | .scalar a => a.toValue.isShown
  | .other _ => true

def display : Key → String
  | .scalar a => a.toValue.display
  | .other o => o.display

/-- A key as messages show it. -/
def quoted : Key → String
  | .scalar a => a.toValue.quoted
  | .other o => o.quoted.getD ""

end Key

inductive Data where
  | scalar (s : Scalar)
  | other (o : Other)
  | list (items : List Data)
  | table (rows : List (Key × Data))
  deriving Repr

/-- The rows of a table. -/
abbrev Rows := List (Key × Data)

namespace Rows

/-- The value of a key. -/
def get? : Rows → Key → Option Data
  | [], _ => none
  | (k, v) :: rest, key => if k.same key then some v else get? rest key

/-- Gives a key a value: a new key comes last, an old one keeps its place and its form. -/
def put (key : Key) (v : Data) : Rows → Rows
  | [] => [(key, v)]
  | (k, w) :: rest => if k.same key then (k, v) :: rest else (k, w) :: put key v rest

/-- The rows with each key once. -/
def unique (rows : Rows) : Rows := rows.foldl (fun before row => put row.1 row.2 before) []

end Rows

namespace Data

/-- Whether data counts as holding something. -/
def truthy : Data → Bool
  | .scalar s => s.toValue.truthy
  | .other o => o.truthy
  | .list items => !items.isEmpty
  | .table rows => !rows.isEmpty

mutual

/-- Data as messages show it. -/
def quoted : Data → String
  | .scalar s => s.toValue.quoted
  | .other o => o.quoted.getD ""
  | .list items => "[" ++ quotedItems items ++ "]"
  | .table rows => "\x7b" ++ quotedRows rows ++ "\x7d"

def quotedItems : List Data → String
  | [] => ""
  | [item] => quoted item
  | item :: rest => quoted item ++ ", " ++ quotedItems rest

def quotedRows : List (Key × Data) → String
  | [] => ""
  | [(key, v)] => key.quoted ++ ": " ++ quoted v
  | (key, v) :: rest => key.quoted ++ ": " ++ quoted v ++ ", " ++ quotedRows rest

end

mutual

/-- Whether data can be shown. -/
def isShown : Data → Bool
  | .scalar s => s.toValue.isShown
  | .other o => o.quoted.isSome
  | .list items => itemsShown items
  | .table rows => rowsShown rows

def itemsShown : List Data → Bool
  | [] => true
  | item :: rest => isShown item && itemsShown rest

def rowsShown : List (Key × Data) → Bool
  | [] => true
  | (key, v) :: rest => key.isShown && isShown v && rowsShown rest

end

/-- The rows that a merge puts in front: those of a table, or those of several, the first of which
counts most. -/
def mergedRows : Data → Except Fault Rows
  | .table rows => .ok rows
  | .list items => do
    let tables ← items.mapM fun item => match item with
      | .table rows => .ok rows
      | _ => .error .malformed
    return tables.reverse.flatten
  | .scalar _ | .other _ => .error .malformed

/-- The key that a node is. The sign of a default value is a text there. -/
def keyOf : Node → Except Fault Scalar
  | .empty => .ok .null
  | .plain s => if s = "=" then .ok (.text s) else meaning s
  | .quoted s => .ok (.text s)
  | _ => .error .malformed

mutual

/-- The data that a node stands for. -/
def ofNode : Node → Except Fault Data
  | .empty => .ok (.scalar .null)
  | .plain s => Data.scalar <$> meaning s
  | .quoted s => .ok (.scalar (.text s))
  | .list items => Data.list <$> ofItems items
  | .table rows => do
    let (merged, own) ← ofRows rows
    return .table (Rows.unique (merged ++ own))

def ofItems : List Node → Except Fault (List Data)
  | [] => .ok []
  | item :: rest => do return (← ofNode item) :: (← ofItems rest)

/-- The rows that are merged into a table, and the table's own. -/
def ofRows : List (Node × Node) → Except Fault (Rows × Rows)
  | [] => .ok ([], [])
  | (.plain "<<", node) :: rest => do
    let rows ← mergedRows (← ofNode node)
    let (merged, own) ← ofRows rest
    return (rows ++ merged, own)
  | (key, node) :: rest => do
    let key ← keyOf key
    let v ← ofNode node
    let (merged, own) ← ofRows rest
    return (merged, (.scalar key, v) :: own)

end


/-! ## Faults by level -/

mutual

/-- The rows that are merged into a table, and the table's own; none if a merge is of anything but
tables. -/
def spread : List (Node × Node) → Option (List (Node × Node) × List (Node × Node))
  | [] => some ([], [])
  | (.plain "<<", node) :: rest => do
    let rows ← spreadMerge node
    let (merged, own) ← spread rest
    return (rows ++ merged, own)
  | row :: rest => do
    let (merged, own) ← spread rest
    return (merged, row :: own)

/-- The rows that a merge of a node puts in front. -/
def spreadMerge : Node → Option (List (Node × Node))
  | .table rows => do
    let (merged, own) ← spread rows
    return merged ++ own
  | .list items => spreadTables items
  | _ => none

def spreadTables : List Node → Option (List (Node × Node))
  | [] => some []
  | .table rows :: rest => do
    let (merged, own) ← spread rows
    return (← spreadTables rest) ++ merged ++ own
  | _ :: _ => none

end

/-- What of a node is looked at on the next level: a list or table. A scalar is looked at here. -/
def visit : Node → Except Fault (List Node)
  | .empty | .quoted _ => .ok []
  | .plain s => (meaning s).map fun _ => []
  | node => .ok [node]

/-- Looks at a row: the key first. -/
def visitRow (row : Node × Node) : Except Fault (List Node) := do
  discard (keyOf row.1)
  visit row.2

/-- Looks at the parts of a list or table, in order. -/
def visitParts : Node → Except Fault (List Node)
  | .list items => return (← items.mapM visit).flatten
  | .table rows =>
    match spread rows with
    | some (merged, own) => return (← (merged ++ own).mapM visitRow).flatten
    | none => throw .malformed
  | _ => .ok []

/-- Looks at the levels from the given nodes on, at most as many as the first argument says. -/
def checkLevels : Nat → List Node → Except Fault Unit
  | 0, _ | _, [] => .ok ()
  | limit + 1, level => do checkLevels limit (← level.mapM visitParts).flatten

end Data

/-- Reads a text that holds one document, if it is covered. -/
def read (s : String) : Except Fault Data := do
  let root ← Node.ofScanned (Scanned.ofText s)
  Data.checkLevels (s.length + 1) (← Data.visit root)
  Data.ofNode root

end SellRules.Yaml
