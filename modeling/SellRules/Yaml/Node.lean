import SellRules.Yaml.Token

/-!
# The nodes of a YAML document

The tree that the tokens of a text describe: texts, lists and tables. A place where nothing is
written is an empty node. Where the tokens do not describe a tree, reading stops at the first one that
does not fit.
-/

set_option autoImplicit false

namespace SellRules.Yaml

inductive Node where
  | empty
  | plain (text : String)
  | quoted (text : String)
  | list (items : List Node)
  | table (rows : List (Node × Node))
  deriving Repr

namespace Node

/-- The tokens from the first on that does not fit. -/
abbrev Misfit := List Token

/-- Whether one of the given tokens comes next. -/
def next (among : List Token) (ts : List Token) : Bool := ts.head?.any among.contains

mutual

/-- Reads a node; a block may begin only outside brackets. The first argument bounds the depth of
the calls. -/
def take (bracketed : Bool) : Nat → List Token → Except Misfit (Node × List Token)
  | 0, ts => .error ts
  | _ + 1, .plain s :: ts => .ok (.plain s, ts)
  | _ + 1, .quoted s :: ts => .ok (.quoted s, ts)
  | limit + 1, .listOpen :: ts => do
    let (items, rest) ← takeItems limit true ts
    return (.list items, rest)
  | limit + 1, .tableOpen :: ts => do
    let (rows, rest) ← takeRows limit true ts
    return (.table rows, rest)
  | limit + 1, .entriesStart :: ts => do
    if bracketed then throw (.entriesStart :: ts)
    let (items, rest) ← takeEntries limit ts
    return (.list items, rest)
  | limit + 1, .keysStart :: ts => do
    if bracketed then throw (.keysStart :: ts)
    let (rows, rest) ← takeKeys limit ts
    return (.table rows, rest)
  | _ + 1, ts => .error ts

/-- Reads a node unless one of the given tokens shows that there is none. -/
def takeUnless (bracketed : Bool) (stops : List Token) :
    Nat → List Token → Except Misfit (Node × List Token)
  | 0, ts => .error ts
  | limit + 1, ts => if next stops ts then .ok (.empty, ts) else take bracketed limit ts

/-- Reads a value after its sign, if the sign is there. -/
def takeValue (bracketed : Bool) (stops : List Token) :
    Nat → List Token → Except Misfit (Node × List Token)
  | 0, ts => .error ts
  | limit + 1, .value :: ts => takeUnless bracketed stops limit ts
  | _ + 1, ts => .ok (.empty, ts)

/-- Reads the entries of a block up to its end. -/
def takeEntries : Nat → List Token → Except Misfit (List Node × List Token)
  | 0, ts => .error ts
  | limit + 1, .entry :: ts => do
    let (item, rest) ← takeUnless false [.entry, .blockEnd] limit ts
    let (items, rest) ← takeEntries limit rest
    return (item :: items, rest)
  | _ + 1, .blockEnd :: ts => .ok ([], ts)
  | _ + 1, ts => .error ts

/-- Reads entries that stand at the column of the key that they belong to. -/
def takeLooseEntries : Nat → List Token → Except Misfit (List Node × List Token)
  | 0, ts => .error ts
  | limit + 1, .entry :: ts => do
    let (item, rest) ← takeUnless false [.entry, .key, .value, .blockEnd] limit ts
    let (items, rest) ← takeLooseEntries limit rest
    return (item :: items, rest)
  | _ + 1, ts => .ok ([], ts)

/-- Reads the part of a row of a block that follows a sign. -/
def takePart : Nat → List Token → Except Misfit (Node × List Token)
  | 0, ts => .error ts
  | limit + 1, ts =>
    if next [.entry] ts then do
      let (items, rest) ← takeLooseEntries limit ts
      return (.list items, rest)
    else takeUnless false [.key, .value, .blockEnd] limit ts

/-- Reads the rows of a block up to its end. -/
def takeKeys : Nat → List Token → Except Misfit (List (Node × Node) × List Token)
  | 0, ts => .error ts
  | limit + 1, .key :: ts => do
    let (key, rest) ← takePart limit ts
    let (value, rest) ← if next [.value] rest then takePart limit rest.tail else .ok (.empty, rest)
    let (rows, rest) ← takeKeys limit rest
    return ((key, value) :: rows, rest)
  | _ + 1, .blockEnd :: ts => .ok ([], ts)
  | _ + 1, ts => .error ts

/-- Reads the items of a list in brackets. A pair of key and value is a table of one row. -/
def takeItems : Nat → Bool → List Token → Except Misfit (List Node × List Token)
  | 0, _, ts => .error ts
  | limit + 1, first, ts => do
    if next [.listClose] ts then return ([], ts.tail)
    let ts ← if first then pure ts else if next [.comma] ts then pure ts.tail else throw ts
    if next [.listClose] ts then return ([], ts.tail)
    if next [.key] ts then
      let (key, rest) ← takeUnless true [.value, .comma, .listClose] limit ts.tail
      let (value, rest) ← takeValue true [.comma, .listClose] limit rest
      let (items, rest) ← takeItems limit false rest
      return (.table [(key, value)] :: items, rest)
    let (item, rest) ← take true limit ts
    let (items, rest) ← takeItems limit false rest
    return (item :: items, rest)

/-- Reads the rows of a table in brackets. A node by itself is a key without value. -/
def takeRows : Nat → Bool → List Token → Except Misfit (List (Node × Node) × List Token)
  | 0, _, ts => .error ts
  | limit + 1, first, ts => do
    if next [.tableClose] ts then return ([], ts.tail)
    let ts ← if first then pure ts else if next [.comma] ts then pure ts.tail else throw ts
    if next [.tableClose] ts then return ([], ts.tail)
    if next [.key] ts then
      let (key, rest) ← takeUnless true [.value, .comma, .tableClose] limit ts.tail
      let (value, rest) ← takeValue true [.comma, .tableClose] limit rest
      let (rows, rest) ← takeRows limit false rest
      return ((key, value) :: rows, rest)
    let (key, rest) ← take true limit ts
    let (rows, rest) ← takeRows limit false rest
    return ((key, .empty) :: rows, rest)

end

/-- Skips the directives in front of a document. A version is stated at most once, and it is one. -/
def skipDirectives (versioned : Bool) : List Token → Except Misfit (List Token)
  | .directive none :: ts => skipDirectives versioned ts
  | .directive (some major) :: ts =>
    if versioned || major ≠ 1 then .error (.directive (some major) :: ts) else skipDirectives true ts
  | ts => .ok ts

/-- The root of a document, which begins with its content or with a start line. -/
def takeRoot (limit : Nat) (ts : List Token) : Except Misfit (Node × List Token) :=
  match ts with
  | [] => .ok (.empty, [])
  | .directive _ :: _ | .documentStart :: _ => do
    let ts ← skipDirectives false ts
    let .documentStart :: ts := ts | throw ts
    match ts with
    | [] | .directive _ :: _ | .documentStart :: _ | .documentEnd :: _ => return (.empty, ts)
    | ts => take false limit ts
  | ts => take false limit ts

/-- The root of the only document in a list of tokens. -/
def ofTokens (ts : List Token) : Except Misfit Node := do
  let (root, rest) ← takeRoot (4 * ts.length + 4) ts
  match rest.dropWhile (· == .documentEnd) with
  | [] => return root
  | rest => throw rest

/-- The root of the only document in the tokens that were read. A fault of the text counts only if
the tokens in front of it fit. -/
def ofScanned (scanned : Scanned) : Except Fault Node :=
  match ofTokens scanned.tokens, scanned.fault with
  | .error (_ :: _), _ | .error [], none => .error .malformed
  | _, some fault => .error fault
  | .ok root, none => .ok root

end Node
end SellRules.Yaml
