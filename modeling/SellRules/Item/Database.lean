import SellRules.Entry.Record
import SellRules.Restriction.Allow

/-!
# The item database

The items, weapons and armors of a game by kind and id. An entry is added once: a second one with
its kind and id is refused. A document holds a list of records for each kind; records that are null
are skipped, since host data counts from one.
-/

set_option autoImplicit false

namespace SellRules

/-- An entry of the database under its key. -/
structure Row where
  key : Key
  entry : Entry
  deriving DecidableEq

def Row.order (a b : Row) : Ordering := a.key.order b.key

instance : Std.TransCmp Row.order where
  eq_swap {a b} := @Std.OrientedCmp.eq_swap _ Key.order _ a.key b.key
  isLE_trans {a b c} := @Std.TransCmp.isLE_trans _ Key.order _ a.key b.key c.key

/-- The rows by kind, then by id. -/
abbrev Database := OrderedList Row.order

namespace Database

/-- The row with a key. -/
def find? (db : Database) (key : Key) : Option Row :=
  db.toList.find? fun row => key.order row.key == .eq

/-- Adds an entry, unless its key is taken. -/
def add (db : Database) (entry : Entry) : Except Failure Database := do
  let key ← entry.key
  match db.find? key with
  | some _ => throw (.showing [entry.id] (.data (.duplicate entry.kind entry.id)))
  | none => return db.put ⟨key, entry⟩

def addAll (db : Database) (entries : List Entry) : Except Failure Database := entries.foldlM add db

/-- The entry of a kind with an id. -/
def get (db : Database) (kind : Kind) (id : Value) : Except Failure Entry :=
  match Scalar.ofValue? id with
  | none => .error .shape
  | some scalar =>
    match db.find? ⟨kind, scalar⟩ with
    | some row => .ok row.entry
    | none => .error (.showing [id] (.data (.unknown kind id)))

def rowsOf (db : Database) (kind : Kind) : List Row := db.toList.filter fun row => row.key.kind = kind

/-- The entries of a kind by id. Ids that cannot be listed beside each other make this fail. -/
def ofKind (db : Database) (kind : Kind) : Except Failure (List Entry) :=
  let rows := db.rowsOf kind
  if Scalar.sortable (rows.map (·.key.id)) then .ok (rows.map (·.entry)) else .error .shape

/-- All entries: items, weapons, armors, each by id. -/
def entries (db : Database) : Except Failure (List Entry) := do
  return (← Kind.all.mapM db.ofKind).flatten

/-- The entries of each kind that a shop buys. -/
def bought (db : Database) (r : Option RestrictionSet) : Except Failure (List (Kind × List Entry)) :=
  Kind.all.mapM fun kind => return (kind, ← RestrictionSet.bought r (← db.ofKind kind))

/-! ## Documents -/

/-- The field of a document that holds the records of a kind. -/
def sectionName : Kind → String
  | .item => "items"
  | .weapon => "weapons"
  | .armor => "armors"

/-- Adds the entries of records, in order. The entries that were read are returned, the one that
was refused included. -/
def addRecords (kind : Kind) (db : Database) : List Value → List Entry × Except Failure Database
  | [] => ([], .ok db)
  | .null :: rest => addRecords kind db rest
  | record :: rest =>
    match Record.toEntry kind record with
    | .error failure => ([], .error failure)
    | .ok entry =>
      match db.add entry with
      | .error failure => ([entry], .error failure)
      | .ok db =>
        let (read, outcome) := addRecords kind db rest
        (entry :: read, outcome)

/-- The records in a section of a document; a section that holds nothing may be of any shape. -/
def recordsOf (document : Fields) (kind : Kind) : Except Failure (List Value) :=
  match document.get? (sectionName kind) with
  | none => .ok []
  | some v =>
    if v.truthy then
      match v.elements? with
      | some records => .ok records
      | none => .error .shape
    else .ok []

/-- Adds the sections of the given kinds, in order. -/
def addSections (document : Fields) (db : Database) : List Kind → List Entry × Except Failure Database
  | [] => ([], .ok db)
  | kind :: rest =>
    match recordsOf document kind with
    | .error failure => ([], .error failure)
    | .ok records =>
      match addRecords kind db records with
      | (read, .error failure) => (read, .error failure)
      | (read, .ok db) =>
        let (more, outcome) := addSections document db rest
        (read ++ more, outcome)

/-- Builds the database of a document, and tells which entries were read. -/
def load (document : Value) : List Entry × Except Failure Database :=
  match document with
  | .object fields => addSections fields .empty Kind.all
  | _ => ([], .error .noMember)

def ofDocument (document : Value) : Except Failure Database := (load document).2

end Database
end SellRules
