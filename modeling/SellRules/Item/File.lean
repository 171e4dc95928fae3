import SellRules.File
import SellRules.Item.Database
import SellRules.Json.Reader

/-!
# Item data files

An item database is kept in a file that holds one JSON object.
-/

set_option autoImplicit false

namespace SellRules.Database

/-- The document in a file. The path is the one that messages show. -/
def readDocument (path : String) (file : FileState) : Except Failure Value :=
  match file with
  | .missing => .error (.noDatabase path)
  | file => do
    let s ← file.text path
    match Json.read s with
    | .ok (.object fields) => return .object fields
    | .ok _ => throw (.data (.notAnObject path))
    | .error (.malformed fault position) =>
      let cs := s.toList
      throw (.data (.badText path (Json.lineOf cs position) (Json.columnOf cs position) fault))
    | .error (.tooManyDigits count) => throw (.value (.tooManyDigits count))
    | .error .tooDeep => throw (.value .tooDeep)

/-- Builds the database of a file, and tells which entries were read. -/
def loadFile (path : String) (file : FileState) : List Entry × Except Failure Database :=
  match readDocument path file with
  | .ok document => load document
  | .error failure => ([], .error failure)

end SellRules.Database
