import SellRules.CommandLine.Request
import SellRules.Item.File
import SellRules.Json.Writer
import SellRules.Log
import SellRules.Restriction.Structured
import SellRules.Restriction.Token

/-!
# Running the commands

What a command prints, reports and returns. A command ends with status zero and one JSON document on
standard output, or with status two and a message on standard error. A few failures are no fault of
the declaration or the data, as far as the command can tell; they are passed on.
-/

set_option autoImplicit false

namespace SellRules.CommandLine

/-- The end of a run. -/
structure Outcome where
  status : Nat := 0
  output : String := ""
  errors : String := ""
  log : List Log.Line := []
  deriving DecidableEq

/-! ## Parts of the program that report -/

def programSource : String := "shop_restrictions.cli"

def parserSource : String := "shop_restrictions.restrictions.parser"

def entrySource : String := "shop_restrictions.items.models"

def schemaSource : String := "shop_restrictions.items.schema"

def databaseSource : String := "shop_restrictions.items.database"

/-- The report on an entry that was read. -/
def entryLine (entry : Entry) : Log.Line :=
  ⟨.debug, entrySource,
    "Loaded " ++ entry.kind.name ++ " " ++ entry.id.display ++ " (" ++ entry.name.display ++ ")"⟩

/-- The report on a departure from a schema. -/
def violationLine (schema : String) (v : Violation) : Log.Line :=
  ⟨.error, schemaSource,
    schema ++ " record validation error at " ++ (Value.list (v.path.map .text)).quoted ++ ": " ++
      v.message⟩

/-- The reports on a failure to read data. -/
def failureLines : Failure → List Log.Line
  | .data (.badRecord schema violations) => violations.map (violationLine schema)
  | _ => []

/-- The report on restrictions that were read in one of the two forms. -/
def restrictionsLine (form : String) (fields : Fields) : Log.Line :=
  ⟨.debug, parserSource, "Parsed " ++ form ++ " restrictions: " ++ (Value.object fields).quoted⟩

/-! ## Declarations and data -/

/-- The restrictions that were read, with the report on them. -/
def reported (form : String) (r : Except Failure RestrictionSet) :
    Except Failure (List Log.Line × Option RestrictionSet) := do
  let r ← r
  return ([restrictionsLine form (← r.toFields)], some r)

/-- The restrictions of a structured declaration. -/
def readStructured (text : String) : Except Failure RestrictionSet :=
  match Json.read text with
  | .ok fields => Structured.parse fields
  | .error (.malformed fault _) => .error (.declaration none (.badArgumentText fault))
  | .error (.tooManyDigits count) => .error (.value (.tooManyDigits count))
  | .error .tooDeep => .error (.value .tooDeep)

/-- The restrictions that a command line declares, if any, and what is reported. -/
def Declaration.read : Declaration → Except Failure (List Log.Line × Option RestrictionSet)
  | .absent => .ok ([], none)
  | .tokens words => reported "token" (Token.parse words)
  | .structured text => reported "structured" (readStructured text)

/-- The database in a file, and what is reported. -/
def readData (path : String) (file : FileState) : List Log.Line × Except Failure Database :=
  match Database.loadFile path file with
  | (entries, .ok db) =>
    (entries.map entryLine ++
      [⟨.info, databaseSource, s!"Loaded item database: {db.size} entries"⟩], .ok db)
  | (entries, .error failure) => (entries.map entryLine ++ failureLines failure, .error failure)

/-! ## Commands -/

/-- What a command reports, and the document that it prints. -/
abbrev Findings := List Log.Line × Except Failure Value

/-- The document of a restriction set; without one, that of the empty set. -/
def parseDocument (r : Option RestrictionSet) : Except Failure Value := do
  return .object (← (r.getD .empty).fieldsBy Rule.byName)

def entryDocument (entry : Entry) : Value :=
  .object [("id", entry.id), ("name", entry.name)]

/-- The document of what a shop buys of a database. -/
def checkDocument (db : Database) (r : Option RestrictionSet) : Except Failure Value := do
  let bought ← db.bought r
  return .object (bought.map fun (kind, entries) => (kind.name, .list (entries.map entryDocument)))

def unrestrictedLine : Log.Line :=
  ⟨.info, programSource, "No restrictions given; the shop buys everything"⟩

/-- The findings of printing restrictions. -/
def parseFindings (declaration : Declaration) : Findings :=
  match declaration.read with
  | .ok (log, r) => (log, parseDocument r)
  | .error failure => ([], .error failure)

/-- The findings of checking restrictions against the data in a file. The data is read first. -/
def checkFindings (declaration : Declaration) (path : String) (file : FileState) : Findings :=
  match readData path file with
  | (log, .error failure) => (log, .error failure)
  | (log, .ok db) =>
    match declaration.read with
    | .error failure => (log, .error failure)
    | .ok (more, r) =>
      (log ++ more ++ (if r.isNone then [unrestrictedLine] else []), checkDocument db r)

/-- The file that a task reads, by its shortest path. -/
def Task.path? : Task → Option String
  | .parse _ => none
  | .check data _ => some (Path.normalize data)

/-- The findings of a task, where `files` tells what stands at a path. -/
def Task.findings (files : String → FileState) (task : Task) : Findings :=
  match task with
  | .parse declaration => parseFindings declaration
  | .check data declaration =>
    let path := Path.normalize data
    checkFindings declaration path (files path)

/-! ## Runs -/

/-- The threshold of the log by the number of times that more reports are asked for. -/
def threshold : Nat → Int
  | 0 => Log.Level.weight .warning
  | 1 => Log.Level.weight .info
  | _ => Log.Level.weight .debug

/-- Whether a failure is a fault of the declaration or the data, and so reported by the command. -/
def isInputFault : Failure → Bool
  | .declaration .. | .data _ | .noDatabase _ | .noFile _ | .directory _ | .nameTooLong _ => true
  | _ => false

/-- The end of a run with findings. -/
def Findings.outcome (verbosity : Nat) (findings : Findings) : Except Failure Outcome :=
  let log := Log.above (threshold verbosity) findings.1
  match findings.2 with
  | .ok document => .ok { output := Json.write (.block 2) document ++ "\n", log }
  | .error failure =>
    if isInputFault failure then
      .ok { status := 2, errors := "error: " ++ failure.message ++ "\n", log }
    else .error failure

def usage : String :=
  "usage: " ++ programName ++ " [-h] [--version] [-v] parse [--structured JSON] [TOKEN ...]\n" ++
    "       " ++ programName ++
    " [-h] [--version] [-v] check --data FILE [--structured JSON] [TOKEN ...]\n"

/-- The end of a run for a request. -/
def Request.outcome (files : String → FileState) : Request → Except Failure Outcome
  | .help => .ok { output := usage }
  | .version => .ok { output := programName ++ " " ++ programVersion ++ "\n" }
  | .run verbosity task => (task.findings files).outcome verbosity

/-- The end of a run with the given arguments. -/
def run (files : String → FileState) (arguments : List String) : Except Failure Outcome :=
  match Request.ofArguments arguments with
  | .ok request => request.outcome files
  | .error complaint => .ok { status := 2, errors := complaint.text ++ "\n" }

end SellRules.CommandLine
