import SellRules.File
import SellRules.Log
import SellRules.OrderedList
import SellRules.Settings.Basic
import SellRules.Yaml.Data

/-!
# Settings documents

Settings are kept in a YAML document whose root is a table. A setting that the document lacks has its
standard value; one of the wrong type is refused; what the document holds besides is ignored and
reported. A document that holds nothing gives the standard settings.

How a text is read as YAML is a parameter (`Settings.Reader`): settings are made from what the reader
gives, and of its failures those of the text itself are reported as such.
-/

set_option autoImplicit false

namespace SellRules

namespace Settings

open Yaml (Data Rows)

/-- Why a reader gives no data. -/
inductive ReadFault where
  /-- The text is no YAML, as the reader tells in more detail. -/
  | malformed (detail : String)
  /-- The reader fails otherwise. -/
  | raised (failure : Failure)
  deriving DecidableEq

/-- A reader of YAML. -/
abbrev Reader := String → Except ReadFault Data

/-- Reports why there is no data. Only a text that is no YAML is a fault of the settings. -/
def ReadFault.failure : ReadFault → Failure
  | .malformed detail => .settings (.malformed detail)
  | .raised failure => failure

/-- The fault of a text that is covered. The detail is left out. -/
def ReadFault.ofYaml : Yaml.Fault → ReadFault
  | .malformed => .malformed ""
  | .noCharacter code => .raised (if code < 0x80000000 then .value .noCharacter else .tooLarge)
  | .emptyNumeral base => .raised (.value (.emptyNumeral base))
  | .tooManyDigits count => .raised (.value (.tooManyDigits count))
  | .tooLarge => .raised .tooLarge

/-- The reader for the documents that are covered. -/
def yaml : Reader := fun s => (Yaml.read s).mapError .ofYaml

def source : String := "shop_restrictions.config.loader"

/-- The names of the settings, in the order in which they are checked. -/
def names : List String := ["plugin_name", "command_name", "log_restrictions"]

/-- Refuses the data of a setting. -/
def wrongType (name expected : String) (data : Data) : Failure :=
  if data.isShown then .settings (.wrongType name expected data.quoted) else .value .unshown

/-- A setting that is a text. -/
def textOf (rows : Rows) (name : String) (standard : Value) : Except Failure Value :=
  match rows.get? (.text name) with
  | none => .ok standard
  | some (.scalar (.text s)) => .ok (.text s)
  | some data => .error (wrongType name "str" data)

/-- A setting that is a truth value. -/
def flagOf (rows : Rows) (name : String) (standard : Value) : Except Failure Value :=
  match rows.get? (.text name) with
  | none => .ok standard
  | some (.scalar (.bool b)) => .ok (.bool b)
  | some data => .error (wrongType name "bool" data)

/-- The settings of a table, whatever it holds besides. -/
def ofRows (rows : Rows) : Except Failure Settings := do
  let standard : Settings := {}
  let pluginName ← textOf rows "plugin_name" standard.pluginName
  let commandName ← textOf rows "command_name" standard.commandName
  let logRestrictions ← flagOf rows "log_restrictions" standard.logRestrictions
  return { pluginName, commandName, logRestrictions }

/-- An empty table gives the standard settings. -/
theorem ofRows_nil : ofRows [] = .ok {} := rfl

/-- The keys of a table that name no setting. -/
def unknownKeys (rows : Rows) : List Yaml.Key :=
  (rows.map (·.1)).filter fun key => !names.any fun name => key.same (.text name)

/-- The report on the keys that name no setting. Keys that cannot be listed beside each other, or not
be shown, make this fail. -/
def reportUnknown (keys : List Yaml.Key) : Except Failure (List Log.Line) :=
  if keys.isEmpty then .ok []
  else if !Yaml.Key.sortable keys then .error .shape
  else if !keys.all Yaml.Key.isShown then .error (.value .unshown)
  else
    let ordered := keys.mergeSort fun a b => (a.order b).isLE
    let listed := String.intercalate ", " (ordered.map Yaml.Key.display)
    .ok [⟨.warning, source, "Ignoring unknown settings: " ++ listed⟩]

/-- The report on settings that were read. -/
def report (settings : Settings) : Log.Line :=
  ⟨.info, source, "Shop restriction command: " ++ settings.pluginName.display ++ "/" ++
    settings.commandName.display⟩

/-- The settings that data stands for, and what is reported on them. -/
def ofData (data : Data) : Except Failure (Settings × List Log.Line) := do
  let rows : Rows ← match data with
    | .table rows => .ok rows
    | data => if data.truthy then .error (.settings .notAMapping) else .ok []
  let settings ← ofRows rows
  let unknown ← reportUnknown (unknownKeys rows)
  return (settings, unknown ++ [settings.report])

section

variable (read : Reader)

/-- The settings of a document. -/
def ofText (s : String) : Except Failure (Settings × List Log.Line) :=
  match read s with
  | .ok data => ofData data
  | .error fault => .error fault.failure

/-- The settings of a file; without one, the standard settings. -/
def loadBy (path : String) : Option FileState → Except Failure (Settings × List Log.Line)
  | none => .ok ({}, [report {}])
  | some file => do ofText read (← file.text path)

end

/-- The settings of a file whose document is covered. -/
def load (path : String) (file? : Option FileState) : Except Failure (Settings × List Log.Line) :=
  loadBy yaml path file?

end Settings
end SellRules
