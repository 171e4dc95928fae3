import SellRules.Entry.Basic
import SellRules.Value.Whole

/-!
# Records

Host data describes an entry by a record, an object checked against a schema. All kinds share the
schema of the base record and add the type id of their own, which is required. A whole number is one
without a fraction, in either form; truth values are none.
-/

set_option autoImplicit false

namespace SellRules.Record

inductive FieldType where
  /-- A whole number from `least` on. -/
  | whole (least : Nat)
  | text
  | object
  deriving DecidableEq

/-- Which fields a record must have and what type a field has if it is there. -/
structure Schema where
  required : List String
  fields : List (String × FieldType)

/-- The part of the schema that all kinds share. -/
def base : Schema where
  required := ["id", "name"]
  fields := [("id", .whole 1), ("name", .text), ("price", .whole 0), ("etypeId", .whole 0),
    ("note", .text), ("meta", .object)]

/-- The field that holds the type id of a kind. -/
def typeField : Kind → String
  | .item => "itypeId"
  | .weapon => "wtypeId"
  | .armor => "atypeId"

/-- The part of the schema that a kind adds. -/
def own (kind : Kind) : Schema where
  required := [typeField kind]
  fields := [(typeField kind, .whole 0)]

def isWhole : Value → Bool
  | .int _ => true
  | .float x => x.isWhole
  | _ => false

/-- Whether a value is a number that lies below a bound. -/
def isBelow (least : Nat) : Value → Bool
  | .int n => n < least
  | .float x => Scalar.order (.float x) (.int least) == .lt
  | _ => false

/-- How a field departs from its type. A fraction below the bound departs in two ways. -/
def FieldType.violations (name : String) (v : Value) : FieldType → List Violation
  | .whole least =>
    (if isWhole v then [] else [.wrongType (some name) v "integer"]) ++
      (if isBelow least v then [.tooSmall name v least] else [])
  | .text =>
    match v with
    | .text _ | .unpaired _ => []
    | _ => [.wrongType (some name) v "string"]
  | .object =>
    match v with
    | .object _ => []
    | _ => [.wrongType (some name) v "object"]

/-- The required fields that are missing. -/
def Schema.missing (schema : Schema) (fields : Fields) : List Violation :=
  (schema.required.filter fun name => (fields.get? name).isNone).map .missing

/-- How the fields that are there depart from their types. -/
def Schema.mistyped (schema : Schema) (fields : Fields) : List Violation :=
  schema.fields.flatMap fun (name, type) =>
    match fields.get? name with
    | some v => type.violations name v
    | none => []

def Schema.violations (schema : Schema) (fields : Fields) : List Violation :=
  schema.missing fields ++ schema.mistyped fields

/-- All violations of a record, in the order of the fields that they stand at; those of the record
itself come first. -/
def violations (kind : Option Kind) (record : Value) : List Violation :=
  match record with
  | .object fields =>
    let found := base.violations fields ++ (kind.elim [] fun kind => (own kind).violations fields)
    found.mergeSort fun a b => (compareOn Violation.place a b).isLE
  | v => [.wrongType none v "object"]

def schemaName : Option Kind → String
  | none => "base"
  | some kind => kind.name

/-- Checks a record against the schema of a kind, or against the base alone. -/
def check (kind : Option Kind) (record : Value) : Except Failure Unit :=
  match violations kind record with
  | [] => .ok ()
  | found =>
    .error (.showing (found.flatMap Violation.shown) (.data (.badRecord (schemaName kind) found)))

/-- Checks a record against the schema that a value names. -/
def checkNamed (schema record : Value) : Except Failure Unit :=
  match schema with
  | .list _ | .object _ => .error .shape
  | .text name =>
    if name = "base" then check none record
    else match Kind.ofName? name with
      | some kind => check (some kind) record
      | none => .error (.value (.noSchema schema))
  | _ => .error (.showing [schema] (.value (.noSchema schema)))

/-- One part of a list of fields: a name and a value. The name may be any scalar, but only a text
names a field. -/
def pairOf (index : Nat) (part : Value) : Except Failure (Option (String × Value)) :=
  match part.elements? with
  | none => .error .shape
  | some [.text name, v] => .ok (some (name, v))
  | some [key, _] =>
    match key with
    | .list _ | .object _ => .error .shape
    | _ => .ok none
  | some parts => .error (.value (.notAPair index parts.length))

/-- The fields that a list of pairs gives, the first of which has the given index. -/
def fieldsOfPairs : Nat → List Value → Except Failure (List (String × Value))
  | _, [] => .ok []
  | index, part :: rest => do
    let pair ← pairOf index part
    let fields ← fieldsOfPairs (index + 1) rest
    return pair.toList ++ fields

/-- The fields of a record: those of an object, or of a value made up of pairs. -/
def fieldsOf (record : Value) : Except Failure Fields :=
  match record with
  | .object fields => .ok fields
  | v =>
    match v.elements? with
    | none => .error .shape
    | some parts => (fieldsOfPairs 0 parts).map (Fields.update [])

/-- The markers of a record: those of its note, and over them its meta fields. -/
def markersOf (fields : Fields) : Fields :=
  let noted := ((fields.get? "note").bind Value.characters?).elim [] Marker.ofNote
  match fields.get? "meta" with
  | some (.object extra) => Fields.update noted extra
  | _ => noted

/-- The entry that the fields of a checked record describe. -/
def entryOf (kind : Kind) (fields : Fields) : Except Failure Entry := do
  let id ← ((fields.get? "id").getD .null).toWhole
  let price ← ((fields.get? "price").getD (.int 0)).toWhole
  let typeId (own : Kind) : Value :=
    if kind = own then (fields.get? (typeField own)).getD .null else .null
  return {
    id := .int id
    name := (fields.get? "name").getD .null
    kind
    price := .int price
    itemTypeId := typeId .item
    weaponTypeId := typeId .weapon
    armorTypeId := typeId .armor
    equipmentTypeId := if kind = .item then .null else (fields.get? "etypeId").getD .null
    markers := .object (markersOf fields) }

/-- The entry that a record of a kind describes, if the record keeps to its schema. -/
def toEntry (kind : Kind) (record : Value) : Except Failure Entry := do
  let fields ← fieldsOf record
  check (some kind) (.object fields)
  entryOf kind fields

/-- The entry that a record of a kind given by its name describes. -/
def toEntryNamed (kind record : Value) : Except Failure Entry := do
  toEntry (← Kind.ofValue kind) record

/-- The markers of a note that may be missing. -/
def markersOfNote (note : Value) : Except Failure Fields :=
  match note.characters? with
  | some s => .ok (Marker.ofNote s)
  | none => if note.truthy then .error .shape else .ok []

end SellRules.Record
