import SellRules.Json.Reader
import SellRules.Restriction.Token
import SellRules.Text.Search

/-!
# Structured declarations

The long form of a declaration: an object with a list for each rule. A list may be encoded once
more, as the text of a JSON list, and a blank text is an empty one. Ids are whole numbers or texts
of plain numerals; tags are texts. A field is known by its authoring name and by the name of its
rule; where both stand, the authoring name counts. Fields are looked at in a fixed order, and the
first that is malformed is reported under the name that was used.
-/

set_option autoImplicit false

namespace SellRules.Structured

/-- The rules in the order in which they are looked at, with their authoring names. -/
def authoring : List (Rule × String) := [
  (.weaponIds, "weaponId"), (.weaponTypeIds, "wType"), (.armorIds, "armourId"),
  (.armorTypeIds, "aType"), (.equipmentTypeIds, "eType"), (.itemIds, "itemId"),
  (.itemTypeIds, "iType"), (.tags, "meta")]

/-- The value of a rule and the name under which it stands. -/
def find? (fields : Fields) (rule : Rule) (authored : String) : Option (String × Value) :=
  match fields.get? authored with
  | some v => some (authored, v)
  | none => (fields.get? rule.name).map (rule.name, ·)

/-- The list that a text encodes, given what it was read as. -/
def listOfRead (raw : Value) : Except Json.ReadError Value → Except FieldFault (List Value)
  | .ok (.list items) => .ok items
  | .ok _ => .error (.notAList raw)
  | .error (.malformed fault _) => .error (.badListText fault raw)
  | .error (.tooManyDigits count) => .error (.tooManyDigits count)
  | .error .tooDeep => .error .tooDeep

/-- The list that a value gives, decoded if it is a text. -/
def decodeList (raw : Value) : Except FieldFault (List Value) :=
  match raw with
  | .null => .ok []
  | .list items => .ok items
  | .text s => if (Text.trim s.toList).isEmpty then .ok [] else listOfRead raw (Json.read s)
  | .unpaired codes => listOfRead raw (Json.readCodes codes)
  | _ => .error (.notEncoded raw)

/-- The id that an element gives. -/
def decodeId (element : Value) : Except FieldFault Scalar :=
  match element with
  | .int n => .ok (.int n)
  | .text s =>
    match Number.readPlain (Text.trim s.toList) with
    | .ok n => .ok (.int n)
    | .error (.tooLong count) => .error (.tooManyDigits count)
    | .error .malformed => .error (.notAnInteger element)
  | _ => .error (.showing element (.notAnInteger element))

/-- The tag that an element gives; none for a text that is broken. -/
def decodeTag (element : Value) : Except FieldFault (Option Scalar) :=
  match element with
  | .text s => .ok (some (.text (Token.stripMarker s)))
  | .unpaired _ => .ok none
  | _ => .error (.showing element (.tagNotText element))

/-- The failure of a field. One that is nested too deep is no fault of the declaration. -/
def badField (name : String) : FieldFault → Failure
  | .tooDeep => .value .tooDeep
  | fault => .declaration (some name) (.badField fault)

def decodeTags (name : String) (raw : Value) : Except Failure (List Scalar) := do
  let tags ← ((decodeList raw).bind (·.mapM decodeTag)).mapError (badField name)
  match tags.findIdx? (·.isNone) with
  | some index => throw (.declaration (some (name ++ s!".{index}")) .brokenTag)
  | none => return tags.filterMap id

/-- What the field of a rule adds. -/
def decodeField (rule : Rule) (name : String) (raw : Value) : Except Failure (List Scalar) :=
  if rule = .tags then decodeTags name raw
  else ((decodeList raw).bind (·.mapM decodeId)).mapError (badField name)

/-- What the field of a rule adds, if it is there. -/
def decodeRule (fields : Fields) (rule : Rule) (authored : String) : Except Failure (List Scalar) :=
  match find? fields rule authored with
  | none => .ok []
  | some (name, raw) => decodeField rule name raw

/-- What the fields of the given rules add, the first malformed one failing. -/
def decodeFields (fields : Fields) : List (Rule × String) → Except Failure (List (Rule × Scalar))
  | [] => .ok []
  | (rule, authored) :: rest => do
    let scalars ← decodeRule fields rule authored
    return scalars.map (rule, ·) ++ (← decodeFields fields rest)

/-- Whether one of the fields is nested too deep. Malformed fields are kept until all have been looked
at, but this one ends the reading at once. -/
def isTooDeep (fields : Fields) : Bool :=
  authoring.any fun (rule, authored) =>
    decodeRule fields rule authored matches .error (.value .tooDeep)

/-- The restriction set that an object of fields declares. -/
def parse (fields : Value) : Except Failure RestrictionSet :=
  match fields with
  | .object fields =>
    if isTooDeep fields then .error (.value .tooDeep)
    else return .ofRules (← decodeFields fields authoring)
  | v => .error (.declaration none (.notFields v))

/-- The name of the plugin argument that holds a declaration. -/
def argument : String := "restrictions"

/-- The declaration among the arguments of a plugin command. Only an object can hold it; in a list or
text it may be mentioned, which is of no use. -/
def argumentOf (args : Value) : Except Failure Value :=
  match args with
  | .object fields =>
    match Fields.get? fields argument with
    | some v => .ok v
    | none => .error (.declaration none .noRestrictions)
  | .list items =>
    .error (if items.contains (.text argument) then .shape else .declaration none .noRestrictions)
  | .text s =>
    .error (if Text.occursIn argument.toList s.toList then .shape
      else .declaration none .noRestrictions)
  | .unpaired codes =>
    .error (if Text.occursIn (argument.toList.map Char.toNat) codes then .shape
      else .declaration none .noRestrictions)
  | _ => .error .shape

/-- A declaration decoded, if it is a text. -/
def decodeObject (raw : Value) : Except Failure Value :=
  match Json.readText? raw with
  | none => .ok raw
  | some (.ok v) => .ok v
  | some (.error (.malformed fault _)) =>
    .error (.declaration (some argument) (.badObjectText fault))
  | some (.error (.tooManyDigits count)) => .error (.value (.tooManyDigits count))
  | some (.error .tooDeep) => .error (.value .tooDeep)

/-- The restriction set that the arguments of a plugin command declare. -/
def parseArguments (args : Value) : Except Failure RestrictionSet := do
  match ← decodeObject (← argumentOf args) with
  | .object fields => parse (.object fields)
  | _ => throw (.declaration (some argument) .notAnObject)

end SellRules.Structured
