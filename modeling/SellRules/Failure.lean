import SellRules.Json.Fault
import SellRules.Kind
import SellRules.Value.Quoted

/-!
# Failures

Why an operation of the library fails, by cause, and the words for each cause. A failure of one of
the last groups has no words: there a value had a shape that the operation has no use for.
-/

set_option autoImplicit false

namespace SellRules

def tooManyDigitsMessage (count : Nat) : String :=
  s!"Exceeds the limit ({Number.maxDigits} digits) for integer string conversion: value has " ++
    s!"{count} digits; use sys.set_int_max_str_digits() to increase the limit"

def unshownMessage : String :=
  s!"Exceeds the limit ({Number.maxDigits} digits) for integer string conversion; use " ++
    "sys.set_int_max_str_digits() to increase the limit"

def tooDeepMessage : String := "maximum recursion depth exceeded"

/-- What is wrong with the value of one field of a structured declaration. -/
inductive FieldFault where
  /-- A text that is no JSON. -/
  | badListText (fault : Json.Fault) (raw : Value)
  /-- A text that holds something other than a list. -/
  | notAList (raw : Value)
  /-- Neither nothing, nor a text, nor a list. -/
  | notEncoded (raw : Value)
  | notAnInteger (element : Value)
  | tooManyDigits (count : Nat)
  | tagNotText (element : Value)
  /-- Something about a value with a number that cannot be shown. -/
  | unshown
  /-- Lists and objects that stand too deep inside one another to be read or shown. -/
  | tooDeep
  deriving DecidableEq

def FieldFault.message : FieldFault → String
  | .badListText fault raw => "not a valid list literal (" ++ fault.message ++ "): " ++ raw.quoted
  | .notAList raw => "expected a list literal, got " ++ raw.quoted
  | .notEncoded raw => "expected an encoded list, got " ++ raw.typeName
  | .notAnInteger element => "not an integer: " ++ element.quoted
  | .tooManyDigits count => tooManyDigitsMessage count
  | .tagNotText element => "tags must be strings, got " ++ element.quoted
  | .unshown => unshownMessage
  | .tooDeep => tooDeepMessage

/-- What is wrong with a declaration of restrictions. -/
inductive DeclarationFault where
  | notFields (given : Value)
  | noRestrictions
  | badObjectText (fault : Json.Fault)
  | notAnObject
  | badArgumentText (fault : Json.Fault)
  | badField (fault : FieldFault)
  /-- A tag with a lone surrogate. -/
  | brokenTag
  deriving DecidableEq

def DeclarationFault.message : DeclarationFault → String
  | .notFields given => "expected a mapping of fields, got " ++ given.typeName
  | .noRestrictions => "missing 'restrictions' argument"
  | .badObjectText fault => "not a valid object literal (" ++ fault.message ++ ")"
  | .notAnObject => "expected an object"
  | .badArgumentText fault => "--structured is not valid JSON (" ++ fault.message ++ ")"
  | .badField fault => "Value error, " ++ fault.message
  | .brokenTag => "Input should be a valid string, unable to parse raw data as a unicode string"

/-- How a record departs from its schema. -/
inductive Violation where
  | missing (name : String)
  /-- A value of the wrong type: that of a field, or the record itself. -/
  | wrongType (name : Option String) (given : Value) (expected : String)
  | tooSmall (name : String) (given : Value) (least : Nat)
  deriving DecidableEq

/-- The field that departs; none when it is the record itself. -/
def Violation.path : Violation → List String
  | .missing _ => []
  | .wrongType name _ _ => name.toList
  | .tooSmall name _ _ => [name]

/-- The name of the field that departs; empty when it is the record itself. -/
def Violation.place (v : Violation) : String := String.join v.path

def Violation.message : Violation → String
  | .missing name => Value.quoteText name ++ " is a required property"
  | .wrongType _ given expected => given.quoted ++ " is not of type " ++ Value.quoteText expected
  | .tooSmall _ given least => given.quoted ++ s!" is less than the minimum of {least}"

/-- The values that the message of a departure shows. -/
def Violation.shown : Violation → List Value
  | .missing _ => []
  | .wrongType _ given _ | .tooSmall _ given _ => [given]

/-- What is wrong with item data. -/
inductive DataFault where
  | badRecord (schema : String) (violations : List Violation)
  | duplicate (kind : Kind) (id : Value)
  | unknown (kind : Kind) (id : Value)
  | badText (path : String) (line column : Nat) (fault : Json.Fault)
  | notAnObject (path : String)
  deriving DecidableEq

def DataFault.message : DataFault → String
  | .badRecord schema _ => schema ++ " record validation failed"
  | .duplicate kind id => "Duplicate " ++ kind.name ++ " id " ++ id.display
  | .unknown kind id => "Unknown " ++ kind.name ++ " id " ++ id.display
  | .badText path line column fault =>
    "Failed to parse JSON at " ++ path ++ s!" (line {line}, column {column}): " ++ fault.message
  | .notAnObject path => "Item database root must be an object: " ++ path

def DataFault.violations : DataFault → List Violation
  | .badRecord _ violations => violations
  | _ => []

/-- The message with a line for each violation. -/
def DataFault.report (fault : DataFault) : String :=
  let line (v : Violation) : String :=
    let path := String.intercalate "/" v.path
    "\n - at " ++ (if path = "" then "<root>" else path) ++ ": " ++ v.message
  String.join (fault.message :: fault.violations.map line)

/-- What is wrong with a settings document. -/
inductive SettingsFault where
  /-- A text that is no YAML, with what the reader says about it. -/
  | malformed (detail : String)
  | notAMapping
  /-- A setting of the wrong type, with the value as messages show it. -/
  | wrongType (name expected given : String)
  deriving DecidableEq

def SettingsFault.message : SettingsFault → String
  | .malformed detail => "Invalid settings YAML: " ++ detail
  | .notAMapping => "Settings document must be a mapping"
  | .wrongType name expected given =>
    "Setting '" ++ name ++ "' must be " ++ expected ++ ", got " ++ given

/-- Why a shop turns a sale down. -/
inductive Rejection where
  | closed
  | purchaseOnly
  | notBought (name : Value)
  deriving DecidableEq

def Rejection.message : Rejection → String
  | .closed => "Shop is not open"
  | .purchaseOnly => "This shop does not buy from the party"
  | .notBought name => "The shop will not buy " ++ name.display

/-- Why a value that has the right shape is refused. -/
inductive ValueFault where
  | tooManyDigits (count : Nat)
  | notANumeral (given : Value)
  | notANumber
  | notAKind (given : Value)
  | noSchema (given : Value)
  /-- A part of a would-be list of fields that is not a name and a value. -/
  | notAPair (index size : Nat)
  | cannotRemove (amount : Value) (kind : Kind) (id held : Value)
  | negativeAmount
  | unknownCategory (given : Value)
  | unknownLevel (given : String)
  /-- A numeral that ends after the letters for its base. -/
  | emptyNumeral (base : Nat)
  /-- An escape for a character that does not exist. -/
  | noCharacter
  /-- Something about a value with a number that cannot be shown. -/
  | unshown
  /-- Lists and objects that stand too deep inside one another to be read or shown. -/
  | tooDeep
  deriving DecidableEq

def ValueFault.message : ValueFault → String
  | .tooManyDigits count => tooManyDigitsMessage count
  | .notANumeral given =>
    "invalid literal for int() with base 10: " ++ String.ofList (given.quoted.toList.take 200)
  | .notANumber => "cannot convert float NaN to integer"
  | .notAKind given => given.quoted ++ " is not a valid ItemKind"
  | .noSchema given => "No schema for record kind " ++ given.quoted
  | .notAPair index size =>
    s!"dictionary update sequence element #{index} has length {size}; 2 is required"
  | .cannotRemove amount kind id held =>
    "Cannot remove " ++ amount.display ++ " x " ++ kind.name ++ " " ++ id.display ++ "; holding " ++
      held.display
  | .negativeAmount => "amount must be non-negative"
  | .unknownCategory given => "Unknown sell category: " ++ given.quoted
  | .unknownLevel given => "Unknown level: " ++ Value.quoteText given
  | .emptyNumeral base => s!"invalid literal for int() with base {base}: ''"
  | .noCharacter => "chr() arg not in range(0x110000)"
  | .unshown => unshownMessage
  | .tooDeep => tooDeepMessage

/-- Why an operation fails. -/
inductive Failure where
  /-- A declaration of restrictions is malformed, in the given field if there is one. -/
  | declaration (field : Option String) (fault : DeclarationFault)
  | data (fault : DataFault)
  | settings (fault : SettingsFault)
  | rejected (reason : Rejection)
  | value (fault : ValueFault)
  | noDatabase (path : String)
  | noFile (path : String)
  | directory (path : String)
  | nameTooLong (path : String)
  /-- A file that is no UTF-8. -/
  | undecodable
  /-- A text stands for a collection of values. -/
  | singleText (field : String)
  /-- A value has the wrong shape. -/
  | shape
  /-- An object lacks a field. -/
  | noField
  /-- A list is too short. -/
  | noElement
  /-- A value that is no object is asked for a part of one. -/
  | noMember
  /-- A number is too large for its use. -/
  | tooLarge
  deriving DecidableEq

def Failure.message : Failure → String
  | .declaration none fault => fault.message
  | .declaration (some field) fault => field ++ ": " ++ fault.message
  | .data fault => fault.message
  | .settings fault => fault.message
  | .rejected reason => reason.message
  | .value fault => fault.message
  | .noDatabase path => "Item database not found: " ++ path
  | .noFile path => "[Errno 2] No such file or directory: " ++ Value.quoteText path
  | .directory path => "[Errno 21] Is a directory: " ++ Value.quoteText path
  | .nameTooLong path => "[Errno 36] File name too long: " ++ Value.quoteText path
  | .undecodable => "not a UTF-8 text"
  | .singleText field => field ++ " must be a collection of values, not a single str"
  | .shape => "a value has the wrong shape"
  | .noField => "a field is missing"
  | .noElement => "an element is missing"
  | .noMember => "a value has no such part"
  | .tooLarge => "a number is too large"

def ValueFault.ofObstacle : Value.Obstacle → ValueFault
  | .digits => .unshown
  | .levels => .tooDeep

/-- A failure whose message shows the given values: if one of them cannot be shown, that is the
failure. -/
def Failure.showing (shown : List Value) (failure : Failure) : Failure :=
  match shown.findSome? Value.obstacle? with
  | none => failure
  | some obstacle => .value (.ofObstacle obstacle)

/-- Like `Failure.showing`, in a field of a declaration. -/
def FieldFault.showing (shown : Value) (fault : FieldFault) : FieldFault :=
  match shown.obstacle? with
  | none => fault
  | some .digits => .unshown
  | some .levels => .tooDeep

/-- Reports a numeral that was not read; `v` is the value that it stands in. -/
def Failure.ofNumeral (v : Value) : Number.NumeralFault → Failure
  | .tooLong count => .value (.tooManyDigits count)
  | .malformed => .value (.notANumeral v)

end SellRules
