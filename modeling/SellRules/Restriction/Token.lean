import SellRules.Restriction.Basic
import SellRules.Text.Blank

/-!
# Tokens

The short form of a declaration: words, each a code with digits or a tag. The codes are `it`, `at`,
`wt` and `et` for type ids and `i`, `a` and `w` for ids. No word can be read by two codes: the
digits begin where the letters of the code end. Every other word is a tag, from which quotes, angle
brackets and blanks are taken out.
-/

set_option autoImplicit false

namespace SellRules.Token

/-- The letters of each code and the rule that it adds to. -/
def codes : List (List Char × Rule) := [
  (['i', 't'], .itemTypeIds), (['a', 't'], .armorTypeIds), (['w', 't'], .weaponTypeIds),
  (['e', 't'], .equipmentTypeIds), (['i'], .itemIds), (['a'], .armorIds), (['w'], .weaponIds)]

/-- Whether a token consists of the letters of a code and at least one digit. -/
def isCoded (letters token : List Char) : Bool :=
  letters.isPrefixOf token && !(token.drop letters.length).isEmpty &&
    (token.drop letters.length).all Text.isAsciiDigit

/-- What is taken out of a tag: double quotes, angle brackets and blanks. -/
def isDecoration (c : Char) : Bool := c == '\x22' || c == '<' || c == '>' || Text.isBlank c

/-- A tag without decoration. -/
def stripMarker (s : String) : String := String.ofList (s.toList.filter (!isDecoration ·))

/-- The rule that a token adds to, and what it adds. -/
def classify (token : String) : Except Failure (Rule × Scalar) :=
  let cs := token.toList
  match codes.find? fun code => isCoded code.1 cs with
  | some (letters, rule) =>
    match Number.ofSignedDigits Number.maxDigits false (cs.drop letters.length) with
    | .ok n => .ok (rule, .int n)
    | .error fault => .error (.ofNumeral (.text token) fault)
  | none => .ok (.tags, .text (stripMarker token))

/-- The restriction set that tokens declare. -/
def parse (tokens : List String) : Except Failure RestrictionSet := do
  return .ofRules (← tokens.mapM classify)

/-- The rule that a value adds to as a token, and what it adds. It must be a text. -/
def classifyValue (v : Value) : Except Failure (Rule × Scalar) :=
  match v.characters? with
  | some s => classify s
  | none => .error .shape

/-- The restriction set that a value of tokens declares: the words of a text, or the elements of
another value. -/
def parseValue (v : Value) : Except Failure RestrictionSet :=
  match v.characters?, v.elements? with
  | some s, _ => parse (Text.words s)
  | none, some elements => return .ofRules (← elements.mapM classifyValue)
  | none, none => .error .shape

end SellRules.Token
