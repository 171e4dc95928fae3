import SellRules.Value.Basic
import SellRules.Number.Shortest
import SellRules.Text.Printable

/-!
# Values in messages

How a message shows a value. A text stands in quotes, double ones when it holds a single quote and
no double one; a backslash, the quote itself and what cannot be printed are escaped. Lists and
objects show their parts in order. A whole number with too many digits cannot be shown, and neither
can lists and objects that stand too deep inside one another.
-/

set_option autoImplicit false

namespace SellRules.Value

open Number

/-- Numbers are positional from a ten-thousandth up to, but not including, ten to the sixteenth;
elsewhere the exponent has a sign and at least two digits. -/
def floatLayout : Shortest.Layout := ⟨-4, 16, 2, "inf", "nan"⟩

def floatText (x : Binary64) : String := String.ofList (Shortest.write floatLayout x)

/-- A number in base sixteen, filled up with zeros. -/
def hexDigits (width code : Nat) : List Char :=
  let cs := Nat.toDigits 16 code
  List.replicate (width - cs.length) '0' ++ cs

/-- A code point as it stands between the given quotes. -/
def quoteCode (quote : Char) (code : Nat) : List Char :=
  if code = quote.toNat || code = 0x5C then ['\x5c', Char.ofNat code]
  else if code = 0x09 then ['\x5c', 't']
  else if code = 0x0A then ['\x5c', 'n']
  else if code = 0x0D then ['\x5c', 'r']
  else if Text.isPrintable code then [Char.ofNat code]
  else if code ≤ 0xFF then '\x5c' :: 'x' :: hexDigits 2 code
  else if code ≤ 0xFFFF then '\x5c' :: 'u' :: hexDigits 4 code
  else '\x5c' :: 'U' :: hexDigits 8 code

def quoteCodes (codes : List Nat) : List Char :=
  let quote := if codes.contains 0x27 && !codes.contains 0x22 then '\x22' else '\x27'
  quote :: codes.flatMap (quoteCode quote) ++ [quote]

/-- A string in quotes. -/
def quoteText (s : String) : String := String.ofList (quoteCodes (s.toList.map Char.toNat))

mutual

/-- A value as messages show it. -/
def quoted : Value → String
  | .null => "None"
  | .bool true => "True"
  | .bool false => "False"
  | .int n => numeral n
  | .float x => floatText x
  | .text s => quoteText s
  | .unpaired codes => String.ofList (quoteCodes codes)
  | .list items => "[" ++ quotedItems items ++ "]"
  | .object fields => "\x7b" ++ quotedFields fields ++ "\x7d"

def quotedItems : List Value → String
  | [] => ""
  | [v] => quoted v
  | v :: rest => quoted v ++ ", " ++ quotedItems rest

def quotedFields : List (String × Value) → String
  | [] => ""
  | [(name, v)] => quoteText name ++ ": " ++ quoted v
  | (name, v) :: rest => quoteText name ++ ": " ++ quoted v ++ ", " ++ quotedFields rest

end

/-- A value inside a running text: a text without its quotes, all else as messages show it. -/
def display : Value → String
  | .text s => s
  | .unpaired codes => charactersOf codes
  | v => v.quoted

/-! ## What cannot be shown -/

/-- What keeps a value from being shown. -/
inductive Obstacle where
  /-- A whole number with too many digits. -/
  | digits
  /-- Too many lists and objects inside one another. -/
  | levels
  deriving DecidableEq, Repr

mutual

/-- The first obstacle in a value, in the order in which its parts are shown, where `room` lists and
objects may stand inside one another. -/
def obstacleWithin? : Nat → Value → Option Obstacle
  | _, .int n => if Number.isShown n then none else some .digits
  | 0, .list _ | 0, .object _ => some .levels
  | room + 1, .list items => itemsObstacle? room items
  | room + 1, .object fields => fieldsObstacle? room fields
  | _, _ => none

def itemsObstacle? : Nat → List Value → Option Obstacle
  | _, [] => none
  | room, v :: rest => (obstacleWithin? room v).or (itemsObstacle? room rest)

def fieldsObstacle? : Nat → List (String × Value) → Option Obstacle
  | _, [] => none
  | room, (_, v) :: rest => (obstacleWithin? room v).or (fieldsObstacle? room rest)

end

/-- What keeps a value from being shown. -/
def obstacle? (v : Value) : Option Obstacle := obstacleWithin? maxLevels v

/-- Whether a value can be shown. -/
def isShown (v : Value) : Bool := v.obstacle?.isNone

end SellRules.Value
