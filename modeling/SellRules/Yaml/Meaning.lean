import SellRules.Json.Reader
import SellRules.Scalar
import SellRules.Text.Search
import SellRules.Yaml.Cursor

/-!
# What plain texts mean

A plain text is a truth value, a number or nothing if it is written like one, and a text otherwise.
Numbers may be grouped by underscores and may be written to the base two, eight, sixteen or, with
colons, sixty; a point, and a sign after the letter of a power, are needed where there is a fraction
or a power.
-/

set_option autoImplicit false

namespace SellRules.Yaml

open Number (Binary64)

/-- The words that mean something by themselves. -/
def words : List (String × Scalar) :=
  (["~", "null", "Null", "NULL"].map fun word => (word, .null)) ++
    (["yes", "Yes", "YES", "true", "True", "TRUE", "on", "On", "ON"].map fun word =>
      (word, .bool true)) ++
    (["no", "No", "NO", "false", "False", "FALSE", "off", "Off", "OFF"].map fun word =>
      (word, .bool false)) ++
    ([".inf", ".Inf", ".INF", "+.inf", "+.Inf", "+.INF"].map fun word =>
      (word, .float (.infinite false))) ++
    (["-.inf", "-.Inf", "-.INF"].map fun word => (word, .float (.infinite true))) ++
    ([".nan", ".NaN", ".NAN"].map fun word => (word, .float .notANumber))

/-! ## Digits -/

/-- A digit or an underscore. -/
def isGrouped (c : Char) : Bool := Text.isAsciiDigit c || c == '_'

/-- Whether a text is a digit and then digits and underscores. -/
def isDigits : List Char → Bool
  | [] => false
  | c :: cs => Text.isAsciiDigit c && cs.all isGrouped

/-- The digits without the underscores between them. -/
def ungrouped (cs : List Char) : List Char := cs.filter (· != '_')

/-- Whether a text is a number below sixty of one or two digits. -/
def isSixtieth : List Char → Bool
  | [c] => Text.isAsciiDigit c
  | [c, d] => '0' ≤ c && c ≤ '5' && Text.isAsciiDigit d
  | _ => false

/-! ## Whole numbers -/

/-- The number that digits to a base stand for. -/
def readBased (negative : Bool) (base : Nat) (cs : List Char) : Except Fault Scalar :=
  let digits := ungrouped cs
  if digits.isEmpty then .error (.emptyNumeral base)
  else
    let n := digits.foldl (fun n c => base * n + (Json.hexValue? c).getD 0) 0
    .ok (.int (Number.withSign negative n))

/-- The number that decimal digits stand for, if there are not too many. -/
def readDecimal (cs : List Char) : Except Fault Nat :=
  let digits := ungrouped cs
  if Number.maxDigits < digits.length then .error (.tooManyDigits digits.length)
  else .ok (Number.ofDigits digits)

def isBinaryDigit (c : Char) : Bool := c == '0' || c == '1' || c == '_'

def isOctalDigit (c : Char) : Bool := ('0' ≤ c && c ≤ '7') || c == '_'

def isHexDigit (c : Char) : Bool :=
  Text.isAsciiDigit c || ('a' ≤ c && c ≤ 'f') || ('A' ≤ c && c ≤ 'F') || c == '_'

/-- Reads a whole number after its sign; nothing comes of another text. -/
def readWhole? (negative : Bool) (cs : List Char) : Option (Except Fault Scalar) :=
  match cs with
  | '0' :: 'b' :: c :: digits =>
    if (c :: digits).all isBinaryDigit then some (readBased negative 2 (c :: digits)) else none
  | '0' :: 'x' :: c :: digits =>
    if (c :: digits).all isHexDigit then some (readBased negative 16 (c :: digits)) else none
  | '0' :: digits =>
    if digits.all isOctalDigit then some (readBased negative 8 ('0' :: digits)) else none
  | cs =>
    match Text.pieces ':' cs with
    | first :: parts =>
      if isDigits first && parts.all isSixtieth then some do
        let n ← readDecimal first
        let n := parts.foldl (fun n part => 60 * n + Number.ofDigits part) n
        return .int (Number.withSign negative n)
      else none
    | [] => none

/-! ## Fractions -/

/-- A decimal fraction that was read: its digits, and how many of them stand after the point. -/
structure Fraction where
  digits : List Char
  places : Nat

/-- Reads a fraction, which has a point, and returns what follows it. -/
def takeFraction? (cs : List Char) : Option (Fraction × List Char) :=
  let whole := cs.takeWhile isGrouped
  match cs.dropWhile isGrouped with
  | '.' :: cs =>
    let places := ungrouped (cs.takeWhile isGrouped)
    some (⟨ungrouped whole ++ places, places.length⟩, cs.dropWhile isGrouped)
  | _ => none

/-- Reads a power of ten, which has a sign, up to the end; no power counts as the power zero. -/
def readPower? : List Char → Option Int
  | [] => some 0
  | e :: sign :: digits =>
    if (e == 'e' || e == 'E') && (sign == '+' || sign == '-') && !digits.isEmpty &&
        digits.all Text.isAsciiDigit then
      some (Number.withSign (sign == '-') (Number.ofDigits digits))
    else none
  | _ => none

/-- The number of double precision nearest to a fraction times a power of ten. -/
def Fraction.value (fraction : Fraction) (power : Int) : Binary64 :=
  Binary64.ofDecimal false (Number.ofDigits fraction.digits) (power - fraction.places)

/-- The number that parts of sixty stand for, the last of them first, each rounded as it is added. A
part whose unit is too large fails, even if it is zero. -/
def sumParts (parts : List Binary64) : Except Fault Binary64 := do
  let step (sum : Binary64 × Int) (x : Binary64) : Except Fault (Binary64 × Int) :=
    match Binary64.ofInt? sum.2 with
    | some unit => .ok (sum.1.add (x.mul unit), sum.2 * 60)
    | none => .error .tooLarge
  return (← parts.foldlM step (.finite false 0 0, 1)).1

/-- Reads a fraction to the base sixty: parts between colons, the last of them with a point. -/
def readSixtieths? (cs : List Char) : Option (Except Fault Binary64) := do
  let last :: before := (Text.pieces ':' cs).reverse | none
  let first := before.getLast?.getD []
  if !isDigits first || !before.dropLast.all isSixtieth || !isSixtieth (last.takeWhile (· != '.')) then
    none
  let (fraction, []) ← takeFraction? last | none
  let whole (part : List Char) : Binary64 := Fraction.value ⟨ungrouped part, 0⟩ 0
  return sumParts (fraction.value 0 :: before.map whole)

/-- Reads a number with a point after its sign; nothing comes of another text. One that begins with
the point has no sign. -/
def readPoint? (signed : Bool) (cs : List Char) : Option (Except Fault Binary64) :=
  let startsWell := match cs with
    | '.' :: cs => !signed && cs.head?.any Text.isAsciiDigit
    | cs => cs.head?.any Text.isAsciiDigit
  if !startsWell then none
  else if cs.contains ':' then readSixtieths? cs
  else do
    let (fraction, rest) ← takeFraction? cs
    return .ok (fraction.value (← readPower? rest))

/-! ## All -/

/-- What a plain text means. The merge sign and the sign of a default value mean nothing here. -/
def meaning (s : String) : Except Fault Scalar :=
  if s = "<<" || s = "=" then .error .malformed
  else match words.lookup s with
  | some scalar => .ok scalar
  | none =>
    let cs := s.toList
    let (negative, body) := Number.takeSign cs
    match readPoint? (body.length < cs.length) body with
    | some x => x.map fun x => .float (if negative then x.negate else x)
    | none => (readWhole? negative body).getD (.ok (.text s))

end SellRules.Yaml
