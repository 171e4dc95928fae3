import SellRules.Text.Blank
import SellRules.Text.Digit

/-!
# Numerals

Whole numbers as texts. There are two readings. A *plain* numeral is a sign, if any, and ASCII
digits. A *lenient* numeral may have blanks around it, digits of any script and single underscores
between digits. Both refuse more than `maxDigits` digits, leading zeros counted, and tell that apart
from a text that is no numeral. Messages show no longer numbers either.
-/

set_option autoImplicit false

namespace SellRules.Number

/-- The most digits that a numeral may have. -/
def maxDigits : Nat := 4300

/-- Why a text was not read as a whole number. -/
inductive NumeralFault where
  | tooLong (digits : Nat)
  | malformed
  deriving DecidableEq, Repr

/-- The digits of a natural number in base ten, most significant first, without leading zeros. -/
def digitsOf (n : Nat) : List Char := Nat.toDigits 10 n

/-- The number that ASCII digits stand for. -/
def ofDigits (digits : List Char) : Nat := Nat.ofDigitChars 10 digits 0

theorem ofDigits_digitsOf (n : Nat) : ofDigits (digitsOf n) = n := Nat.ofDigitChars_ten_toDigits

/-- The written form of a whole number: a minus sign for the negative ones, then the digits. -/
def signedDigits : Int → List Char
  | .ofNat n => digitsOf n
  | .negSucc n => '-' :: digitsOf (n + 1)

/-- The written form of a whole number as a string. -/
def numeral (n : Int) : String := String.ofList (signedDigits n)

/-- The least number with too many digits to be written in a message. -/
def leastUnshown : Nat := Nat.pow 10 maxDigits

/-- Whether a whole number is short enough to be written in a message. -/
def isShown (n : Int) : Bool := n.natAbs < leastUnshown

def withSign (negative : Bool) (n : Nat) : Int := if negative then -(n : Int) else n

/-- The sign in front of a text, a missing one counting as plus, and what follows it. -/
def takeSign : List Char → Bool × List Char
  | '-' :: cs => (true, cs)
  | '+' :: cs => (false, cs)
  | cs => (false, cs)

/-- The number that a sign and ASCII digits stand for, if there are at most `most` digits. -/
def ofSignedDigits (most : Nat) (negative : Bool) (digits : List Char) : Except NumeralFault Int :=
  if most < digits.length then .error (.tooLong digits.length)
  else .ok (withSign negative (ofDigits digits))

/-- Reads a plain numeral. -/
def readPlain (cs : List Char) : Except NumeralFault Int :=
  let (negative, digits) := takeSign cs
  if digits.isEmpty || !digits.all Text.isAsciiDigit then .error .malformed
  else ofSignedDigits maxDigits negative digits

/-- The blanks that a lenient numeral may have at its ends: all but the information separators. -/
def isPadding (c : Char) : Bool := Text.isBlank c && !(0x1C ≤ c.toNat && c.toNat ≤ 0x1F)

def isNumeralChar (c : Char) : Bool := c == '_' || (Text.digitValue? c).isSome

/-- Whether every underscore has a digit on both sides; `afterDigit` tells whether one precedes. -/
def grouped (afterDigit : Bool) : List Char → Bool
  | [] => afterDigit
  | c :: cs => if c == '_' then afterDigit && grouped false cs else grouped true cs

/-- Reads a lenient numeral. Too many digits are noticed before anything that follows them. -/
def readLenient (cs : List Char) : Except NumeralFault Int :=
  let (negative, body) := takeSign (cs.dropWhile isPadding)
  let run := body.takeWhile isNumeralChar
  let digits := run.filterMap Text.digitValue?
  if !grouped false run then .error .malformed
  else if maxDigits < digits.length then .error (.tooLong digits.length)
  else if !((body.dropWhile isNumeralChar).all isPadding) then .error .malformed
  else .ok (withSign negative (digits.foldl (10 * · + ·) 0))

theorem takeSign_of_isDigit {c : Char} (h : c.isDigit = true) (cs : List Char) :
    takeSign (c :: cs) = (false, c :: cs) := by
  unfold takeSign
  split
  · simp_all [Char.isDigit]
  · simp_all [Char.isDigit]
  · rfl

end SellRules.Number
