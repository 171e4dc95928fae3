import SellRules.Json.Fault
import SellRules.Value.Basic

/-!
# Reading JSON

A reader for JSON that also takes `NaN`, `Infinity` and `-Infinity`. Only spaces, tabs and line ends
may stand between tokens; of two fields with one name the later value counts, in the place of the
earlier. The functions walk along the characters that are left, so a fault is reported at the list
of characters that begins with it.

Whole numbers may have a number of digits only, and lists and objects stand inside one another to a
number of levels only. A text with lone surrogates is read as well; they may stand between quotes.
-/

set_option autoImplicit false

namespace SellRules.Json

open Number (Binary64)

/-- Where and why reading stopped: the characters from the fault on are kept. -/
inductive Stop where
  | malformed (fault : Fault) (rest : List Char)
  | tooManyDigits (count : Nat)
  | tooDeep
  deriving DecidableEq, Repr

def isSpace (c : Char) : Bool := c == ' ' || c == '\t' || c == '\n' || c == '\r'

def skipSpace (cs : List Char) : List Char := cs.dropWhile isSpace

/-! ## Texts -/

def isHighSurrogate (code : Nat) : Bool := 0xD800 ≤ code && code ≤ 0xDBFF

def isLowSurrogate (code : Nat) : Bool := 0xDC00 ≤ code && code ≤ 0xDFFF

def hexValue? (c : Char) : Option Nat :=
  if '0' ≤ c && c ≤ '9' then some (c.toNat - 0x30)
  else if 'a' ≤ c && c ≤ 'f' then some (c.toNat - 0x57)
  else if 'A' ≤ c && c ≤ 'F' then some (c.toNat - 0x37)
  else none

def hexCode? (a b c d : Char) : Option Nat := do
  return (((← hexValue? a) * 16 + (← hexValue? b)) * 16 + (← hexValue? c)) * 16 + (← hexValue? d)

/-- What a backslash and one character stand for. -/
def escapeCode? : Char → Option Nat
  | '\x22' => some 0x22
  | '\x5c' => some 0x5C
  | '/' => some 0x2F
  | 'b' => some 0x08
  | 'f' => some 0x0C
  | 'n' => some 0x0A
  | 'r' => some 0x0D
  | 't' => some 0x09
  | _ => none

/-- A piece of a text: what stands for itself, or what is named by a numbered escape. -/
inductive Piece where
  | plain (code : Nat)
  | numbered (code : Nat)
  deriving DecidableEq, Repr

/-- Puts a piece in front of the ones that were read. -/
def push (piece : Piece) :
    Except Stop (List Piece × List Char) → Except Stop (List Piece × List Char)
  | .ok (pieces, rest) => .ok (piece :: pieces, rest)
  | .error stop => .error stop

/-- The code point of the first character. -/
def headCode : List Char → Nat
  | [] => 0
  | c :: _ => c.toNat

/-- The pieces of a text up to its closing quote. `start` begins with the opening quote, and `code`
tells what the first of the characters left stands for. A numbered escape needs a character after its
four digits. -/
def readPieces (code : List Char → Nat) (start : List Char) :
    List Char → Except Stop (List Piece × List Char)
  | [] => .error (.malformed .unterminatedText start)
  | c :: cs =>
    if c = '\x22' then .ok ([], cs)
    else if c = '\x5c' then
      match cs with
      | [] => .error (.malformed .unterminatedText start)
      | 'u' :: h₁ :: h₂ :: h₃ :: h₄ :: next :: rest =>
        match hexCode? h₁ h₂ h₃ h₄ with
        | some unit => push (.numbered unit) (readPieces code start (next :: rest))
        | none => .error (.malformed .badUnicodeEscape cs)
      | escape :: rest =>
        if escape = 'u' then .error (.malformed .badUnicodeEscape cs)
        else match escapeCode? escape with
          | some unit => push (.plain unit) (readPieces code start rest)
          | none => .error (.malformed .unknownEscape (c :: cs))
    else if c.toNat < 0x20 then .error (.malformed .controlCharacter (c :: cs))
    else push (.plain (code (c :: cs))) (readPieces code start cs)

/-- The code points of a text. Two numbered halves of a surrogate pair are put together. -/
def joinPairs : List Piece → List Nat
  | .numbered high :: .numbered low :: rest =>
    if isHighSurrogate high && isLowSurrogate low then
      (0x10000 + (high - 0xD800) * 0x400 + (low - 0xDC00)) :: joinPairs rest
    else high :: joinPairs (.numbered low :: rest)
  | .plain code :: rest | .numbered code :: rest => code :: joinPairs rest
  | [] => []

/-- The text with the given code points. -/
def textOfCodes (codes : List Nat) : Value :=
  if codes.all Nat.isValidChar then .text (String.ofList (codes.map Char.ofNat)) else .unpaired codes

/-- A field name with the given code points. Names are strings of characters: a lone surrogate in one
is replaced as in `Value.charactersOf`. -/
def nameOfCodes (codes : List Nat) : String := Value.charactersOf codes

/-! ## Numbers -/

/-- Skips a point with at least one digit after it and returns the digits. -/
def takeFraction : List Char → List Char × List Char
  | '.' :: d :: cs =>
    if Text.isAsciiDigit d then (d :: cs.takeWhile Text.isAsciiDigit, cs.dropWhile Text.isAsciiDigit)
    else ([], '.' :: d :: cs)
  | cs => ([], cs)

/-- Skips a power of ten with at least one digit and returns it. -/
def takeExponent : List Char → Option Int × List Char
  | c :: cs =>
    if c == 'e' || c == 'E' then
      let (negative, body) := Number.takeSign cs
      let digits := body.takeWhile Text.isAsciiDigit
      if digits.isEmpty then (none, c :: cs)
      else (some (Number.withSign negative (Number.ofDigits digits)), body.dropWhile Text.isAsciiDigit)
    else (none, c :: cs)
  | [] => (none, [])

/-- The digits before the point: a zero by itself or digits that start with another. -/
def takeWhole : List Char → List Char × List Char
  | '0' :: cs => (['0'], cs)
  | cs => (cs.takeWhile Text.isAsciiDigit, cs.dropWhile Text.isAsciiDigit)

/-- Reads a number. With a fraction or a power of ten it has double precision; a whole number may
have `most` digits. -/
def readNumber (most : Nat) (cs : List Char) : Except Stop (Value × List Char) :=
  let (negative, body) := match cs with
    | '-' :: rest => (true, rest)
    | _ => (false, cs)
  let (whole, rest) := takeWhole body
  if whole.isEmpty then .error (.malformed .expectedValue cs)
  else
    let (fraction, rest) := takeFraction rest
    match fraction, takeExponent rest with
    | [], (none, rest) =>
      match Number.ofSignedDigits most negative whole with
      | .ok n => .ok (.int n, rest)
      | .error (.tooLong count) => .error (.tooManyDigits count)
      | .error .malformed => .error (.malformed .expectedValue cs)
    | fraction, (exponent, rest) =>
      let n := Number.ofDigits (whole ++ fraction)
      .ok (.float (Binary64.ofDecimal negative n (exponent.getD 0 - fraction.length)), rest)

/-! ## Values -/

/-- The words that stand for a value by themselves. -/
def constants : List (List Char × Value) := [
  ("null".toList, .null), ("true".toList, .bool true), ("false".toList, .bool false),
  ("NaN".toList, .float .notANumber), ("Infinity".toList, .float (.infinite false)),
  ("-Infinity".toList, .float (.infinite true))]

def readConstant? (cs : List Char) : Option (Value × List Char) :=
  (constants.find? fun (word, _) => word.isPrefixOf cs).map fun (word, v) => (v, cs.drop word.length)

section

variable (most : Nat) (code : List Char → Nat)

mutual

/-- Reads one value whose whole numbers have at most `most` digits and in which at most `room` lists
and objects stand inside one another. The `Nat` that is matched on bounds the depth of the calls. -/
def readValue : Nat → (room : Nat) → List Char → Except Stop (Value × List Char)
  | 0, _, cs => .error (.malformed .expectedValue cs)
  | limit + 1, room, cs =>
    match cs with
    | '\x22' :: rest => do
      let (pieces, rest) ← readPieces code cs rest
      return (textOfCodes (joinPairs pieces), rest)
    | '[' :: rest =>
      match room with
      | 0 => .error .tooDeep
      | room + 1 =>
        match skipSpace rest with
        | ']' :: rest => return (.list [], rest)
        | rest => do
          let (items, rest) ← readItems limit room rest
          return (.list items, rest)
    | '\x7b' :: rest =>
      match room with
      | 0 => .error .tooDeep
      | room + 1 =>
        match skipSpace rest with
        | '\x7d' :: rest => return (.object [], rest)
        | rest => do
          let (fields, rest) ← readFields limit room [] rest
          return (.object fields, rest)
    | cs =>
      match readConstant? cs with
      | some (v, rest) => return (v, rest)
      | none => readNumber most cs

/-- Reads the items of a list up to its closing bracket. -/
def readItems : Nat → (room : Nat) → List Char → Except Stop (List Value × List Char)
  | 0, _, cs => .error (.malformed .expectedValue cs)
  | limit + 1, room, cs => do
    let (v, rest) ← readValue limit room cs
    match skipSpace rest with
    | ']' :: rest => return ([v], rest)
    | ',' :: rest =>
      let (items, rest) ← readItems limit room (skipSpace rest)
      return (v :: items, rest)
    | rest => .error (.malformed .expectedComma rest)

/-- Reads the fields of an object up to its closing brace and puts them into those read before. -/
def readFields : Nat → (room : Nat) → Fields → List Char → Except Stop (Fields × List Char)
  | 0, _, _, cs => .error (.malformed .expectedName cs)
  | limit + 1, room, before, cs =>
    match cs with
    | '\x22' :: rest => do
      let (pieces, rest) ← readPieces code cs rest
      match skipSpace rest with
      | ':' :: rest =>
        let (v, rest) ← readValue limit room (skipSpace rest)
        let fields := before.put (nameOfCodes (joinPairs pieces)) v
        match skipSpace rest with
        | '\x7d' :: rest => return (fields, rest)
        | ',' :: rest => readFields limit room fields (skipSpace rest)
        | rest => .error (.malformed .expectedComma rest)
      | rest => .error (.malformed .expectedColon rest)
    | cs => .error (.malformed .expectedName cs)

end

end

/-- Reads a text that holds one value. Two steps of depth for each character are enough. -/
def readAll (most : Nat) (code : List Char → Nat) (room : Nat) (cs : List Char) :
    Except Stop Value :=
  match cs with
  | '\ufeff' :: _ => .error (.malformed .byteOrderMark cs)
  | _ =>
    match readValue most code (2 * cs.length + 2) room (skipSpace cs) with
    | .ok (v, rest) =>
      match skipSpace rest with
      | [] => .ok v
      | rest => .error (.malformed .extraData rest)
    | .error stop => .error stop

/-- What reading the given characters comes to; a fault is located by the characters before it. -/
def located (cs : List Char) : Except Stop Value → Except ReadError Value
  | .ok v => .ok v
  | .error (.malformed fault rest) => .error (.malformed fault (cs.length - rest.length))
  | .error (.tooManyDigits count) => .error (.tooManyDigits count)
  | .error .tooDeep => .error .tooDeep

/-- Reads a text that holds one value, with at most `most` digits in a whole number and at most
`room` levels of lists and objects. -/
def readWithin (most room : Nat) (s : String) : Except ReadError Value :=
  located s.toList (readAll most headCode room s.toList)

/-- Reads a text that holds one value, with at most `most` digits in a whole number. -/
def readUpTo (most : Nat) (s : String) : Except ReadError Value := readWithin most Value.maxLevels s

/-- Reads a text that holds one value, with as many digits in a whole number as any numeral has. -/
def read (s : String) : Except ReadError Value := readUpTo Number.maxDigits s

/-- Reads a text with lone surrogates. For the reader each of them is a character that has no
meaning outside quotes; between quotes it stands for itself. -/
def readCodes (codes : List Nat) : Except ReadError Value :=
  let cs := (Value.charactersOf codes).toList
  let code (rest : List Char) : Nat := codes[codes.length - rest.length]?.getD 0
  located cs (readAll Number.maxDigits code Value.maxLevels cs)

/-- Reads a value that is a text. -/
def readText? : Value → Option (Except ReadError Value)
  | .text s => some (read s)
  | .unpaired codes => some (readCodes codes)
  | _ => none

end SellRules.Json
