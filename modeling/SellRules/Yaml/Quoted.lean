import SellRules.Json.Reader
import SellRules.Yaml.Cursor

/-!
# Quoted texts

In single quotes a quote is written twice and nothing else is special. In double quotes a backslash
begins an escape. Both may go on over several lines, which are folded; the blanks around a line end
do not count.
-/

set_option autoImplicit false

namespace SellRules.Yaml

/-- What a backslash and one character stand for. -/
def escapeCode? : Char → Option Nat
  | '0' => some 0x00
  | 'a' => some 0x07
  | 'b' => some 0x08
  | 't' => some 0x09
  | '\t' => some 0x09
  | 'n' => some 0x0A
  | 'v' => some 0x0B
  | 'f' => some 0x0C
  | 'r' => some 0x0D
  | 'e' => some 0x1B
  | ' ' => some 0x20
  | '\x22' => some 0x22
  | '\x5c' => some 0x5C
  | '/' => some 0x2F
  | 'N' => some 0x85
  | '_' => some 0xA0
  | 'L' => some 0x2028
  | 'P' => some 0x2029
  | _ => none

/-- How many digits follow the letter of a numbered escape. -/
def escapeWidth? : Char → Option Nat
  | 'x' => some 2
  | 'u' => some 4
  | 'U' => some 8
  | _ => none

/-- The number that a given count of digits in base sixteen stands for. -/
def takeHex (code : Nat) : Nat → List Char → Option (Nat × List Char)
  | 0, cs => some (code, cs)
  | _ + 1, [] => none
  | n + 1, c :: cs => do takeHex (16 * code + (← Json.hexValue? c)) n cs

/-- Skips blanks and returns the line ends among them. Nothing comes of it where a line parts
documents; `lineStart` tells whether a line begins here. -/
def skipBlanks (lineStart : Bool) : List Char → Option (List Char × List Char)
  | [] => some ([], [])
  | c :: cs =>
    if lineStart && atSeparator (c :: cs) then none
    else if isGap c then skipBlanks false cs
    else if isLineEnd c then (skipBlanks true cs).map fun (ends, rest) => (lineEnd c :: ends, rest)
    else some ([], c :: cs)

/-- Puts code points in front of the ones that were read. -/
def prepend (codes : List Nat) (r : Except Fault (List Nat × List Char)) :
    Except Fault (List Nat × List Char) :=
  r.map fun (more, rest) => (codes ++ more, rest)

def codesOf (cs : List Char) : List Nat := cs.map Char.toNat

/-- The code points of a text up to its closing quote. The first argument bounds the number of
steps. -/
def takeQuoted (double : Bool) : Nat → List Char → Except Fault (List Nat × List Char)
  | 0, _ => .error .malformed
  | _ + 1, [] => .error .malformed
  | limit + 1, c :: cs =>
    let next := takeQuoted double limit
    if isBlank c then
      let gap := (c :: cs).takeWhile isGap
      match (c :: cs).dropWhile isGap with
      | [] => .error .malformed
      | e :: after =>
        if isLineEnd e then
          match skipBlanks true after with
          | some (ends, rest) => prepend (codesOf (fold e ends)) (next rest)
          | none => .error .malformed
        else prepend (codesOf gap) (next (e :: after))
    else if double then
      if c = '\x22' then .ok ([], cs)
      else if c = '\x5c' then
        match cs with
        | [] => .error .malformed
        | e :: after =>
          match escapeCode? e, escapeWidth? e with
          | some code, _ => prepend [code] (next after)
          | none, some width =>
            match takeHex 0 width after with
            | some (code, rest) =>
              if 0x10FFFF < code then .error (.noCharacter code) else prepend [code] (next rest)
            | none => .error .malformed
          | none, none =>
            if isLineEnd e then
              match skipBlanks true after with
              | some (ends, rest) => prepend (codesOf ends) (next rest)
              | none => .error .malformed
            else .error .malformed
      else prepend [c.toNat] (next cs)
    else if c = '\x27' then
      match cs with
      | '\x27' :: after => prepend [0x27] (next after)
      | _ => .ok ([], cs)
    else prepend [c.toNat] (next cs)

/-- The text with the given code points. Two halves of a surrogate pair are one character. -/
def textOfCodes (codes : List Nat) : String :=
  Json.nameOfCodes (Json.joinPairs (codes.map .numbered))

end SellRules.Yaml
