import SellRules.Yaml.Cursor

/-!
# Plain texts

A text without quotes runs up to a colon that a blank follows, a comment, a tab or, inside brackets,
a sign that has a meaning there. It may go on over several lines, which are folded; in a block it
ends where a line is not indented enough.
-/

set_option autoImplicit false

namespace SellRules.Yaml

/-- The signs that end a plain text inside brackets. -/
def isBracketSign (c : Char) : Bool :=
  c == ',' || c == '?' || c == '[' || c == ']' || c == '\x7b' || c == '\x7d'

/-- The signs that make a colon before them a sign inside brackets. -/
def endsPair (c : Char) : Bool :=
  c == ',' || c == '[' || c == ']' || c == '\x7b' || c == '\x7d'

/-- Whether a word of a plain text ends before the given characters. -/
def endsWord (bracketed : Bool) : List Char → Bool
  | [] => true
  | c :: cs =>
    isBlank c || (c == ':' && (blankNext cs || (bracketed && cs.head?.any endsPair))) ||
      (bracketed && isBracketSign c)

/-- The word at the front. -/
def takeWord (bracketed : Bool) : List Char → List Char
  | [] => []
  | c :: cs => if endsWord bracketed (c :: cs) then [] else c :: takeWord bracketed cs

theorem isPrefix_takeWord (bracketed : Bool) (cs : List Char) : takeWord bracketed cs <+: cs := by
  induction cs with
  | nil => simp [takeWord]
  | cons c cs ih =>
    unfold takeWord
    split
    · simp
    · simpa using ih

/-- Skips spaces and line ends. The line ends are returned, unless a line that parts documents comes
after one of them. -/
def skipLines : List Char → Option (List Char) × List Char
  | [] => (some [], [])
  | c :: cs =>
    if c == ' ' then skipLines cs
    else if isLineEnd c then
      if atSeparator cs then (none, cs)
      else
        let (ends, rest) := skipLines cs
        (ends.map (lineEnd c :: ·), rest)
    else (some [], c :: cs)

/-- What stands between two words. -/
structure WordGap where
  /-- What it comes to within the text; empty where the text ends. -/
  text : List Char
  /-- Whether it holds a line end. -/
  broken : Bool
  rest : List Char

/-- The gap at the front. -/
def takeGap (cs : List Char) : WordGap :=
  match cs.dropWhile (· == ' ') with
  | [] => ⟨cs.takeWhile (· == ' '), false, []⟩
  | c :: after =>
    if !isLineEnd c then ⟨cs.takeWhile (· == ' '), false, c :: after⟩
    else if atSeparator after then ⟨[], true, after⟩
    else match skipLines after with
      | (some ends, rest) => ⟨fold c ends, true, rest⟩
      | (none, rest) => ⟨[], true, rest⟩

/-- A plain text that was read. -/
structure PlainText where
  text : List Char
  /-- Whether a line end follows it. -/
  broken : Bool
  cursor : Cursor

/-- Reads the plain text at a place. `broken` tells whether a line end stands before it, and the
first argument bounds the number of its words. -/
def takePlain (bracketed : Bool) (indent : Nat) : Nat → Bool → Cursor → PlainText
  | 0, broken, cursor => ⟨[], broken, cursor⟩
  | limit + 1, broken, cursor =>
    match takeWord bracketed cursor.rest with
    | [] => ⟨[], broken, cursor⟩
    | word =>
      let gap := takeGap (cursor.rest.drop word.length)
      let next := cursor.goTo gap.rest
      if gap.text.isEmpty || gap.rest.head? == some '#' || (!bracketed && next.column < indent) then
        ⟨word, gap.broken, next⟩
      else
        let more := takePlain bracketed indent limit gap.broken next
        if more.text.isEmpty then ⟨word, more.broken, more.cursor⟩
        else { more with text := word ++ gap.text ++ more.text }

end SellRules.Yaml
