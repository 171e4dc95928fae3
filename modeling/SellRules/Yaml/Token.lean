import SellRules.Yaml.Plain
import SellRules.Yaml.Quoted

/-!
# Tokens of a YAML text

A text as a list of tokens. Indentation becomes tokens of its own: one where a block of entries or of
keys begins, one where it ends. What a key is shows only at its colon, which has to follow on the
same line: until then the place of its first token is kept, one for each open bracket, and the token
of the key is put in there afterwards. Anchors, tags and block texts are not understood.
-/

set_option autoImplicit false

namespace SellRules.Yaml

inductive Token where
  /-- A line for the reader of the text; the major version where it states one. -/
  | directive (version : Option Nat)
  | documentStart
  | documentEnd
  | entriesStart
  | keysStart
  | blockEnd
  | entry
  | key
  | value
  | listOpen
  | listClose
  | tableOpen
  | tableClose
  | comma
  | plain (text : String)
  | quoted (text : String)
  deriving DecidableEq, Repr

/-- A place where a key may have begun. -/
structure Candidate where
  /-- How many tokens lie before it. -/
  index : Nat
  offset : Nat
  line : Nat
  column : Nat
  /-- Whether nothing but a key may stand there. -/
  required : Bool

/-- How far the reading of tokens has come. -/
structure Scan where
  cursor : Cursor
  tokens : Array Token := #[]
  /-- Where a key may have begun since the innermost open bracket. -/
  candidate : Option Candidate := none
  /-- The same for the brackets around it, the innermost first. -/
  outer : List (Option Candidate) := []
  /-- The columns of the open blocks, the innermost first. -/
  indents : List Nat := []
  /-- Whether a key or an entry may begin here. -/
  keyAllowed : Bool := true
  ended : Bool := false

/-- The tokens of a text that a reader of tokens may look at, and why there are no more. -/
structure Scanned where
  tokens : List Token
  fault : Option Fault := none
  deriving DecidableEq, Repr

namespace Scan

/-- How many characters may stand between the start of a key and its colon. -/
def maxKeyLength : Nat := 1024

/-- Whether no bracket is open. -/
def inBlock (scan : Scan) : Bool := scan.outer.isEmpty

/-- The least column of what belongs to the innermost block. -/
def minColumn (scan : Scan) : Nat :=
  match scan.indents with
  | [] => 0
  | indent :: _ => indent + 1

/-- Adds a token at the end. -/
def write (token : Token) (scan : Scan) : Scan := { scan with tokens := scan.tokens.push token }

/-- Moves past some characters. -/
def past (n : Nat) (scan : Scan) : Scan := { scan with cursor := scan.cursor.steps n }

/-! ## Blanks and blocks -/

/-- Skips spaces, comments and line ends, and tells whether there was a line end. -/
def skipSpace (comment broken : Bool) : List Char → Bool × List Char
  | [] => (broken, [])
  | c :: cs =>
    if isLineEnd c then skipSpace false true cs
    else if comment || c == ' ' then skipSpace comment broken cs
    else if c == '#' then skipSpace true broken cs
    else (broken, c :: cs)

/-- Moves to where the next token begins. -/
def toToken (scan : Scan) : Scan :=
  let cs := match scan.cursor.offset, scan.cursor.rest with
    | 0, '\ufeff' :: cs => cs
    | _, cs => cs
  let (broken, rest) := skipSpace false false cs
  { scan with
    cursor := scan.cursor.goTo rest
    keyAllowed := scan.keyAllowed || (broken && scan.inBlock) }

/-- Ends the blocks whose indent satisfies `p`, from the innermost on. -/
def endBlocks (p : Nat → Bool) (scan : Scan) : Scan :=
  if scan.inBlock then
    let ends := (scan.indents.takeWhile p).map fun _ => Token.blockEnd
    { scan with tokens := scan.tokens ++ ends.toArray, indents := scan.indents.dropWhile p }
  else scan

/-- Outside brackets each block that ends has its token. -/
theorem endBlocks_eq {scan : Scan} (h : scan.inBlock = true) (p : Nat → Bool) :
    (scan.endBlocks p).tokens.size + (scan.endBlocks p).indents.length =
      scan.tokens.size + scan.indents.length := by
  have : (scan.indents.takeWhile p).length + (scan.indents.dropWhile p).length
      = scan.indents.length := by
    rw [← List.length_append, List.takeWhile_append_dropWhile]
  simp [endBlocks, h]
  omega

/-- Begins a block at a column, unless one stands there or the place is in brackets. Its token comes
after as many tokens as `index` says. -/
def startBlock (token : Token) (index column : Nat) (scan : Scan) : Scan :=
  if scan.inBlock && scan.minColumn ≤ column then
    { scan with
      tokens := scan.tokens.insertIdxIfInBounds index token
      indents := column :: scan.indents }
  else scan

/-! ## Keys -/

/-- Whether a key that began at a place cannot have its colon any more. -/
def isStale (scan : Scan) (candidate : Candidate) : Bool :=
  candidate.line != scan.cursor.line || maxKeyLength < scan.cursor.offset - candidate.offset

/-- Forgets the places that are too far away for a key. -/
def forgetStale (scan : Scan) : Except Fault Scan :=
  let stale := (scan.candidate :: scan.outer).filter (·.any scan.isStale)
  if stale.any (·.any (·.required)) then .error .malformed
  else .ok { scan with
    candidate := scan.candidate.filter (!scan.isStale ·)
    outer := scan.outer.map (·.filter (!scan.isStale ·)) }

/-- Forgets the place where a key may have begun since the innermost bracket. -/
def forget (scan : Scan) : Except Fault Scan :=
  if scan.candidate.any (·.required) then .error .malformed
  else .ok { scan with candidate := none }

/-- Notes that a key may begin here. At the column of the innermost block nothing else may stand. -/
def mark (scan : Scan) : Except Fault Scan :=
  if scan.keyAllowed then do
    let required := scan.inBlock && scan.indents.head? == some scan.cursor.column
    let candidate : Candidate :=
      ⟨scan.tokens.size, scan.cursor.offset, scan.cursor.line, scan.cursor.column, required⟩
    return { ← scan.forget with candidate := some candidate }
  else .ok scan

/-- How many tokens cannot be preceded by further ones. -/
def settled (scan : Scan) : Nat :=
  (scan.candidate :: scan.outer).foldl (fun n candidate => candidate.elim n (min n ·.index))
    scan.tokens.size

/-- A colon that is a sign: in brackets any, else one before a blank. -/
def atColon (scan : Scan) : List Char → Bool
  | ':' :: cs => !scan.inBlock || blankNext cs
  | _ => false

/-- Writes the sign of a value. What stands before it on its line is its key; without one, it needs
a place where a key may begin, unless it is in brackets. -/
def value (scan : Scan) : Except Fault Scan := do
  let scan ← match scan.candidate with
    | some { index, column, .. } =>
      let scan := { scan with
        candidate := none
        keyAllowed := false
        tokens := scan.tokens.insertIdxIfInBounds index .key }
      pure (scan.startBlock .keysStart index column)
    | none =>
      if scan.inBlock && !scan.keyAllowed then throw .malformed
      let scan := scan.startBlock .keysStart scan.tokens.size scan.cursor.column
      pure { scan with keyAllowed := scan.inBlock }
  return (scan.write .value).past 1

/-! ## Directives -/

def isNameChar (c : Char) : Bool := c.isAlphanum || c == '-' || c == '_'

def isSpace (c : Char) : Bool := c == ' '

/-- The digits of a version number at the front, at least one, and the number. -/
def takeNumber (cs : List Char) : Except Fault (Nat × List Char) :=
  let digits := cs.takeWhile Text.isAsciiDigit
  if digits.isEmpty then .error .malformed
  else if Number.maxDigits < digits.length then .error (.tooManyDigits digits.length)
  else .ok (Number.ofDigits digits, cs.drop digits.length)

/-- Whether a line ends here but for spaces and a comment. -/
def lineEnds (cs : List Char) : Bool :=
  match cs.dropWhile isSpace with
  | [] => true
  | c :: _ => c == '#' || isLineEnd c

/-- Reads a directive after its percent sign, up to the end of the line. -/
def takeDirective (cs : List Char) : Except Fault (Token × List Char) := do
  let name := cs.takeWhile isNameChar
  let after := cs.dropWhile isNameChar
  let line := cs.dropWhile (!isLineEnd ·)
  if name.isEmpty || !(blankNext after) || after.head? == some '\t' then throw .malformed
  else if name = "YAML".toList then
    let (major, rest) ← takeNumber (after.dropWhile isSpace)
    let '.' :: rest := rest | throw .malformed
    let (_, rest) ← takeNumber rest
    if blankNext rest && lineEnds rest then return (.directive (some major), line)
    else throw .malformed
  else if name = "TAG".toList then throw .malformed
  else return (.directive none, line)

/-! ## Signs and texts -/

/-- Opens a bracket. -/
def openBracket (token : Token) (scan : Scan) : Except Fault Scan := do
  let scan ← scan.mark
  return {
    (scan.write token).past 1 with
    candidate := none
    outer := scan.candidate :: scan.outer
    keyAllowed := true }

/-- Closes a bracket. -/
def closeBracket (token : Token) (scan : Scan) : Except Fault Scan :=
  match scan.outer with
  | [] => .error .malformed
  | candidate :: outer =>
    .ok { (scan.write token).past 1 with candidate, outer, keyAllowed := false }

/-- Writes a comma. -/
def comma (scan : Scan) : Except Fault Scan := do
  return { ((← scan.forget).write .comma).past 1 with keyAllowed := true }

/-- Writes the sign of an entry or a key, and before it the start of its block. In a block it needs a
place where a key may begin. -/
def sign (block token : Token) (keyAllowed : Bool) (scan : Scan) : Except Fault Scan := do
  if scan.inBlock && !scan.keyAllowed then throw .malformed
  let scan ← (scan.startBlock block scan.tokens.size scan.cursor.column).forget
  return { (scan.write token).past 1 with keyAllowed }

/-- Writes a token before which all blocks end. -/
def between (token : Token) (rest : List Char) (scan : Scan) : Except Fault Scan := do
  let scan ← (scan.endBlocks fun _ => true).forget
  return { scan.write token with cursor := scan.cursor.goTo rest, keyAllowed := false }

/-- Writes a text that ends at `after`; `broken` tells whether it ends with a line. -/
def text (token : Token) (after : Cursor) (broken : Bool) (scan : Scan) : Scan :=
  { scan.write token with cursor := after, keyAllowed := broken }

/-- Writes a text in quotes. -/
def quotedText (double : Bool) (rest : List Char) (scan : Scan) : Except Fault Scan := do
  let scan ← scan.mark
  let (codes, rest) ← takeQuoted double (rest.length + 1) rest
  return scan.text (.quoted (textOfCodes codes)) (scan.cursor.goTo rest) false

/-- Writes a plain text. -/
def plainText (scan : Scan) : Except Fault Scan := do
  let scan ← scan.mark
  let cursor := scan.cursor
  let plain := takePlain (!scan.inBlock) scan.minColumn cursor.rest.length false cursor
  return scan.text (.plain (String.ofList plain.text)) plain.cursor plain.broken

/-- Whether a plain text may begin here. -/
def startsPlain (scan : Scan) : List Char → Bool
  | [] => false
  | c :: cs =>
    !(isBlank c || "-?:,[]\x7b\x7d#&*!|>'\x22%@\x60".toList.contains c) ||
      (!blankNext cs && (c == '-' || (scan.inBlock && (c == '?' || c == ':'))))

/-! ## Reading -/

/-- Reads the token at a place where one begins. -/
def token (scan : Scan) : Except Fault Scan :=
  let cs := scan.cursor.rest
  let atMargin := scan.cursor.column == 0
  if atMargin && cs.head? == some '%' then do
    let (directive, rest) ← takeDirective cs.tail
    scan.between directive rest
  else if atMargin && atSeparator cs then
    scan.between (if cs.head? == some '-' then .documentStart else .documentEnd) (cs.drop 3)
  else match cs with
    | '[' :: _ => scan.openBracket .listOpen
    | '\x7b' :: _ => scan.openBracket .tableOpen
    | ']' :: _ => scan.closeBracket .listClose
    | '\x7d' :: _ => scan.closeBracket .tableClose
    | ',' :: _ => scan.comma
    | '\x27' :: rest => scan.quotedText false rest
    | '\x22' :: rest => scan.quotedText true rest
    | c :: rest =>
      if c = '-' && blankNext rest then scan.sign .entriesStart .entry true
      else if c = '?' && (!scan.inBlock || blankNext rest) then
        scan.sign .keysStart .key scan.inBlock
      else if scan.atColon cs then scan.value
      else if scan.startsPlain cs then scan.plainText
      else .error .malformed
    | [] => .error .malformed

/-- Ends all blocks at the end of a text. -/
def finish (scan : Scan) : Except Fault Scan := do
  return { ← (scan.endBlocks fun _ => true).forget with outer := [], ended := true }

/-- Reads on to the end of the next token, or to the end of the text. -/
def advance (scan : Scan) : Except Fault Scan := do
  let scan ← scan.toToken.forgetStale
  let scan := scan.endBlocks (scan.cursor.column < ·)
  if scan.cursor.rest.isEmpty then scan.finish else scan.token

/-- Reads to the end of the text, or to a fault. The first argument bounds the number of tokens. A
reader of tokens asks for a further one only if it needs it, so the tokens whose place is settled are
looked at before the fault shows. -/
def run : Nat → Scan → Scanned
  | 0, scan => ⟨scan.tokens.toList, some .malformed⟩
  | limit + 1, scan =>
    match scan.forgetStale with
    | .error fault => ⟨[], some fault⟩
    | .ok scan =>
      match scan.advance with
      | .error fault => ⟨scan.tokens.toList.take scan.settled, some fault⟩
      | .ok next => if next.ended then ⟨next.tokens.toList, none⟩ else run limit next

end Scan

/-- The tokens of a text. -/
def Scanned.ofText (s : String) : Scanned :=
  let cs := s.toList
  if cs.all isAllowed then Scan.run (cs.length + 1) { cursor := { rest := cs } }
  else ⟨[], some .malformed⟩

end SellRules.Yaml
