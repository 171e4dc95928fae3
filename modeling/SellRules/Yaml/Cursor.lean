/-!
# Places in a YAML text

The characters that matter to the layout of a text, and a cursor that knows its line and column. A
byte order mark takes no column.
-/

set_option autoImplicit false

namespace SellRules.Yaml

/-- Why a text is no YAML that is understood here. -/
inductive Fault where
  | malformed
  /-- An escape for a code point that does not exist. -/
  | noCharacter (code : Nat)
  /-- A numeral that ends after the letters for its base. -/
  | emptyNumeral (base : Nat)
  | tooManyDigits (count : Nat)
  /-- A number to the base sixty with too many parts. -/
  | tooLarge
  deriving DecidableEq, Repr

/-- Whether a character may stand in a text at all. -/
def isAllowed (c : Char) : Bool :=
  let n := c.toNat
  n == 0x09 || n == 0x0A || n == 0x0D || (0x20 ≤ n && n ≤ 0x7E) || n == 0x85 ||
    (0xA0 ≤ n && n ≤ 0xFFFD) || 0x10000 ≤ n

def isLineEnd (c : Char) : Bool := c == '\n' || c == '\x85' || c == '\u2028' || c == '\u2029'

/-- A space or a tab. -/
def isGap (c : Char) : Bool := c == ' ' || c == '\t'

def isBlank (c : Char) : Bool := isGap c || isLineEnd c

/-- Whether a blank or the end comes next. -/
def blankNext : List Char → Bool
  | [] => true
  | c :: _ => isBlank c

/-- Whether a line that begins here parts documents. -/
def atSeparator : List Char → Bool
  | '-' :: '-' :: '-' :: cs => blankNext cs
  | '.' :: '.' :: '.' :: cs => blankNext cs
  | _ => false

/-- A line end as it counts in a text. -/
def lineEnd (c : Char) : Char := if c == '\x85' then '\n' else c

/-- What a line end and those after it come to within a text: a single one is a space, and of several
the first is dropped. A line or paragraph separator stays. -/
def fold (first : Char) (more : List Char) : List Char :=
  if lineEnd first ≠ '\n' then lineEnd first :: more else if more.isEmpty then [' '] else more

/-- A place in a text. -/
structure Cursor where
  rest : List Char
  /-- How many characters lie before it. -/
  offset : Nat := 0
  line : Nat := 0
  column : Nat := 0
  deriving DecidableEq, Repr

namespace Cursor

/-- The place after one more character. -/
def step (cursor : Cursor) : Cursor :=
  match cursor.rest with
  | [] => cursor
  | c :: cs =>
    if isLineEnd c then ⟨cs, cursor.offset + 1, cursor.line + 1, 0⟩
    else ⟨cs, cursor.offset + 1, cursor.line, cursor.column + (if c == '\ufeff' then 0 else 1)⟩

/-- The place after some more characters. -/
def steps : Nat → Cursor → Cursor
  | 0, cursor => cursor
  | n + 1, cursor => steps n cursor.step

/-- The place where the given characters are left. -/
def goTo (cursor : Cursor) (rest : List Char) : Cursor :=
  steps (cursor.rest.length - rest.length) cursor

@[simp] theorem rest_step (cursor : Cursor) : cursor.step.rest = cursor.rest.tail := by
  unfold step
  split
  · simp_all
  · split <;> simp_all

@[simp] theorem rest_steps (n : Nat) (cursor : Cursor) :
    (steps n cursor).rest = cursor.rest.drop n := by
  induction n generalizing cursor with
  | zero => rfl
  | succ n ih => simp [steps, ih]

end Cursor
end SellRules.Yaml
