import SellRules.Value.Quoted

/-!
# Writing JSON

The written form of a value in ASCII, on one line or in a block where each part stands on a line of
its own. Fields are written in their order.
-/

set_option autoImplicit false

namespace SellRules.Json

open Value (hexDigits)

inductive Layout where
  /-- All on one line, a space after each comma and colon. -/
  | line
  /-- A line for each item and field, `step` spaces further in than its list or object. -/
  | block (step : Nat)
  deriving DecidableEq, Repr

def unitEscape (code : Nat) : List Char := '\x5c' :: 'u' :: hexDigits 4 code

/-- A code point between quotes; one beyond the basic plane becomes a surrogate pair. -/
def writeCode (code : Nat) : List Char :=
  if code = 0x22 then ['\x5c', '\x22']
  else if code = 0x5C then ['\x5c', '\x5c']
  else if code = 0x0A then ['\x5c', 'n']
  else if code = 0x0D then ['\x5c', 'r']
  else if code = 0x09 then ['\x5c', 't']
  else if code = 0x0C then ['\x5c', 'f']
  else if code = 0x08 then ['\x5c', 'b']
  else if 0x20 ≤ code && code ≤ 0x7E then [Char.ofNat code]
  else if code < 0x10000 then unitEscape code
  else
    unitEscape (0xD800 + (code - 0x10000) / 0x400) ++ unitEscape (0xDC00 + (code - 0x10000) % 0x400)

def writeCodes (codes : List Nat) : List Char := '\x22' :: codes.flatMap writeCode ++ ['\x22']

def writeText (s : String) : List Char := writeCodes (s.toList.map Char.toNat)

def writeFloat : Number.Binary64 → List Char
  | .notANumber => "NaN".toList
  | .infinite negative => if negative then "-Infinity".toList else "Infinity".toList
  | x => Number.Shortest.write Value.floatLayout x

/-- What stands before the first part of a list or object at a depth, and after the last. -/
def Layout.gap (layout : Layout) (depth : Nat) : List Char :=
  match layout with
  | .line => []
  | .block step => '\n' :: List.replicate (step * depth) ' '

def Layout.comma (layout : Layout) (depth : Nat) : List Char :=
  match layout with
  | .line => [',', ' ']
  | .block step => ',' :: '\n' :: List.replicate (step * depth) ' '

mutual

/-- The written form of a value whose parts stand one level below `depth`. -/
def writeValue (layout : Layout) (depth : Nat) : Value → List Char
  | .null => "null".toList
  | .bool true => "true".toList
  | .bool false => "false".toList
  | .int n => Number.signedDigits n
  | .float x => writeFloat x
  | .text s => writeText s
  | .unpaired codes => writeCodes codes
  | .list [] => ['[', ']']
  | .list (v :: rest) =>
    '[' :: layout.gap (depth + 1) ++ writeValue layout (depth + 1) v ++
      writeItems layout (depth + 1) rest ++ layout.gap depth ++ [']']
  | .object [] => ['\x7b', '\x7d']
  | .object ((name, v) :: rest) =>
    '\x7b' :: layout.gap (depth + 1) ++ writeText name ++ [':', ' '] ++
      writeValue layout (depth + 1) v ++ writeFields layout (depth + 1) rest ++
      layout.gap depth ++ ['\x7d']

/-- The items after the first. -/
def writeItems (layout : Layout) (depth : Nat) : List Value → List Char
  | [] => []
  | v :: rest =>
    layout.comma depth ++ writeValue layout depth v ++ writeItems layout depth rest

/-- The fields after the first. -/
def writeFields (layout : Layout) (depth : Nat) : List (String × Value) → List Char
  | [] => []
  | (name, v) :: rest =>
    layout.comma depth ++ writeText name ++ [':', ' '] ++ writeValue layout depth v ++
      writeFields layout depth rest

end

/-- The written form of a value. -/
def write (layout : Layout) (v : Value) : String := String.ofList (writeValue layout 0 v)

end SellRules.Json
