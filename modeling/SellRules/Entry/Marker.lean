import SellRules.Value.Basic

/-!
# Markers

A note carries markers, `<name>` or `<name:value>`, among other text. A marker begins with the last
opening bracket before its name and ends at the next closing one. A name holds no bracket and no
colon and is not empty; a value holds no closing bracket.
-/

set_option autoImplicit false

namespace SellRules.Marker

/-- Where in a note the reader stands. Characters that were read are kept in reverse. -/
inductive Place where
  | outside
  | name (read : List Char)
  /-- Past the name. `valued` tells whether a colon follows it. -/
  | value (name : List Char) (valued : Bool) (read : List Char)

/-- The value of a marker: true for one without a colon. -/
def meaning (valued : Bool) (read : List Char) : Value :=
  if valued then .text (String.ofList read.reverse) else .bool true

def entryOf (name : List Char) (v : Value) : String × Value := (String.ofList name.reverse, v)

/-- The markers of a note from a place on, in order. -/
def scan : Place → List Char → List (String × Value)
  | _, [] => []
  | .outside, c :: cs => scan (if c = '<' then .name [] else .outside) cs
  | .name [], c :: cs =>
    if c = '<' then scan (.name []) cs
    else if c = '>' || c = ':' then scan .outside cs
    else scan (.name [c]) cs
  | .name (d :: read), c :: cs =>
    if c = '>' then entryOf (d :: read) (.bool true) :: scan .outside cs
    else if c = ':' then scan (.value (d :: read) true []) cs
    else if c = '<' then scan (.value (d :: read) false []) cs
    else scan (.name (c :: d :: read)) cs
  | .value name valued read, c :: cs =>
    if c = '>' then entryOf name (meaning valued read) :: scan .outside cs
    else scan (.value name valued (c :: read)) cs

/-- The markers of a note: each name with its last value, in the order of first appearance. -/
def ofNote (note : String) : Fields := Fields.update [] (scan .outside note.toList)

/-- The written form of a marker. -/
def write (name : String) : Option String → List Char
  | none => '<' :: name.toList ++ ['>']
  | some value => '<' :: name.toList ++ ':' :: value.toList ++ ['>']

end SellRules.Marker
