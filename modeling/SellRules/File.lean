import SellRules.Failure
import SellRules.Text.Search

/-!
# Files

What stands at a path, and the text that a file holds. Texts are UTF-8, and every line end is read
as a line feed.
-/

set_option autoImplicit false

namespace SellRules

/-- What stands at a path. -/
inductive FileState where
  | missing
  | directory
  /-- The path, or a name in it, is longer than a file system takes. -/
  | nameTooLong
  | bytes (content : ByteArray)

namespace FileState

/-- A text with every line end turned into a line feed. -/
def unifyLines : List Char → List Char
  | '\r' :: '\n' :: cs => '\n' :: unifyLines cs
  | '\r' :: cs => '\n' :: unifyLines cs
  | c :: cs => c :: unifyLines cs
  | [] => []

theorem not_mem_unifyLines (cs : List Char) : '\r' ∉ unifyLines cs := by
  fun_induction unifyLines cs with
  | case1 cs ih => simpa using ih
  | case2 cs _ ih => simpa using ih
  | case3 c cs _ h ih => simpa [ih, eq_comm] using h
  | case4 => simp

/-- A text whose lines all end with a line feed stays as it is. -/
theorem unifyLines_eq_self {cs : List Char} (h : '\r' ∉ cs) : unifyLines cs = cs := by
  fun_induction unifyLines cs with
  | case1 cs ih => simp at h
  | case2 cs _ ih => simp at h
  | case3 c cs _ _ ih => rw [ih (List.not_mem_of_not_mem_cons h)]
  | case4 => rfl

/-- The text that bytes hold. -/
def decode (content : ByteArray) : Except Failure String :=
  match String.fromUTF8? content with
  | some s => .ok (String.ofList (unifyLines s.toList))
  | none => .error .undecodable

/-- The bytes of a text hold the text. -/
theorem decode_toUTF8 {s : String} (h : '\r' ∉ s.toList) : decode s.toUTF8 = .ok s := by
  have hbytes : String.fromUTF8? s.toUTF8 = some s := dif_pos s.isValidUTF8
  simp only [decode, hbytes, unifyLines_eq_self h, String.ofList_toList]

/-- The text of the file at a path. -/
def text (path : String) : FileState → Except Failure String
  | .missing => .error (.noFile path)
  | .directory => .error (.directory path)
  | .nameTooLong => .error (.nameTooLong path)
  | .bytes content => decode content

end FileState

namespace Path

/-- The parts of a path between slashes, without empty ones and those that stay in place. -/
def parts (path : List Char) : List (List Char) :=
  (Text.pieces '/' path).filter fun part => !part.isEmpty && part != ['.']

/-- A path in its shortest form. Two slashes in front are kept, three count as one. -/
def normalize (path : String) : String :=
  let slashes := (path.toList.takeWhile (· == '/')).length
  let root := if slashes = 2 then "//" else if slashes = 0 then "" else "/"
  let rest := String.intercalate "/" ((parts path.toList).map String.ofList)
  if root = "" && rest = "" then "." else root ++ rest

/-- The most bytes of a name in a path. -/
def maxNameBytes : Nat := 255

/-- The most bytes of a path. -/
def maxBytes : Nat := 4095

/-- Whether a name is longer than a file system takes. -/
def isLongName (name : String) : Bool := maxNameBytes < name.utf8ByteSize

/-- Whether a path is longer than a file system takes. -/
def isLong (path : String) : Bool := maxBytes < path.utf8ByteSize

end Path
end SellRules
