import SellRules.OrderedList
import SellRules.Value.Basic

/-!
# Scalars

The values that may serve as ids, type ids and tags: those without parts. They are equal as the
numbers they stand for, so that one, one with a point and truth are the same id. The order puts
nothing first, then the numbers by size, then the texts by their characters; it serves to keep sets
and tables canonical. What may be *listed* in order is narrower: numbers alone or texts alone.
-/

set_option autoImplicit false

namespace SellRules

open Number (Binary64)

inductive Scalar where
  | null
  | bool (b : Bool)
  | int (n : Int)
  | float (x : Binary64)
  | text (s : String)
  deriving DecidableEq, Repr

namespace Scalar

def toValue : Scalar → Value
  | .null => .null
  | .bool b => .bool b
  | .int n => .int n
  | .float x => .float x
  | .text s => .text s

/-- The scalar that a value is; lists, objects and broken texts are none. -/
def ofValue? : Value → Option Scalar
  | .null => some .null
  | .bool b => some (.bool b)
  | .int n => some (.int n)
  | .float x => some (.float x)
  | .text s => some (.text s)
  | _ => none

/-- The first key of the order: nothing, minus infinity, finite, infinity, not a number, text. -/
def rank : Scalar → Nat
  | .null => 0
  | .bool _ | .int _ => 2
  | .float (.finite ..) => 2
  | .float (.infinite negative) => if negative then 1 else 3
  | .float .notANumber => 4
  | .text _ => 5

/-- The second key: a finite number, counted in units of the smallest positive one. -/
def units : Scalar → Int
  | .bool b => Binary64.unitsOfInt (if b then 1 else 0)
  | .int n => Binary64.unitsOfInt n
  | .float (.finite negative m e) => Binary64.units negative m e
  | _ => 0

/-- The third key: the characters of a text. -/
def wording : Scalar → String
  | .text s => s
  | _ => ""

/-- The order of scalars: by rank, then by size, then by characters. -/
def order : Scalar → Scalar → Ordering :=
  compareLex (compareOn rank) (compareLex (compareOn units) (compareOn wording))

instance : Std.TransCmp order :=
  inferInstanceAs
    (Std.TransCmp (compareLex (compareOn rank) (compareLex (compareOn units) (compareOn wording))))

/-- Whether two scalars stand for the same number or text. -/
def same (a b : Scalar) : Bool := order a b == .eq

def isText : Scalar → Bool
  | .text _ => true
  | _ => false

def isNumber : Scalar → Bool
  | .bool _ | .int _ | .float _ => true
  | _ => false

/-- Whether scalars can be listed in order: all numbers, all texts, or no more than one. -/
def sortable (l : List Scalar) : Bool := l.length ≤ 1 || l.all isNumber || l.all isText

end Scalar

/-- A set of scalars. Of several that stand for the same number it holds the first that was added. -/
abbrev ScalarSet := OrderedList Scalar.order

end SellRules
