import SellRules.Scalar

/-!
# Values that are equal as data

Two numbers are equal if they are of one size, whatever their forms, and two objects if they have the
same fields in any order. A value that is no number equals nothing by itself, but the same one inside
a list or object does not tell two of them apart.
-/

set_option autoImplicit false

namespace SellRules.Value

mutual

/-- Whether two values are equal as parts of others. -/
def similar : Value → Value → Bool
  | .list as, .list bs => similarItems as bs
  | .object as, .object bs => as.length == bs.length && similarFields as bs
  | .unpaired a, .unpaired b => a == b
  | a, b =>
    match Scalar.ofValue? a, Scalar.ofValue? b with
    | some a, some b => a.same b
    | _, _ => false

def similarItems : List Value → List Value → Bool
  | [], [] => true
  | a :: as, b :: bs => similar a b && similarItems as bs
  | _, _ => false

/-- Whether each of the fields has an equal one of its name. -/
def similarFields : List (String × Value) → List (String × Value) → Bool
  | [], _ => true
  | (name, a) :: as, bs => (Fields.get? bs name).any (similar a) && similarFields as bs

end

/-- Whether two values are equal. -/
def equal (a b : Value) : Bool := similar a b && a != .float .notANumber

@[simp] theorem equal_text (s t : String) : equal (.text s) (.text t) = (s == t) := by
  have h : (Value.text s != .float .notANumber) = true := by simp
  rw [Bool.eq_iff_iff]
  simp [equal, h, similar, Scalar.ofValue?, Scalar.same, Scalar.order, compareLex, compareOn,
    Scalar.rank, Scalar.units, Scalar.wording, Std.LawfulEqCmp.compare_eq_iff_eq]

end SellRules.Value
