import SellRules.Failure

/-!
# Whole numbers from values

The whole number that a value stands for where host data is lenient: a truth value counts as one or
zero, a fraction is cut off, and a text is read as a lenient numeral.
-/

set_option autoImplicit false

namespace SellRules.Value

def toWhole : Value → Except Failure Int
  | .bool b => .ok (if b then 1 else 0)
  | .int n => .ok n
  | .float x =>
    match x with
    | .finite .. => .ok (x.truncate?.getD 0)
    | .infinite _ => .error .tooLarge
    | .notANumber => .error (.value .notANumber)
  | .text s => (Number.readLenient s.toList).mapError (Failure.ofNumeral (.text s))
  | .unpaired codes => .error (.value (.notANumeral (.unpaired codes)))
  | _ => .error .shape

@[simp] theorem toWhole_int (n : Int) : toWhole (.int n) = .ok n := rfl

end SellRules.Value
