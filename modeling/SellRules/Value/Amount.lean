import SellRules.Failure
import SellRules.Scalar

/-!
# Amounts

The numbers that prices, quantities and gold are made of. Host data may give truth values and
numbers of double precision where a whole number is meant, and they are kept as they are given.
Arithmetic on whole numbers and truth values is exact and gives whole numbers; where a number of
double precision takes part, it is rounded. Comparisons are always exact.
-/

set_option autoImplicit false

namespace SellRules

open Number (Binary64)

inductive Amount where
  | flag (b : Bool)
  | whole (n : Int)
  | real (x : Binary64)
  deriving DecidableEq, Repr

namespace Amount

/-- The amount that a value is. -/
def ofValue : Value → Except Failure Amount
  | .bool b => .ok (.flag b)
  | .int n => .ok (.whole n)
  | .float x => .ok (.real x)
  | _ => .error .shape

def toValue : Amount → Value
  | .flag b => .bool b
  | .whole n => .int n
  | .real x => .float x

@[simp] theorem ofValue_toValue (a : Amount) : ofValue a.toValue = .ok a := by cases a <;> rfl

/-- An amount as a whole number; none for one of double precision. -/
def whole? : Amount → Option Int
  | .flag b => some (if b then 1 else 0)
  | .whole n => some n
  | .real _ => none

/-- An amount in double precision. -/
def toBinary64 : Amount → Except Failure Binary64
  | .real x => .ok x
  | .flag b => .ok (if b then .finite false 1 0 else .finite false 0 0)
  | .whole n =>
    match Binary64.ofInt? n with
    | some x => .ok x
    | none => .error .tooLarge

def toScalar : Amount → Scalar
  | .flag b => .bool b
  | .whole n => .int n
  | .real x => .float x

def isNumber : Amount → Bool
  | .real .notANumber => false
  | _ => true

instance : Zero Amount := ⟨.whole 0⟩

/-! ## Arithmetic -/

/-- Combines two amounts, exactly if both are whole. -/
def combine (exact : Int → Int → Int) (rounded : Binary64 → Binary64 → Binary64) (a b : Amount) :
    Except Failure Amount :=
  match a.whole?, b.whole? with
  | some m, some n => .ok (.whole (exact m n))
  | _, _ => return .real (rounded (← a.toBinary64) (← b.toBinary64))

def add : Amount → Amount → Except Failure Amount := combine (· + ·) Binary64.add

def sub : Amount → Amount → Except Failure Amount := combine (· - ·) Binary64.sub

def mul : Amount → Amount → Except Failure Amount := combine (· * ·) Binary64.mul

/-- Half of an amount, rounded down. -/
def half : Amount → Amount
  | .real x => .real x.halfDown
  | .flag _ => .whole 0
  | .whole n => .whole (n.fdiv 2)

/-! ## Comparison -/

/-- The order of two amounts, unless one of them is no number. -/
def compare? (a b : Amount) : Option Ordering :=
  match a.whole?, b.whole? with
  | some m, some n => some (compare m n)
  | _, _ => if a.isNumber && b.isNumber then some (a.toScalar.order b.toScalar) else none

def isLess (a b : Amount) : Bool := a.compare? b == some .lt

def isAtMost (a b : Amount) : Bool := (a.compare? b).any Ordering.isLE

def isEqual (a b : Amount) : Bool := a.compare? b == some .eq

/-! ## Whole numbers -/

@[simp] theorem zero_eq : (0 : Amount) = .whole 0 := rfl

@[simp] theorem ofValue_int (n : Int) : ofValue (.int n) = .ok (.whole n) := rfl

@[simp] theorem add_whole (m n : Int) : (whole m).add (whole n) = .ok (whole (m + n)) := rfl

@[simp] theorem sub_whole (m n : Int) : (whole m).sub (whole n) = .ok (whole (m - n)) := rfl

@[simp] theorem mul_whole (m n : Int) : (whole m).mul (whole n) = .ok (whole (m * n)) := rfl

@[simp] theorem half_whole (n : Int) : (whole n).half = whole (n.fdiv 2) := rfl

@[simp] theorem isLess_whole (m n : Int) : (whole m).isLess (whole n) = decide (m < n) := by
  simp only [isLess, compare?, whole?, compare, compareOfLessAndEq]
  by_cases h : m < n
  · simp [h]
  · by_cases e : m = n <;> simp [h, e]

@[simp] theorem isAtMost_whole (m n : Int) : (whole m).isAtMost (whole n) = decide (m ≤ n) := by
  simp only [isAtMost, compare?, whole?, compare, compareOfLessAndEq, Option.any]
  by_cases h : m < n
  · simp [h, Ordering.isLE, Int.le_of_lt h]
  · by_cases e : m = n
    · simp [e, Ordering.isLE]
    · have : ¬m ≤ n := by omega
      simp [h, e, this, Ordering.isLE]

@[simp] theorem isEqual_whole (m n : Int) : (whole m).isEqual (whole n) = decide (m = n) := by
  simp only [isEqual, compare?, whole?, compare, compareOfLessAndEq]
  by_cases h : m < n
  · simp [h, Int.ne_of_lt h]
  · by_cases e : m = n <;> simp [h, e]

end Amount
end SellRules
