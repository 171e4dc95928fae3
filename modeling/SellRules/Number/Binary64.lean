import SellRules.Number.Numeral

/-!
# Numbers of double precision

A number with 53 significant binary digits, kept exactly: a sign, a significand and an exponent of
two. A decimal is rounded to the nearest such number, a tie going to the even significand; what is
too large becomes infinite. Arithmetic is exact first and rounded after.
-/

set_option autoImplicit false

namespace SellRules.Number

/-- A number of double precision. The finite one is `significand * 2 ^ exponent` with its sign; the
significand is odd, or zero beside the exponent zero. -/
inductive Binary64 where
  | finite (negative : Bool) (significand : Nat) (exponent : Int)
  | infinite (negative : Bool)
  | notANumber
  deriving DecidableEq, Repr

namespace Binary64

/-- The exponent of the smallest positive number. -/
def minExponent : Int := -1074

/-- The largest exponent of a significand with 53 digits. -/
def maxExponent : Int := 971

/-- The least significand with 53 digits. -/
def leastFull : Nat := 0x10000000000000

/-- Moves factors of two, at most `limit` of them, from the significand into the exponent. -/
def stripTwos : Nat → Nat → Int → Nat × Int
  | 0, m, e => (m, e)
  | limit + 1, m, e => if m % 2 = 0 then stripTwos limit (m / 2) (e + 1) else (m, e)

/-- The number `m * 2 ^ e` in its only form, for a significand of at most 54 binary digits. -/
def ofScaled (negative : Bool) (m : Nat) (e : Int) : Binary64 :=
  if m = 0 then .finite negative 0 0
  else
    let (m, e) := stripTwos 53 m e
    .finite negative m e

/-- The whole number nearest to `n / d`, a tie going to the even one. -/
def roundHalfEven (n d : Nat) : Nat :=
  let q := n / d
  let r := n % d
  if d < 2 * r || (2 * r == d && q % 2 == 1) then q + 1 else q

/-- A fraction equal to `n / d / 2 ^ e`. -/
def scaleRatio (n d : Nat) (e : Int) : Nat × Nat :=
  if 0 ≤ e then (n, d * Nat.pow 2 e.toNat) else (n * Nat.pow 2 (-e).toNat, d)

/-- The exponent that gives `n / d` a significand of 53 digits, or the least exponent there is. -/
def ratioExponent (n d : Nat) : Int :=
  let guess : Int := (n.log2 : Int) - d.log2 - 52
  let (a, b) := scaleRatio n d guess
  max (if a / b < leastFull then guess - 1 else guess) minExponent

/-- The number nearest to `n / d`. -/
def ofRatio (negative : Bool) (n d : Nat) : Binary64 :=
  if n = 0 then .finite negative 0 0
  else
    let e := ratioExponent n d
    let (a, b) := scaleRatio n d e
    let m := roundHalfEven a b
    if maxExponent < e || (e == maxExponent && m == 2 * leastFull) then .infinite negative
    else ofScaled negative m e

/-- The number nearest to `n * 10 ^ e`. Decimals far outside the range are settled by the place of
their first digit. -/
def ofDecimal (negative : Bool) (n : Nat) (e : Int) : Binary64 :=
  let place := (digitsOf n).length + e
  if n = 0 || place < -330 then .finite negative 0 0
  else if 310 < place then .infinite negative
  else if 0 ≤ e then ofRatio negative (n * Nat.pow 10 e.toNat) 1
  else ofRatio negative n (Nat.pow 10 (-e).toNat)

/-- Whether a number is finite without a fraction. -/
def isWhole : Binary64 → Bool
  | .finite _ m e => m == 0 || 0 ≤ e
  | _ => false

def isZero : Binary64 → Bool
  | .finite _ m _ => m == 0
  | _ => false

/-- The whole part of a finite number, cut toward zero. -/
def truncate? : Binary64 → Option Int
  | .finite negative m e =>
    some (withSign negative (if 0 ≤ e then m * Nat.pow 2 e.toNat else m / Nat.pow 2 (-e).toNat))
  | _ => none

/-- A finite number counted in units of the smallest positive one. -/
def units (negative : Bool) (m : Nat) (e : Int) : Int :=
  withSign negative (m * Nat.pow 2 (e - minExponent).toNat)

/-- A whole number counted in the same units. -/
def unitsOfInt (n : Int) : Int := n * Nat.pow 2 (-minExponent).toNat

/-! ## Arithmetic -/

/-- A number with the other sign. -/
def negate : Binary64 → Binary64
  | .finite negative m e => .finite (!negative) m e
  | .infinite negative => .infinite (!negative)
  | .notANumber => .notANumber

/-- The number nearest to `m * 2 ^ e`. -/
def ofDyadic (negative : Bool) (m : Nat) (e : Int) : Binary64 :=
  let (n, d) := scaleRatio m 1 (-e)
  ofRatio negative n d

/-- The number nearest to a whole number; none if that is too large. -/
def ofInt? (n : Int) : Option Binary64 :=
  match ofRatio (n < 0) n.natAbs 1 with
  | .finite negative m e => some (.finite negative m e)
  | _ => none

/-- The sum of two numbers. Zero is negative only as the sum of negative zeros. -/
def add : Binary64 → Binary64 → Binary64
  | .finite s m e, .finite t n f =>
    if m = 0 && n = 0 then .finite (s && t) 0 0
    else
      let low := min e f
      let sum := withSign s (m * Nat.pow 2 (e - low).toNat) +
        withSign t (n * Nat.pow 2 (f - low).toNat)
      ofDyadic (sum < 0) sum.natAbs low
  | .infinite s, .infinite t => if s = t then .infinite s else .notANumber
  | .infinite s, .finite .. => .infinite s
  | .finite .., .infinite t => .infinite t
  | _, _ => .notANumber

def sub (x y : Binary64) : Binary64 := x.add y.negate

/-- The product of two numbers. -/
def mul : Binary64 → Binary64 → Binary64
  | .finite s m e, .finite t n f => ofDyadic (s != t) (m * n) (e + f)
  | .infinite s, .infinite t => .infinite (s != t)
  | .infinite s, .finite t n _ => if n = 0 then .notANumber else .infinite (s != t)
  | .finite s m _, .infinite t => if m = 0 then .notANumber else .infinite (s != t)
  | _, _ => .notANumber

/-- Half of a number, rounded down to a whole one. Half of what is not finite is no number. -/
def halfDown : Binary64 → Binary64
  | .finite negative m e =>
    if m = 0 || 1 ≤ e then .finite negative m (if m = 0 then 0 else e - 1)
    else
      let q := m / Nat.pow 2 (1 - e).toNat
      ofScaled negative (if negative then q + 1 else q) 0
  | _ => .notANumber

end Binary64
end SellRules.Number
