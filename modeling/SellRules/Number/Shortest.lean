import SellRules.Number.Binary64

/-!
# The shortest decimal that reads back

The text of a number of double precision has the fewest digits that are rounded to that number when
read, and of those the ones nearest to it. The decimals with a given count of digits form a grid; if
the interval of reals that round to the number holds a point of the grid, it holds one of the two
next to the number, so only these are tried.
-/

set_option autoImplicit false

namespace SellRules.Number.Shortest

/-- The interval of the reals that round to a number, as a fraction `value / unit` and the distances
down and up in the same unit. -/
structure Interval where
  value : Nat
  down : Nat
  up : Nat
  unit : Nat
  /-- Whether the two ends belong to the interval. -/
  closed : Bool
  deriving DecidableEq, Repr

/-- A nonzero significand scaled to 53 binary digits where the exponent allows it. -/
def widen (m : Nat) (e : Int) : Nat × Int :=
  let shift := min (52 - m.log2) (e - Binary64.minExponent).toNat
  (m * Nat.pow 2 shift, e - shift)

/-- The reals that round to `m * 2 ^ e`. Below a power of two the neighbours lie half as far. -/
def interval (m : Nat) (e : Int) : Interval :=
  let (m, e) := widen m e
  let narrow := m == Binary64.leastFull && Binary64.minExponent < e
  let scale := e - 2
  let (factor, unit) := if 0 ≤ scale then (Nat.pow 2 scale.toNat, 1) else (1, Nat.pow 2 (-scale).toNat)
  ⟨4 * m * factor, (if narrow then 1 else 2) * factor, 2 * factor, unit, m % 2 == 0⟩

/-- The fraction `n / d` as `a / b` with `a / b * 10 ^ e = n / d`. -/
def scaleTen (n d : Nat) (e : Int) : Nat × Nat :=
  if 0 ≤ e then (n, d * Nat.pow 10 e.toNat) else (n * Nat.pow 10 (-e).toNat, d)

/-- The least `k` near the estimate with `n / d < 10 ^ k`. -/
def decimalPlace (n d : Nat) : Int :=
  let estimate : Int := ((n.log2 : Int) - d.log2) * 30103 / 100000
  let below (k : Int) : Bool :=
    let (a, b) := scaleTen n d k
    a < b
  (([-1, 0, 1, 2] : List Int).map (estimate + ·)).find? below |>.getD (estimate + 3)

/-- The point of the grid `10 ^ e` that lies in the interval nearest to its value, if one of the two
next to the value does. A tie goes to the even one. -/
def nearestOnGrid? (i : Interval) (e : Int) : Option Nat :=
  let (a, b) := scaleTen i.value i.unit e
  let (down, _) := scaleTen i.down i.unit e
  let (up, _) := scaleTen i.up i.unit e
  let low := a / b
  let toLow := a % b
  let toHigh := b - toLow
  let lowFits := if i.closed then toLow ≤ down else toLow < down
  let highFits := if i.closed then toHigh ≤ up else toHigh < up
  if lowFits && (!highFits || toLow < toHigh || (toLow == toHigh && low % 2 == 0)) then some low
  else if highFits then some (low + 1)
  else none

/-- The shortest digits of a nonzero number and the power of ten of the last one. -/
def digits (m : Nat) (e : Int) : Nat × Int :=
  let i := interval m e
  let place := decimalPlace i.value i.unit
  let grids := (List.range 17).map fun n => place - (n + 1 : Nat)
  (grids.findSome? fun g => (nearestOnGrid? i g).map (·, g)).getD (0, 0)

/-- Digits without trailing zeros, and the power of ten of the last one. -/
def stripZeros : Nat → Nat → Int → Nat × Int
  | 0, n, e => (n, e)
  | limit + 1, n, e => if n % 10 = 0 then stripZeros limit (n / 10) (e + 1) else (n, e)

/-- How a number is laid out once its digits are known. -/
structure Layout where
  /-- The first digit is written positionally from this power of ten on. -/
  leastPositional : Int
  /-- Up to, but not including, this power of ten. -/
  scientificFrom : Int
  /-- The least count of digits in an exponent. -/
  exponentDigits : Nat
  infinite : String
  notANumber : String

def padded (width : Nat) (n : Nat) : List Char :=
  let cs := digitsOf n
  List.replicate (width - cs.length) '0' ++ cs

/-- A point among the digits, or the zeros that lead up to it. -/
def positional (cs : List Char) (place : Int) : List Char :=
  if place ≤ 0 then '0' :: '.' :: (List.replicate (-place).toNat '0' ++ cs)
  else if cs.length ≤ place.toNat then cs ++ List.replicate (place.toNat - cs.length) '0' ++ ['.', '0']
  else cs.take place.toNat ++ '.' :: cs.drop place.toNat

/-- One digit before the point and a signed exponent. -/
def scientific (layout : Layout) (cs : List Char) (exponent : Int) : List Char :=
  let mantissa := match cs with
    | [] => []
    | [c] => [c]
    | c :: rest => c :: '.' :: rest
  mantissa ++ 'e' :: (if exponent < 0 then '-' else '+') ::
    padded layout.exponentDigits exponent.natAbs

/-- The written form of a number in a layout. -/
def write (layout : Layout) : Binary64 → List Char
  | .notANumber => layout.notANumber.toList
  | .infinite negative => (if negative then ['-'] else []) ++ layout.infinite.toList
  | .finite negative m e =>
    let sign := if negative then ['-'] else []
    if m = 0 then sign ++ ['0', '.', '0']
    else
      let (n, g) := digits m e
      let (n, g) := stripZeros 17 n g
      let cs := digitsOf n
      let exponent := g + cs.length - 1
      sign ++
        (if layout.leastPositional ≤ exponent && exponent < layout.scientificFrom then
          positional cs (exponent + 1)
        else scientific layout cs exponent)

end SellRules.Number.Shortest
