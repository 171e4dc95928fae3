import SellRules.Value.Whole

/-!
# Goods

What a shop sells to the party. A line of stock is given by the parameters of an event command:
type, id, whether it has a price of its own, and that price. The type counts items, weapons and
armors from zero, or backward from minus one.
-/

set_option autoImplicit false

namespace SellRules

structure Good where
  kind : Kind
  id : Int
  /-- The price of its own, if it has one. -/
  price : Option Int
  deriving DecidableEq

namespace Value

/-- The element of a value at a place. -/
def element (v : Value) (index : Nat) : Except Failure Value :=
  match v with
  | .object _ => .error .noField
  | v =>
    match v.elements? with
    | none => .error .shape
    | some elements =>
      match elements[index]? with
      | some element => .ok element
      | none => .error .noElement

end Value

namespace Good

/-- The kind that a type number stands for. -/
def kindOf (type : Int) : Except Failure Kind :=
  if type = 0 || type = -3 then .ok .item
  else if type = 1 || type = -2 then .ok .weapon
  else if type = 2 || type = -1 then .ok .armor
  else .error .noElement

/-- The price of its own that parameters give: there is one if there is a fourth parameter and the
third is one. -/
def priceOf (parameters : Value) : Except Failure (Option Int) := do
  if 3 < parameters.size?.getD 0 then
    if (← (← parameters.element 2).toWhole) = 1 then
      return some (← (← parameters.element 3).toWhole)
  return none

def ofParameters (parameters : Value) : Except Failure Good := do
  let kind ← kindOf (← (← parameters.element 0).toWhole)
  let price ← priceOf parameters
  let id ← (← parameters.element 1).toWhole
  return { kind, id, price }

end Good
end SellRules
