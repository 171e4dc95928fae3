import SellRules.Value.Basic

/-!
# Kinds

What a shop deals in: items, weapons and armors, listed in this order.
-/

set_option autoImplicit false

namespace SellRules

inductive Kind where
  | item
  | weapon
  | armor
  deriving DecidableEq, Repr, Inhabited

namespace Kind

def name : Kind → String
  | .item => "item"
  | .weapon => "weapon"
  | .armor => "armor"

/-- The kinds in the order in which they are listed. -/
def all : List Kind := [.item, .weapon, .armor]

/-- The place of a kind among the three. -/
def rank : Kind → Nat
  | .item => 0
  | .weapon => 1
  | .armor => 2

def ofName? (name : String) : Option Kind := all.find? fun kind => kind.name == name

def ofValue? : Value → Option Kind
  | .text s => ofName? s
  | _ => none

@[simp] theorem ofName?_name (kind : Kind) : ofName? kind.name = some kind := by
  cases kind <;> decide

end Kind
end SellRules
