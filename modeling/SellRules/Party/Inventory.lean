import SellRules.Action
import SellRules.Entry.Basic
import SellRules.Value.Amount

/-!
# Inventories

What a party holds: for each kind and id one line, with the entry that created it and how many there
are. A line goes when nothing of it is left. Lines are listed by kind, then by id.
-/

set_option autoImplicit false

namespace SellRules

structure Line where
  key : Key
  entry : Entry
  amount : Amount
  deriving DecidableEq

def Line.order (a b : Line) : Ordering := a.key.order b.key

instance : Std.TransCmp Line.order where
  eq_swap {a b} := @Std.OrientedCmp.eq_swap _ Key.order _ a.key b.key
  isLE_trans {a b c} := @Std.TransCmp.isLE_trans _ Key.order _ a.key b.key c.key

abbrev Inventory := OrderedList Line.order

namespace Inventory

/-- The line with a key. -/
def find? (inventory : Inventory) (key : Key) : Option Line :=
  inventory.toList.find? fun line => key.order line.key == .eq

/-- How many are held under a key. -/
def held (inventory : Inventory) (key : Key) : Amount :=
  ((inventory.find? key).map (·.amount)).getD 0

/-- How many of an entry are held. -/
def quantity (inventory : Inventory) (entry : Entry) : Except Failure Amount := do
  return inventory.held (← entry.key)

/-- Adds some of an entry; an amount of zero or less adds nothing. -/
def add (inventory : Inventory) (entry : Entry) (amount : Amount) : Except Failure Inventory := do
  if amount.isAtMost 0 then return inventory
  let key ← entry.key
  match inventory.find? key with
  | some line => return inventory.put { line with amount := ← line.amount.add amount }
  | none => return inventory.put ⟨key, entry, amount⟩

/-- Takes some of an entry away. The amount must be more than zero and held. -/
def remove (inventory : Inventory) (entry : Entry) (amount : Amount) :
    Except Failure Inventory := do
  let key ← entry.key
  let held := inventory.held key
  if amount.isAtMost 0 || held.isLess amount then
    throw (.showing [amount.toValue, entry.id, held.toValue]
      (.value (.cannotRemove amount.toValue entry.kind entry.id held.toValue)))
  match inventory.find? key with
  | none => throw .noMember
  | some line =>
    let left ← line.amount.sub amount
    if left.isEqual 0 then return inventory.filter fun other => other.order line != .eq
    else return inventory.put { line with amount := left }

/-- The lines by kind, then by id. Ids of one kind that cannot be listed beside each other make this
fail. -/
def lines (inventory : Inventory) : Except Failure (List Line) :=
  let sortable (kind : Kind) : Bool :=
    Scalar.sortable ((inventory.toList.filter fun line => line.key.kind = kind).map (·.key.id))
  if Kind.all.all sortable then .ok inventory.toList else .error .shape

end Inventory

/-- The party that shops deal with. No shop opens while `inBattle` holds. The game may set its gold and
that mark to anything. -/
structure Party where
  inventory : Inventory := .empty
  gold : Value := .int 0
  inBattle : Value := .bool false
  deriving DecidableEq

namespace Party

def add (entry : Entry) (amount : Amount) : Action Party Unit := do
  let party ← get
  let inventory ← Action.ofExcept (party.inventory.add entry amount)
  set { party with inventory }

def remove (entry : Entry) (amount : Amount) : Action Party Unit := do
  let party ← get
  let inventory ← Action.ofExcept (party.inventory.remove entry amount)
  set { party with inventory }

/-- Gives the party gold; a negative amount is refused. -/
def gainGold (amount : Amount) : Action Party Unit := do
  if amount.isLess 0 then throw (.value .negativeAmount)
  let party ← get
  let gold ← Action.ofExcept (Amount.ofValue party.gold)
  let gold ← Action.ofExcept (gold.add amount)
  set { party with gold := gold.toValue }

end Party
end SellRules
