import SellRules.Party.Inventory
import SellRules.Restriction.Allow

/-!
# Sell lists

What a shop shows of the party's inventory. A line is listed if it belongs to the chosen category
and the shop buys its entry; it can be chosen if it is listed and has a price. What the shop does not
buy is neither listed nor chosen.
-/

set_option autoImplicit false

namespace SellRules

/-- The categories of a sell list. Key items are items of a type of their own. -/
inductive Category where
  | item
  | weapon
  | armor
  | keyItem
  deriving DecidableEq

namespace Category

def name : Category → String
  | .item => "item"
  | .weapon => "weapon"
  | .armor => "armor"
  | .keyItem => "key_item"

def all : List Category := [.item, .weapon, .armor, .keyItem]

def ofName? (name : String) : Option Category := all.find? fun category => category.name == name

/-- The category that a value names; nothing stands for no category. -/
def ofValue (v : Value) : Except Failure (Option Category) :=
  match v with
  | .null => .ok none
  | .text s =>
    match ofName? s with
    | some category => .ok (some category)
    | none => .error (.value (.unknownCategory v))
  | v => .error (.showing [v] (.value (.unknownCategory v)))

/-- Whether an entry has an item type. -/
def hasItemType (entry : Entry) (type : Int) : Bool :=
  match Scalar.ofValue? entry.itemTypeId with
  | some a => a.same (.int type)
  | none => false

/-- Whether an entry belongs to a category: normal items have type one, key items type two. -/
def includes : Category → Entry → Bool
  | .item, entry => entry.kind = .item && hasItemType entry 1
  | .keyItem, entry => entry.kind = .item && hasItemType entry 2
  | .weapon, entry => entry.kind = .weapon
  | .armor, entry => entry.kind = .armor

end Category

/-- The outcome of asking whether the shop buys an entry. -/
structure Check where
  entry : Entry
  allowed : Bool
  deriving DecidableEq

def Check.message (check : Check) : String :=
  "Sell check " ++ check.entry.kind.name ++ " " ++ check.entry.id.display ++ " (" ++
    check.entry.name.display ++ "): " ++ (Value.bool check.allowed).quoted

structure SellList where
  restrictions : Option RestrictionSet
  category : Option Category := none
  /-- Whether checks are reported. -/
  logChecks : Bool := false
  deriving DecidableEq

namespace SellList

/-- Whether the shop buys an entry. -/
def buys (list : SellList) (entry : Entry) : Except Failure Bool :=
  RestrictionSet.buys list.restrictions entry

def inCategory (list : SellList) (entry : Entry) : Bool :=
  list.category.all (·.includes entry)

/-- Whether an entry would be listed. -/
def includes (list : SellList) (entry : Entry) : Except Failure Bool :=
  if list.inCategory entry then list.buys entry else .ok false

/-- Whether an entry has a price above zero. -/
def isPriced (entry : Entry) : Except Failure Bool := do
  return (0 : Amount).isLess (← Amount.ofValue entry.price)

/-- Whether an entry can be sold, whatever the category. -/
def isEnabled (list : SellList) (entry : Entry) : Except Failure Bool := do
  if ← isPriced entry then list.buys entry else return false

/-- The lines that are listed. -/
def items (list : SellList) (inventory : Inventory) : Except Failure (List Line) := do
  (← inventory.lines).filterM fun line => list.includes line.entry

/-- The listed lines that can be sold. -/
def enabledItems (list : SellList) (inventory : Inventory) : Except Failure (List Line) := do
  (← list.items inventory).filterM fun line => list.isEnabled line.entry

/-! ## Reported checks -/

/-- The checks that are reported when the shop is asked about entries. -/
def checks (list : SellList) (entries : List Entry) : List Check :=
  if list.logChecks then
    entries.filterMap fun entry => match list.buys entry with
      | .ok allowed => some ⟨entry, allowed⟩
      | .error _ => none
  else []

/-- The checks of one question whether an entry is listed. -/
def includesChecks (list : SellList) (entry : Entry) : List Check :=
  list.checks (if list.inCategory entry then [entry] else [])

/-- The checks of one question whether an entry can be sold. -/
def enabledChecks (list : SellList) (entry : Entry) : List Check :=
  list.checks (if isPriced entry matches .ok true then [entry] else [])

/-- Whether the question whether an entry is listed has an answer. -/
def answers (list : SellList) (entry : Entry) : Bool := (list.includes entry).isOk

/-- The checks made to list the inventory, up to the first line that has no answer. -/
def itemsChecks (list : SellList) (inventory : Inventory) : List Check :=
  match inventory.lines with
  | .ok lines =>
    (lines.takeWhile fun line => list.answers line.entry).flatMap fun line =>
      list.includesChecks line.entry
  | .error _ => []

/-- The checks made to list what can be sold: those of the listing, then one for each listed line
with a price. -/
def enabledItemsChecks (list : SellList) (inventory : Inventory) : List Check :=
  list.itemsChecks inventory ++ match list.items inventory with
    | .ok lines => lines.flatMap fun line => list.enabledChecks line.entry
    | .error _ => []

end SellList
end SellRules
