import SellRules.Shop.Good
import SellRules.Shop.SellList

/-!
# Scenes and the stage

The scenes of a game and the stack of those that are open. A scene is known by its number, so one
that is closed may be opened again, and one that is open may be opened twice. A shop makes its sell
list when it is opened; when it is closed, the sell list and the restrictions go.
-/

set_option autoImplicit false

namespace SellRules

/-- A shop session. -/
structure Shop where
  goods : List Good
  /-- Whether the shop only sells; any value that holds something says so. -/
  purchaseOnly : Value := .bool false
  restrictions : Option RestrictionSet := none
  logChecks : Bool := false
  /-- Present while the shop is open. -/
  sellList : Option SellList := none
  deriving DecidableEq

/-- A scene: a shop, or one that is of no concern here. -/
structure Scene where
  shop : Option Shop
  /-- Whether the stage holds the scene as open. -/
  managed : Bool := false
  deriving DecidableEq

namespace Shop

/-- Makes the sell list. The restrictions are reported at that point, so they must be listable. -/
def enter (shop : Shop) : Except Failure Shop := do
  match shop.restrictions with
  | some r => discard r.listed
  | none => pure ()
  return { shop with
    sellList := some { restrictions := shop.restrictions, logChecks := shop.logChecks } }

def leave (shop : Shop) : Shop := { shop with sellList := none, restrictions := none }

/-- What a shop pays for one of an entry: half the price, rounded down. -/
def sellingPrice (entry : Entry) : Except Failure Amount := do
  return (← Amount.ofValue entry.price).half

/-- Refuses a sale that the shop does not want. -/
def consider (shop : Shop) (entry : Entry) : Except Failure Unit := do
  match shop.sellList with
  | none => throw (.rejected .closed)
  | some list =>
    if shop.purchaseOnly.truthy then throw (.rejected .purchaseOnly)
    if !(← list.isEnabled entry) then
      throw (.showing [entry.name] (.rejected (.notBought entry.name)))

/-- The gold for some of an entry. -/
def payment (entry : Entry) (amount : Amount) : Except Failure Amount := do
  (← sellingPrice entry).mul amount

/-- Sells some of an entry: the shop must want it, the party must hold it, and then it is paid. -/
def sell (shop : Shop) (entry : Entry) (quantity : Value) : Action Party Amount := do
  Action.ofExcept (shop.consider entry)
  let amount ← Action.ofExcept (Amount.ofValue quantity)
  Party.remove entry amount
  let gold ← Action.ofExcept (payment entry amount)
  Party.gainGold gold
  return gold

end Shop

/-- All scenes by number, and the numbers of the open ones, the newest first. -/
structure Stage where
  scenes : List Scene := []
  stack : List Nat := []
  deriving DecidableEq

namespace Stage

def scene? (stage : Stage) (number : Nat) : Option Scene := stage.scenes[number]?

def shop? (stage : Stage) (number : Nat) : Option Shop := (stage.scene? number).bind (·.shop)

/-- The newest of the open scenes. -/
def current? (stage : Stage) : Option Nat := stage.stack.head?

def updateScene (number : Nat) (f : Scene → Scene) (stage : Stage) : Stage :=
  { stage with scenes := stage.scenes.modify number f }

def updateShop (number : Nat) (f : Shop → Shop) (stage : Stage) : Stage :=
  stage.updateScene number fun scene => { scene with shop := scene.shop.map f }

/-- Adds a scene and returns its number. -/
def create (scene : Scene) : Action Stage Nat := do
  let stage ← get
  set { stage with scenes := stage.scenes ++ [scene] }
  return stage.scenes.length

/-- Opens a scene. It is on the stack before its sell list is made. -/
def push (number : Nat) : Action Stage Unit := do
  modify fun stage => stage.updateScene number fun scene => { scene with managed := true }
  modify fun stage => { stage with stack := number :: stage.stack }
  match (← get).shop? number with
  | none => pure ()
  | some shop =>
    let entered ← Action.ofExcept shop.enter
    modify fun stage => stage.updateShop number fun _ => entered

/-- Closes the newest open scene and returns its number. -/
def pop : Action Stage (Option Nat) := do
  match (← get).stack with
  | [] => return none
  | number :: rest =>
    modify fun stage => { stage with stack := rest }
    modify fun stage => stage.updateShop number Shop.leave
    modify fun stage => stage.updateScene number fun scene => { scene with managed := false }
    return some number

end Stage

/-- What the events of a game share: the party and the stage. -/
structure Game where
  party : Party := {}
  stage : Stage := {}
  deriving DecidableEq

namespace Game

variable {α : Type}

def onParty (a : Action Party α) : Action Game α :=
  a.within Game.party fun party game => { game with party }

def onStage (a : Action Stage α) : Action Game α :=
  a.within Game.stage fun stage game => { game with stage }

end Game
end SellRules
