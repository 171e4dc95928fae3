import SellRules.Event.Interpreter

/-!
# Sessions

A game in progress: the party, the scenes and several interpreters that share them. A session is
moved on by its interpreters, by the player, who sells, looks and closes scenes, and by the game,
which changes the party and opens scenes. A move that fails leaves what it had changed, and the next
move goes on from there.
-/

set_option autoImplicit false

namespace SellRules

structure Session where
  game : Game := {}
  interpreters : List Interpreter := []
  deriving DecidableEq

namespace Session

inductive Move where
  | setup (interpreter : Nat) (commands : List Command) (eventId : Value)
  | run (interpreter : Nat)
  | execute (interpreter : Nat) (command : Command)
  | declare (interpreter : Nat) (restrictions : Option RestrictionSet)
  | consume (interpreter : Nat)
  | battle (inBattle : Value)
  | gainGold (amount : Value)
  | add (entry : Entry) (amount : Value)
  | remove (entry : Entry) (amount : Value)
  | quantity (entry : Entry)
  /-- Sells to the shop with a number. -/
  | sell (scene : Nat) (entry : Entry) (amount : Value)
  /-- Lists what can be sold to the shop with a number. -/
  | enabled (scene : Nat)
  | category (scene : Nat) (category : Value)
  | create (scene : Scene)
  | push (scene : Nat)
  | pop
  deriving DecidableEq

/-- What a move answers. -/
inductive Reply where
  | done
  | amount (a : Amount)
  | restrictions (r : Option RestrictionSet)
  | lines (lines : List Line)
  /-- The number of a scene, if there is one. -/
  | scene (number : Option Nat)
  deriving DecidableEq

variable {α : Type}

def onParty (a : Action Party α) : Action Session α :=
  (Game.onParty a).within Session.game fun game session => { session with game }

def onStage (a : Action Stage α) : Action Session α :=
  (Game.onStage a).within Session.game fun game session => { session with game }

/-- Lets an interpreter act in the shared game. -/
def onInterpreter (number : Nat) (a : Action Play α) : Action Session α := do
  let session ← get
  match session.interpreters[number]? with
  | none => throw .noElement
  | some interpreter =>
    let (answer, play) := a.perform { interpreter, game := session.game }
    set { session with
      game := play.game
      interpreters := session.interpreters.set number play.interpreter }
    Action.ofExcept answer

/-- The shop with a number, for a move that needs one. -/
def shop (number : Nat) : Action Session Shop := do
  match (← get).game.stage.shop? number with
  | some shop => return shop
  | none => throw .noElement

/-- The sell list of a shop, for a move that needs an open one. -/
def sellList (number : Nat) : Action Session SellList := do
  match (← shop number).sellList with
  | some list => return list
  | none => throw .noElement

def perform : Move → Action Session Reply
  | .setup i commands eventId => do
    onInterpreter i (Play.setup commands eventId)
    return .done
  | .run i => do
    onInterpreter i Play.run
    return .done
  | .execute i c => do
    onInterpreter i (Play.execute c)
    return .done
  | .declare i r => do
    onInterpreter i (Play.onRegistry (Registry.declare r))
    return .done
  | .consume i => return .restrictions (← onInterpreter i (Play.onRegistry Registry.consume))
  | .battle inBattle => do
    onParty (modify fun party => { party with inBattle })
    return .done
  | .gainGold amount => do
    onParty (Party.gainGold (← Action.ofExcept (Amount.ofValue amount)))
    return .done
  | .add entry amount => do
    onParty (Party.add entry (← Action.ofExcept (Amount.ofValue amount)))
    return .done
  | .remove entry amount => do
    onParty (Party.remove entry (← Action.ofExcept (Amount.ofValue amount)))
    return .done
  | .quantity entry => do
    return .amount (← Action.ofExcept ((← get).game.party.inventory.quantity entry))
  | .sell number entry amount => do
    return .amount (← onParty ((← shop number).sell entry amount))
  | .enabled number => do
    let list ← sellList number
    return .lines (← Action.ofExcept (list.enabledItems (← get).game.party.inventory))
  | .category number v => do
    let list ← sellList number
    let category ← Action.ofExcept (Category.ofValue v)
    onStage (modify fun stage => stage.updateShop number fun shop =>
      { shop with sellList := some { list with category } })
    return .done
  | .create scene => return .scene (some (← onStage (Stage.create scene)))
  | .push number => do
    if ((← get).game.stage.scene? number).isNone then throw .noElement
    onStage (Stage.push number)
    return .done
  | .pop => return .scene (← onStage Stage.pop)

/-- Makes moves one after the other, failing ones included. -/
def performAll : List Move → Session → List (Except Failure Reply) × Session
  | [], session => ([], session)
  | move :: rest, session =>
    let (reply, next) := (perform move).perform session
    let (replies, last) := performAll rest next
    (reply :: replies, last)

end Session
end SellRules
