import SellRules.Event.Command
import SellRules.Restriction.Structured
import SellRules.Settings.Basic
import SellRules.Shop.Stage
import SellRules.Text.LetterCase
import SellRules.Value.Equal

/-!
# Interpreters

An interpreter runs the commands of one event. Two plugin commands declare restrictions, as a text or
by arguments; a declaration waits for the next shop that the same event opens and replaces one that
waits already. A shop takes the waiting declaration when it opens. While the party is in battle it
does not open, and the declaration goes on waiting.
-/

set_option autoImplicit false

namespace SellRules

/-- The restrictions that wait for the next shop. -/
structure Registry where
  pending : Option RestrictionSet := none
  deriving DecidableEq

namespace Registry

/-- Puts restrictions in the place of those that wait. They are reported afterwards, so a value that
is no restriction set, or one that cannot be listed, fails when it is already in place. -/
def declare (r : Option RestrictionSet) : Action Registry Unit := do
  set { pending := r : Registry }
  match r with
  | none => throw .noMember
  | some r => discard (Action.ofExcept r.listed)

/-- Takes out the waiting restrictions. -/
def consume : Action Registry (Option RestrictionSet) := do
  let r := (← get).pending
  set { pending := none : Registry }
  return r

def reset : Action Registry Unit := set { pending := none : Registry }

end Registry

structure Interpreter where
  settings : Settings := {}
  registry : Registry := {}
  eventId : Value := .int 0
  commands : List Command := []
  /-- How many commands are done. -/
  position : Nat := 0
  deriving DecidableEq

namespace Interpreter

/-- The command whose turn it is. -/
def current? (i : Interpreter) : Option Command := i.commands[i.position]?

def isRunning (i : Interpreter) : Bool := i.position < i.commands.length

/-- The code of the command after the current one. -/
def nextCode? (i : Interpreter) : Option Int := (i.commands[i.position + 1]?).map (·.code)

/-- The lines of goods directly after the current command. -/
def goodsAhead (i : Interpreter) : List Command :=
  (i.commands.drop (i.position + 1)).takeWhile fun c => c.code = Command.goodsCode

def advance (i : Interpreter) : Interpreter := { i with position := i.position + 1 }

end Interpreter

/-- One interpreter in the game that it shares. -/
structure Play where
  interpreter : Interpreter
  game : Game
  deriving DecidableEq

namespace Play

variable {α : Type}

def onRegistry (a : Action Registry α) : Action Play α :=
  a.within (fun play => play.interpreter.registry) fun registry play =>
    { play with interpreter := { play.interpreter with registry } }

def onStage (a : Action Stage α) : Action Play α :=
  (Game.onStage a).within Play.game fun game play => { play with game }

def updateInterpreter (f : Interpreter → Interpreter) : Action Play Unit :=
  modify fun play => { play with interpreter := f play.interpreter }

/-- Gives an interpreter the commands of an event. What waited is dropped. -/
def setup (commands : List Command) (eventId : Value) : Action Play Unit := do
  updateInterpreter fun i => { i with commands, eventId, position := 0 }
  onRegistry Registry.reset

/-! ## Plugin commands -/

/-- The words of a text command: those of its first parameter. -/
def textWords : List Value → Except Failure (List String)
  | [] => .ok []
  | first :: _ =>
    match first.obstacle? with
    | none => .ok (Text.words first.display)
    | some obstacle => .error (.value (.ofObstacle obstacle))

/-- Whether a word calls the restriction command: it holds the command's name, in any case. -/
def calls (settings : Settings) (word : String) : Except Failure Bool :=
  match settings.commandName.characters? with
  | some name => .ok (Text.occursIn (Text.lower name).toList (Text.lower word).toList)
  | none => .error .noMember

/-- A text plugin command: a word that calls the command, then tokens. Others are of no concern. -/
def textCommand (parameters : List Value) : Action Play Unit := do
  match ← Action.ofExcept (textWords parameters) with
  | [] => pure ()
  | word :: tokens =>
    if ← Action.ofExcept (calls (← get).interpreter.settings word) then
      let r ← Action.ofExcept (Token.parse tokens)
      onRegistry (Registry.declare (some r))

/-- A plugin command: the names of plugin and command, a label and arguments. Those with other names
are of no concern. -/
def pluginCommand (parameters : List Value) : Action Play Unit := do
  match parameters with
  | plugin :: command :: rest =>
    let settings := (← get).interpreter.settings
    if plugin.equal settings.pluginName && command.equal settings.commandName then
      let r ← Action.ofExcept (Structured.parseArguments (rest[1]?.getD (.object [])))
      onRegistry (Registry.declare (some r))
  | _ => throw .noElement

/-! ## Shops -/

/-- The goods of the lines ahead. Each line is taken before it is read. -/
def collectGoods : List Command → Action Play (List Good)
  | [] => return []
  | line :: rest => do
    updateInterpreter Interpreter.advance
    let good ← Action.ofExcept (Good.ofParameters (.list line.parameters))
    return good :: (← collectGoods rest)

/-- Opens a shop with its goods and those of the lines that follow, unless the party is in battle. -/
def openShop (parameters : List Value) : Action Play Unit := do
  let first ← Action.ofExcept (Good.ofParameters (.list parameters))
  let more ← collectGoods (← get).interpreter.goodsAhead
  if (← get).game.party.inBattle.truthy then return
  let restrictions ← onRegistry Registry.consume
  let purchaseOnly := .bool ((parameters[4]?).any Value.truthy)
  let logChecks := (← get).interpreter.settings.logRestrictions.truthy
  let shop : Shop := { goods := first :: more, purchaseOnly, restrictions, logChecks }
  let number ← onStage (Stage.create { shop := some shop })
  onStage (Stage.push number)

/-! ## Running -/

/-- Carries out one command. Codes without a meaning here are skipped. -/
def execute (c : Command) : Action Play Unit :=
  if c.code = Command.shopCode then openShop c.parameters
  else if c.code = Command.textCode then textCommand c.parameters
  else if c.code = Command.pluginCode then pluginCommand c.parameters
  else pure ()

/-- Carries out commands from the current one on, at most as many as the first argument says. -/
def runFor : Nat → Action Play Unit
  | 0 => pure ()
  | limit + 1 => do
    match (← get).interpreter.current? with
    | none => pure ()
    | some c =>
      execute c
      updateInterpreter Interpreter.advance
      runFor limit

/-- Runs to the end of the commands. Each round does at least one of those that are left. -/
def run : Action Play Unit := do
  let i := (← get).interpreter
  runFor (i.commands.length - i.position)

end Play
end SellRules
