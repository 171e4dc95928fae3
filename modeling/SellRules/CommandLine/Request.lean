import SellRules.CommandLine.Flag

/-!
# Requests

What a command line asks for: to print a restriction set, or to list what a restricted shop would buy
of an item database. Restrictions are given as tokens or in structured form, not both. What is wrong
with a command line is reported in the name of the program or of one of its commands.
-/

set_option autoImplicit false

namespace SellRules.CommandLine

def programName : String := "shop-restrictions"

def programVersion : String := "0.1.0"

/-- A report on a wrong command line. -/
structure Complaint where
  /-- The command that complains; none if it is the program. -/
  command : Option String
  fault : UsageFault
  deriving DecidableEq, Repr

def Complaint.text (complaint : Complaint) : String :=
  let program := match complaint.command with
    | none => programName
    | some command => programName ++ " " ++ command
  program ++ ": error: " ++ complaint.fault.message

/-- Restrictions as a command line gives them. -/
inductive Declaration where
  | absent
  | tokens (words : List String)
  | structured (text : String)
  deriving DecidableEq, Repr

inductive Task where
  /-- Prints the restriction set. -/
  | parse (declaration : Declaration)
  /-- Lists what a shop buys of the database in a file. -/
  | check (data : String) (declaration : Declaration)
  deriving DecidableEq, Repr

inductive Request where
  | help
  | version
  | run (verbosity : Nat) (task : Task)
  deriving DecidableEq, Repr

/-! ## Flags -/

/-- The flags in front of the command. -/
inductive MainFlag where
  | help
  | version
  | verbose
  deriving DecidableEq, Repr

def mainFlags : FlagTable MainFlag where
  spellings := [("-h", .help), ("--help", .help), ("--version", .version), ("-v", .verbose),
    ("--verbose", .verbose)]
  takesArgument _ := false

/-- The flags after the command. -/
inductive TaskFlag where
  | help
  | data
  | structured
  deriving DecidableEq, Repr

inductive Command where
  | parse
  | check
  deriving DecidableEq, Repr

def Command.name : Command → String
  | .parse => "parse"
  | .check => "check"

def Command.all : List Command := [.parse, .check]

def Command.flags (command : Command) : FlagTable TaskFlag where
  spellings := [("-h", .help), ("--help", .help)] ++
    (if command = .check then [("--data", .data)] else []) ++ [("--structured", .structured)]
  takesArgument flag := flag != .help

/-! ## After the command -/

/-- What was read of the arguments after the command. -/
structure TaskWords where
  help : Bool := false
  /-- The first run of operands, two dashes included. -/
  operands : List String := []
  /-- Whether the run of operands is over. -/
  closed : Bool := false
  data : Option String := none
  structured : Option String := none
  unrecognized : List String := []

namespace TaskWords

def addOperand (words : TaskWords) (text : String) : TaskWords :=
  if words.closed then { words with unrecognized := words.unrecognized ++ [text] }
  else { words with operands := words.operands ++ [text] }

/-- Notes that something other than an operand comes. -/
def close (words : TaskWords) : TaskWords :=
  { words with closed := words.closed || !words.operands.isEmpty }

def addUnknown (words : TaskWords) (text : String) : TaskWords :=
  { words.close with unrecognized := words.unrecognized ++ [text] }

/-- Takes in a flag; after one that asks for help nothing counts. -/
def addFlag (words : TaskWords) (flag : TaskFlag) (argument : Option String) : TaskWords :=
  match flag with
  | .help => { words.close with help := true }
  | .data => { words.close with data := argument }
  | .structured => { words.close with structured := argument }

/-- Takes in what an argument comes to. -/
def addExpansion (words : TaskWords) (expansion : Expansion TaskFlag) : TaskWords :=
  expansion.flags.foldl (fun words (flag, argument) => words.addFlag flag argument) words

/-- Takes in arguments from left to right, up to one that asks for help. -/
def read (table : FlagTable TaskFlag) (words : TaskWords) :
    List (Word TaskFlag) → Except UsageFault TaskWords
  | [] => .ok words
  | ⟨text, .operand⟩ :: rest | ⟨text, .dashes⟩ :: rest => (words.addOperand text).read table rest
  | ⟨text, .unknown⟩ :: rest => (words.addUnknown text).read table rest
  | ⟨_, .flag flag short attached⟩ :: rest =>
    match table.expand flag short attached with
    | .error fault => .error fault
    | .ok expansion =>
      let words := words.addExpansion expansion
      match expansion.wanting with
      | none => if words.help then .ok words else words.read table rest
      | some wanting =>
        match rest with
        | ⟨text, .operand⟩ :: rest => (words.addFlag wanting (some text)).read table rest
        | _ => .error (.noArgument (table.label wanting))

/-- The operands without the first two dashes alone. -/
def tokens (words : TaskWords) : List String := words.operands.erase "--"

end TaskWords

/-- What stands after a command: nothing if help is asked for, else the data file if the command
takes one, and the restrictions. -/
def readTask (command : Command) (arguments : List String) :
    Except UsageFault (Option TaskWords) := do
  let words ← TaskWords.read command.flags {} (← command.flags.classify arguments)
  if words.help then return none
  if command = .check && words.data.isNone then throw (.missing "--data")
  return some words

/-! ## In front of the command -/

/-- The task that was read, once both parts of the command line are known to be understood. -/
def finish (verbosity : Nat) (unrecognized : List String) (command : Command) (words : TaskWords) :
    Except UsageFault Request := do
  let unrecognized := unrecognized ++ words.unrecognized
  if !unrecognized.isEmpty then throw (.unrecognized unrecognized)
  let declaration ← match words.structured, words.tokens with
    | some text, [] => pure (.structured text)
    | some _, _ => throw .bothForms
    | none, [] => pure .absent
    | none, tokens => pure (.tokens tokens)
  match command with
  | .parse => return .run verbosity (.parse declaration)
  | .check => return .run verbosity (.check (words.data.getD "") declaration)

/-- Reports faults in the name of a command, or of the program. -/
def inNameOf {β : Type} (command : Option Command) (r : Except UsageFault β) : Except Complaint β :=
  r.mapError (⟨command.map (·.name), ·⟩)

/-- Reads the command, which is the first operand, and what follows it. -/
def readCommand (verbosity : Nat) (unrecognized : List String) (name : String)
    (arguments : List String) : Except Complaint Request :=
  match Command.all.find? (·.name == name) with
  | none => .error ⟨none, .unknownCommand name (Command.all.map (·.name))⟩
  | some command => do
    match ← inNameOf (some command) (readTask command arguments) with
    | none => return .help
    | some words => inNameOf none (finish verbosity unrecognized command words)

/-- What the flags of one argument ask for: the number of times that they ask for more reports, or an
answer at once. -/
def heed (verbosity : Nat) : List (MainFlag × Option String) → Except Request Nat
  | [] => .ok verbosity
  | (.verbose, _) :: rest => heed (verbosity + 1) rest
  | (.help, _) :: _ => .error .help
  | (.version, _) :: _ => .error .version

/-- Reads arguments from left to right up to the command. -/
def readMain (verbosity : Nat) (unrecognized : List String) :
    List (Word MainFlag) → Except Complaint Request
  | [] => .error ⟨none, .missing "command"⟩
  | ⟨name, .operand⟩ :: rest => readCommand verbosity unrecognized name (rest.map (·.text))
  | ⟨dashes, .dashes⟩ :: rest =>
    if rest.isEmpty then .error ⟨none, .missing "command"⟩
    else readCommand verbosity unrecognized dashes (rest.map (·.text))
  | ⟨text, .unknown⟩ :: rest => readMain verbosity (unrecognized ++ [text]) rest
  | ⟨_, .flag flag short attached⟩ :: rest =>
    match mainFlags.expand flag short attached with
    | .error fault => .error ⟨none, fault⟩
    | .ok expansion =>
      match heed verbosity expansion.flags with
      | .ok verbosity => readMain verbosity unrecognized rest
      | .error request => .ok request

/-- What a command line asks for. -/
def Request.ofArguments (arguments : List String) : Except Complaint Request := do
  readMain 0 [] (← inNameOf none (mainFlags.classify arguments))

end SellRules.CommandLine
