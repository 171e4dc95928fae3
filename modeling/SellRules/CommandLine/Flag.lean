import SellRules.Text.Digit
import SellRules.Value.Quoted

/-!
# Flags

How the arguments of a command line are told apart. An argument that begins with a dash is a flag,
unless it is a dash alone, a negative number, or unknown with a space in it. A long flag may be cut
short as long as it stays unambiguous, and may have its argument attached after an equals sign. Short
flags may be written in one argument, after one dash; an equals sign after the first of them does not
count. After two dashes alone every argument is an operand.
-/

set_option autoImplicit false

namespace SellRules.CommandLine

/-- What is wrong with a command line. -/
inductive UsageFault where
  | ambiguous (argument : String) (candidates : List String)
  /-- A flag without arguments has one attached. -/
  | ignoredArgument (flag argument : String)
  | noArgument (flag : String)
  | missing (name : String)
  | unknownCommand (given : String) (commands : List String)
  | unrecognized (arguments : List String)
  /-- Restrictions are given in both forms. -/
  | bothForms
  deriving DecidableEq, Repr

def UsageFault.message : UsageFault → String
  | .ambiguous argument candidates =>
    "ambiguous option: " ++ argument ++ " could match " ++ String.intercalate ", " candidates
  | .ignoredArgument flag argument =>
    "argument " ++ flag ++ ": ignored explicit argument " ++ Value.quoteText argument
  | .noArgument flag => "argument " ++ flag ++ ": expected one argument"
  | .missing name => "the following arguments are required: " ++ name
  | .unknownCommand given commands =>
    "argument command: invalid choice: " ++ Value.quoteText given ++ " (choose from " ++
      String.intercalate ", " (commands.map Value.quoteText) ++ ")"
  | .unrecognized arguments => "unrecognized arguments: " ++ String.intercalate " " arguments
  | .bothForms => "give either TOKEN... or --structured, not both"

/-- The flags that a part of a command line takes. -/
structure FlagTable (α : Type) where
  /-- Every spelling with its flag. -/
  spellings : List (String × α)
  takesArgument : α → Bool

/-- What an argument is. -/
inductive Role (α : Type) where
  | operand
  /-- Two dashes, after which all are operands. -/
  | dashes
  /-- A flag, with the text attached to it if there is one. -/
  | flag (flag : α) (short : Bool) (attached : Option (List Char))
  | unknown

/-- An argument and what it is. -/
structure Word (α : Type) where
  text : String
  role : Role α

/-- What one argument comes to. -/
structure Expansion (α : Type) where
  /-- The flags with their arguments. -/
  flags : List (α × Option String) := []
  /-- The flag whose argument is to follow. -/
  wanting : Option α := none

/-- Whether a text is a minus sign, digits, and perhaps a point with digits after it. A line feed may
stand at the end. -/
def isNegativeNumber (cs : List Char) : Bool :=
  let isDigit (c : Char) : Bool := (Text.digitValue? c).isSome
  match cs with
  | '-' :: cs =>
    let cs := if cs.getLast? == some '\n' then cs.dropLast else cs
    match cs.dropWhile isDigit with
    | [] => !cs.isEmpty
    | '.' :: places => !places.isEmpty && places.all isDigit
    | _ => false
  | _ => false

namespace FlagTable

variable {α : Type} [DecidableEq α] (table : FlagTable α)

/-- A flag as messages name it: by all its spellings. -/
def label (flag : α) : String :=
  String.intercalate "/" ((table.spellings.filter fun spelling => spelling.2 = flag).map (·.1))

/-- The spellings that a dash argument may stand for, and what is attached to it. -/
def candidates (cs : List Char) : List (String × α) × Option (List Char) :=
  match cs with
  | '-' :: '-' :: _ =>
    let stem := cs.takeWhile (· != '=')
    let attached := match cs.dropWhile (· != '=') with
      | _ :: text => some text
      | [] => none
    (table.spellings.filter fun spelling => stem.isPrefixOf spelling.1.toList, attached)
  | cs =>
    (table.spellings.filter fun spelling => spelling.1.toList = cs.take 2, some (cs.drop 2))

/-- Whether a spelling is a short one. -/
def isShort (spelling : String) : Bool := !("--".toList.isPrefixOf spelling.toList)

/-- What an argument is that is not preceded by two dashes alone. -/
def roleOf (argument : String) : Except UsageFault (Role α) :=
  let cs := argument.toList
  if cs.head? != some '-' then .ok .operand
  else match table.spellings.lookup argument with
    | some flag => .ok (.flag flag (isShort argument) none)
    | none =>
      if cs.length = 1 then .ok .operand
      else
        let stem := String.ofList (cs.takeWhile (· != '='))
        match table.spellings.lookup stem, cs.dropWhile (· != '=') with
        | some flag, _ :: text => .ok (.flag flag (isShort stem) (some text))
        | _, _ =>
          match table.candidates cs with
          | ([(spelling, flag)], attached) => .ok (.flag flag (isShort spelling) attached)
          | ([], _) => .ok (if isNegativeNumber cs || cs.contains ' ' then .operand else .unknown)
          | (several, _) => .error (.ambiguous argument (several.map (·.1)))

/-- The arguments with what each of them is. -/
def classify : List String → Except UsageFault (List (Word α))
  | [] => .ok []
  | argument :: rest =>
    if argument = "--" then
      .ok (⟨argument, .dashes⟩ :: rest.map fun operand => ⟨operand, .operand⟩)
    else do
      let role ← table.roleOf argument
      return ⟨argument, role⟩ :: (← classify rest)

/-- A flag that stands by itself. -/
def alone (flag : α) : Expansion α :=
  if table.takesArgument flag then { wanting := some flag } else { flags := [(flag, none)] }

/-- A short flag and the text attached to it, which is its argument or more short flags. -/
def expandShort (flag : α) (text : List Char) : Except UsageFault (Expansion α) :=
  if table.takesArgument flag then .ok { flags := [(flag, some (String.ofList text))] }
  else match text with
    | [] => .error (.ignoredArgument (table.label flag) "")
    | c :: cs =>
      match table.spellings.lookup (String.ofList ['-', c]) with
      | none => .error (.ignoredArgument (table.label flag) (String.ofList (c :: cs)))
      | some next => do
        let more ← if cs.isEmpty then pure (table.alone next) else expandShort next cs
        return { more with flags := (flag, none) :: more.flags }

/-- What a flag comes to. -/
def expand (flag : α) (short : Bool) (attached : Option (List Char)) :
    Except UsageFault (Expansion α) :=
  match attached with
  | none => .ok (table.alone flag)
  | some text =>
    if short then table.expandShort flag text
    else if table.takesArgument flag then .ok { flags := [(flag, some (String.ofList text))] }
    else .error (.ignoredArgument (table.label flag) (String.ofList text))

end FlagTable
end SellRules.CommandLine
