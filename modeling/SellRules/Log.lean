import SellRules.Failure
import SellRules.Text.LetterCase

/-!
# Logs

What an operation reports while it runs. A log has a threshold, and lines below it are dropped.
-/

set_option autoImplicit false

namespace SellRules.Log

inductive Level where
  | debug
  | info
  | warning
  | error
  deriving DecidableEq, Repr

def Level.name : Level → String
  | .debug => "DEBUG"
  | .info => "INFO"
  | .warning => "WARNING"
  | .error => "ERROR"

/-- How grave a level is. -/
def Level.weight : Level → Int
  | .debug => 10
  | .info => 20
  | .warning => 30
  | .error => 40

/-- A line of a log. The source is the part of the program that it comes from. -/
structure Line where
  level : Level
  source : String
  message : String
  deriving DecidableEq, Repr

def Line.text (line : Line) : String :=
  "[" ++ line.level.name ++ "] " ++ line.source ++ ": " ++ line.message

/-- The lines that reach a threshold, in order. -/
def above (threshold : Int) (lines : List Line) : List Line :=
  lines.filter fun line => threshold ≤ line.level.weight

theorem mem_above {threshold : Int} {lines : List Line} {line : Line} :
    line ∈ above threshold lines ↔ line ∈ lines ∧ threshold ≤ line.level.weight := by
  simp [above]

/-! ## Thresholds by name -/

/-- How a log line is laid out, its time included. -/
def lineFormat : String := "[%(asctime)s] [%(levelname)s] %(name)s: %(message)s"

/-- The names of thresholds. -/
def thresholds : List (String × Int) := [
  ("NOTSET", 0), ("DEBUG", 10), ("INFO", 20), ("WARN", 30), ("WARNING", 30), ("ERROR", 40),
  ("CRITICAL", 50), ("FATAL", 50)]

/-- The threshold that a value sets; nothing sets none. -/
def thresholdOf : Value → Except Failure (Option Value)
  | .null => .ok none
  | .int n => .ok (some (.int n))
  | .bool b => .ok (some (.bool b))
  | .text s =>
    match thresholds.lookup s with
    | some n => .ok (some (.int n))
    | none => .error (.value (.unknownLevel s))
  | _ => .error .shape

/-- The threshold that a name asks for. No name, the empty one and an unknown one ask for the
standard threshold; two names are reserved and refused. The case of the letters does not count. -/
def threshold (standard : Value) (name : Option String) : Except Failure (Option Value) :=
  match name.map Text.upperAscii with
  | none => thresholdOf standard
  | some "BASIC_FORMAT" => .error (.value (.unknownLevel "%(levelname)s:%(name)s:%(message)s"))
  | some "_STYLES" => .error .shape
  | some name =>
    match thresholds.lookup name with
    | some n => .ok (some (.int n))
    | none => thresholdOf standard

/-- The threshold where none is asked for. -/
def standardThreshold : Int := Level.weight .info

end SellRules.Log
