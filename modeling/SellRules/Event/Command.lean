import SellRules.Value.Whole

/-!
# Event commands

A step of an event: a code, its parameters and how far it is indented.
-/

set_option autoImplicit false

namespace SellRules

structure Command where
  code : Int
  parameters : List Value := []
  indent : Int := 0
  deriving DecidableEq

namespace Command

/-- Opens a shop. -/
def shopCode : Int := 302

/-- A plugin command given as a text. -/
def textCode : Int := 356

/-- A plugin command given by its names and arguments. -/
def pluginCode : Int := 357

/-- A further line of goods for the shop before it. -/
def goodsCode : Int := 605

/-- The command that host data describes. A code is required; parameters may be any collection. -/
def ofValue (v : Value) : Except Failure Command :=
  match v with
  | .object fields => do
    let code ← match Fields.get? fields "code" with
      | some v => v.toWhole
      | none => throw .noField
    let parameters ← match ((Fields.get? fields "parameters").getD (.list [])).elements? with
      | some parameters => pure parameters
      | none => throw .shape
    let indent ← ((Fields.get? fields "indent").getD (.int 0)).toWhole
    return { code, parameters, indent }
  | _ => .error .shape

end Command
end SellRules
