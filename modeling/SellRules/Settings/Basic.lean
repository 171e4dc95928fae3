import SellRules.Value.Basic

/-!
# Settings

The names under which the plugin commands are registered, and whether sell lists report their checks.
A settings document gives texts and a truth value; a game may give anything.
-/

set_option autoImplicit false

namespace SellRules

structure Settings where
  pluginName : Value := .text "LWP_WhatShopCanBuy"
  commandName : Value := .text "buy_only"
  logRestrictions : Value := .bool false
  deriving DecidableEq

end SellRules
