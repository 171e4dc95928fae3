import SellRules.Proofs.Event.Effect
import SellRules.Proofs.Restriction.Structured

/-!
# The two forms of a declaration

A restriction set may be declared by a text command, as tokens, or by a plugin command, as JSON
texts within a JSON text. A plain set has both forms (`Command.exists_forms`), and whichever is
carried out, exactly this set waits for the next shop (`Play.both_forms_declare`).
-/

set_option autoImplicit false

namespace SellRules

open Number (IsNumeral)

theorem Text.occursIn_self (cs : List Char) : occursIn cs cs = true := by
  cases cs with
  | nil => rfl
  | cons c cs => simp [occursIn]

namespace Command

/-- A text command whose first word calls the restriction command. After it come tokens for the
members of a restriction set. -/
inductive IsTextForm (settings : Settings) (r : RestrictionSet) : Command → Prop
  | mk {name word text : String} {tokens : List String} {more : List Value} {indent : Int}
      (hname : settings.commandName = .text name) (hword : Text.IsWord word.toList)
      (hcalls : Text.occursIn (Text.lower name).toList (Text.lower word).toList = true)
      (htokens : Token.Spells tokens r)
      (htext : Text.Spaced ((word :: tokens).map String.toList) text.toList) :
      IsTextForm settings r { code := textCode, parameters := .text text :: more, indent }

/-- A plugin command with the names of the restriction command. Its argument is the JSON text of an
object that gives the sets of a restriction set as JSON texts. -/
inductive IsPluginForm (settings : Settings) (r : RestrictionSet) : Command → Prop
  | mk {plugin command label : Value} {args fields : Fields} {text : String} {more : List Value}
      {indent : Int} (hplugin : plugin.equal settings.pluginName = true)
      (hcommand : command.equal settings.commandName = true)
      (hargs : args.get? Structured.argument = some (.text text))
      (hread : Json.read text = .ok (.object fields)) (hfields : Structured.Spells fields r) :
      IsPluginForm settings r
        { code := pluginCode, parameters := plugin :: command :: label :: .object args :: more,
          indent }

variable {settings : Settings} {r : RestrictionSet} {c : Command}

/-- A text whose first word calls the restriction command declares what the words after it mean as
tokens. -/
theorem textDeclaration_of_spaced {name word text : String} {tokens : List String}
    {more : List Value} (hname : settings.commandName = .text name)
    (hcalls : Text.occursIn (Text.lower name).toList (Text.lower word).toList = true)
    (hwords : ∀ w ∈ word :: tokens, Text.IsWord w.toList)
    (htext : Text.Spaced ((word :: tokens).map String.toList) text.toList)
    (hparse : Token.parse tokens = .ok r) :
    textDeclaration settings (.text text :: more) = .ok (some r) := by
  have htextWords : Play.textWords (.text text :: more) = .ok (word :: tokens) := by
    rw [← Text.words_of_spaced hwords htext]
    rfl
  have hcall : Play.calls settings word = .ok true := by
    simp only [Play.calls, hname, Value.characters?, hcalls]
  simp only [textDeclaration, htextWords, ok_bind, hcall, ↓reduceIte, hparse]
  rfl

theorem IsTextForm.textDeclaration_eq (hr : r.Plain) (h : c.IsTextForm settings r) :
    textDeclaration settings c.parameters = .ok (some r) := by
  obtain ⟨hname, hword, hcalls, htokens, htext⟩ := h
  exact textDeclaration_of_spaced hname hcalls
    (List.forall_mem_cons.2 ⟨hword, Token.isWord_of_spells hr htokens⟩) htext
    (Token.parse_of_spells hr htokens)

theorem IsPluginForm.pluginDeclaration_eq (hr : r.Plain) (h : c.IsPluginForm settings r) :
    pluginDeclaration settings c.parameters = .ok (some r) := by
  obtain ⟨hplugin, hcommand, hargs, hread, hfields⟩ := h
  have hparse := Structured.parseArguments_of_spells hr hfields hread hargs
  simp only [pluginDeclaration, hplugin, hcommand, Bool.and_self, ↓reduceIte,
    List.getElem?_cons_succ, List.getElem?_cons_zero, Option.getD_some, hparse]
  rfl

theorem IsTextForm.code_eq (h : c.IsTextForm settings r) : c.code = textCode := by
  cases h
  rfl

theorem IsPluginForm.code_eq (h : c.IsPluginForm settings r) : c.code = pluginCode := by
  cases h
  rfl

/-- Where the restriction command is called by a word, a plain set has both forms. -/
theorem exists_forms (hr : r.Plain) {plugin name : String}
    (hplugin : settings.pluginName = .text plugin) (hname : settings.commandName = .text name)
    (hword : Text.IsWord name.toList) :
    (∃ c : Command, c.IsTextForm settings r) ∧ ∃ c : Command, c.IsPluginForm settings r := by
  constructor
  · obtain ⟨tokens, htokens⟩ := Token.exists_spells hr
    obtain ⟨cs, hcs⟩ := Text.exists_spaced ((name :: tokens).map String.toList)
    have htext : Text.Spaced ((name :: tokens).map String.toList) (String.ofList cs).toList := by
      rwa [String.toList_ofList]
    have hform : IsTextForm settings r
        { code := textCode, parameters := [.text (String.ofList cs)] } :=
      .mk hname hword (Text.occursIn_self _) htokens htext
    exact ⟨_, hform⟩
  · have hread := Json.read_write .line (Structured.isJson_fieldsOf .line r)
    generalize Json.write .line (.object (Structured.fieldsOf .line r)) = text at hread
    have hform : IsPluginForm settings r
        { code := pluginCode
          parameters := [.text plugin, .text name, .null,
            .object [(Structured.argument, .text text)]] } :=
      .mk (by simp [hplugin]) (by simp [hname]) rfl hread (Structured.spells_fieldsOf hr .line)
    exact ⟨_, hform⟩

end Command

namespace Play

variable {r : RestrictionSet} {p : Play}

/-- **Both forms declare the same.** A text command with tokens for a plain restriction set and a
plugin command with the JSON texts of its sets are both carried out without failing, and both leave
exactly this set waiting and nothing else changed. -/
theorem both_forms_declare (hr : r.Plain) {c d : Command}
    (hc : c.IsTextForm p.interpreter.settings r) (hd : d.IsPluginForm p.interpreter.settings r) :
    (execute c).perform p = (.ok (), p.waiting (some r)) ∧
      (execute d).perform p = (.ok (), p.waiting (some r)) := by
  constructor
  · have hnotShop : c.code ≠ Command.shopCode := by
      rw [hc.code_eq]
      decide
    rw [execute, if_neg hnotShop, if_pos hc.code_eq, perform_textCommand, hc.textDeclaration_eq hr]
    rfl
  · have hnotShop : d.code ≠ Command.shopCode := by
      rw [hd.code_eq]
      decide
    have hnotText : d.code ≠ Command.textCode := by
      rw [hd.code_eq]
      decide
    rw [execute, if_neg hnotShop, if_neg hnotText, if_pos hd.code_eq, perform_pluginCommand,
      hd.pluginDeclaration_eq hr]
    rfl

/-! ## An example -/

/-- Item 1 and the tag of fire. -/
def fireItem : RestrictionSet := .ofRules [(.itemIds, .int 1), (.tags, .text "fire")]

theorem mem_fireItem {rule : Rule} {a : Scalar} (ha : a ∈ fireItem.get rule) :
    rule = .itemIds ∧ a = .int 1 ∨ rule = .tags ∧ a = .text "fire" := by
  simpa using RestrictionSet.mem_of_mem_ofRules ha

theorem plain_fireItem : fireItem.Plain where
  ids rule hrule a ha := by
    rcases mem_fireItem ha with ⟨rfl, rfl⟩ | ⟨rfl, -⟩
    · exact ⟨1, rfl, by decide, by decide +kernel⟩
    · exact absurd rfl hrule
  tags a ha := by
    have hget : a ∈ fireItem.get .tags := ha
    rcases mem_fireItem hget with ⟨hrule, -⟩ | ⟨-, rfl⟩
    · cases hrule
    · exact ⟨"fire", rfl, by decide, by simp [Token.isDecoration, Text.isBlank], by decide⟩

/-- A text command for item 1, twice, and the tag of fire. -/
def fireText : Command where
  code := Command.textCode
  parameters := [.text "BUY_ONLY  i01 fire i1"]

/-- The plugin command for the same. -/
def firePlugin : Command where
  code := Command.pluginCode
  parameters := [.text "LWP_WhatShopCanBuy", .text "buy_only", .text "",
    .object [("restrictions",
      .text (Json.write .line (.object (Structured.fieldsOf .line fireItem))))]]

theorem spells_fireText : Token.Spells ["i01", "fire", "i1"] fireItem := by
  have hitem : Scalar.int 1 ∈ fireItem.get .itemIds := OrderedList.mem_def.2 (by decide +kernel)
  have htag : Scalar.text "fire" ∈ fireItem.get .tags := OrderedList.mem_def.2 (by decide +kernel)
  have hcode : (['i'], Rule.itemIds) ∈ Token.codes := by decide
  have hzero : IsNumeral ['0', '1'] 1 :=
    ⟨by decide, by simp [Text.isAsciiDigit], by decide, by decide⟩
  have hone : IsNumeral ['1'] 1 := ⟨by decide, by simp [Text.isAsciiDigit], by decide, by decide⟩
  constructor
  · simp only [List.forall_mem_cons]
    exact ⟨⟨_, _, hitem, .number hcode hzero⟩, ⟨_, _, htag, .tag _⟩,
      ⟨_, _, hitem, .number hcode hone⟩, by simp⟩
  · intro rule a ha
    rcases mem_fireItem ha with ⟨rfl, rfl⟩ | ⟨rfl, rfl⟩
    · exact ⟨"i1", by simp, .number hcode hone⟩
    · exact ⟨"fire", by simp, .tag _⟩

theorem isTextForm_fireText : fireText.IsTextForm {} fireItem := by
  have hspace : Text.isBlank ' ' = true := by decide
  have htext : Text.Spaced (["BUY_ONLY", "i01", "fire", "i1"].map String.toList)
      "BUY_ONLY  i01 fire i1".toList :=
    .word [] "  i01 fire i1".toList (by simp) (by simp [hspace])
      (.word [' ', ' '] " fire i1".toList (by simp [hspace]) (by simp [hspace])
        (.word [' '] " i1".toList (by simp [hspace]) (by simp [hspace])
          (.word [' '] [] (by simp [hspace]) (by simp) (.blanks (by simp)))))
  have hword : Text.IsWord "BUY_ONLY".toList := by simp [Text.IsWord, Text.isBlank]
  exact .mk rfl hword (by decide +kernel) spells_fireText htext

theorem isPluginForm_firePlugin : firePlugin.IsPluginForm {} fireItem :=
  .mk (by decide +kernel) (by decide +kernel) rfl
    (Json.read_write .line (Structured.isJson_fieldsOf .line fireItem))
    (Structured.spells_fieldsOf plain_fireItem .line)

theorem fire_item_waits_in_both_forms :
    (execute fireText).perform ⟨{}, {}⟩ = (.ok (), ⟨{ registry := { pending := fireItem } }, {}⟩) ∧
    (execute firePlugin).perform ⟨{}, {}⟩ =
      (.ok (), ⟨{ registry := { pending := fireItem } }, {}⟩) :=
  both_forms_declare (p := ⟨{}, {}⟩) plain_fireItem isTextForm_fireText isPluginForm_firePlugin

end Play
end SellRules
