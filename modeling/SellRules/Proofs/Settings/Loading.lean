import SellRules.Proofs.Outcome
import SellRules.Proofs.Restriction.Equality
import SellRules.Settings.Document

/-!
# What a settings document gives

`Settings.Prescribed` says what a document ought to give, by the kind of its root: the standard
settings for nothing, the settings of a table by their types, and a failure for any other root. What
is given departs from that for two kinds of documents only. A root that counts as holding nothing is
taken for nothing, and a value of the wrong type that cannot be shown makes the report on it fail. All
this is said for any reader of YAML, by the data that it gives.
-/

set_option autoImplicit false

namespace SellRules

open Yaml (Data Rows Scanned)

/-- Only nothing is equal to nothing. -/
theorem Scalar.eq_null_of_order {a : Scalar} (h : order a .null = .eq) : a = .null := by
  obtain ⟨hrank, -, -⟩ := order_eq_iff.1 h
  cases a with
  | null => rfl
  | float x =>
    cases x with
    | infinite negative => cases negative <;> cases hrank
    | _ => cases hrank
  | _ => cases hrank

/-! ## The settings one by one -/

inductive Setting where
  | pluginName
  | commandName
  | logRestrictions
  deriving DecidableEq

namespace Setting

def name : Setting → String
  | .pluginName => "plugin_name"
  | .commandName => "command_name"
  | .logRestrictions => "log_restrictions"

/-- The settings in the order in which they are checked. -/
def all : List Setting := [.pluginName, .commandName, .logRestrictions]

theorem map_name_all : all.map name = Settings.names := rfl

theorem name_mem_names (setting : Setting) : setting.name ∈ Settings.names := by
  rw [← map_name_all]
  exact List.mem_map_of_mem (by cases setting <;> decide)

/-- The value of a setting. -/
def get (settings : Settings) : Setting → Value
  | .pluginName => settings.pluginName
  | .commandName => settings.commandName
  | .logRestrictions => settings.logRestrictions

/-- The word for the type of a setting. -/
def typeName : Setting → String
  | .pluginName | .commandName => "str"
  | .logRestrictions => "bool"

/-- Whether data has the type of a setting. -/
def Fits : Setting → Data → Prop
  | .pluginName, data | .commandName, data => ∃ s, data = .scalar (.text s)
  | .logRestrictions, data => ∃ b, data = .scalar (.bool b)

/-- The value that a table gives a setting: its own, of the right type, or the standard one where the
table has none. -/
def Gives (setting : Setting) (rows : Rows) (v : Value) : Prop :=
  rows.get? (.text setting.name) = none ∧ v = setting.get {} ∨
    ∃ a, rows.get? (.text setting.name) = some (.scalar a) ∧ setting.Fits (.scalar a) ∧
      v = a.toValue

/-- A table has data of the wrong type for a setting. -/
def Mistyped (setting : Setting) (rows : Rows) (data : Data) : Prop :=
  rows.get? (.text setting.name) = some data ∧ ¬ setting.Fits data

/-- The first setting for which a table has data of the wrong type. -/
def FirstMistyped (setting : Setting) (rows : Rows) (data : Data) : Prop :=
  setting.Mistyped rows data ∧ ∃ before after, all = before ++ setting :: after ∧
    ∀ earlier ∈ before, ∃ v, earlier.Gives rows v

variable {setting other : Setting} {rows : Rows} {data given : Data} {v : Value}

theorem Gives.not_mistyped (h : setting.Gives rows v) : ¬ setting.Mistyped rows data := by
  rintro ⟨hdata, hunfit⟩
  rcases h with ⟨hnone, -⟩ | ⟨a, ha, hfits, -⟩
  · cases hnone.symm.trans hdata
  · cases ha.symm.trans hdata
    exact hunfit hfits

/-- Where all settings in front of one are given a value, one of the wrong type that comes first is
this one. -/
theorem Mistyped.eq_of_cons {between rest after : List Setting} (h : setting.Mistyped rows data)
    (hbetween : ∀ earlier ∈ between, ∃ v, earlier.Gives rows v)
    (heq : setting :: rest = between ++ other :: after) : setting = other := by
  cases between with
  | nil => exact (List.cons_eq_cons.1 heq).1
  | cons first between =>
    obtain ⟨rfl, -⟩ := List.cons_eq_cons.1 heq
    obtain ⟨v, hv⟩ := hbetween setting (by simp)
    exact absurd h hv.not_mistyped

/-- There is one first setting of the wrong type at most. -/
theorem FirstMistyped.unique (h : setting.FirstMistyped rows data)
    (hother : other.FirstMistyped rows given) : setting = other ∧ data = given := by
  obtain ⟨hmistyped, before, after, heq, hbefore⟩ := h
  obtain ⟨hmistyped', before', after', heq', hbefore'⟩ := hother
  have hsame : setting = other := by
    rcases List.append_eq_append_iff.1 (heq.symm.trans heq') with
      ⟨between, rfl, hrest⟩ | ⟨between, rfl, hrest⟩
    · exact hmistyped.eq_of_cons (fun _ h => hbefore' _ (List.mem_append_right _ h)) hrest
    · exact (hmistyped'.eq_of_cons (fun _ h => hbefore _ (List.mem_append_right _ h)) hrest).symm
  subst hsame
  exact ⟨rfl, Option.some.inj (hmistyped.1.symm.trans hmistyped'.1)⟩

end Setting

namespace Settings

/-- Reads the value of a setting out of a table. -/
def valueOf (rows : Rows) : Setting → Except Failure Value
  | .pluginName => textOf rows Setting.pluginName.name (Setting.pluginName.get {})
  | .commandName => textOf rows Setting.commandName.name (Setting.commandName.get {})
  | .logRestrictions => flagOf rows Setting.logRestrictions.name (Setting.logRestrictions.get {})

variable {rows : Rows} {data : Data} {setting : Setting} {settings : Settings}

theorem ofRows_eq (rows : Rows) :
    ofRows rows = do
      let pluginName ← valueOf rows .pluginName
      let commandName ← valueOf rows .commandName
      let logRestrictions ← valueOf rows .logRestrictions
      return { pluginName, commandName, logRestrictions } := rfl

/-- A setting is given a value, or its data is refused. -/
theorem valueOf_cases (rows : Rows) (setting : Setting) :
    (∃ v, setting.Gives rows v ∧ valueOf rows setting = .ok v) ∨
    ∃ data, setting.Mistyped rows data ∧
      valueOf rows setting = .error (wrongType setting.name setting.typeName data) := by
  cases setting with
  | pluginName | commandName =>
    simp only [valueOf, textOf]
    split
    next h => exact .inl ⟨_, .inl ⟨h, rfl⟩, rfl⟩
    next s h => exact .inl ⟨_, .inr ⟨_, h, ⟨s, rfl⟩, rfl⟩, rfl⟩
    next data hother h => exact .inr ⟨data, ⟨h, fun ⟨s, hs⟩ => hother s hs⟩, rfl⟩
  | logRestrictions =>
    simp only [valueOf, flagOf]
    split
    next h => exact .inl ⟨_, .inl ⟨h, rfl⟩, rfl⟩
    next b h => exact .inl ⟨_, .inr ⟨_, h, ⟨b, rfl⟩, rfl⟩, rfl⟩
    next data hother h => exact .inr ⟨data, ⟨h, fun ⟨b, hb⟩ => hother b hb⟩, rfl⟩

/-- A table gives all settings, or the first one of the wrong type is refused. -/
theorem ofRows_cases (rows : Rows) :
    (∃ settings, (∀ setting : Setting, setting.Gives rows (setting.get settings)) ∧
      ofRows rows = .ok settings) ∨
    ∃ (setting : Setting) (data : Data), setting.FirstMistyped rows data ∧
      ofRows rows = .error (wrongType setting.name setting.typeName data) := by
  rw [ofRows_eq]
  rcases valueOf_cases rows .pluginName with ⟨plugin, hplugin, hread⟩ | ⟨data, hdata, hread⟩
  · rw [hread]
    rcases valueOf_cases rows .commandName with ⟨command, hcommand, hread⟩ | ⟨data, hdata, hread⟩
    · rw [hread]
      rcases valueOf_cases rows .logRestrictions with ⟨flag, hflag, hread⟩ | ⟨data, hdata, hread⟩
      · rw [hread]
        exact .inl ⟨⟨plugin, command, flag⟩, fun setting => by cases setting <;> assumption, rfl⟩
      · rw [hread]
        refine .inr ⟨_, data, ⟨hdata, [.pluginName, .commandName], [], rfl, ?_⟩, rfl⟩
        simpa using ⟨⟨plugin, hplugin⟩, command, hcommand⟩
    · rw [hread]
      refine .inr ⟨_, data, ⟨hdata, [.pluginName], [.logRestrictions], rfl, ?_⟩, rfl⟩
      simpa using ⟨plugin, hplugin⟩
  · rw [hread]
    exact .inr ⟨_, data, ⟨hdata, [], _, rfl, by simp⟩, rfl⟩

/-! ## Whole documents -/

/-- The settings of a file, apart from what is reported on them. -/
def loaded (read : Reader) (path : String) (file : FileState) : Except Failure Settings :=
  Prod.fst <$> loadBy read path (some file)

/-- What data ought to give: the standard settings for nothing, the settings of a table that have the
right types, the first of the wrong type in a failure, and a failure for any other root. -/
inductive Prescribed : Data → Except Failure Settings → Prop
  | nothing : Prescribed (.scalar .null) (.ok {})
  | table {rows : Rows} {settings : Settings}
      (gives : ∀ setting : Setting, setting.Gives rows (setting.get settings)) :
      Prescribed (.table rows) (.ok settings)
  | mistyped {rows : Rows} {setting : Setting} {data : Data}
      (first : setting.FirstMistyped rows data) :
      Prescribed (.table rows)
        (.error (.settings (.wrongType setting.name setting.typeName data.quoted)))
  | other {data : Data} (present : data ≠ .scalar .null) (apart : ∀ rows, data ≠ .table rows) :
      Prescribed data (.error (.settings .notAMapping))

/-- A root that counts as holding nothing without being nothing: a truth value or number that is a
zero, an empty text or an empty list. A value of a kind of its own, such as bytes, may be one as well. -/
inductive IsHollow : Data → Prop
  | zero {a : Scalar} (h : a.same (.int 0) = true) : IsHollow (.scalar a)
  | text : IsHollow (.scalar (.text ""))
  | list : IsHollow (.list [])
  | other {o : Yaml.Other} (h : o.truthy = false) : IsHollow (.other o)

theorem isHollow_iff :
    IsHollow data ↔ data.truthy = false ∧ data ≠ .scalar .null ∧ ∀ rows, data ≠ .table rows := by
  constructor
  · rintro (⟨h⟩ | _ | _ | ⟨h⟩)
    · refine ⟨Scalar.truthy_eq_false_iff.2 (.inr (.inl (eq_of_beq h))), ?_, nofun⟩
      rintro ⟨⟩
      cases eq_of_beq h
    · exact ⟨rfl, nofun, nofun⟩
    · exact ⟨rfl, nofun, nofun⟩
    · exact ⟨h, nofun, nofun⟩
  · rintro ⟨htruthy, hnull, htable⟩
    cases data with
    | scalar a =>
      rcases Scalar.truthy_eq_false_iff.1 htruthy with h | h | h
      · exact absurd (congrArg Data.scalar (Scalar.eq_null_of_order h)) hnull
      · exact .zero (beq_iff_eq.2 h)
      · rw [Scalar.order_text_eq_iff.1 (Std.OrientedCmp.eq_symm h)]
        exact .text
    | list items =>
      cases items with
      | nil => exact .list
      | cons item rest => cases htruthy
    | other o => exact .other htruthy
    | table rows => exact absurd rfl (htable rows)

theorem loaded_eq {read : Reader} {path s : String} {file : FileState}
    (htext : file.text path = .ok s) (hread : read s = .ok data) :
    loaded read path file = Prod.fst <$> ofData data := by
  rw [loaded, loadBy, htext, ok_bind, ofText, hread]

/-- The settings of a table, if its unknown keys can be reported. -/
theorem ofData_table (rows : Rows) :
    Prod.fst <$> ofData (.table rows) = (do
      let settings ← ofRows rows
      discard (reportUnknown (unknownKeys rows))
      return settings) := by
  show Prod.fst <$> (do
    let settings ← ofRows rows
    let unknown ← reportUnknown (unknownKeys rows)
    return (settings, unknown ++ [settings.report])) = _
  cases ofRows rows with
  | error f => rfl
  | ok settings => cases reportUnknown (unknownKeys rows) <;> rfl

/-- Another root is refused, or counts as an empty table. -/
theorem ofData_of_not_table (h : ∀ rows, data ≠ .table rows) :
    Prod.fst <$> ofData data = if data.truthy then .error (.settings .notAMapping) else .ok {} := by
  have hrows : ofData data = (do
      let rows : Rows ← if data.truthy then .error (.settings .notAMapping) else .ok []
      let settings ← ofRows rows
      let unknown ← reportUnknown (unknownKeys rows)
      return (settings, unknown ++ [settings.report])) := by
    cases data with
    | table rows => exact absurd rfl (h rows)
    | scalar a => rfl
    | other o => rfl
    | list items => rfl
  rw [hrows]
  cases data.truthy <;> rfl

/-- The first value of the wrong type is what a table is refused for. -/
theorem ofRows_of_firstMistyped (h : setting.FirstMistyped rows data) :
    ofRows rows = .error (wrongType setting.name setting.typeName data) := by
  rcases ofRows_cases rows with ⟨settings, hgives, -⟩ | ⟨first, given, hfirst, herror⟩
  · exact absurd h.1 (hgives setting).not_mistyped
  · obtain ⟨rfl, rfl⟩ := hfirst.unique h
    exact herror

/-- A table gives what is prescribed unless its first value of the wrong type cannot be shown. -/
theorem prescribed_table_iff :
    Prescribed (.table rows) (ofRows rows) ↔
      ∀ (setting : Setting) (given : Data), setting.FirstMistyped rows given →
        given.isShown = true := by
  rcases ofRows_cases rows with ⟨settings, hgives, hok⟩ | ⟨setting, given, hfirst, herror⟩
  · rw [hok]
    exact iff_of_true (.table hgives) fun setting _ h =>
      absurd h.1 (hgives setting).not_mistyped
  · rw [herror, wrongType]
    constructor
    · intro h other data hother
      obtain ⟨rfl, rfl⟩ := hfirst.unique hother
      by_contra hunshown
      rw [if_neg hunshown] at h
      cases h
    · intro h
      rw [if_pos (h setting given hfirst)]
      exact .mistyped hfirst

/-- A root that is no table gives what is prescribed unless it counts as holding nothing without
being nothing. -/
theorem prescribed_root_iff (h : ∀ rows, data ≠ .table rows) :
    Prescribed data (Prod.fst <$> ofData data) ↔ ¬ IsHollow data := by
  rw [ofData_of_not_table h, isHollow_iff]
  cases htruthy : data.truthy with
  | true =>
    refine iff_of_true (.other ?_ h) nofun
    rintro rfl
    cases htruthy
  | false =>
    constructor
    · rintro hok ⟨-, hnull, -⟩
      cases hok with
      | nothing => exact hnull rfl
      | table gives => exact h _ rfl
    · intro hhollow
      obtain rfl : data = .scalar .null := by
        by_contra hnull
        exact hhollow ⟨rfl, hnull, h⟩
      exact .nothing

/-- **What a document of known keys gives.** A file whose text is read as data without unknown keys
gives what is prescribed for the data, unless its root counts as holding nothing without being
nothing, or the first of its values of the wrong type cannot be shown. The former gives the standard
settings, and the latter fails with another failure than that of a setting. -/
theorem prescribed_iff {read : Reader} {path s : String} {file : FileState}
    (htext : file.text path = .ok s) (hread : read s = .ok data)
    (hknown : ∀ rows, data = .table rows → unknownKeys rows = []) :
    (Prescribed data (loaded read path file) ↔
      ¬ IsHollow data ∧ ∀ (rows : Rows) (setting : Setting) (given : Data), data = .table rows →
        setting.FirstMistyped rows given → given.isShown = true) ∧
    (IsHollow data → loaded read path file = .ok {}) ∧
    ∀ (rows : Rows) (setting : Setting) (given : Data), data = .table rows →
      setting.FirstMistyped rows given → given.isShown = false →
        loaded read path file = .error (.value .unshown) := by
  rw [loaded_eq htext hread]
  by_cases htable : ∃ rows, data = .table rows
  · obtain ⟨rows, rfl⟩ := htable
    have hgiven : Prod.fst <$> ofData (.table rows) = ofRows rows := by
      rw [ofData_table, hknown rows rfl]
      cases ofRows rows <;> rfl
    have hhollow : ¬ IsHollow (.table rows) := nofun
    rw [hgiven, prescribed_table_iff]
    refine ⟨⟨fun h => ⟨hhollow, ?_⟩, fun h setting given => h.2 rows setting given rfl⟩,
      fun h => absurd h hhollow, ?_⟩
    · rintro _ setting given ⟨⟩
      exact h setting given
    · rintro _ setting given ⟨⟩ hfirst hunshown
      rw [ofRows_of_firstMistyped hfirst, wrongType, hunshown]
      rfl
  · rw [not_exists] at htable
    rw [prescribed_root_iff htable]
    refine ⟨⟨fun h => ⟨h, fun rows _ _ hrows => absurd hrows (htable rows)⟩, And.left⟩,
      fun hhollow => ?_, fun rows _ _ hrows => absurd hrows (htable rows)⟩
    rw [ofData_of_not_table htable, (isHollow_iff.1 hhollow).1]
    rfl

/-- A file holds the text that its bytes stand for. -/
theorem text_bytes {path s : String} (h : '\r' ∉ s.toList) :
    (FileState.bytes s.toUTF8).text path = .ok s := FileState.decode_toUTF8 h

theorem yaml_numberAsPlugin :
    yaml "plugin_name: 1" = .ok (.table [(.text "plugin_name", .scalar (.int 1))]) := by
  have htokens : Scanned.ofText "plugin_name: 1" =
      ⟨[.keysStart, .key, .plain "plugin_name", .value, .plain "1", .blockEnd], none⟩ := by
    decide +kernel
  rw [yaml, Yaml.read, htokens]
  rfl

theorem yaml_false : yaml "false" = .ok (.scalar (.bool false)) := by
  have htokens : Scanned.ofText "false" = ⟨[.plain "false"], none⟩ := by decide +kernel
  rw [yaml, Yaml.read, htokens]
  rfl

/-- One setting of the wrong type is refused with its name and its value. -/
theorem number_as_plugin_is_prescribed :
    (FileState.bytes "plugin_name: 1".toUTF8).text "settings.yaml" = .ok "plugin_name: 1" ∧
    yaml "plugin_name: 1" = .ok (.table [(.text "plugin_name", .scalar (.int 1))]) ∧
    Prescribed (.table [(.text "plugin_name", .scalar (.int 1))])
      (loaded yaml "settings.yaml" (.bytes "plugin_name: 1".toUTF8)) := by
  have htext : (FileState.bytes "plugin_name: 1".toUTF8).text "settings.yaml" =
      .ok "plugin_name: 1" := text_bytes (by decide)
  refine ⟨htext, yaml_numberAsPlugin, (prescribed_iff htext yaml_numberAsPlugin ?_).1.2 ⟨nofun, ?_⟩⟩
  · rintro _ ⟨⟩
    rfl
  · rintro _ setting given ⟨⟩ ⟨⟨hget, -⟩, -⟩
    cases setting with
    | pluginName =>
      cases hget
      decide +kernel
    | commandName | logRestrictions => cases hget

/-- A file that holds a false truth value gives the standard settings, as if it held nothing. -/
theorem false_root_is_taken_for_nothing :
    yaml "false" = .ok (.scalar (.bool false)) ∧
    loaded yaml "settings.yaml" (.bytes "false".toUTF8) = .ok {} ∧
    ¬ Prescribed (.scalar (.bool false)) (loaded yaml "settings.yaml" (.bytes "false".toUTF8)) := by
  have htable : ∀ rows, Data.scalar (.bool false) ≠ .table rows := nofun
  have hloaded : loaded yaml "settings.yaml" (.bytes "false".toUTF8) = .ok {} := by
    rw [loaded_eq (text_bytes (by decide)) yaml_false, ofData_of_not_table htable]
    rfl
  refine ⟨yaml_false, hloaded, fun h => ?_⟩
  rw [hloaded] at h
  cases h

end Settings

end SellRules
