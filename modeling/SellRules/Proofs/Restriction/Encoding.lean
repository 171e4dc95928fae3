import SellRules.Proofs.Restriction.Grammar

/-!
# Encoded and decoded declarations

A list in a structured declaration may be encoded as the text of a JSON list, and the declaration as
a whole as the text of a JSON object. Encoded or not, it means the same
(`Structured.encoded_means_same`): a field is looked at only after its list is decoded
(`Structured.decodeList_of_encodes`), and texts are read back (`Json.read_write`).
-/

set_option autoImplicit false

namespace SellRules.Structured

/-- A value as it may stand in a declaration: as it is, or a list as its JSON text. -/
inductive Encodes : Value → Value → Prop
  | asIs (v : Value) : Encodes v v
  | asText (layout : Json.Layout) (items : List Value) :
      Encodes (.list items) (.text (Json.write layout (.list items)))

/-- The fields of a declaration with some of their lists encoded. -/
def EncodesFields : Fields → Fields → Prop :=
  List.Forall₂ fun field encoded => field.1 = encoded.1 ∧ Encodes field.2 encoded.2

/-! ## Lists -/

/-- A list is decoded to itself, encoded or not. -/
theorem decodeList_of_encodes {v encoded : Value} (h : Encodes v encoded) (hv : v.isJson = true) :
    decodeList encoded = decodeList v := by
  cases h with
  | asIs => rfl
  | asText layout items =>
    exact decodeList_of_read (Json.read_write layout hv)

theorem decodeField_of_encodes {v encoded : Value} (h : Encodes v encoded) (hv : v.isJson = true)
    (rule : Rule) (name : String) : decodeField rule name encoded = decodeField rule name v := by
  simp only [decodeField, decodeTags, decodeList_of_encodes h hv]

/-! ## Fields -/

theorem isJson_of_encodes {v encoded : Value} (h : Encodes v encoded) (hv : v.isJson = true) :
    encoded.isJson = true := by
  cases h with
  | asIs => exact hv
  | asText => rfl

/-- Encoding a list takes its levels away. -/
theorem levels_of_encodes {v encoded : Value} (h : Encodes v encoded) :
    encoded.levels ≤ v.levels := by
  cases h with
  | asIs => exact le_rfl
  | asText => exact Nat.zero_le _

theorem names_of_encodes {fields encoded : Fields} (h : EncodesFields fields encoded) :
    encoded.map Prod.fst = fields.map Prod.fst := by
  induction h with
  | nil => rfl
  | cons hfield _ ih => rw [List.map_cons, List.map_cons, ih, hfield.1]

/-- The fields of an object that a JSON text can hold are values that one can hold. -/
theorem isJson_of_mem {fields : Fields} (h : (Value.object fields).isJson = true) :
    ∀ field ∈ fields, field.2.isJson = true := by
  obtain ⟨hwritable, hlevels⟩ := Value.isJson_iff.1 h
  rw [Value.isWritable, Bool.and_eq_true, Value.fieldsWritable_iff] at hwritable
  rw [Value.levels] at hlevels
  exact fun field hfield => Value.isJson_iff.2 ⟨hwritable.2 field hfield,
    Value.fieldsLevels_le_iff.1 (Nat.le_of_succ_le hlevels) field hfield⟩

/-- An encoded declaration is one that a JSON text can hold. -/
theorem isJson_object_of_encodes {fields encoded : Fields} (h : EncodesFields fields encoded)
    (hfields : (Value.object fields).isJson = true) : (Value.object encoded).isJson = true := by
  have hparts : Value.fieldsWritable encoded = true ∧
      Value.fieldsLevels encoded ≤ Value.fieldsLevels fields := by
    have hjson := isJson_of_mem hfields
    clear hfields
    induction h with
    | nil => exact ⟨rfl, le_rfl⟩
    | cons hfield _ ih =>
      obtain ⟨hfirst, hrest⟩ := List.forall_mem_cons.1 hjson
      obtain ⟨hwritable, hlevels⟩ := ih hrest
      have hencoded := (Value.isJson_iff.1 (isJson_of_encodes hfield.2 hfirst)).1
      exact ⟨Bool.and_eq_true_iff.2 ⟨hencoded, hwritable⟩,
        max_le_max (levels_of_encodes hfield.2) hlevels⟩
  obtain ⟨hwritable, hlevels⟩ := Value.isJson_iff.1 hfields
  rw [Value.isWritable, Bool.and_eq_true, ← names_of_encodes h] at hwritable
  rw [Value.levels] at hlevels
  refine Value.isJson_iff.2 ⟨?_, (Nat.succ_le_succ hparts.2).trans hlevels⟩
  rw [Value.isWritable, Bool.and_eq_true]
  exact ⟨hwritable.1, hparts.1⟩

/-- A field stands in both declarations or in none. -/
theorem get?_of_encodes {fields encoded : Fields} (h : EncodesFields fields encoded)
    (hfields : ∀ field ∈ fields, field.2.isJson = true) (name : String) :
    fields.get? name = none ∧ encoded.get? name = none ∨
      ∃ v w, fields.get? name = some v ∧ encoded.get? name = some w ∧ Encodes v w ∧
        v.isJson = true := by
  induction h with
  | nil => exact .inl ⟨rfl, rfl⟩
  | @cons field encoded _ _ hfield _ ih =>
    obtain ⟨key, v⟩ := field
    obtain ⟨key', w⟩ := encoded
    obtain ⟨rfl, hencodes⟩ := hfield
    obtain ⟨hfirst, hrest⟩ := List.forall_mem_cons.1 hfields
    by_cases hkey : key = name
    · exact .inr ⟨v, w, by simp [Fields.get?, hkey], by simp [Fields.get?, hkey], hencodes, hfirst⟩
    · simpa [Fields.get?, hkey] using ih hrest

theorem find?_of_encodes {fields encoded : Fields} (h : EncodesFields fields encoded)
    (hfields : ∀ field ∈ fields, field.2.isJson = true) (rule : Rule) (authored : String) :
    find? fields rule authored = none ∧ find? encoded rule authored = none ∨
      ∃ name v w, find? fields rule authored = some (name, v) ∧
        find? encoded rule authored = some (name, w) ∧ Encodes v w ∧ v.isJson = true := by
  rcases get?_of_encodes h hfields authored with ⟨hv, hw⟩ | ⟨v, w, hv, hw, hencodes, hjson⟩
  · rcases get?_of_encodes h hfields rule.name with ⟨hv', hw'⟩ | ⟨v, w, hv', hw', hencodes, hjson⟩
    · exact .inl ⟨by simp [find?, hv, hv'], by simp [find?, hw, hw']⟩
    · exact .inr ⟨rule.name, v, w, by simp [find?, hv, hv'], by simp [find?, hw, hw'], hencodes,
        hjson⟩
  · exact .inr ⟨authored, v, w, by simp [find?, hv], by simp [find?, hw], hencodes, hjson⟩

theorem decodeRule_of_encodes {fields encoded : Fields} (h : EncodesFields fields encoded)
    (hfields : ∀ field ∈ fields, field.2.isJson = true) (rule : Rule) (authored : String) :
    decodeRule encoded rule authored = decodeRule fields rule authored := by
  rcases find?_of_encodes h hfields rule authored with
    ⟨hv, hw⟩ | ⟨name, v, w, hv, hw, hencodes, hjson⟩
  · simp only [decodeRule, hv, hw]
  · simp only [decodeRule, hv, hw, decodeField_of_encodes hencodes hjson]

/-- Fields are decoded to the same, encoded or not. -/
theorem decodeFields_of_encodes {fields encoded : Fields} (h : EncodesFields fields encoded)
    (hfields : ∀ field ∈ fields, field.2.isJson = true) (rules : List (Rule × String)) :
    decodeFields encoded rules = decodeFields fields rules := by
  induction rules with
  | nil => rfl
  | cons rule rules ih => rw [decodeFields, decodeFields, decodeRule_of_encodes h hfields, ih]

theorem parse_of_encodes {fields encoded : Fields} (h : EncodesFields fields encoded)
    (hfields : ∀ field ∈ fields, field.2.isJson = true) :
    parse (.object encoded) = parse (.object fields) := by
  have hdeep : isTooDeep encoded = isTooDeep fields := by
    rw [Bool.eq_iff_iff, isTooDeep_iff, isTooDeep_iff]
    simp only [decodeRule_of_encodes h hfields]
  simp only [parse, hdeep, decodeFields_of_encodes h hfields]

/-! ## Declarations -/

/-- **Encoded and decoded declarations mean the same.** Take an object that a JSON text can hold and
encode any of its lists as JSON texts. The object, the encoded one, the encoded one as an argument
of a plugin command and its JSON text as such an argument all give the same restriction set or fail
with the same message in the same field. Where the text in some field is nested too deep they all
fail for that, and this is no report on the declaration. -/
theorem encoded_means_same {fields encoded : Fields} (hfields : (Value.object fields).isJson = true)
    (hencoded : EncodesFields fields encoded) (layout : Json.Layout) :
    parse (.object encoded) = parse (.object fields) ∧
    parseArguments (.object [(argument, .object encoded)]) = parse (.object fields) ∧
    parseArguments (.object [(argument, .text (Json.write layout (.object encoded)))]) =
      parse (.object fields) ∧
    (¬ SomeTooDeep fields → (∃ r, parse (.object fields) = .ok r) ∨
      ∃ field fault, parse (.object fields) = .error (.declaration field fault)) ∧
    (SomeTooDeep fields → parse (.object fields) = .error (.value .tooDeep)) := by
  have hparse := parse_of_encodes hencoded (isJson_of_mem hfields)
  have hread := Json.read_write layout (isJson_object_of_encodes hencoded hfields)
  refine ⟨hparse, ?_, ?_, accepted_or_reported, parse_of_someTooDeep⟩
  · rw [← hparse, parseArguments_object]
  · rw [← hparse]
    simp only [parseArguments, argumentOf, Fields.get?, ↓reduceIte, ok_bind, decodeObject,
      Json.readText?, hread]

/-- Items and a tag, as decoded lists. -/
def fireItems : Fields :=
  [("itemId", .list [.int 1, .text "2"]), ("meta", .list [.text "<fire>"])]

/-- The items are encoded. -/
def encodedFireItems : Fields :=
  [("itemId", .text (Json.write .line (.list [.int 1, .text "2"]))),
    ("meta", .list [.text "<fire>"])]

/-- Encoded once more as a whole, the declaration still asks for the two items and the tag. -/
theorem encoded_fire_items_declare :
    parseArguments (.object [(argument, .text (Json.write .line (.object encodedFireItems)))]) =
      .ok (.ofRules [(.itemIds, .int 1), (.itemIds, .int 2), (.tags, .text "fire")]) := by
  have hjson : (Value.object fireItems).isJson = true := by decide +kernel
  have hencodes : EncodesFields fireItems encodedFireItems :=
    .cons ⟨rfl, .asText .line _⟩ (.cons ⟨rfl, .asIs _⟩ .nil)
  obtain ⟨-, -, htext, -⟩ := encoded_means_same hjson hencodes .line
  rw [htext]
  decide +kernel

/-- A list that opens too many lists, given as a text, is reported in no form. -/
theorem brackets_are_reported_in_no_form :
    EncodesFields [("itemId", .text brackets)] [("itemId", .text brackets)] ∧
    parse (.object [("itemId", .text brackets)]) = .error (.value .tooDeep) ∧
    parseArguments (.object [(argument, .object [("itemId", .text brackets)])]) =
      .error (.value .tooDeep) ∧
    ¬ ((∃ r, parse (.object [("itemId", .text brackets)]) = .ok r) ∨ ∃ field fault,
      parse (.object [("itemId", .text brackets)]) = .error (.declaration field fault)) := by
  have hparse := parse_of_someTooDeep someTooDeep_brackets
  refine ⟨.cons ⟨rfl, .asIs _⟩ .nil, hparse, ?_, ?_⟩
  · rw [← hparse, parseArguments_object]
  · rw [hparse]
    rintro (⟨r, hr⟩ | ⟨field, fault, hfault⟩)
    · cases hr
    · cases hfault

end SellRules.Structured
