import SellRules.Proofs.OrderedList
import SellRules.Proofs.Outcome
import SellRules.Restriction.Structured
import SellRules.Restriction.Token

/-!
# Typed restriction sets

A typed restriction set holds whole numbers as ids and texts as tags. Both forms of a declaration
give typed sets only (`Token.typed_parse`, `Structured.typed_parseArguments`), and a typed set can
always be listed (`Typed.listedBy_eq`), so reporting a declaration never fails.
-/

set_option autoImplicit false

namespace SellRules

namespace RestrictionSet

/-- All ids and type ids are whole numbers. -/
def WholeIds (r : RestrictionSet) : Prop :=
  ∀ rule, rule ≠ .tags → ∀ a ∈ r.get rule, ∃ n, a = .int n

/-- Ids and type ids are whole numbers, tags are texts. -/
structure Typed (r : RestrictionSet) : Prop where
  ids : r.WholeIds
  tags : ∀ a ∈ r.tags, ∃ s, a = .text s

/-- The sets can be listed in order. -/
def Listable (r : RestrictionSet) : Prop := ∃ lists, r.listed = .ok lists

theorem Typed.sortable {r : RestrictionSet} (h : r.Typed) (rule : Rule) :
    Scalar.sortable (r.get rule).toList = true := by
  by_cases ht : rule = .tags
  · subst ht
    have : (r.get .tags).toList.all Scalar.isText = true := by
      rw [List.all_eq_true]
      intro a ha
      obtain ⟨s, rfl⟩ := h.tags a ha
      rfl
    simp [Scalar.sortable, this]
  · have : (r.get rule).toList.all Scalar.isNumber = true := by
      rw [List.all_eq_true]
      intro a ha
      obtain ⟨n, rfl⟩ := h.ids rule ht a ha
      rfl
    simp [Scalar.sortable, this]

theorem Typed.listedBy_eq {r : RestrictionSet} (h : r.Typed) (rules : List Rule) :
    r.listedBy rules = .ok (rules.map fun rule => (rule, (r.get rule).toList)) := by
  refine mapM_eq_ok_map fun rule _ => ?_
  simp only [ScalarSet.listed, h.sortable rule, ↓reduceIte]
  rfl

theorem Typed.listed_eq {r : RestrictionSet} (h : r.Typed) :
    r.listed = .ok (Rule.all.map fun rule => (rule, (r.get rule).toList)) := h.listedBy_eq Rule.all

/-- The fields that list the sets of the given rules, each in its order. -/
def listing (rules : List Rule) (r : RestrictionSet) : Fields :=
  rules.map fun rule => (rule.name, .list ((r.get rule).toList.map Scalar.toValue))

theorem Typed.fieldsBy_eq {r : RestrictionSet} (h : r.Typed) (rules : List Rule) :
    r.fieldsBy rules = .ok (r.listing rules) := by
  rw [fieldsBy, h.listedBy_eq, ok_bind, List.map_map]
  rfl

theorem Typed.toFields_eq {r : RestrictionSet} (h : r.Typed) :
    r.toFields = .ok (r.listing Rule.all) := h.fieldsBy_eq Rule.all

theorem Typed.listable {r : RestrictionSet} (h : r.Typed) : r.Listable := ⟨_, h.listed_eq⟩

/-- Whether a value suits a rule: a text suits the tags, a whole number all others. -/
def Suits (rule : Rule) (a : Scalar) : Prop :=
  if rule = .tags then ∃ s, a = .text s else ∃ n, a = .int n

theorem suits_int {rule : Rule} (h : rule ≠ .tags) (n : Int) : Suits rule (.int n) := by
  simp [Suits, h]

theorem suits_text (s : String) : Suits .tags (.text s) := ⟨s, rfl⟩

theorem mem_of_mem_ofRules {rules : List (Rule × Scalar)} {rule : Rule} {a : Scalar}
    (ha : a ∈ (ofRules rules).get rule) : (rule, a) ∈ rules := by
  rw [ofRules, get_ofSets] at ha
  simpa using OrderedList.mem_of_mem_ofList ha

theorem typed_ofRules {rules : List (Rule × Scalar)} (h : ∀ x ∈ rules, Suits x.1 x.2) :
    (ofRules rules).Typed := by
  have suits : ∀ rule, ∀ a ∈ (ofRules rules).get rule, Suits rule a :=
    fun _ _ ha => h _ (mem_of_mem_ofRules ha)
  refine ⟨fun rule ht a ha => ?_, fun a ha => suits .tags a ha⟩
  simpa [Suits, ht] using suits rule a ha

end RestrictionSet

open RestrictionSet (Suits suits_int suits_text mem_of_mem_ofRules typed_ofRules)

/-! ## Tokens -/

namespace Token

theorem codes_ne_tags : ∀ code ∈ codes, code.2 ≠ Rule.tags := by decide

theorem suits_classify {token : String} {x : Rule × Scalar} (h : classify token = .ok x) :
    Suits x.1 x.2 := by
  simp only [classify] at h
  split at h
  · rename_i letters rule found
    split at h
    · cases h
      exact suits_int (codes_ne_tags _ (List.mem_of_find?_eq_some found)) _
    · cases h
  · cases h
    exact suits_text _

theorem typed_parse {tokens : List String} {r : RestrictionSet} (h : parse tokens = .ok r) :
    r.Typed := by
  obtain ⟨rules, hrules, h⟩ := bind_eq_ok.1 h
  cases h
  exact typed_ofRules (forall_of_mapM_eq_ok (P := fun x => Suits x.1 x.2)
    (fun _ _ => suits_classify) hrules)

end Token

/-! ## Structured declarations -/

namespace Structured

/-- What an element of a list declares for a rule: the id that it is or that it spells, or the tag
that it is, without decoration. -/
inductive Declares (element : Value) : Rule → Scalar → Prop
  | id {rule : Rule} {n : Int} (hrule : rule ≠ .tags) (h : decodeId element = .ok (.int n)) :
      Declares element rule (.int n)
  | tag {s : String} (h : element = .text s) :
      Declares element .tags (.text (Token.stripMarker s))

theorem Declares.suits {element : Value} {rule : Rule} {a : Scalar} (h : Declares element rule a) :
    Suits rule a := by
  cases h with
  | id hrule => exact suits_int hrule _
  | tag => exact suits_text _

theorem decodeId_eq_ok {element : Value} {a : Scalar} (h : decodeId element = .ok a) :
    ∃ n, a = .int n := by
  unfold decodeId at h
  split at h
  · cases h
    exact ⟨_, rfl⟩
  · split at h <;> cases h
    exact ⟨_, rfl⟩
  · cases h

theorem decodeTag_eq_ok {element : Value} {a : Scalar} (h : decodeTag element = .ok (some a)) :
    ∃ s, element = .text s ∧ a = .text (Token.stripMarker s) := by
  unfold decodeTag at h
  split at h <;> cases h
  exact ⟨_, rfl, rfl⟩

/-- What a tag field adds are the tags that the elements of its list give. -/
theorem decodeTags_eq_ok {name : String} {raw : Value} {tags : List Scalar}
    (h : decodeTags name raw = .ok tags) : ∃ items, decodeList raw = .ok items ∧
      ∀ a ∈ tags, ∃ element ∈ items, decodeTag element = .ok (some a) := by
  obtain ⟨found, hfound, h⟩ := bind_eq_ok.1 h
  obtain ⟨items, hitems, hfound⟩ := bind_eq_ok.1 (mapError_eq_ok.1 hfound)
  refine ⟨items, hitems, fun a ha => ?_⟩
  split at h
  · cases h
  · cases h
    obtain ⟨b, hb, rfl⟩ := List.mem_filterMap.1 ha
    exact (mem_of_mapM_eq_ok hfound).1 hb

/-- What a field adds is declared by the elements of its list. -/
theorem declares_of_decodeField {rule : Rule} {name : String} {raw : Value} {scalars : List Scalar}
    (h : decodeField rule name raw = .ok scalars) : ∃ items, decodeList raw = .ok items ∧
      ∀ a ∈ scalars, ∃ element ∈ items, Declares element rule a := by
  unfold decodeField at h
  split at h
  · rename_i hrule
    subst hrule
    obtain ⟨items, hitems, htags⟩ := decodeTags_eq_ok h
    refine ⟨items, hitems, fun a ha => ?_⟩
    obtain ⟨element, helement, hdecode⟩ := htags a ha
    obtain ⟨s, hs, rfl⟩ := decodeTag_eq_ok hdecode
    exact ⟨element, helement, .tag hs⟩
  · rename_i hrule
    obtain ⟨items, hitems, hids⟩ := bind_eq_ok.1 (mapError_eq_ok.1 h)
    refine ⟨items, hitems, fun a ha => ?_⟩
    obtain ⟨element, helement, hdecode⟩ := (mem_of_mapM_eq_ok hids).1 ha
    obtain ⟨n, rfl⟩ := decodeId_eq_ok hdecode
    exact ⟨element, helement, .id hrule hdecode⟩

theorem get?_of_find? {fields : Fields} {rule : Rule} {authored name : String} {raw : Value}
    (h : find? fields rule authored = some (name, raw)) : fields.get? name = some raw := by
  unfold find? at h
  split at h
  · rename_i hget
    cases h
    exact hget
  · obtain ⟨v, hget, heq⟩ := Option.map_eq_some_iff.1 h
    cases heq
    exact hget

/-- What a rule is given is declared by the elements of the list in its field. -/
theorem declares_of_decodeRule {fields : Fields} {rule : Rule} {authored : String}
    {scalars : List Scalar} (h : decodeRule fields rule authored = .ok scalars) {a : Scalar}
    (ha : a ∈ scalars) : ∃ name raw items, fields.get? name = some raw ∧
      decodeList raw = .ok items ∧ ∃ element ∈ items, Declares element rule a := by
  unfold decodeRule at h
  split at h
  · cases h
    cases ha
  · rename_i name raw hfind
    obtain ⟨items, hitems, hdeclares⟩ := declares_of_decodeField h
    exact ⟨name, raw, items, get?_of_find? hfind, hitems, hdeclares a ha⟩

/-- What fields add is declared by the elements of the list in one of them. -/
theorem declares_of_decodeFields {fields : Fields} {rules : List (Rule × String)}
    {found : List (Rule × Scalar)} (h : decodeFields fields rules = .ok found) {rule : Rule}
    {a : Scalar} (ha : (rule, a) ∈ found) : ∃ name raw items, fields.get? name = some raw ∧
      decodeList raw = .ok items ∧ ∃ element ∈ items, Declares element rule a := by
  induction rules generalizing found with
  | nil =>
    cases h
    cases ha
  | cons first rules ih =>
    obtain ⟨other, authored⟩ := first
    obtain ⟨scalars, hscalars, h⟩ := bind_eq_ok.1 h
    obtain ⟨rest, hrest, h⟩ := bind_eq_ok.1 h
    cases h
    rcases List.mem_append.1 ha with ha | ha
    · obtain ⟨b, hb, heq⟩ := List.mem_map.1 ha
      cases heq
      exact declares_of_decodeRule hscalars hb
    · exact ih hrest ha

/-! ### Objects of fields -/

theorem isTooDeep_iff {fields : Fields} :
    isTooDeep fields = true ↔ ∃ rule authored, (rule, authored) ∈ authoring ∧
      decodeRule fields rule authored = .error (.value .tooDeep) := by
  simp only [isTooDeep, List.any_eq_true, Prod.exists]
  refine exists_congr fun rule => exists_congr fun authored => and_congr_right fun _ => ?_
  constructor
  · intro h
    split at h
    next heq => exact heq
    next => cases h
  · intro h
    rw [h]

/-- Where all fields are decoded, each of them is. -/
theorem exists_of_decodeFields {fields : Fields} {rules : List (Rule × String)}
    {found : List (Rule × Scalar)} (h : decodeFields fields rules = .ok found) :
    ∀ rule authored, (rule, authored) ∈ rules →
      ∃ scalars, decodeRule fields rule authored = .ok scalars := by
  induction rules generalizing found with
  | nil => nofun
  | cons first rules ih =>
    obtain ⟨other, known⟩ := first
    obtain ⟨scalars, hscalars, h⟩ := bind_eq_ok.1 h
    obtain ⟨rest, hrest, -⟩ := bind_eq_ok.1 h
    intro rule authored hmem
    rcases List.mem_cons.1 hmem with heq | hmem
    · cases heq
      exact ⟨scalars, hscalars⟩
    · exact ih hrest rule authored hmem

/-- What an object gives unless one of its fields is nested too deep. -/
theorem parse_object {fields : Fields} (h : isTooDeep fields = false) :
    parse (.object fields) = RestrictionSet.ofRules <$> decodeFields fields authoring := by
  rw [parse, h, if_neg Bool.false_ne_true]
  cases decodeFields fields authoring <;> rfl

theorem parse_of_isTooDeep {fields : Fields} (h : isTooDeep fields = true) :
    parse (.object fields) = .error (.value .tooDeep) := if_pos h

/-- An object as the argument of a plugin command is the declaration itself. -/
theorem parseArguments_object (fields : Fields) :
    parseArguments (.object [(argument, .object fields)]) = parse (.object fields) := rfl

/-- An object gives a restriction set if all its fields are decoded. -/
theorem parse_eq_ok_iff {fields : Fields} {r : RestrictionSet} :
    parse (.object fields) = .ok r ↔
      ∃ found, decodeFields fields authoring = .ok found ∧ RestrictionSet.ofRules found = r := by
  cases hdeep : isTooDeep fields with
  | false => rw [parse_object hdeep, map_eq_ok]
  | true =>
    rw [parse_of_isTooDeep hdeep]
    refine iff_of_false nofun ?_
    rintro ⟨found, hfound, -⟩
    obtain ⟨rule, authored, hmem, hfield⟩ := isTooDeep_iff.1 hdeep
    obtain ⟨scalars, hscalars⟩ := exists_of_decodeFields hfound rule authored hmem
    cases hfield.symm.trans hscalars

/-- What an object of fields declares is declared by the elements of the list in one of them. -/
theorem declares_of_mem_parse {fields : Fields} {r : RestrictionSet}
    (h : parse (.object fields) = .ok r) {rule : Rule} {a : Scalar} (ha : a ∈ r.get rule) :
    ∃ name raw items, fields.get? name = some raw ∧ decodeList raw = .ok items ∧
      ∃ element ∈ items, Declares element rule a := by
  obtain ⟨found, hfound, rfl⟩ := parse_eq_ok_iff.1 h
  exact declares_of_decodeFields hfound (mem_of_mem_ofRules ha)

theorem typed_parse {fields : Value} {r : RestrictionSet} (h : parse fields = .ok r) :
    r.Typed := by
  cases fields with
  | object fields =>
    obtain ⟨found, hfound, rfl⟩ := parse_eq_ok_iff.1 h
    refine typed_ofRules fun x hx => ?_
    obtain ⟨name, raw, items, -, -, element, -, hdeclares⟩ := declares_of_decodeFields hfound hx
    exact hdeclares.suits
  | _ => cases h

theorem typed_parseArguments {args : Value} {r : RestrictionSet}
    (h : parseArguments args = .ok r) : r.Typed := by
  obtain ⟨raw, -, h⟩ := bind_eq_ok.1 h
  obtain ⟨v, -, h⟩ := bind_eq_ok.1 h
  split at h
  · exact typed_parse h
  · cases h

end Structured
end SellRules
