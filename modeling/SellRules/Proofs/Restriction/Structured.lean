import SellRules.Proofs.Json.RoundTrip
import SellRules.Proofs.Restriction.Token
import SellRules.Proofs.Value.Levels
import SellRules.Restriction.Structured

/-!
# Structured declarations of given sets

Fields that give each set of a restriction set as a list, ids as numbers or as decimal texts and
tags without decoration, declare that restriction set (`Structured.parse_of_holds`). For a plain one
the lists may be given as JSON texts, and the object of the fields as the JSON text of an argument
(`Structured.parseArguments_of_spells`).
-/

set_option autoImplicit false

namespace SellRules

open Number (IsNumeral)

/-! ## Blank texts -/

namespace Json

section

variable {most limit : Nat} {c : Char} (hc : Text.isBlank c = true) (cs : List Char)
include hc

theorem readNumber_of_isBlank :
    readNumber most (c :: cs) = .error (.malformed .expectedValue (c :: cs)) := by
  have hdigit : Text.isAsciiDigit c = false := by
    by_contra hdigit
    have hblank := Number.isBlank_of_isAsciiDigit (Bool.eq_true_of_not_eq_false hdigit)
    exact Text.ne_of_isBlank hc hblank rfl
  have hsign : c ≠ '-' := Text.ne_of_isBlank hc (by decide)
  have hzero : c ≠ '0' := Text.ne_of_isBlank hc (by decide)
  unfold readNumber
  simp [takeWhole, hsign, hzero, hdigit]

theorem readValue_of_isBlank (code : List Char → Nat) (room : Nat) :
    readValue most code (limit + 1) room (c :: cs) =
      .error (.malformed .expectedValue (c :: cs)) := by
  have hne {d : Char} (hd : Text.isBlank d = false) : d ≠ c := (Text.ne_of_isBlank hc hd).symm
  have hconstant : readConstant? (c :: cs) = none := by
    simp [readConstant?, constants, hne (d := 'n') (by decide), hne (d := 't') (by decide),
      hne (d := 'f') (by decide), hne (d := 'N') (by decide), hne (d := 'I') (by decide),
      hne (d := '-') (by decide)]
  rw [readValue_other (hne (by decide)).symm (hne (by decide)).symm (hne (by decide)).symm,
    hconstant]
  exact readNumber_of_isBlank hc cs

end

theorem readValue_nil (most : Nat) (code : List Char → Nat) (limit room : Nat) :
    readValue most code (limit + 1) room [] = .error (.malformed .expectedValue []) := by
  rw [readValue.eq_def]
  rfl

/-- A blank text is malformed. -/
theorem read_of_isBlank {s : String} (h : ∀ c ∈ s.toList, Text.isBlank c = true) :
    ∃ fault position, read s = .error (.malformed fault position) := by
  have hvalue : ∃ rest, readValue Number.maxDigits headCode (2 * s.toList.length + 2)
      Value.maxLevels (skipSpace s.toList) = .error (.malformed .expectedValue rest) := by
    cases hskip : skipSpace s.toList with
    | nil => exact ⟨_, readValue_nil _ _ _ _⟩
    | cons c cs =>
      have hc : c ∈ skipSpace s.toList := by simp [hskip]
      exact ⟨_, readValue_of_isBlank (h c ((List.dropWhile_sublist isSpace).mem hc)) cs _ _⟩
  obtain ⟨rest, hrest⟩ := hvalue
  have hall : ∃ fault rest, readAll Number.maxDigits headCode Value.maxLevels s.toList =
      .error (.malformed fault rest) := by
    unfold readAll
    split
    · exact ⟨_, _, rfl⟩
    · exact ⟨_, rest, by rw [hrest]⟩
  obtain ⟨fault, rest, hall⟩ := hall
  exact ⟨fault, s.toList.length - rest.length, by rw [read, readUpTo, readWithin, hall]; rfl⟩

/-- A text that is read, or is nested too deep, is not blank. -/
theorem trim_ne_nil_of_read {s : String} {r : Except ReadError Value} (h : read s = r)
    (hr : ∀ fault position, r ≠ .error (.malformed fault position)) :
    Text.trim s.toList ≠ [] := by
  intro htrim
  obtain ⟨fault, position, hread⟩ := read_of_isBlank (Text.trim_eq_nil_iff.1 htrim)
  exact hr fault position (h.symm.trans hread)

end Json

theorem Scalar.levels_toValue (a : Scalar) : a.toValue.levels = 0 := by cases a <;> rfl

namespace RestrictionSet

/-- All members can stand in a JSON text. -/
def Writable (r : RestrictionSet) : Prop := ∀ rule, ∀ a ∈ r.get rule, a.toValue.isJson = true

theorem Plain.writable {r : RestrictionSet} (hr : r.Plain) : r.Writable := by
  intro rule a ha
  by_cases hrule : rule = .tags
  · subst hrule
    obtain ⟨s, rfl, -⟩ := hr.tags a ha
    rfl
  · obtain ⟨n, rfl, -, hshown⟩ := hr.ids rule hrule a ha
    exact (Value.isJson_int n).trans hshown

end RestrictionSet

namespace Structured

open RestrictionSet (ofRules_eq)

/-- The elements for a value of a rule: the number of an id or a decimal text for it, or the text of
a tag. -/
inductive Gives : Value → Rule → Scalar → Prop
  | number {rule : Rule} (hrule : rule ≠ .tags) (n : Int) : Gives (.int n) rule (.int n)
  | numeral {rule : Rule} {digits : List Char} {n : Int} (hrule : rule ≠ .tags)
      (hn : IsNumeral digits n) : Gives (.text (String.ofList digits)) rule (.int n)
  | tag (s : String) : Gives (.text s) .tags (.text s)

/-- Elements for all members of a set and for nothing else. -/
structure Lists (items : List Value) (rule : Rule) (s : ScalarSet) : Prop where
  members : ∀ v ∈ items, ∃ a ∈ s, Gives v rule a
  all : ∀ a ∈ s, ∃ v ∈ items, Gives v rule a

/-- The fields give each set of a restriction set, under its authoring name, as the JSON text of a
list. -/
def Spells (fields : Fields) (r : RestrictionSet) : Prop :=
  ∀ rule authored, (rule, authored) ∈ authoring → ∃ text items,
    fields.get? authored = some (.text text) ∧ Json.read text = .ok (.list items) ∧
      Lists items rule (r.get rule)

/-! ## Elements -/

theorem decodeId_of_gives {v : Value} {rule : Rule} {a : Scalar} (hrule : rule ≠ .tags)
    (h : Gives v rule a) : decodeId v = .ok a := by
  cases h with
  | number => rfl
  | numeral _ hn =>
    simp only [decodeId, String.toList_ofList, Text.trim_eq_self hn.not_blank, hn.readPlain_eq]
  | tag => exact absurd rfl hrule

theorem decodeTag_of_gives {v : Value} {a : Scalar} {r : RestrictionSet} (hr : r.Bare)
    (ha : a ∈ r.get .tags) (h : Gives v .tags a) : decodeTag v = .ok (some a) := by
  cases h with
  | number hrule | numeral hrule => exact absurd rfl hrule
  | tag s => simp only [decodeTag, hr s ha]

/-- If the elements for members of a set are decoded to them, a list of the set is decoded to its
members. -/
theorem mapM_of_lists {β : Type} {decode : Value → Except FieldFault β} {f : Scalar → β}
    (hf : Function.Injective f) {items : List Value} {rule : Rule} {s : ScalarSet}
    (h : Lists items rule s) (hdecode : ∀ v a, a ∈ s → Gives v rule a → decode v = .ok (f a)) :
    ∃ found, items.mapM decode = .ok found ∧ (∀ b ∈ found, ∃ a, b = f a) ∧
      ∀ a, f a ∈ found ↔ a ∈ s := by
  obtain ⟨found, hfound, hmem⟩ := exists_mapM_eq_ok (f := decode) (l := items) fun v hv => by
    obtain ⟨a, ha, hgives⟩ := h.members v hv
    exact ⟨_, hdecode v a ha hgives⟩
  refine ⟨found, hfound, fun b hb => ?_, fun a => ?_⟩
  · obtain ⟨v, hv, hb⟩ := (hmem b).1 hb
    obtain ⟨a, ha, hgives⟩ := h.members v hv
    exact ⟨a, Except.ok.inj (hb.symm.trans (hdecode v a ha hgives))⟩
  · rw [hmem]
    constructor
    · rintro ⟨v, hv, hok⟩
      obtain ⟨b, hb, hgives⟩ := h.members v hv
      rw [hf (Except.ok.inj (hok.symm.trans (hdecode v b hb hgives)))]
      exact hb
    · intro ha
      obtain ⟨v, hv, hgives⟩ := h.all a ha
      exact ⟨v, hv, hdecode v a ha hgives⟩

/-! ## Fields -/

theorem listOfRead_eq_ok_iff {raw : Value} {r : Except Json.ReadError Value} {items : List Value} :
    listOfRead raw r = .ok items ↔ r = .ok (.list items) := by
  constructor
  · intro h
    unfold listOfRead at h
    split at h <;> cases h
    rfl
  · rintro rfl
    rfl

theorem listOfRead_eq_tooDeep_iff {raw : Value} {r : Except Json.ReadError Value} :
    listOfRead raw r = .error .tooDeep ↔ r = .error .tooDeep := by
  constructor
  · intro h
    unfold listOfRead at h
    split at h <;> cases h
    rfl
  · rintro rfl
    rfl

/-- A text is decoded as it is read, unless it is malformed. -/
theorem decodeList_text {text : String} {r : Except Json.ReadError Value} (h : Json.read text = r)
    (hr : ∀ fault position, r ≠ .error (.malformed fault position)) :
    decodeList (.text text) = listOfRead (.text text) r := by
  have hblank : (Text.trim text.toList).isEmpty = false := by
    rw [List.isEmpty_eq_false_iff]
    exact Json.trim_ne_nil_of_read h hr
  simp only [decodeList, hblank, h, Bool.false_eq_true, ↓reduceIte]

theorem decodeList_of_read {text : String} {items : List Value}
    (h : Json.read text = .ok (.list items)) : decodeList (.text text) = .ok items :=
  decodeList_text h nofun

variable {r : RestrictionSet} {fields : Fields}

theorem decodeField_of_lists (hr : r.Bare) {rule : Rule} {raw : Value} {items : List Value}
    (hlist : decodeList raw = .ok items) (h : Lists items rule (r.get rule)) (name : String) :
    ∃ scalars, decodeField rule name raw = .ok scalars ∧ ∀ a, a ∈ scalars ↔ a ∈ r.get rule := by
  by_cases hrule : rule = .tags
  · subst hrule
    obtain ⟨found, hfound, hsome, hmem⟩ := mapM_of_lists (Option.some_injective _) h
      fun v a ha => decodeTag_of_gives hr ha
    have hbroken : found.findIdx? (·.isNone) = none := by
      rw [List.findIdx?_eq_none_iff]
      intro b hb
      obtain ⟨a, rfl⟩ := hsome b hb
      rfl
    refine ⟨found.filterMap id, ?_, fun a => ?_⟩
    · rw [decodeField, if_pos rfl, decodeTags, hlist]
      simp only [Except.bind, hfound, Except.mapError, ok_bind, hbroken]
      rfl
    · rw [List.mem_filterMap, ← hmem]
      simp
  · obtain ⟨found, hfound, -, hmem⟩ := mapM_of_lists (f := id) Function.injective_id h
      fun v a ha => decodeId_of_gives hrule
    refine ⟨found, ?_, hmem⟩
    rw [decodeField, if_neg hrule, hlist]
    simp only [Except.bind, hfound, Except.mapError]

/-- The fields give each set of a restriction set, under either name, as a list or the JSON text of
one. -/
def Holds (fields : Fields) (r : RestrictionSet) : Prop :=
  ∀ rule authored, (rule, authored) ∈ authoring → ∃ name raw items,
    find? fields rule authored = some (name, raw) ∧ decodeList raw = .ok items ∧
      Lists items rule (r.get rule)

theorem holds_of_spells (h : Spells fields r) : Holds fields r := by
  intro rule authored hrule
  obtain ⟨text, items, hget, hread, hlists⟩ := h rule authored hrule
  exact ⟨authored, .text text, items, by simp only [find?, hget], decodeList_of_read hread, hlists⟩

/-- The fields of some rules add the members of the sets of these rules. -/
theorem decodeFields_of_holds (hr : r.Bare) (h : Holds fields r) {rules : List (Rule × String)}
    (hrules : ∀ x ∈ rules, x ∈ authoring) : ∃ found, decodeFields fields rules = .ok found ∧
      ∀ rule a, (rule, a) ∈ found ↔ rule ∈ rules.map Prod.fst ∧ a ∈ r.get rule := by
  induction rules with
  | nil => exact ⟨[], rfl, by simp⟩
  | cons x rules ih =>
    obtain ⟨rule, authored⟩ := x
    obtain ⟨rest, hrest, hmemRest⟩ := ih fun x hx => hrules x (by simp [hx])
    obtain ⟨name, raw, items, hfind, hlist, hlists⟩ := h rule authored (hrules _ (by simp))
    obtain ⟨scalars, hscalars, hmem⟩ := decodeField_of_lists hr hlist hlists name
    refine ⟨scalars.map (rule, ·) ++ rest, ?_, fun other a => ?_⟩
    · simp only [decodeFields, decodeRule, hfind, hscalars, ok_bind, hrest]
      rfl
    · rw [List.mem_append, List.mem_map, hmemRest, List.map_cons, List.mem_cons, or_and_right]
      refine or_congr_left ⟨?_, ?_⟩
      · rintro ⟨b, hb, hpair⟩
        obtain ⟨rfl, rfl⟩ := Prod.mk.inj hpair
        exact ⟨rfl, (hmem b).1 hb⟩
      · rintro ⟨rfl, ha⟩
        exact ⟨a, (hmem a).2 ha, rfl⟩

theorem mem_authoring (rule : Rule) : rule ∈ authoring.map Prod.fst := by cases rule <;> decide

/-! ## Declarations -/

/-- Fields that give the sets of a restriction set without decoration declare it. -/
theorem parse_of_holds (hr : r.Bare) (h : Holds fields r) : parse (.object fields) = .ok r := by
  obtain ⟨found, hfound, hmem⟩ := decodeFields_of_holds hr h fun x hx => hx
  have hset : RestrictionSet.ofRules found = r := ofRules_eq fun rule a => by
    rw [hmem, and_iff_right (mem_authoring rule)]
  exact parse_eq_ok_iff.2 ⟨found, hfound, hset⟩

theorem parse_of_spells (hr : r.Plain) (h : Spells fields r) : parse (.object fields) = .ok r :=
  parse_of_holds hr.bare (holds_of_spells h)

/-- A plain restriction set is declared by the JSON text of its fields. -/
theorem parseArguments_of_spells (hr : r.Plain) (h : Spells fields r) {text : String}
    (hread : Json.read text = .ok (.object fields)) {args : Fields}
    (hargs : args.get? argument = some (.text text)) : parseArguments (.object args) = .ok r := by
  rw [← parse_of_spells hr h]
  simp only [parseArguments, argumentOf, hargs, ok_bind, decodeObject, Json.readText?, hread]

/-! ## Every plain set has fields -/

/-- The sets of a restriction set as the JSON texts of lists, under their authoring names. -/
def fieldsOf (layout : Json.Layout) (r : RestrictionSet) : Fields :=
  authoring.map fun (rule, authored) =>
    (authored, .text (Json.write layout (.list ((r.get rule).toList.map Scalar.toValue))))

theorem gives_toValue (hr : r.Typed) {rule : Rule} {a : Scalar} (ha : a ∈ r.get rule) :
    Gives a.toValue rule a := by
  by_cases hrule : rule = .tags
  · subst hrule
    obtain ⟨s, rfl⟩ := hr.tags a ha
    exact .tag s
  · obtain ⟨n, rfl⟩ := hr.ids rule hrule a ha
    exact .number hrule n

theorem lists_toValue (hr : r.Typed) (rule : Rule) :
    Lists ((r.get rule).toList.map Scalar.toValue) rule (r.get rule) where
  members v hv := by
    obtain ⟨a, ha, rfl⟩ := List.mem_map.1 hv
    exact ⟨a, ha, gives_toValue hr ha⟩
  all a ha := ⟨a.toValue, List.mem_map_of_mem ha, gives_toValue hr ha⟩

theorem get?_fieldsOf (layout : Json.Layout) (r : RestrictionSet) {rule : Rule} {authored : String}
    (h : (rule, authored) ∈ authoring) : (fieldsOf layout r).get? authored =
      some (.text (Json.write layout (.list ((r.get rule).toList.map Scalar.toValue)))) := by
  simp only [authoring, List.mem_cons, Prod.mk.injEq, List.not_mem_nil, or_false] at h
  rcases h with ⟨rfl, rfl⟩ | ⟨rfl, rfl⟩ | ⟨rfl, rfl⟩ | ⟨rfl, rfl⟩ | ⟨rfl, rfl⟩ | ⟨rfl, rfl⟩ |
    ⟨rfl, rfl⟩ | ⟨rfl, rfl⟩ <;> rfl

/-- The list of a set whose members can stand in a JSON text can be written, and it is one level. -/
theorem isWritable_toValue (hr : r.Writable) (rule : Rule) :
    (Value.list ((r.get rule).toList.map Scalar.toValue)).isWritable = true ∧
      (Value.list ((r.get rule).toList.map Scalar.toValue)).levels ≤ 1 := by
  rw [Value.isWritable, Value.levels, Value.itemsWritable_iff]
  constructor
  · intro v hv
    obtain ⟨a, ha, rfl⟩ := List.mem_map.1 hv
    exact (Value.isJson_iff.1 (hr rule a ha)).1
  · refine Nat.succ_le_succ (Value.itemsLevels_le_iff.2 fun v hv => ?_)
    obtain ⟨a, -, rfl⟩ := List.mem_map.1 hv
    exact (Scalar.levels_toValue a).le

theorem isJson_toValue (hr : r.Writable) (rule : Rule) :
    (Value.list ((r.get rule).toList.map Scalar.toValue)).isJson = true := by
  obtain ⟨hwritable, hlevels⟩ := isWritable_toValue hr rule
  exact Value.isJson_iff.2 ⟨hwritable, hlevels.trans (by decide)⟩

theorem spells_fieldsOf (hr : r.Plain) (layout : Json.Layout) : Spells (fieldsOf layout r) r :=
  fun rule _ hrule => ⟨_, _, get?_fieldsOf layout r hrule,
    Json.read_write layout (isJson_toValue hr.writable rule), lists_toValue hr.typed rule⟩

theorem isJson_fieldsOf (layout : Json.Layout) (r : RestrictionSet) :
    (Value.object (fieldsOf layout r)).isJson = true := rfl

end Structured
end SellRules
