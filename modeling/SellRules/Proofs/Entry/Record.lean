import SellRules.Entry.Record
import SellRules.Proofs.Json.Limit
import SellRules.Proofs.Restriction.Lookup

/-!
# Entries from records

What a record gives that keeps to its schema (`Record.Describes`): an entry of its kind with a whole
number as id, type ids that can be looked up and an object of markers, so whether a shop buys it
always has an answer. A record that is refused either has no fields to be checked or departs from
its schema (`Record.toEntry_eq_error`).
-/

set_option autoImplicit false

namespace SellRules

open Value (fieldsModest isModest_of_get? itemsModest_iff)

namespace Record

/-! ## The schema -/

theorem Schema.violations_eq_nil_iff {schema : Schema} {fields : Fields} :
    schema.violations fields = [] ↔
      (∀ name ∈ schema.required, ∃ v, fields.get? name = some v) ∧
      ∀ field ∈ schema.fields, ∀ v, fields.get? field.1 = some v →
        field.2.violations field.1 v = [] := by
  rw [Schema.violations, List.append_eq_nil_iff, Schema.missing, Schema.mistyped,
    List.map_eq_nil_iff, List.filter_eq_nil_iff, List.flatMap_eq_nil_iff]
  refine and_congr (forall₂_congr fun name _ => ?_) (forall₂_congr fun field _ => ?_)
  · rw [Option.isNone_iff_eq_none, ← ne_eq, Option.ne_none_iff_exists']
  · cases hget : fields.get? field.1 <;> simp [hget]

theorem isWhole_of_violations {name : String} {v : Value} {least : Nat}
    (h : (FieldType.whole least).violations name v = []) : isWhole v = true := by
  rw [FieldType.violations, List.append_eq_nil_iff] at h
  simpa using h.1

theorem exists_of_text_violations {name : String} {v : Value}
    (h : FieldType.text.violations name v = []) :
    (∃ s, v = .text s) ∨ ∃ codes, v = .unpaired codes := by
  cases v with
  | text s => exact .inl ⟨s, rfl⟩
  | unpaired codes => exact .inr ⟨codes, rfl⟩
  | _ => cases h

/-- What fields have that keep to the schema of a kind, as far as an entry is made from them. -/
structure IsChecked (kind : Kind) (fields : Fields) : Prop where
  id : ∃ v, fields.get? "id" = some v ∧ isWhole v = true
  name : ∃ v, fields.get? "name" = some v ∧ ((∃ s, v = .text s) ∨ ∃ codes, v = .unpaired codes)
  price : ∀ v, fields.get? "price" = some v → isWhole v = true
  typeId : ∃ v, fields.get? (typeField kind) = some v ∧ isWhole v = true
  equipmentTypeId : ∀ v, fields.get? "etypeId" = some v → isWhole v = true

theorem check_eq_ok_iff {kind : Kind} {fields : Fields} :
    check (some kind) (.object fields) = .ok () ↔
      base.violations fields = [] ∧ (own kind).violations fields = [] := by
  have hsorted : violations (some kind) (.object fields) = [] ↔
      base.violations fields ++ (own kind).violations fields = [] := by
    rw [← List.length_eq_zero_iff, ← List.length_eq_zero_iff (l := _ ++ _)]
    simp only [violations, List.length_mergeSort, Option.elim_some]
  rw [← List.append_eq_nil_iff, ← hsorted, check]
  cases violations (some kind) (.object fields) <;> simp

theorem isChecked_of_check {kind : Kind} {fields : Fields}
    (h : check (some kind) (.object fields) = .ok ()) : IsChecked kind fields := by
  obtain ⟨hbase, hown⟩ := check_eq_ok_iff.1 h
  obtain ⟨hrequired, htypes⟩ := Schema.violations_eq_nil_iff.1 hbase
  obtain ⟨hownRequired, hownTypes⟩ := Schema.violations_eq_nil_iff.1 hown
  have hwhole {name : String} {least : Nat} (hfield : (name, .whole least) ∈ base.fields) (v : Value)
      (hv : fields.get? name = some v) : isWhole v = true :=
    isWhole_of_violations (htypes _ hfield v hv)
  have hidField : ("id", FieldType.whole 1) ∈ base.fields := by simp [base]
  have hpriceField : ("price", FieldType.whole 0) ∈ base.fields := by simp [base]
  have hequipmentField : ("etypeId", FieldType.whole 0) ∈ base.fields := by simp [base]
  constructor
  · obtain ⟨v, hv⟩ := hrequired "id" (by simp [base])
    exact ⟨v, hv, hwhole hidField v hv⟩
  · obtain ⟨v, hv⟩ := hrequired "name" (by simp [base])
    exact ⟨v, hv, exists_of_text_violations (htypes ("name", .text) (by simp [base]) v hv)⟩
  · exact hwhole hpriceField
  · obtain ⟨v, hv⟩ := hownRequired (typeField kind) (List.mem_singleton.2 rfl)
    exact ⟨v, hv, isWhole_of_violations (hownTypes _ (List.mem_singleton.2 rfl) v hv)⟩
  · exact hwhole hequipmentField

/-! ## Whole numbers -/

theorem exists_toWhole {v : Value} (h : isWhole v = true) : ∃ n, v.toWhole = .ok n := by
  cases v with
  | int n => exact ⟨n, rfl⟩
  | float x =>
    cases x with
    | finite negative m e => exact ⟨_, rfl⟩
    | _ => cases h
  | _ => cases h

theorem isShown_of_toWhole {v : Value} {n : Int} (h : isWhole v = true) (hv : v.isModest = true)
    (hn : v.toWhole = .ok n) : Number.isShown n = true := by
  cases v with
  | int m =>
    rw [Value.toWhole_int] at hn
    cases hn
    rwa [Value.isModest_int] at hv
  | float x =>
    cases x with
    | finite negative m e =>
      cases hn
      rw [Value.isModest_float, Number.Binary64.isModest, Number.Binary64.truncate?,
        Option.all_some] at hv
      rw [Number.Binary64.truncate?, Option.getD_some]
      exact hv
    | _ => cases h
  | _ => cases h

theorem hasParts_of_isWhole {v : Value} (h : isWhole v = true) : v.hasParts = false := by
  cases v <;> first | rfl | cases h

/-! ## Entries -/

/-- What is known of an entry that a record of a kind describes. -/
structure Describes (kind : Kind) (e : Entry) : Prop where
  kind_eq : e.kind = kind
  id : ∃ n, e.id = .int n
  types : ∀ v ∈ e.typeIds, v.hasParts = false
  markers : ∃ markers, e.markers = .object markers

theorem Describes.plain {kind : Kind} {e : Entry} (h : Describes kind e) : e.Plain := by
  obtain ⟨n, hn⟩ := h.id
  exact List.forall_mem_cons.2 ⟨by rw [hn]; rfl, h.types⟩

theorem Describes.key_eq {kind : Kind} {e : Entry} (h : Describes kind e) :
    ∃ n, e.id = .int n ∧ e.key = .ok ⟨kind, .int n⟩ := by
  obtain ⟨n, hn⟩ := h.id
  refine ⟨n, hn, ?_⟩
  simp only [Entry.key, hn, Scalar.ofValue?, h.kind_eq]

/-- Whether a shop buys an entry from a record has an answer. -/
theorem Describes.exists_buys {kind : Kind} {e : Entry} (h : Describes kind e)
    (r : Option RestrictionSet) : ∃ b, RestrictionSet.buys r e = .ok b := by
  cases r with
  | none => exact ⟨true, rfl⟩
  | some r =>
    obtain ⟨markers, hmarkers⟩ := h.markers
    exact RestrictionSet.exists_allows r h.plain hmarkers

/-- Checked fields describe an entry. If they are modest, its id can be shown. -/
theorem exists_entryOf {kind : Kind} {fields : Fields} (h : IsChecked kind fields) :
    ∃ e, entryOf kind fields = .ok e ∧ Describes kind e ∧
      (fieldsModest fields = true → e.id.isShown = true) := by
  obtain ⟨idValue, hget, hwhole⟩ := h.id
  obtain ⟨n, hn⟩ := exists_toWhole hwhole
  have hprice : ∃ price, ((fields.get? "price").getD (.int 0)).toWhole = .ok price := by
    cases hv : fields.get? "price" with
    | none => exact ⟨0, rfl⟩
    | some v => exact exists_toWhole (h.price v hv)
  obtain ⟨price, hprice⟩ := hprice
  have hown (own : Kind) : Value.hasParts (if kind = own then
      (fields.get? (typeField own)).getD .null else .null) = false := by
    split
    · rename_i heq
      subst heq
      obtain ⟨v, hv, hwhole⟩ := h.typeId
      rw [hv]
      exact hasParts_of_isWhole hwhole
    · rfl
  have hequipment : Value.hasParts (if kind = .item then .null
      else (fields.get? "etypeId").getD .null) = false := by
    split
    · rfl
    · cases hv : fields.get? "etypeId" with
      | none => rfl
      | some v => exact hasParts_of_isWhole (h.equipmentTypeId v hv)
  have hentry : ∃ e, entryOf kind fields = .ok e ∧ e.kind = kind ∧ e.id = .int n ∧
      (∀ v ∈ e.typeIds, v.hasParts = false) ∧ e.markers = .object (markersOf fields) := by
    simp only [entryOf, hget, Option.getD_some, hn, hprice, ok_bind]
    refine ⟨_, rfl, rfl, rfl, ?_, rfl⟩
    simp only [Entry.typeIds, List.forall_mem_cons]
    exact ⟨hown .item, hown .weapon, hown .armor, hequipment, by simp⟩
  obtain ⟨e, he, hkind, hid, htypes, hmarkers⟩ := hentry
  refine ⟨e, he, ⟨hkind, ⟨n, hid⟩, htypes, ⟨_, hmarkers⟩⟩, fun hmodest => ?_⟩
  rw [hid, Value.isShown_int]
  exact isShown_of_toWhole hwhole (isModest_of_get? hmodest hget) hn

/-! ## Fields -/

/-- The values that are shown when a field departs from its type are the value of that field. -/
theorem shown_of_mem_violations {name : String} {v : Value} {type : FieldType} {found : Violation}
    (h : found ∈ type.violations name v) : found.shown = [v] := by
  cases type with
  | whole least =>
    rw [FieldType.violations, List.mem_append] at h
    rcases h with h | h
    · split at h
      · cases h
      · rw [List.mem_singleton.1 h, Violation.shown]
    · split at h
      · rw [List.mem_singleton.1 h, Violation.shown]
      · cases h
  | text =>
    unfold FieldType.violations at h
    dsimp only at h
    split at h
    · cases h
    · cases h
    · rw [List.mem_singleton.1 h, Violation.shown]
  | object =>
    unfold FieldType.violations at h
    dsimp only at h
    split at h
    · cases h
    · rw [List.mem_singleton.1 h, Violation.shown]

theorem isShown_of_mem_violations {schema : Schema} {fields : Fields}
    (hfields : fieldsModest fields = true) {found : Violation}
    (h : found ∈ schema.violations fields) : found.shown.all Value.isShown = true := by
  rcases List.mem_append.1 h with h | h
  · obtain ⟨name, -, rfl⟩ := List.mem_map.1 h
    rfl
  · obtain ⟨⟨name, type⟩, -, h⟩ := List.mem_flatMap.1 h
    dsimp only at h
    cases hget : fields.get? name with
    | none => simp [hget] at h
    | some v =>
      rw [hget] at h
      rw [shown_of_mem_violations h, List.all_cons,
        Value.isShown_of_isModest (isModest_of_get? hfields hget)]
      rfl

/-- The violations of modest fields can be shown. -/
theorem violations_shown {kind : Kind} {fields : Fields} (hfields : fieldsModest fields = true) :
    ((violations (some kind) (.object fields)).flatMap Violation.shown).all Value.isShown =
      true := by
  rw [List.all_flatMap, List.all_eq_true]
  intro found hfound
  have hmem := List.mem_mergeSort.1 hfound
  rcases List.mem_append.1 hmem with hmem | hmem
  · exact isShown_of_mem_violations hfields hmem
  · exact isShown_of_mem_violations hfields hmem

/-- An entry that was read is as its record describes it. -/
theorem describes_of_toEntry {kind : Kind} {record : Value} {e : Entry}
    (h : toEntry kind record = .ok e) : Describes kind e := by
  obtain ⟨fields, -, h⟩ := bind_eq_ok.1 h
  obtain ⟨⟨⟩, hcheck, h⟩ := bind_eq_ok.1 h
  obtain ⟨found, hfound, hdescribes, -⟩ := exists_entryOf (isChecked_of_check hcheck)
  cases hfound.symm.trans h
  exact hdescribes

end Record
end SellRules
