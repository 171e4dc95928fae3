import Mathlib.Data.List.Nodup
import SellRules.Proofs.Entry.OwnRules
import SellRules.Proofs.Number.Rounding

/-!
# The schema of a record

Which records keep to the schema of their kind (`Record.Conforms`), and how the others depart from
it (`Record.Departs`). The check reports every departure once, those of the record itself first and
the others by the field they stand at; a record that passes describes an entry. In records from JSON
texts all departures can be shown.
-/

set_option autoImplicit false

namespace SellRules

open Number (Binary64 withSign)

/-! ## Whole numbers and bounds -/

/-- A value that is a whole number as data: one without a point, or one of double precision without
a fraction. Truth values are none. -/
inductive Value.IsInteger : Value → Int → Prop
  | int (n : Int) : IsInteger (.int n) n
  | float {negative : Bool} {m : Nat} {e : Int} (h : m = 0 ∨ 0 ≤ e) :
    IsInteger (.float (.finite negative m e)) (withSign negative (m * 2 ^ e.toNat))

/-- A value that is a number below a bound. -/
inductive Value.IsBelow (least : Nat) : Value → Prop
  | int {n : Int} (h : n < least) : IsBelow least (.int n)
  | finite {negative : Bool} {m : Nat} {e : Int}
    (h : Binary64.units negative m e < Binary64.unitsOfInt least) :
    IsBelow least (.float (.finite negative m e))
  | infinite : IsBelow least (.float (.infinite true))

/-- A text, whether its characters pair up or not. -/
inductive Value.IsText : Value → Prop
  | text (s : String) : IsText (.text s)
  | unpaired (codes : List Nat) : IsText (.unpaired codes)

namespace Record

open Value (IsInteger IsBelow IsText)

theorem isWhole_iff {v : Value} : isWhole v = true ↔ ∃ n, IsInteger v n := by
  constructor
  · intro h
    cases v with
    | int n => exact ⟨n, .int n⟩
    | float x =>
      cases x with
      | finite negative m e =>
        refine ⟨_, .float ?_⟩
        simpa [isWhole, Binary64.isWhole] using h
      | _ => cases h
    | _ => cases h
  · rintro ⟨n, hn⟩
    cases hn with
    | int => rfl
    | float h => simpa [isWhole, Binary64.isWhole] using h

theorem toWhole_of_isInteger {v : Value} {n : Int} (h : IsInteger v n) : v.toWhole = .ok n := by
  cases h with
  | int => rfl
  | float h =>
    rename_i negative m e
    rw [Value.toWhole, Binary64.truncate?, Option.getD_some]
    rcases h with rfl | he
    · simp
    · rw [if_pos he]
      rfl

theorem isInteger_iff {v : Value} {n : Int} :
    IsInteger v n ↔ isWhole v = true ∧ v.toWhole = .ok n := by
  constructor
  · intro h
    exact ⟨isWhole_iff.2 ⟨n, h⟩, toWhole_of_isInteger h⟩
  · rintro ⟨hwhole, hn⟩
    obtain ⟨m, hm⟩ := isWhole_iff.1 hwhole
    cases (toWhole_of_isInteger hm).symm.trans hn
    exact hm

/-- A number of double precision without a fraction is counted in units as the whole number. -/
theorem units_of_isInteger {negative : Bool} {m : Nat} {e n : Int}
    (h : IsInteger (.float (.finite negative m e)) n) :
    Binary64.units negative m e = Binary64.unitsOfInt n := by
  obtain ⟨hwhole, hn⟩ := isInteger_iff.1 h
  refine units_of_isWhole hwhole ?_
  rw [← Except.ok.inj hn, Binary64.truncate?, Option.getD_some]

/-- An odd significand with a negative exponent leaves a fraction. -/
theorem units_ne_of_odd {m : Nat} {e : Int} (hm : m % 2 = 1) (hleast : Binary64.minExponent ≤ e)
    (he : e < 0) (negative : Bool) (n : Int) :
    Binary64.units negative m e ≠ Binary64.unitsOfInt n := by
  intro h
  have hsize := congrArg Int.natAbs h
  rw [Binary64.units, Binary64.unitsOfInt, Number.natAbs_withSign, Int.natAbs_mul,
    Int.natAbs_natCast] at hsize
  have hexponent : (-Binary64.minExponent).toNat =
      ((-e).toNat - 1) + 1 + (e - Binary64.minExponent).toNat := by
    simp only [Binary64.minExponent] at hleast ⊢
    omega
  have hpow : Nat.pow 2 (-Binary64.minExponent).toNat =
      2 * Nat.pow 2 ((-e).toNat - 1) * Nat.pow 2 (e - Binary64.minExponent).toNat := by
    simp only [Nat.pow_eq, hexponent, pow_add, pow_one]
    ring
  rw [hpow, ← Nat.mul_assoc] at hsize
  have hodd := Nat.eq_of_mul_eq_mul_right (Nat.pow_pos (by decide)) hsize
  rw [Nat.mul_left_comm] at hodd
  omega

/-- A number of double precision in its only form is a whole number as data exactly if it is one in
size. -/
theorem isInteger_float_iff {negative : Bool} {m : Nat} {e n : Int}
    (h : (Binary64.finite negative m e).isCanonical = true) :
    IsInteger (.float (.finite negative m e)) n ↔
      Binary64.units negative m e = Binary64.unitsOfInt n := by
  refine ⟨units_of_isInteger, fun heq => ?_⟩
  have hwhole : m = 0 ∨ 0 ≤ e := by
    by_contra hfraction
    rw [not_or, not_le] at hfraction
    simp only [Binary64.isCanonical, Bool.or_eq_true, Bool.and_eq_true, beq_iff_eq,
      decide_eq_true_eq] at h
    obtain ⟨⟨⟨hodd, -⟩, hleast⟩, -⟩ := h.resolve_left fun hzero => hfraction.1 hzero.1
    exact units_ne_of_odd hodd hleast hfraction.2 negative n heq
  have hn := @IsInteger.float negative m e hwhole
  rwa [Scalar.unitsOfInt_inj.1 ((units_of_isInteger hn).symm.trans heq)] at hn

theorem isBelow_iff {least : Nat} {v : Value} : isBelow least v = true ↔ IsBelow least v := by
  constructor
  · intro h
    cases v with
    | int n => exact .int (of_decide_eq_true h)
    | float x =>
      have hlt : Scalar.order (.float x) (.int least) = .lt := beq_iff_eq.1 h
      cases x with
      | finite negative m e =>
        refine .finite ?_
        simpa [Scalar.order, compareLex, compareOn, Scalar.rank, Scalar.units, Scalar.wording,
          Ordering.then_eq_lt, Std.compare_eq_lt] using hlt
      | infinite negative =>
        cases negative with
        | true => exact .infinite
        | false => cases hlt
      | notANumber => cases hlt
    | _ => cases h
  · intro h
    cases h with
    | int h => exact decide_eq_true h
    | finite h =>
      refine beq_iff_eq.2 ?_
      simpa [Scalar.order, compareLex, compareOn, Scalar.rank, Scalar.units, Scalar.wording,
        Ordering.then_eq_lt, Std.compare_eq_lt] using h
    | infinite => rfl

/-- A whole number in either form lies below a bound if it is less. -/
theorem isBelow_iff_lt {least : Nat} {v : Value} {n : Int} (h : IsInteger v n) :
    IsBelow least v ↔ n < least := by
  cases h with
  | int =>
    constructor
    · intro hbelow
      cases hbelow with
      | int hlt => exact hlt
    · exact .int
  | @float negative m e hwhole =>
    have hunits := units_of_isInteger (@IsInteger.float negative m e hwhole)
    constructor
    · intro hbelow
      cases hbelow with
      | finite hlt => exact Scalar.unitsOfInt_lt.1 (hunits ▸ hlt)
    · intro hlt
      exact .finite (hunits ▸ Scalar.unitsOfInt_lt.2 hlt)

/-! ## Departures -/

/-- How the value of a field departs from its type. -/
inductive FieldType.Departs (name : String) (v : Value) : FieldType → Violation → Prop
  | notWhole {least : Nat} (h : ∀ n, ¬ IsInteger v n) :
    Departs name v (.whole least) (.wrongType (some name) v "integer")
  | tooSmall {least : Nat} (h : IsBelow least v) :
    Departs name v (.whole least) (.tooSmall name v least)
  | notText (h : ¬ IsText v) : Departs name v .text (.wrongType (some name) v "string")
  | notObject (h : ∀ extra, v ≠ .object extra) :
    Departs name v .object (.wrongType (some name) v "object")

/-- How fields depart from a schema. -/
inductive Schema.Departs (schema : Schema) (fields : Fields) : Violation → Prop
  | missing {name : String} (hname : name ∈ schema.required) (h : fields.get? name = none) :
    Departs schema fields (.missing name)
  | field {name : String} {type : FieldType} {v : Value} {x : Violation}
    (htype : (name, type) ∈ schema.fields) (hget : fields.get? name = some v)
    (h : type.Departs name v x) : Departs schema fields x

theorem mem_fieldViolations_iff {name : String} {v : Value} {type : FieldType} {x : Violation} :
    x ∈ type.violations name v ↔ type.Departs name v x := by
  constructor
  · intro h
    cases type with
    | whole least =>
      rcases List.mem_append.1 h with h | h
      · by_cases hwhole : isWhole v = true
        · rw [if_pos hwhole] at h
          cases h
        · rw [if_neg hwhole, List.mem_singleton] at h
          subst h
          exact .notWhole fun n hn => hwhole (isWhole_iff.2 ⟨n, hn⟩)
      · by_cases hbelow : isBelow least v = true
        · rw [if_pos hbelow, List.mem_singleton] at h
          subst h
          exact .tooSmall (isBelow_iff.1 hbelow)
        · rw [if_neg hbelow] at h
          cases h
    | text =>
      cases v <;> cases h <;> first | exact .notText nofun | contradiction
    | object =>
      cases v <;> cases h <;> first | exact .notObject nofun | contradiction
  · intro h
    cases h with
    | notWhole h =>
      rw [FieldType.violations, if_neg fun hwhole => (isWhole_iff.1 hwhole).elim h]
      exact List.mem_append_left _ (List.mem_singleton.2 rfl)
    | tooSmall h =>
      rw [FieldType.violations, if_pos (isBelow_iff.2 h)]
      exact List.mem_append_right _ (List.mem_singleton.2 rfl)
    | notText h =>
      cases v with
      | text s => exact absurd (.text s) h
      | unpaired codes => exact absurd (.unpaired codes) h
      | _ => exact List.mem_singleton.2 rfl
    | notObject h =>
      cases v with
      | object extra => exact absurd rfl (h extra)
      | _ => exact List.mem_singleton.2 rfl

theorem nodup_fieldViolations (name : String) (v : Value) (type : FieldType) :
    (type.violations name v).Nodup := by
  cases type with
  | whole least =>
    rw [FieldType.violations]
    split <;> split <;> simp
  | text =>
    cases v <;> simp [FieldType.violations]
  | object =>
    cases v <;> simp [FieldType.violations]

theorem mem_violations_iff {schema : Schema} {fields : Fields} {x : Violation} :
    x ∈ schema.violations fields ↔ schema.Departs fields x := by
  constructor
  · intro h
    rcases List.mem_append.1 h with h | h
    · obtain ⟨name, hname, rfl⟩ := List.mem_map.1 h
      obtain ⟨hname, hnone⟩ := List.mem_filter.1 hname
      exact .missing hname (Option.isNone_iff_eq_none.1 hnone)
    · obtain ⟨⟨name, type⟩, htype, h⟩ := List.mem_flatMap.1 h
      dsimp only at h
      cases hget : fields.get? name with
      | none =>
        rw [hget] at h
        cases h
      | some v =>
        rw [hget] at h
        exact .field htype hget (mem_fieldViolations_iff.1 h)
  · intro h
    cases h with
    | missing hname hnone =>
      refine List.mem_append_left _ (List.mem_map_of_mem (List.mem_filter.2 ⟨hname, ?_⟩))
      exact Option.isNone_iff_eq_none.2 hnone
    | field htype hget h =>
      refine List.mem_append_right _ (List.mem_flatMap.2 ⟨_, htype, ?_⟩)
      dsimp only
      rw [hget]
      exact mem_fieldViolations_iff.2 h

/-- A field departs at its own place. -/
theorem FieldType.Departs.path_eq {name : String} {v : Value} {type : FieldType} {x : Violation}
    (h : type.Departs name v x) : x.path = [name] := by
  cases h <;> rfl

theorem path_of_mem_mistyped {fields : Fields} {field : String × FieldType} {x : Violation}
    (h : x ∈ (match fields.get? field.1 with
      | some v => field.2.violations field.1 v
      | none => [])) : x.path = [field.1] := by
  split at h
  · exact (mem_fieldViolations_iff.1 h).path_eq
  · cases h

/-- No departure is found twice if no field is named twice. -/
theorem nodup_violations {schema : Schema} (hrequired : schema.required.Nodup)
    (hnames : (schema.fields.map Prod.fst).Nodup) (fields : Fields) :
    (schema.violations fields).Nodup := by
  have hmissing : (schema.missing fields).Nodup :=
    List.Nodup.map (fun _ _ heq => Violation.missing.inj heq) (List.Nodup.filter _ hrequired)
  have hmistyped : (schema.mistyped fields).Nodup := by
    refine List.nodup_flatMap.2 ⟨fun field _ => ?_, ?_⟩
    · dsimp only
      split
      · exact nodup_fieldViolations _ _ _
      · exact List.nodup_nil
    · refine (List.pairwise_map.1 hnames).imp fun {a b} hne x hxa hxb => ?_
      have hpath := (path_of_mem_mistyped hxa).symm.trans (path_of_mem_mistyped hxb)
      exact hne (List.cons.inj hpath).1
  refine List.nodup_append.2 ⟨hmissing, hmistyped, fun x hx y hy heq => ?_⟩
  obtain ⟨name, -, rfl⟩ := List.mem_map.1 hx
  obtain ⟨field, -, hy⟩ := List.mem_flatMap.1 hy
  have hpath := path_of_mem_mistyped hy
  rw [← heq] at hpath
  cases hpath

/-! ## The schema of a kind -/

/-- The schema of a kind as a whole: what all records share and what the kind adds. -/
def fullSchema (kind : Kind) : Schema where
  required := ["id", "name", typeField kind]
  fields := [("id", .whole 1), ("name", .text), ("price", .whole 0), ("etypeId", .whole 0),
    ("note", .text), ("meta", .object), (typeField kind, .whole 0)]

/-- What records of a kind must be like. -/
structure Conforms (kind : Kind) (fields : Fields) : Prop where
  required : ∀ name ∈ ["id", "name", typeField kind], ∃ v, fields.get? name = some v
  id : ∀ v, fields.get? "id" = some v → ∃ n, IsInteger v n ∧ 1 ≤ n
  numbers : ∀ name ∈ ["price", "etypeId", typeField kind], ∀ v, fields.get? name = some v →
    ∃ n, IsInteger v n ∧ 0 ≤ n
  texts : ∀ name ∈ ["name", "note"], ∀ v, fields.get? name = some v → IsText v
  extra : ∀ v, fields.get? "meta" = some v → ∃ extra, v = .object extra

/-- How a record of a kind departs from its schema: a required field that is missing, or a field
that is there and departs from its type. -/
abbrev Departs (kind : Kind) (fields : Fields) : Violation → Prop :=
  (fullSchema kind).Departs fields

theorem fits_whole_iff {name : String} {v : Value} {least : Nat} :
    (∀ x, ¬ (FieldType.whole least).Departs name v x) ↔ ∃ n, IsInteger v n ∧ least ≤ n := by
  constructor
  · intro h
    by_contra hnone
    by_cases hwhole : ∃ n, IsInteger v n
    · obtain ⟨n, hn⟩ := hwhole
      refine h _ (.tooSmall ((isBelow_iff_lt hn).2 ?_))
      by_contra hlow
      exact hnone ⟨n, hn, not_lt.1 hlow⟩
    · exact h _ (.notWhole fun n hn => hwhole ⟨n, hn⟩)
  · rintro ⟨n, hn, hleast⟩ x hx
    cases hx with
    | notWhole h => exact h n hn
    | tooSmall h => exact absurd ((isBelow_iff_lt hn).1 h) (not_lt.2 hleast)

theorem fits_text_iff {name : String} {v : Value} :
    (∀ x, ¬ FieldType.text.Departs name v x) ↔ IsText v := by
  constructor
  · intro h
    by_contra hv
    exact h _ (.notText hv)
  · intro hv x hx
    cases hx with
    | notText h => exact h hv

theorem fits_object_iff {name : String} {v : Value} :
    (∀ x, ¬ FieldType.object.Departs name v x) ↔ ∃ extra, v = .object extra := by
  constructor
  · intro h
    by_contra hv
    exact h _ (.notObject fun extra heq => hv ⟨extra, heq⟩)
  · rintro ⟨extra, rfl⟩ x hx
    cases hx with
    | notObject h => exact h extra rfl

/-- The records that conform are those without departures. -/
theorem conforms_iff {kind : Kind} {fields : Fields} :
    Conforms kind fields ↔ ∀ x, ¬ Departs kind fields x := by
  constructor
  · intro h x hx
    cases hx with
    | missing hname hnone =>
      obtain ⟨v, hv⟩ := h.required _ hname
      cases hnone.symm.trans hv
    | @field name type v _ htype hget hx =>
      simp only [fullSchema, List.mem_cons, List.not_mem_nil, or_false, Prod.mk.injEq] at htype
      rcases htype with ⟨rfl, rfl⟩ | ⟨rfl, rfl⟩ | ⟨rfl, rfl⟩ | ⟨rfl, rfl⟩ | ⟨rfl, rfl⟩ |
        ⟨rfl, rfl⟩ | ⟨rfl, rfl⟩
      · exact fits_whole_iff.2 (h.id v hget) x hx
      · exact fits_text_iff.2 (h.texts _ (by simp) v hget) x hx
      · exact fits_whole_iff.2 (h.numbers _ (by simp) v hget) x hx
      · exact fits_whole_iff.2 (h.numbers _ (by simp) v hget) x hx
      · exact fits_text_iff.2 (h.texts _ (by simp) v hget) x hx
      · exact fits_object_iff.2 (h.extra v hget) x hx
      · exact fits_whole_iff.2 (h.numbers _ (by simp) v hget) x hx
  · intro h
    have hfits {name : String} {type : FieldType} (htype : (name, type) ∈ (fullSchema kind).fields)
        (v : Value) (hget : fields.get? name = some v) (x : Violation) : ¬ type.Departs name v x :=
      fun hx => h x (.field htype hget hx)
    constructor
    · intro name hname
      by_contra hnone
      refine h _ (.missing hname (Option.eq_none_iff_forall_ne_some.2 fun v hv => ?_))
      exact hnone ⟨v, hv⟩
    · exact fun v hget => fits_whole_iff.1 (hfits (by simp [fullSchema]) v hget)
    · intro name hname v hget
      simp only [List.mem_cons, List.not_mem_nil, or_false] at hname
      have htype : (name, FieldType.whole 0) ∈ (fullSchema kind).fields := by
        rcases hname with rfl | rfl | rfl <;> simp [fullSchema]
      exact fits_whole_iff.1 (hfits htype v hget)
    · intro name hname v hget
      simp only [List.mem_cons, List.not_mem_nil, or_false] at hname
      have htype : (name, FieldType.text) ∈ (fullSchema kind).fields := by
        rcases hname with rfl | rfl <;> simp [fullSchema]
      exact fits_text_iff.1 (hfits htype v hget)
    · exact fun v hget => fits_object_iff.1 (hfits (by simp [fullSchema]) v hget)

/-! ## The check -/

/-- The departures from the base schema and from what the kind adds are those from the whole. -/
theorem violations_perm (kind : Kind) (fields : Fields) :
    (violations (some kind) (.object fields)).Perm ((fullSchema kind).violations fields) := by
  have hmissing : (fullSchema kind).missing fields =
      base.missing fields ++ (own kind).missing fields := by
    rw [Schema.missing, Schema.missing, Schema.missing, ← List.map_append, ← List.filter_append]
    rfl
  have hmistyped : (fullSchema kind).mistyped fields =
      base.mistyped fields ++ (own kind).mistyped fields := by
    rw [Schema.mistyped, Schema.mistyped, Schema.mistyped, ← List.flatMap_append]
    rfl
  refine (List.mergeSort_perm _ _).trans ?_
  rw [Option.elim_some, Schema.violations, Schema.violations, Schema.violations, hmissing,
    hmistyped, List.append_assoc, List.append_assoc]
  refine .append_left _ ?_
  rw [← List.append_assoc, ← List.append_assoc]
  exact List.perm_append_comm.append_right _

theorem nodup_fullSchema (kind : Kind) :
    (fullSchema kind).required.Nodup ∧ ((fullSchema kind).fields.map Prod.fst).Nodup := by
  cases kind <;> decide

theorem not_empty_of_mem_fullSchema {kind : Kind} {name : String} {type : FieldType}
    (h : (name, type) ∈ (fullSchema kind).fields) : compare name "" = .gt := by
  have hall : ∀ field ∈ (fullSchema kind).fields, compare field.1 "" = .gt := by
    cases kind <;> decide
  exact hall _ h

theorem path_of_departs {kind : Kind} {fields : Fields} {x : Violation}
    (h : Departs kind fields x) :
    x.path = [] ∨ ∃ name, compare name "" = .gt ∧ x.path = [name] := by
  cases h with
  | missing => exact .inl rfl
  | field htype _ hx => exact .inr ⟨_, not_empty_of_mem_fullSchema htype, hx.path_eq⟩

/-- A departure stands no later than another one: those of the record itself come first, the others
by the name of their field. -/
inductive NotAfter (a b : Violation) : Prop
  | record (h : a.path = [])
  | field {name other : String} (ha : a.path = [name]) (hb : b.path = [other])
    (h : (compare name other).isLE = true)

theorem notAfter_of_place {kind : Kind} {fields : Fields} {a b : Violation}
    (ha : Departs kind fields a) (hb : Departs kind fields b)
    (h : (compareOn Violation.place a b).isLE = true) : NotAfter a b := by
  rcases path_of_departs ha with hrecord | ⟨name, hname, hapath⟩
  · exact .record hrecord
  · rw [compareOn, Violation.place, Violation.place, hapath] at h
    rcases path_of_departs hb with hbpath | ⟨other, -, hbpath⟩
    · have hgt : (compare (String.join [name]) (String.join [])).isLE = false := by
        simp [String.join, hname]
      rw [hbpath, hgt] at h
      cases h
    · refine .field hapath hbpath ?_
      simpa [hbpath, String.join] using h

/-- The departures of a record, as the check finds them: each once, and none after a later one. -/
theorem violations_spec (kind : Kind) (fields : Fields) :
    (violations (some kind) (.object fields)).Nodup ∧
      (∀ x, x ∈ violations (some kind) (.object fields) ↔ Departs kind fields x) ∧
      (violations (some kind) (.object fields)).Pairwise NotAfter := by
  have hperm := violations_perm kind fields
  have hmem (x : Violation) : x ∈ violations (some kind) (.object fields) ↔ Departs kind fields x :=
    hperm.mem_iff.trans mem_violations_iff
  obtain ⟨hrequired, hnames⟩ := nodup_fullSchema kind
  refine ⟨hperm.nodup_iff.2 (nodup_violations hrequired hnames fields), hmem, ?_⟩
  have hsorted : (violations (some kind) (.object fields)).Pairwise
      fun a b => (compareOn Violation.place a b).isLE = true := by
    refine List.pairwise_mergeSort (fun a b c => Std.TransCmp.isLE_trans) (fun a b => ?_) _
    have hswap : compareOn Violation.place b a = (compareOn Violation.place a b).swap :=
      Std.OrientedCmp.eq_swap
    rw [hswap]
    cases compareOn Violation.place a b <;> rfl
  exact hsorted.imp_of_mem fun {a b} ha hb => notAfter_of_place ((hmem a).1 ha) ((hmem b).1 hb)

theorem check_eq {kind : Kind} {fields : Fields} :
    check (some kind) (.object fields) =
      if violations (some kind) (.object fields) = [] then .ok ()
      else .error (.showing ((violations (some kind) (.object fields)).flatMap Violation.shown)
        (.data (.badRecord kind.name (violations (some kind) (.object fields))))) := by
  unfold check
  cases violations (some kind) (.object fields) <;> rfl

theorem check_eq_ok_iff_conforms {kind : Kind} {fields : Fields} :
    check (some kind) (.object fields) = .ok () ↔ Conforms kind fields := by
  obtain ⟨-, hmem, -⟩ := violations_spec kind fields
  rw [conforms_iff, ← forall_congr' fun x => not_congr (hmem x), ← List.eq_nil_iff_forall_not_mem,
    check_eq]
  split
  next hnil => simp [hnil]
  next hne => simp [hne]

/-- A record that does not conform is refused with all its departures, unless one of them shows a
value that cannot be shown. -/
theorem check_of_not_conforms {kind : Kind} {fields : Fields} (h : ¬ Conforms kind fields) :
    check (some kind) (.object fields) =
      .error (.showing ((violations (some kind) (.object fields)).flatMap Violation.shown)
        (.data (.badRecord kind.name (violations (some kind) (.object fields))))) := by
  have hne : violations (some kind) (.object fields) ≠ [] := by
    intro hnil
    apply h
    rw [← check_eq_ok_iff_conforms, check_eq, if_pos hnil]
  rw [check_eq, if_neg hne]

/-- A record that conforms describes an entry. -/
theorem exists_entry_of_conforms {kind : Kind} {fields : Fields} (h : Conforms kind fields) :
    ∃ e, toEntry kind (.object fields) = .ok e := by
  have hcheck := check_eq_ok_iff_conforms.2 h
  obtain ⟨e, he, -⟩ := exists_entryOf (isChecked_of_check hcheck)
  refine ⟨e, ?_⟩
  rw [toEntry, fieldsOf, ok_bind, hcheck, ok_bind, he]

/-- **Validation is exact and complete.** A record passes the check exactly if it conforms to the
schema of its kind, and then it describes an entry. A JSON object that does not conform is refused
with its departures as the fault of the data: each of them once, no others, and sorted by path. -/
theorem check_reports_every_departure (kind : Kind) (fields : Fields) :
    (check (some kind) (.object fields) = .ok () ↔ Conforms kind fields) ∧
    (Conforms kind fields → ∃ e, toEntry kind (.object fields) = .ok e) ∧
    (Json.IsJson (.object fields) → ¬ Conforms kind fields → ∃ found : List Violation,
      found.Nodup ∧ (∀ x, x ∈ found ↔ Departs kind fields x) ∧ found.Pairwise NotAfter ∧
      check (some kind) (.object fields) = .error (.data (.badRecord kind.name found))) := by
  refine ⟨check_eq_ok_iff_conforms, exists_entry_of_conforms, fun hjson h => ?_⟩
  obtain ⟨hnodup, hmem, hsorted⟩ := violations_spec kind fields
  have hmodest := Value.fieldsModest_of_isModest hjson.isModest
  refine ⟨_, hnodup, hmem, hsorted, ?_⟩
  rw [check_of_not_conforms h, Failure.showing_of_isShown (violations_shown hmodest)]

/-- The fields of a weapon without a type, with a fraction as id and a number as name. -/
def halfWeapon : Fields := [("id", .float (.finite false 1 (-1))), ("name", .int 5)]

/-- What is wrong with the weapon: its id departs from the type and from the bound. -/
def halfDepartures : List Violation :=
  [.wrongType (some "id") (.float (.finite false 1 (-1))) "integer",
    .tooSmall "id" (.float (.finite false 1 (-1))) 1,
    .wrongType (some "name") (.int 5) "string", .missing "wtypeId"]

theorem half_departs_twice :
    Json.IsJson (.object halfWeapon) ∧ ∃ found,
      check (some .weapon) (.object halfWeapon) = .error (.data (.badRecord "weapon" found)) ∧
        found.Nodup ∧ (∀ x, x ∈ found ↔ x ∈ halfDepartures) ∧ found.Pairwise NotAfter := by
  have hjson : Json.IsJson (.object halfWeapon) :=
    ⟨"\x7b\"id\": 0.5, \"name\": 5\x7d", by decide +kernel⟩
  have hdeparts (x : Violation) : Departs .weapon halfWeapon x ↔ x ∈ halfDepartures := by
    have hperm : ((fullSchema .weapon).violations halfWeapon).Perm halfDepartures := by
      decide +kernel
    exact mem_violations_iff.symm.trans hperm.mem_iff
  have hnot : ¬ Conforms .weapon halfWeapon := by
    intro h
    exact conforms_iff.1 h (.missing "wtypeId") ((hdeparts _).2 (by decide))
  obtain ⟨-, -, hrefused⟩ := check_reports_every_departure .weapon halfWeapon
  obtain ⟨found, hnodup, hmem, hsorted, hreported⟩ := hrefused hjson hnot
  exact ⟨hjson, found, hreported, hnodup, fun x => (hmem x).trans (hdeparts x), hsorted⟩

end Record
end SellRules
