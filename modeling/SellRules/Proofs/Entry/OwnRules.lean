import SellRules.Proofs.Entry.Record
import SellRules.Proofs.Restriction.Equality

/-!
# The rules of a kind

Rules never cross kinds. An entry from a record has the type id of its own kind and no other
(`Record.Gives`), so of a restriction set only the rules of its kind and the tags are looked at. And
of a record only the id, that type id, the note, the meta fields and, unless it is an item, the
equipment type have a say in what a shop answers.
-/

set_option autoImplicit false

namespace SellRules

open Number (Binary64 withSign)

/-- The rules for entries of a kind. -/
def Kind.rules : Kind → List Rule
  | .item => [.itemIds, .itemTypeIds, .tags]
  | .weapon => [.weaponIds, .weaponTypeIds, .equipmentTypeIds, .tags]
  | .armor => [.armorIds, .armorTypeIds, .equipmentTypeIds, .tags]

/-- The type id of an entry as an entry of a kind. -/
def Entry.typeId (e : Entry) : Kind → Value
  | .item => e.itemTypeId
  | .weapon => e.weaponTypeId
  | .armor => e.armorTypeId

/-! ## Equal markers -/

namespace Fields

theorem similarFields_iff {as bs : Fields} :
    Value.similarFields as bs = true ↔
      ∀ field ∈ as, ∃ b, bs.get? field.1 = some b ∧ Value.similar field.2 b = true := by
  induction as with
  | nil => simp [Value.similarFields]
  | cons field as ih =>
    obtain ⟨name, a⟩ := field
    rw [Value.similarFields, Bool.and_eq_true, ih, List.forall_mem_cons, Option.any_eq_true]

/-- A field of an updated object is one of those put into it, if one of them has its name, and else
the field that was there. -/
theorem get?_update_cases (old new : Fields) (name : String) :
    (∃ v, (name, v) ∈ new ∧ (old.update new).get? name = some v) ∨
      (∀ v, (name, v) ∉ new) ∧ (old.update new).get? name = old.get? name := by
  induction new generalizing old with
  | nil => exact .inr ⟨fun _ => List.not_mem_nil, rfl⟩
  | cons field rest ih =>
    rcases ih (old.put field.1 field.2) with ⟨v, hv, hget⟩ | ⟨hnone, hget⟩
    · exact .inl ⟨v, List.mem_cons_of_mem field hv, hget⟩
    · rw [get?_put] at hget
      by_cases hname : name = field.1
      · rw [if_pos hname] at hget
        refine .inl ⟨field.2, ?_, hget⟩
        rw [hname]
        exact List.mem_cons_self
      · rw [if_neg hname] at hget
        refine .inr ⟨fun v hv => ?_, hget⟩
        rcases List.mem_cons.1 hv with heq | hmem
        · exact hname (congrArg Prod.fst heq)
        · exact hnone v hmem

/-- Whether a field is there and counts as holding something. -/
def holds (fields : Fields) (name : String) : Bool := ((fields.get? name).getD .null).truthy

/-- Objects that are updated with equal fields hold the same. -/
theorem holds_update_congr {old as bs : Fields} (hab : Value.similarFields as bs = true)
    (hba : Value.similarFields bs as = true) (name : String) :
    (old.update as).holds name = (old.update bs).holds name := by
  rw [similarFields_iff] at hab hba
  rcases get?_update_cases old as name with ⟨v, hv, hgetv⟩ | ⟨hnone, hgetas⟩
  · -- The last field of the name in the one list is equal to the first one in the other.
    obtain ⟨b, hb, hvb⟩ := hab _ hv
    obtain ⟨a, ha, hba'⟩ := hba _ (mem_of_get? hb)
    rcases get?_update_cases old bs name with ⟨w, hw, hgetw⟩ | ⟨hnone, -⟩
    · obtain ⟨a', ha', hwa⟩ := hba _ hw
      cases ha.symm.trans ha'
      rw [holds, holds, hgetv, hgetw, Option.getD_some, Option.getD_some,
        (Value.looksLike_of_similar hvb).truthy, (Value.looksLike_of_similar hba').truthy,
        (Value.looksLike_of_similar hwa).truthy]
    · exact absurd (mem_of_get? hb) (hnone b)
  · rcases get?_update_cases old bs name with ⟨w, hw, -⟩ | ⟨-, hgetbs⟩
    · obtain ⟨a, ha, -⟩ := hba _ hw
      exact absurd (mem_of_get? ha) (hnone a)
    · rw [holds, holds, hgetas, hgetbs]

/-- Whether two records agree on a field: neither has it, or both have it with equal values. -/
def agree (fields other : Fields) (name : String) : Bool :=
  match fields.get? name, other.get? name with
  | none, none => true
  | some v, some w => v.equal w && w.equal v
  | _, _ => false

theorem agree_iff {fields other : Fields} {name : String} (h : fields.agree other name = true) :
    fields.get? name = none ∧ other.get? name = none ∨
      ∃ v w, fields.get? name = some v ∧ other.get? name = some w ∧
        Value.similar v w = true ∧ Value.similar w v = true := by
  unfold agree at h
  split at h
  next hv hw => exact .inl ⟨hv, hw⟩
  next v w hv hw =>
    simp only [Value.equal, Bool.and_eq_true] at h
    exact .inr ⟨v, w, hv, hw, h.1.1, h.2.1⟩
  next => cases h

end Fields

namespace RestrictionSet

variable {r s : RestrictionSet} {e e' : Entry}

theorem marked_eq {markers : Fields} (h : e.markers = .object markers) (tag : Scalar) :
    marked e tag = .ok (match tag with | .text tag => markers.holds tag | _ => false) := by
  simp only [marked, h]
  cases tag <;> rfl

/-- Equal tags are found alike. -/
theorem marked_congr {a b : Scalar} (h : Scalar.order a b = .eq) : marked e a = marked e b := by
  by_cases ha : ∃ t, a = .text t
  · obtain ⟨t, rfl⟩ := ha
    rw [Scalar.order_text_eq_iff.1 h]
  · by_cases hb : ∃ t, b = .text t
    · obtain ⟨t, rfl⟩ := hb
      exact absurd ⟨t, Scalar.order_text_eq_iff.1 (Std.OrientedCmp.eq_symm h)⟩ ha
    · cases hm : e.markers <;> cases a <;> cases b <;> simp_all [marked]

/-- An entry with the type id of one kind only gets one answer from restriction sets that have equal
sets for the rules of this kind. -/
theorem allows_congr_of_same {kind : Kind} (hown : ∀ own, own ≠ kind → e.typeId own = .null)
    (hsame : ∀ rule ∈ kind.rules, (r.get rule).same (s.get rule) = true) :
    r.allows e = s.allows e := by
  have htags : r.tagAnswers e = s.tagAnswers e := by
    refine ScalarSet.map_congr_of_same (fun _ _ => marked_congr) (hsame .tags ?_)
    cases kind <;> decide
  -- A type id that counts is the one of the entry's own kind, where the sets are equal.
  have hhas {own : Kind} (htype : (e.typeId own).truthy = true) (rule : Rule)
      (hrule : rule ∈ own.rules) (v : Value) : (r.get rule).has v = (s.get rule).has v := by
    by_cases heq : own = kind
    · rw [heq] at hrule
      exact ScalarSet.has_of_same (hsame rule hrule) v
    · rw [hown own heq] at htype
      cases htype
  have hpart (own : Kind) {as bs : List (Except Failure Bool)}
      (h : (e.typeId own).truthy = true → as = bs) :
      (if (e.typeId own).truthy then as else []) =
        if (e.typeId own).truthy then bs else [] := by
    split
    next htype => exact h htype
    next => rfl
  have hids : r.idAnswers e = s.idAnswers e := by
    refine congrArg₂ (· ++ ·) (congrArg₂ (· ++ ·) (hpart .weapon fun htype => ?_)
      (hpart .armor fun htype => ?_)) (hpart .item fun htype => ?_)
    · have hid := hhas htype .weaponIds (by decide) e.id
      have hweapon := hhas htype .weaponTypeIds (by decide) e.weaponTypeId
      have hequipment := hhas htype .equipmentTypeIds (by decide) e.equipmentTypeId
      simp only [get] at hid hweapon hequipment
      rw [hid, hweapon, hequipment]
    · have hid := hhas htype .armorIds (by decide) e.id
      have harmor := hhas htype .armorTypeIds (by decide) e.armorTypeId
      have hequipment := hhas htype .equipmentTypeIds (by decide) e.equipmentTypeId
      simp only [get] at hid harmor hequipment
      rw [hid, harmor, hequipment]
    · have hid := hhas htype .itemIds (by decide) e.id
      have hitem := hhas htype .itemTypeIds (by decide) e.itemTypeId
      simp only [get] at hid hitem
      rw [hid, hitem]
  rw [allows, allows, hids, htags]

/-- Entries with the same id, type ids that look alike and markers that hold the same get one answer
from every restriction set. -/
theorem allows_congr (hid : e.id = e'.id)
    (htypes : ∀ own, (e.typeId own).LooksLike (e'.typeId own))
    (hequipment : e.equipmentTypeId.LooksLike e'.equipmentTypeId)
    (hmarkers : ∀ tag, marked e tag = marked e' tag) (r : RestrictionSet) :
    r.allows e = r.allows e' := by
  have hitem : e.itemTypeId.LooksLike e'.itemTypeId := htypes .item
  have hweapon : e.weaponTypeId.LooksLike e'.weaponTypeId := htypes .weapon
  have harmor : e.armorTypeId.LooksLike e'.armorTypeId := htypes .armor
  have hids : r.idAnswers e = r.idAnswers e' := by
    simp only [idAnswers, hid, hitem.truthy, hitem.has, hweapon.truthy, hweapon.has, harmor.truthy,
      harmor.has, hequipment.has]
  have htags : r.tagAnswers e = r.tagAnswers e' := List.map_congr_left fun tag _ => hmarkers tag
  rw [allows, allows, hids, htags]

end RestrictionSet

/-! ## Entries from records -/

namespace Record

/-- How an entry of a kind is made from fields that keep to the schema. -/
structure Gives (kind : Kind) (fields : Fields) (e : Entry) : Prop where
  checked : IsChecked kind fields
  id : ∃ v n, fields.get? "id" = some v ∧ v.toWhole = .ok n ∧ e.id = .int n
  typeId : ∀ own, e.typeId own =
    if kind = own then (fields.get? (typeField own)).getD .null else .null
  equipmentTypeId : e.equipmentTypeId =
    if kind = .item then .null else (fields.get? "etypeId").getD .null
  markers : e.markers = .object (markersOf fields)

theorem gives_of_toEntry {kind : Kind} {record : Value} {e : Entry}
    (h : toEntry kind record = .ok e) : ∃ fields, fieldsOf record = .ok fields ∧
      Gives kind fields e := by
  obtain ⟨fields, hfields, h⟩ := bind_eq_ok.1 h
  obtain ⟨⟨⟩, hcheck, h⟩ := bind_eq_ok.1 h
  have hchecked := isChecked_of_check hcheck
  obtain ⟨v, hget, -⟩ := hchecked.id
  obtain ⟨n, hn, h⟩ := bind_eq_ok.1 h
  obtain ⟨price, -, h⟩ := bind_eq_ok.1 h
  cases h
  rw [hget, Option.getD_some] at hn
  refine ⟨fields, hfields, hchecked, ⟨v, n, hget, hn, rfl⟩, fun own => ?_, rfl, rfl⟩
  cases own <;> rfl

/-- The fields of a record that decide what a shop answers for its entry. -/
def decidingFields (kind : Kind) : List String :=
  ["id", typeField kind, "note", "meta"] ++ if kind = .item then [] else ["etypeId"]

/-- A number of double precision without a fraction is counted in units as the whole number that it
is. -/
theorem units_of_isWhole {negative : Bool} {m : Nat} {e : Int} {n : Int}
    (h : Binary64.isWhole (.finite negative m e) = true)
    (hn : Binary64.truncate? (.finite negative m e) = some n) :
    Binary64.units negative m e = Binary64.unitsOfInt n := by
  simp only [Binary64.isWhole, Bool.or_eq_true, beq_iff_eq, decide_eq_true_eq] at h
  cases hn
  rw [Binary64.units, Binary64.unitsOfInt]
  rcases h with rfl | he
  · simp only [withSign, Nat.zero_mul, Nat.zero_div, ite_self, Int.natCast_zero, Int.neg_zero,
      Int.zero_mul]
  · have hexponent : (e - Binary64.minExponent).toNat =
        e.toNat + (-Binary64.minExponent).toNat := by
      simp only [Binary64.minExponent]
      omega
    have hpow (i j : Nat) : Nat.pow 2 (i + j) = Nat.pow 2 i * Nat.pow 2 j := Nat.pow_add 2 i j
    rw [if_pos he, hexponent, hpow, ← Nat.mul_assoc]
    generalize Nat.pow 2 (-Binary64.minExponent).toNat = k
    cases negative <;> simp [withSign]

/-- The order puts a whole number in either form where the whole number is. -/
theorem exists_scalar_of_isWhole {v : Value} {n : Int} (h : isWhole v = true)
    (hn : v.toWhole = .ok n) : ∃ a : Scalar, v = a.toValue ∧ Scalar.order a (.int n) = .eq := by
  cases v with
  | int m =>
    cases hn
    exact ⟨.int n, rfl, Scalar.order_int_eq.2 rfl⟩
  | float x =>
    cases x with
    | finite negative m e =>
      refine ⟨.float (.finite negative m e), rfl, Scalar.order_eq_iff.2 ⟨rfl, ?_, rfl⟩⟩
      cases hn
      exact units_of_isWhole h rfl
    | _ => cases h
  | _ => cases h

/-- Equal whole numbers are one number. -/
theorem toWhole_congr {v w : Value} {m n : Int} (h : Value.similar v w = true)
    (hv : isWhole v = true) (hw : isWhole w = true) (hm : v.toWhole = .ok m)
    (hn : w.toWhole = .ok n) : m = n := by
  obtain ⟨a, rfl, ha⟩ := exists_scalar_of_isWhole hv hm
  obtain ⟨b, rfl, hb⟩ := exists_scalar_of_isWhole hw hn
  have hab : Scalar.order a b = .eq := Value.order_of_similar h
  have hmb : Scalar.order (.int m) b = .eq := Std.TransCmp.eq_trans (Std.OrientedCmp.eq_symm ha) hab
  exact Scalar.order_int_eq.1 (Std.TransCmp.eq_trans hmb hb)

/-- The markers of a note. -/
def noted (fields : Fields) : Fields :=
  ((fields.get? "note").bind Value.characters?).elim [] Marker.ofNote

/-- Equal values are the same text, or neither of them is one. -/
theorem characters?_congr {v w : Value} (hvw : Value.similar v w = true)
    (hwv : Value.similar w v = true) : v.characters? = w.characters? := by
  by_cases htext : ∃ s, v = .text s
  · obtain ⟨s, rfl⟩ := htext
    rw [Value.eq_text_of_similar hvw]
  · have hother (s : String) : w ≠ .text s := by
      rintro rfl
      exact htext ⟨s, Value.eq_text_of_similar hwv⟩
    rcases Value.similar_cases hvw with ⟨as, bs, rfl, rfl, -⟩ | ⟨as, bs, rfl, rfl, -⟩ |
      ⟨codes, rfl, rfl⟩ | ⟨a, b, rfl, rfl, -⟩
    · rfl
    · rfl
    · rfl
    · cases a with
      | text s => exact absurd ⟨s, rfl⟩ htext
      | _ =>
        cases b with
        | text s => exact absurd rfl (hother s)
        | _ => rfl

theorem noted_congr {fields other : Fields} (h : fields.agree other "note" = true) :
    noted fields = noted other := by
  unfold noted
  rcases Fields.agree_iff h with ⟨hv, hw⟩ | ⟨v, w, hv, hw, hvw, hwv⟩
  · rw [hv, hw]
  · rw [hv, hw, Option.bind_some, Option.bind_some, characters?_congr hvw hwv]

theorem markersOf_of_object {fields extra : Fields}
    (h : fields.get? "meta" = some (.object extra)) :
    markersOf fields = (noted fields).update extra := by
  simp only [markersOf, h]
  rfl

/-- Meta fields that are no object add nothing to the markers of the note. -/
theorem markersOf_of_not_object {fields : Fields}
    (h : ∀ extra, fields.get? "meta" ≠ some (.object extra)) : markersOf fields = noted fields := by
  cases hmeta : fields.get? "meta" with
  | none =>
    simp only [markersOf, hmeta]
    rfl
  | some v =>
    cases v with
    | object extra => exact absurd hmeta (h extra)
    | _ =>
      simp only [markersOf, hmeta]
      rfl

/-- Records that agree on the note and the meta fields have markers that hold the same. -/
theorem holds_markersOf_congr {fields other : Fields} (hnote : fields.agree other "note" = true)
    (hmeta : fields.agree other "meta" = true) (name : String) :
    (markersOf fields).holds name = (markersOf other).holds name := by
  have hplain (h : ∀ extra, fields.get? "meta" ≠ some (.object extra))
      (h' : ∀ extra, other.get? "meta" ≠ some (.object extra)) :
      (markersOf fields).holds name = (markersOf other).holds name := by
    rw [markersOf_of_not_object h, markersOf_of_not_object h', noted_congr hnote]
  rcases Fields.agree_iff hmeta with ⟨hv, hw⟩ | ⟨v, w, hv, hw, hvw, hwv⟩
  · exact hplain (by simp [hv]) (by simp [hw])
  · rcases Value.similar_cases hvw with ⟨as, bs, rfl, rfl, -⟩ | ⟨as, bs, rfl, rfl, -, hfields⟩ |
      ⟨codes, rfl, rfl⟩ | ⟨a, b, rfl, rfl, -⟩
    · exact hplain (by simp [hv]) (by simp [hw])
    · rw [markersOf_of_object hv, markersOf_of_object hw, noted_congr hnote]
      simp only [Value.similar, Bool.and_eq_true] at hwv
      exact Fields.holds_update_congr hfields hwv.2 name
    · exact hplain (by simp [hv]) (by simp [hw])
    · exact hplain (by cases a <;> simp [hv, Scalar.toValue])
        (by cases b <;> simp [hw, Scalar.toValue])

/-- Records of one kind that agree on the fields that decide give entries which no restriction set
tells apart. -/
theorem Gives.allows_congr {kind : Kind} {fields other : Fields} {e e' : Entry}
    (he : Gives kind fields e) (he' : Gives kind other e')
    (hagree : ∀ name ∈ decidingFields kind, fields.agree other name = true)
    (r : RestrictionSet) : r.allows e = r.allows e' := by
  have hlooks {name : String} (hname : name ∈ decidingFields kind) :
      ((fields.get? name).getD .null).LooksLike ((other.get? name).getD .null) := by
    rcases Fields.agree_iff (hagree name hname) with ⟨hv, hw⟩ | ⟨v, w, hv, hw, hvw, -⟩
    · rw [hv, hw]
      exact .refl _
    · rw [hv, hw]
      exact Value.looksLike_of_similar hvw
  have hid : e.id = e'.id := by
    obtain ⟨v, m, hv, hm, hid⟩ := he.id
    obtain ⟨w, n, hw, hn, hid'⟩ := he'.id
    obtain ⟨v', hv', hwhole⟩ := he.checked.id
    obtain ⟨w', hw', hwhole'⟩ := he'.checked.id
    cases hv.symm.trans hv'
    cases hw.symm.trans hw'
    rcases Fields.agree_iff (hagree "id" (by simp [decidingFields])) with
      ⟨hnone, -⟩ | ⟨a, b, ha, hb, hab, -⟩
    · cases hnone.symm.trans hv
    · cases hv.symm.trans ha
      cases hw.symm.trans hb
      rw [hid, hid', toWhole_congr hab hwhole hwhole' hm hn]
  refine RestrictionSet.allows_congr hid (fun own => ?_) ?_ (fun tag => ?_) r
  · rw [he.typeId, he'.typeId]
    by_cases hown : kind = own
    · rw [if_pos hown, if_pos hown, ← hown]
      exact hlooks (by simp [decidingFields])
    · rw [if_neg hown, if_neg hown]
      exact .refl _
  · rw [he.equipmentTypeId, he'.equipmentTypeId]
    by_cases hitem : kind = .item
    · rw [if_pos hitem, if_pos hitem]
      exact .refl _
    · rw [if_neg hitem, if_neg hitem]
      exact hlooks (by simp [decidingFields, hitem])
  · rw [RestrictionSet.marked_eq he.markers, RestrictionSet.marked_eq he'.markers]
    have hholds := holds_markersOf_congr (hagree "note" (by simp [decidingFields]))
      (hagree "meta" (by simp [decidingFields]))
    cases tag with
    | text tag => exact congrArg Except.ok (hholds tag)
    | _ => rfl

/-- **Rules never cross kinds.** What a restriction set answers for an entry from a record of a kind
is decided by the rules of this kind and the tags: restriction sets that have equal sets for these
give one answer. And the fields that decide are the id, the type id of the kind, the note, the meta
fields and, unless the entry is an item, the equipment type: records that agree on these get one
answer from every restriction set, whatever their other fields are. -/
theorem rules_never_cross_kinds {kind : Kind} {record : Value} {e : Entry}
    (h : toEntry kind record = .ok e) :
    (∀ r s : RestrictionSet, (∀ rule ∈ kind.rules, (r.get rule).same (s.get rule) = true) →
      ∃ answer, r.allows e = .ok answer ∧ s.allows e = .ok answer) ∧
    ∀ record' e' fields fields', toEntry kind record' = .ok e' → fieldsOf record = .ok fields →
      fieldsOf record' = .ok fields' →
      (∀ name ∈ decidingFields kind, fields.agree fields' name = true) →
      ∀ r : RestrictionSet, ∃ answer, r.allows e = .ok answer ∧ r.allows e' = .ok answer := by
  obtain ⟨fields, hfields, hgives⟩ := gives_of_toEntry h
  have hanswer (r : RestrictionSet) : ∃ answer, r.allows e = .ok answer :=
    (describes_of_toEntry h).exists_buys (some r)
  constructor
  · intro r s hsame
    have hown (own : Kind) (hown : own ≠ kind) : e.typeId own = .null := by
      rw [hgives.typeId, if_neg (Ne.symm hown)]
    obtain ⟨answer, hr⟩ := hanswer r
    exact ⟨answer, hr, RestrictionSet.allows_congr_of_same hown hsame ▸ hr⟩
  · intro record' e' fields₁ fields' h' hfields₁ hfields' hagree r
    obtain ⟨fields₂, hfields₂, hgives'⟩ := gives_of_toEntry h'
    cases hfields.symm.trans hfields₁
    cases hfields'.symm.trans hfields₂
    obtain ⟨answer, hr⟩ := hanswer r
    exact ⟨answer, hr, hgives.allows_congr hgives' hagree r ▸ hr⟩

/-- The fields of a burning sword that also has an item type. -/
def sword : Fields :=
  [("id", .int 3), ("name", .text "sword"), ("wtypeId", .int 2), ("etypeId", .int 1),
    ("note", .text "<fire>"), ("itypeId", .int 1)]

def swordEntry : Entry where
  id := .int 3
  name := .text "sword"
  kind := .weapon
  weaponTypeId := .int 2
  equipmentTypeId := .int 1
  markers := .object [("fire", .bool true)]

/-- The fields of a dearer sword with the same id in another form and an armor type. -/
def dearSword : Fields :=
  [("name", .text "blade"), ("price", .int 90), ("id", .float (.finite false 3 0)),
    ("atypeId", .int 4), ("wtypeId", .int 2), ("etypeId", .int 1), ("note", .text "<fire>")]

/-- Whether items or armors with the sword's id are bought is of no concern to the sword, and neither
is its item type; the dearer sword is bought where the sword is. -/
theorem swords_are_judged_as_weapons :
    toEntry .weapon (.object sword) = .ok swordEntry ∧
      (∃ answer, (RestrictionSet.ofRules [(.itemIds, .int 3)]).allows swordEntry = .ok answer ∧
        (RestrictionSet.ofRules [(.armorIds, .int 3)]).allows swordEntry = .ok answer) ∧
      ∃ dear, toEntry .weapon (.object dearSword) = .ok dear ∧
        ∀ r : RestrictionSet, ∃ answer, r.allows swordEntry = .ok answer ∧
          r.allows dear = .ok answer := by
  have hsword : toEntry .weapon (.object sword) = .ok swordEntry := by decide +kernel
  have hdear : toEntry .weapon (.object dearSword) =
      .ok { swordEntry with name := .text "blade", price := .int 90 } := by decide +kernel
  obtain ⟨hrules, hfields⟩ := rules_never_cross_kinds hsword
  exact ⟨hsword, hrules _ _ (by decide +kernel), _, hdear,
    hfields _ _ _ _ hdear rfl rfl (by decide +kernel)⟩

end Record

end SellRules
