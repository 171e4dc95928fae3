import SellRules.Proofs.Entry.Occurrence
import SellRules.Proofs.Entry.Schema
import SellRules.Proofs.Restriction.MarkerTags

/-!
# What a tag decides about a record

A shop with one tag buys the entry of a record on account of the meta fields and the note alone. A
meta field with the name of the tag decides by what it holds, and only without one the markers of
the note are asked (`Record.holds_markersOf_iff`). The other parts of the entry are those of the
record (`Record.reflects_of_toEntry`).
-/

set_option autoImplicit false

namespace SellRules

/-! ## Notes that show a tag -/

namespace Marker

theorem isFit_of_finds {cs : List Char} {found : List Occurrence} (h : Finds cs found) :
    ∀ m ∈ found, m.IsFit := by
  induction h with
  | nil => nofun
  | skip _ _ ih => exact ih
  | take hfit _ ih => exact List.forall_mem_cons.2 ⟨hfit, ih⟩

/-- A marker means nothing only if it is written with a colon and no text behind it. -/
theorem truthy_meaning_iff {m : Occurrence} (h : m.IsFit) (name : String)
    (hname : m.name = name.toList) :
    m.meaning.truthy = true ↔ m.text ≠ write name (some "") := by
  obtain ⟨_, valued, rest⟩ := m
  dsimp only at hname
  subst hname
  cases valued with
  | true => simp [Occurrence.meaning, Occurrence.text, write, Value.truthy, ← String.toList_inj]
  | false =>
    have hrest : rest ++ ['>'] ≠ [':', '>'] := by
      intro heq
      cases rest with
      | nil => cases heq
      | cons c rest =>
        obtain rfl := h.ends rfl c rfl
        cases heq
    simp [Occurrence.meaning, Occurrence.text, write, Value.truthy, hrest]

/-- A note has markers of a name, and the last one is not written with an empty value. -/
def Shows (note name : String) : Prop :=
  ∃ found m, Finds note.toList found ∧
    (found.filter fun m => m.name = name.toList).getLast? = some m ∧ m.text ≠ write name (some "")

theorem holds_ofNote_iff {note name : String} :
    (ofNote note).holds name = true ↔ Shows note name := by
  have hholds {found : List Occurrence} (hfound : Finds note.toList found) :
      (ofNote note).holds name = true ↔
        ∃ m, (found.filter fun m => m.name = name.toList).getLast? = some m ∧
          m.text ≠ write name (some "") := by
    rw [Fields.holds, get?_ofNote hfound]
    cases hlast : (found.filter fun m => m.name = name.toList).getLast? with
    | none => simp [Value.truthy]
    | some m =>
      obtain ⟨hmem, hname⟩ := List.mem_filter.1 (List.mem_of_getLast? hlast)
      rw [Option.map_some, Option.getD_some,
        truthy_meaning_iff (isFit_of_finds hfound m hmem) name (of_decide_eq_true hname)]
      simp
  constructor
  · intro h
    obtain ⟨found, hfound⟩ := exists_finds note.toList
    obtain ⟨m, hlast, htext⟩ := (hholds hfound).1 h
    exact ⟨found, m, hfound, hlast, htext⟩
  · rintro ⟨found, m, hfound, hlast, htext⟩
    exact (hholds hfound).2 ⟨m, hlast, htext⟩

end Marker

namespace Record

open Value (IsInteger)

/-- The record has no meta field of this name. -/
def LacksMeta (fields : Fields) (name : String) : Prop :=
  ∀ extra : Fields, fields.get? "meta" = some (.object extra) → extra.get? name = none

/-- The record has a meta field of this name that holds anything, or it has none of this name and
its note shows the name. -/
def Tagged (fields : Fields) (name : String) : Prop :=
  (∃ (extra : Fields) (v : Value), fields.get? "meta" = some (.object extra) ∧
    extra.get? name = some v ∧ v.truthy = true) ∨
  LacksMeta fields name ∧ ∃ v note, fields.get? "note" = some v ∧ v.characters? = some note ∧
    Marker.Shows note name

/-- The meta fields have different names. -/
def DistinctMeta (fields : Fields) : Prop :=
  ∀ extra : Fields, fields.get? "meta" = some (.object extra) → extra.Distinct

theorem holds_noted_iff {fields : Fields} {name : String} :
    (noted fields).holds name = true ↔ ∃ v note, fields.get? "note" = some v ∧
      v.characters? = some note ∧ Marker.Shows note name := by
  rw [noted]
  cases hnote : (fields.get? "note").bind Value.characters? with
  | none =>
    rw [Option.bind_eq_none_iff] at hnote
    constructor
    · intro h
      cases h
    · rintro ⟨v, note, hv, hchars, -⟩
      cases (hnote v hv).symm.trans hchars
  | some note =>
    obtain ⟨v, hv, hchars⟩ := Option.bind_eq_some_iff.1 hnote
    rw [Option.elim_some, Marker.holds_ofNote_iff]
    constructor
    · exact fun hshows => ⟨v, note, hv, hchars, hshows⟩
    · rintro ⟨w, other, hw, hother, hshows⟩
      cases hv.symm.trans hw
      cases hchars.symm.trans hother
      exact hshows

theorem tagged_iff_of_lacksMeta {fields : Fields} {name : String} (h : LacksMeta fields name) :
    Tagged fields name ↔ (noted fields).holds name = true := by
  rw [holds_noted_iff, Tagged, and_iff_right h]
  refine or_iff_right ?_
  rintro ⟨extra, v, hextra, hget, -⟩
  cases (h extra hextra).symm.trans hget

/-- The markers of a record hold what its meta fields hold, and else what its note shows. -/
theorem holds_markersOf_iff {fields : Fields} (hmeta : DistinctMeta fields) {name : String} :
    (markersOf fields).holds name = true ↔ Tagged fields name := by
  by_cases hobject : ∃ extra, fields.get? "meta" = some (.object extra)
  · obtain ⟨extra, hextra⟩ := hobject
    rw [markersOf_of_object hextra, Fields.holds, Fields.get?_update,
      Fields.getLast?_eq_get? (hmeta extra hextra)]
    cases hget : Fields.get? extra name with
    | none =>
      have hlacks : LacksMeta fields name := by
        intro other hother
        cases hextra.symm.trans hother
        exact hget
      rw [tagged_iff_of_lacksMeta hlacks, Option.none_or, Fields.holds]
    | some v =>
      rw [Option.some_or, Option.getD_some]
      constructor
      · intro hv
        exact .inl ⟨extra, v, hextra, hget, hv⟩
      · rintro (⟨other, w, hother, hw, htruthy⟩ | ⟨hlacks, -⟩)
        · cases hextra.symm.trans hother
          cases hget.symm.trans hw
          exact htruthy
        · cases (hlacks extra hextra).symm.trans hget
  · rw [not_exists] at hobject
    have hlacks : LacksMeta fields name := fun extra hextra => absurd hextra (hobject extra)
    rw [markersOf_of_not_object hobject, tagged_iff_of_lacksMeta hlacks]

/-! ## Entries and their records -/

/-- What an entry of a kind has of its record. -/
structure Reflects (kind : Kind) (fields : Fields) (e : Entry) : Prop where
  id : ∃ v n, fields.get? "id" = some v ∧ IsInteger v n ∧ 1 ≤ n ∧ e.id = .int n
  /-- A price that is missing is zero. -/
  price : ∃ n, 0 ≤ n ∧ e.price = .int n ∧ (fields.get? "price" = none → n = 0) ∧
    ∀ v, fields.get? "price" = some v → IsInteger v n
  typeId : ∃ v, fields.get? (typeField kind) = some v ∧ v ≠ .null ∧ e.typeId kind = v
  otherTypeIds : ∀ other, other ≠ kind → e.typeId other = .null
  equipmentTypeId : kind = .item → e.equipmentTypeId = .null

theorem reflects_of_toEntry {kind : Kind} {fields : Fields} {e : Entry}
    (h : toEntry kind (.object fields) = .ok e) : Reflects kind fields e := by
  obtain ⟨_, hfields, hgives⟩ := gives_of_toEntry h
  cases hfields
  obtain ⟨_, hfields, h⟩ := bind_eq_ok.1 h
  cases hfields
  obtain ⟨⟨⟩, hcheck, h⟩ := bind_eq_ok.1 h
  have hconforms := check_eq_ok_iff_conforms.1 hcheck
  obtain ⟨id, -, h⟩ := bind_eq_ok.1 h
  obtain ⟨price, hprice, h⟩ := bind_eq_ok.1 h
  have hentry : e.price = .int price := by
    cases h
    rfl
  constructor
  · obtain ⟨v, n, hget, hn, hid⟩ := hgives.id
    obtain ⟨m, hm, hleast⟩ := hconforms.id v hget
    cases (toWhole_of_isInteger hm).symm.trans hn
    exact ⟨v, n, hget, hm, hleast, hid⟩
  · cases hget : fields.get? "price" with
    | none =>
      rw [hget] at hprice
      cases hprice
      exact ⟨0, le_rfl, hentry, fun _ => rfl, nofun⟩
    | some v =>
      obtain ⟨n, hn, hleast⟩ := hconforms.numbers "price" (by simp) v hget
      rw [hget, Option.getD_some, toWhole_of_isInteger hn] at hprice
      cases hprice
      refine ⟨price, hleast, hentry, nofun, fun w hw => ?_⟩
      cases hw
      exact hn
  · obtain ⟨v, hget⟩ := hconforms.required (typeField kind) (by simp)
    obtain ⟨n, hn, -⟩ := hconforms.numbers (typeField kind) (by simp) v hget
    refine ⟨v, hget, ?_, ?_⟩
    · rintro rfl
      cases hn
    · rw [hgives.typeId, if_pos rfl, hget, Option.getD_some]
  · intro other hother
    rw [hgives.typeId, if_neg (Ne.symm hother)]
  · intro hitem
    rw [hgives.equipmentTypeId, if_pos hitem]

/-- **From the record to the decision of a tag.** A shop with one tag alone buys the entry of a
record exactly if the record has the tag: in its meta fields, by what the field of this name holds,
or, if there is none, in its note, where the last marker of this name counts and means nothing only
if it is written with an empty value. The other parts of the entry are those of the record, with the
type id of its own kind and no other. -/
theorem tag_decides_by_meta_and_note {kind : Kind} {fields : Fields} {e : Entry}
    (h : toEntry kind (.object fields) = .ok e) (hmeta : DistinctMeta fields) :
    (∀ tag, ∃ b, RestrictionSet.buys (some (.ofTag tag)) e = .ok b ∧
      (b = true ↔ Tagged fields tag)) ∧
    Reflects kind fields e := by
  refine ⟨fun tag => ⟨(markersOf fields).holds tag, ?_, holds_markersOf_iff hmeta⟩,
    reflects_of_toEntry h⟩
  obtain ⟨_, hfields, hgives⟩ := gives_of_toEntry h
  cases hfields
  exact RestrictionSet.allows_ofTag (describes_of_toEntry h).plain hgives.markers tag

/-- The fields of a sword whose note has fire twice, the last time without a value, and ice, which
the meta fields take back. -/
def thawedSword : Fields :=
  [("id", .int 1), ("name", .text "sword"), ("wtypeId", .int 2),
    ("note", .text "<fire:> <ice> <fire>"), ("meta", .object [("ice", .bool false)])]

def thawedSwordEntry : Entry where
  id := .int 1
  name := .text "sword"
  kind := .weapon
  weaponTypeId := .int 2
  markers := .object [("fire", .bool true), ("ice", .bool false)]

/-- The sword is bought for fire and not for ice. -/
theorem thawed_sword_has_fire :
    toEntry .weapon (.object thawedSword) = .ok thawedSwordEntry ∧ DistinctMeta thawedSword ∧
      Tagged thawedSword "fire" ∧ ¬ Tagged thawedSword "ice" ∧
      Reflects .weapon thawedSword thawedSwordEntry := by
  have hentry : toEntry .weapon (.object thawedSword) = .ok thawedSwordEntry := by decide +kernel
  have hmeta : DistinctMeta thawedSword := by
    intro extra hextra
    have hice : thawedSword.get? "meta" = some (.object [("ice", .bool false)]) := by decide +kernel
    cases hice.symm.trans hextra
    decide
  obtain ⟨hbuys, hreflects⟩ := tag_decides_by_meta_and_note hentry hmeta
  refine ⟨hentry, hmeta, ?_, ?_, hreflects⟩
  · obtain ⟨b, hb, hiff⟩ := hbuys "fire"
    have hfire : RestrictionSet.buys (some (.ofTag "fire")) thawedSwordEntry = .ok true := by
      decide +kernel
    exact hiff.1 (Except.ok.inj (hb.symm.trans hfire))
  · obtain ⟨b, hb, hiff⟩ := hbuys "ice"
    have hice : RestrictionSet.buys (some (.ofTag "ice")) thawedSwordEntry = .ok false := by
      decide +kernel
    rw [← hiff, Except.ok.inj (hb.symm.trans hice)]
    exact Bool.false_ne_true

end Record
end SellRules
