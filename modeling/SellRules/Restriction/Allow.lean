import SellRules.Entry.Basic
import SellRules.Restriction.Basic

/-!
# What a shop buys

Whether a restriction set allows an entry. An entry with a weapon type is allowed by its id, its
weapon type or its equipment type; one with an armor type likewise; one with an item type by its
item type or its id; and any entry by a tag among its markers, if the marker holds anything. A type
id of zero is no type. Ids and tags are looked up one after the other; an id with parts cannot be
looked up at all, and neither can a tag among markers that are no object.
-/

set_option autoImplicit false

namespace SellRules.RestrictionSet

/-- Whether one of the answers is yes, looked at from left to right; a failure in front of the first
yes is the answer. -/
def firstYes : List (Except Failure Bool) → Except Failure Bool
  | [] => .ok false
  | .ok true :: _ => .ok true
  | .ok false :: rest => firstYes rest
  | .error failure :: _ => .error failure

theorem firstYes_map_ok (answers : List Bool) :
    firstYes (answers.map .ok) = .ok (answers.any id) := by
  induction answers with
  | nil => rfl
  | cons b rest ih => cases b <;> simp [firstYes, ih]

/-- The answers that the ids of an entry get when it has a type of its own. -/
def idAnswers (r : RestrictionSet) (entry : Entry) : List (Except Failure Bool) :=
  (if entry.weaponTypeId.truthy then
    [r.weaponIds.has entry.id, r.weaponTypeIds.has entry.weaponTypeId,
      r.equipmentTypeIds.has entry.equipmentTypeId]
  else []) ++
  (if entry.armorTypeId.truthy then
    [r.armorIds.has entry.id, r.armorTypeIds.has entry.armorTypeId,
      r.equipmentTypeIds.has entry.equipmentTypeId]
  else []) ++
  (if entry.itemTypeId.truthy then
    [r.itemTypeIds.has entry.itemTypeId, r.itemIds.has entry.id]
  else [])

/-- Whether an entry has a marker of this name that holds anything. -/
def marked (entry : Entry) (tag : Scalar) : Except Failure Bool :=
  match entry.markers, tag with
  | .object markers, .text tag => .ok ((Fields.get? markers tag).getD .null).truthy
  | .object _, _ => .ok false
  | _, _ => .error .noMember

/-- The answers that the tags get. -/
def tagAnswers (r : RestrictionSet) (entry : Entry) : List (Except Failure Bool) :=
  r.tags.toList.map (marked entry)

/-- Whether a restriction set allows an entry. -/
def allows (r : RestrictionSet) (entry : Entry) : Except Failure Bool :=
  firstYes (r.idAnswers entry ++ r.tagAnswers entry)

/-- Whether a shop buys an entry; without a restriction set it buys every one. -/
def buys : Option RestrictionSet → Entry → Except Failure Bool
  | none, _ => .ok true
  | some r, entry => r.allows entry

/-- The entries that a shop buys, in order. -/
def bought (r : Option RestrictionSet) (entries : List Entry) : Except Failure (List Entry) :=
  entries.filterM (buys r)

end SellRules.RestrictionSet
