import SellRules.Entry.Marker
import SellRules.Failure
import SellRules.Scalar

/-!
# Entries

What a party may own and a shop may buy: an item, weapon or armor as far as selling looks at it. The
parts are kept as host data gives them, whatever they are; a missing type id is the null value. Only
the use of a part shows whether it is fit for that.
-/

set_option autoImplicit false

namespace SellRules

structure Entry where
  id : Value
  name : Value
  kind : Kind
  price : Value := .int 0
  itemTypeId : Value := .null
  weaponTypeId : Value := .null
  armorTypeId : Value := .null
  equipmentTypeId : Value := .null
  markers : Value := .object []
  deriving DecidableEq

/-- The kind that a value names. -/
def Kind.ofValue (v : Value) : Except Failure Kind :=
  match Kind.ofValue? v with
  | some kind => .ok kind
  | none => .error (.showing [v] (.value (.notAKind v)))

/-- What tells the entries of a table apart: the kind and the id. -/
structure Key where
  kind : Kind
  id : Scalar
  deriving DecidableEq

namespace Key

def idOrder (a b : Key) : Ordering := a.id.order b.id

/-- Keys by kind, then by id. -/
def order : Key → Key → Ordering := compareLex (compareOn fun key : Key => key.kind.rank) idOrder

instance : Std.TransCmp idOrder where
  eq_swap {a b} := @Std.OrientedCmp.eq_swap _ Scalar.order _ a.id b.id
  isLE_trans {a b c} := @Std.TransCmp.isLE_trans _ Scalar.order _ a.id b.id c.id

instance : Std.TransCmp order :=
  inferInstanceAs (Std.TransCmp (compareLex (compareOn fun key : Key => key.kind.rank) idOrder))

end Key

namespace Entry

/-- The key of an entry. An id with parts makes none. -/
def key (entry : Entry) : Except Failure Key :=
  match Scalar.ofValue? entry.id with
  | some id => .ok ⟨entry.kind, id⟩
  | none => .error .shape

/-- The names of an entry's parts. -/
def fieldNames : List String :=
  ["id", "name", "kind", "price", "item_type_id", "weapon_type_id", "armor_type_id",
    "equipment_type_id", "markers"]

/-- An entry given by its parts, of which only the kind is looked at. -/
def ofFields (fields : Fields) : Except Failure Entry := do
  let kind ← match fields.get? "kind" with
    | some v => Kind.ofValue v
    | none => throw .shape
  if !fields.all fun field => fieldNames.contains field.1 then throw .shape
  let typeId (name : String) : Value := (fields.get? name).getD .null
  match fields.get? "id", fields.get? "name" with
  | some id, some name =>
    return {
      id, name, kind
      price := (fields.get? "price").getD (.int 0)
      itemTypeId := typeId "item_type_id"
      weaponTypeId := typeId "weapon_type_id"
      armorTypeId := typeId "armor_type_id"
      equipmentTypeId := typeId "equipment_type_id"
      markers := (fields.get? "markers").getD (.object []) }
  | _, _ => throw .shape

/-- The parts of an entry as an object. -/
def toValue (entry : Entry) : Value :=
  .object [("id", entry.id), ("name", entry.name), ("kind", .text entry.kind.name),
    ("price", entry.price), ("item_type_id", entry.itemTypeId),
    ("weapon_type_id", entry.weaponTypeId), ("armor_type_id", entry.armorTypeId),
    ("equipment_type_id", entry.equipmentTypeId), ("markers", entry.markers)]

end Entry
end SellRules
