import SellRules.Failure
import SellRules.Scalar

/-!
# Restriction sets

A restriction set says what one shop will buy: eight independent sets of ids, type ids and tags. No
restriction set at all means that the shop buys everything; an empty one, that it buys nothing. The
sets are canonical, so two restriction sets of whole numbers and texts are equal when they allow the
same ids and tags.
-/

set_option autoImplicit false

namespace SellRules

/-- The eight rules of a restriction set. -/
inductive Rule where
  | itemIds
  | itemTypeIds
  | weaponIds
  | weaponTypeIds
  | armorIds
  | armorTypeIds
  /-- Shared by weapons and armors. -/
  | equipmentTypeIds
  | tags
  deriving DecidableEq, Repr

namespace Rule

def name : Rule → String
  | .itemIds => "item_ids"
  | .itemTypeIds => "item_type_ids"
  | .weaponIds => "weapon_ids"
  | .weaponTypeIds => "weapon_type_ids"
  | .armorIds => "armor_ids"
  | .armorTypeIds => "armor_type_ids"
  | .equipmentTypeIds => "equipment_type_ids"
  | .tags => "tags"

/-- The rules in the order in which they are listed. -/
def all : List Rule :=
  [.itemIds, .itemTypeIds, .weaponIds, .weaponTypeIds, .armorIds, .armorTypeIds, .equipmentTypeIds,
    .tags]

/-- The rules by name. -/
def byName : List Rule :=
  [.armorIds, .armorTypeIds, .equipmentTypeIds, .itemIds, .itemTypeIds, .tags, .weaponIds,
    .weaponTypeIds]

theorem byName_perm : byName.Perm all := by decide

theorem pairwise_byName : byName.Pairwise fun a b => a.name < b.name := by decide

theorem mem_all (rule : Rule) : rule ∈ all := by cases rule <;> decide

def ofName? (name : String) : Option Rule := all.find? fun rule => rule.name == name

@[simp] theorem ofName?_name (rule : Rule) : ofName? rule.name = some rule := by
  cases rule <;> decide

end Rule

namespace ScalarSet

/-- The set of the elements that a value is made up of. -/
def ofValue (v : Value) : Except Failure ScalarSet :=
  match v.elements? with
  | none => .error .shape
  | some elements =>
    match elements.mapM Scalar.ofValue? with
    | none => .error .shape
    | some scalars => .ok (OrderedList.ofList scalars)

/-- The elements in order. Nothing, numbers and texts cannot be listed beside each other. -/
def listed (s : ScalarSet) : Except Failure (List Scalar) :=
  if Scalar.sortable s.toList then .ok s.toList else .error .shape

/-- Whether two sets stand for the same numbers and texts. -/
def same (s t : ScalarSet) : Bool :=
  s.size == t.size && (s.toList.zip t.toList).all fun (a, b) => a.same b

/-- Whether a value is in a set. A value with parts cannot be looked up. -/
def has (s : ScalarSet) (v : Value) : Except Failure Bool :=
  match v with
  | .list _ | .object _ => .error .shape
  | v =>
    match Scalar.ofValue? v with
    | some a => .ok (s.contains a)
    | none => .ok false

end ScalarSet

@[ext]
structure RestrictionSet where
  itemIds : ScalarSet
  itemTypeIds : ScalarSet
  weaponIds : ScalarSet
  weaponTypeIds : ScalarSet
  armorIds : ScalarSet
  armorTypeIds : ScalarSet
  equipmentTypeIds : ScalarSet
  tags : ScalarSet
  deriving DecidableEq

namespace RestrictionSet

/-- The set of a rule. -/
def get (r : RestrictionSet) : Rule → ScalarSet
  | .itemIds => r.itemIds
  | .itemTypeIds => r.itemTypeIds
  | .weaponIds => r.weaponIds
  | .weaponTypeIds => r.weaponTypeIds
  | .armorIds => r.armorIds
  | .armorTypeIds => r.armorTypeIds
  | .equipmentTypeIds => r.equipmentTypeIds
  | .tags => r.tags

/-- The restriction set with the given set for each rule. -/
def ofSets (f : Rule → ScalarSet) : RestrictionSet where
  itemIds := f .itemIds
  itemTypeIds := f .itemTypeIds
  weaponIds := f .weaponIds
  weaponTypeIds := f .weaponTypeIds
  armorIds := f .armorIds
  armorTypeIds := f .armorTypeIds
  equipmentTypeIds := f .equipmentTypeIds
  tags := f .tags

@[simp] theorem get_ofSets (f : Rule → ScalarSet) (rule : Rule) : (ofSets f).get rule = f rule := by
  cases rule <;> rfl

theorem ext_get {r s : RestrictionSet} (h : ∀ rule, r.get rule = s.get rule) : r = s :=
  RestrictionSet.ext (h .itemIds) (h .itemTypeIds) (h .weaponIds) (h .weaponTypeIds) (h .armorIds)
    (h .armorTypeIds) (h .equipmentTypeIds) (h .tags)

/-- The restriction set that buys nothing. -/
def empty : RestrictionSet := ofSets fun _ => .empty

instance : Inhabited RestrictionSet := ⟨empty⟩

/-- What either restriction set allows. -/
def union (r s : RestrictionSet) : RestrictionSet :=
  ofSets fun rule => (r.get rule).union (s.get rule)

/-- The restriction set with the given values, each for a rule. -/
def ofRules (rules : List (Rule × Scalar)) : RestrictionSet :=
  ofSets fun rule => .ofList ((rules.filter fun x => x.1 = rule).map (·.2))

def isEmpty (r : RestrictionSet) : Bool := Rule.all.all fun rule => (r.get rule).isEmpty

/-- Whether two restriction sets allow the same numbers and tags. -/
def same (r s : RestrictionSet) : Bool := Rule.all.all fun rule => (r.get rule).same (s.get rule)

/-- The sets of the given rules as lists in order. -/
def listedBy (rules : List Rule) (r : RestrictionSet) :
    Except Failure (List (Rule × List Scalar)) :=
  rules.mapM fun rule => return (rule, ← (r.get rule).listed)

/-- The sets as lists in order. -/
def listed (r : RestrictionSet) : Except Failure (List (Rule × List Scalar)) := r.listedBy Rule.all

/-- The sets of the given rules as fields with lists in order. -/
def fieldsBy (rules : List Rule) (r : RestrictionSet) : Except Failure Fields := do
  let lists ← r.listedBy rules
  return lists.map fun (rule, scalars) => (rule.name, .list (scalars.map Scalar.toValue))

/-- The sets as an object of lists in order. -/
def toFields (r : RestrictionSet) : Except Failure Fields := r.fieldsBy Rule.all

/-- Puts a set in the place of a rule's. -/
def withSet (r : RestrictionSet) (rule : Rule) (s : ScalarSet) : RestrictionSet :=
  ofSets fun other => if other = rule then s else r.get other

/-- The restriction set with the given collections, by name. Collections that hold nothing are left
out, whatever their names. -/
def ofLists : Fields → Except Failure RestrictionSet
  | [] => .ok empty
  | (name, v) :: rest => do
    let r ← ofLists rest
    if v.truthy then
      let s ← ScalarSet.ofValue v
      match Rule.ofName? name with
      | some rule => return r.withSet rule s
      | none => throw .shape
    else return r

/-- The set that is given for a rule, by name; a single text is no collection of tags or ids. -/
def givenSet (fields : Fields) (rule : Rule) : Except Failure ScalarSet :=
  match fields.get? rule.name with
  | none => .ok .empty
  | some (.text _) | some (.unpaired _) => .error (.singleText rule.name)
  | some v => ScalarSet.ofValue v

/-- The restriction set with exactly the given collections, by name. -/
def ofValues (fields : Fields) : Except Failure RestrictionSet := do
  if !fields.all fun field => (Rule.ofName? field.1).isSome then throw .shape
  return {
    itemIds := ← givenSet fields .itemIds
    itemTypeIds := ← givenSet fields .itemTypeIds
    weaponIds := ← givenSet fields .weaponIds
    weaponTypeIds := ← givenSet fields .weaponTypeIds
    armorIds := ← givenSet fields .armorIds
    armorTypeIds := ← givenSet fields .armorTypeIds
    equipmentTypeIds := ← givenSet fields .equipmentTypeIds
    tags := ← givenSet fields .tags }

end RestrictionSet
end SellRules
