import SellRules.Number.Binary64

/-!
# Values

The values that host data, plugin arguments and settings are made of. A whole number and a number of
double precision are different values even where they are equal as numbers, and the fields of an
object keep the order in which they first appeared.
-/

set_option autoImplicit false

namespace SellRules

open Number (Binary64)

inductive Value where
  | null
  | bool (b : Bool)
  | int (n : Int)
  | float (x : Binary64)
  | text (s : String)
  /-- A text with a surrogate that has no partner, as code points. It is a text that no string of
  characters can hold. -/
  | unpaired (codes : List Nat)
  | list (items : List Value)
  | object (fields : List (String × Value))
  deriving Repr

/-- The fields of an object. No name stands twice in the fields that this library builds. -/
abbrev Fields := List (String × Value)

namespace Fields

/-- The value of a field. -/
def get? : Fields → String → Option Value
  | [], _ => none
  | (key, v) :: rest, name => if key = name then some v else get? rest name

/-- Gives a field a value: a new field comes last, an old one keeps its place. -/
def put (name : String) (v : Value) : Fields → Fields
  | [] => [(name, v)]
  | field :: rest => if field.1 = name then (name, v) :: rest else field :: put name v rest

/-- Puts the fields of `new`, in order, into `old`. -/
def update (old new : Fields) : Fields := new.foldl (fun fields field => fields.put field.1 field.2) old

theorem get?_put (fields : Fields) (name other : String) (v : Value) :
    (put name v fields).get? other = if other = name then some v else fields.get? other := by
  induction fields with
  | nil => by_cases h : name = other <;> simp [put, get?, h, eq_comm]
  | cons field rest ih =>
    obtain ⟨key, w⟩ := field
    by_cases hk : key = name
    · subst hk
      by_cases h : key = other
      · simp [put, get?, h]
      · simp [put, get?, h, Ne.symm h]
    · by_cases h : key = other
      · subst h
        simp [put, hk, get?]
      · simpa [put, hk, get?, h] using ih

end Fields

namespace Value

mutual

/-- Whether two values are the same, field order included. -/
def same : Value → Value → Bool
  | .null, .null => true
  | .bool a, .bool b => a == b
  | .int a, .int b => a == b
  | .float a, .float b => decide (a = b)
  | .text a, .text b => a == b
  | .unpaired a, .unpaired b => a == b
  | .list a, .list b => sameItems a b
  | .object a, .object b => sameFields a b
  | _, _ => false

def sameItems : List Value → List Value → Bool
  | [], [] => true
  | a :: as, b :: bs => same a b && sameItems as bs
  | _, _ => false

def sameFields : List (String × Value) → List (String × Value) → Bool
  | [], [] => true
  | (k, a) :: as, (l, b) :: bs => k == l && same a b && sameFields as bs
  | _, _ => false

end

mutual

theorem eq_of_same : ∀ {a b : Value}, same a b = true → a = b
  | .null, b, h => by cases b <;> simp_all [same]
  | .bool _, b, h => by cases b <;> simp_all [same]
  | .int _, b, h => by cases b <;> simp_all [same]
  | .float _, b, h => by cases b <;> simp_all [same]
  | .text _, b, h => by cases b <;> simp_all [same]
  | .unpaired _, b, h => by cases b <;> simp_all [same]
  | .list as, b, h => by
    cases b <;> simp only [same, Bool.false_eq_true] at h
    rw [eq_of_sameItems h]
  | .object as, b, h => by
    cases b <;> simp only [same, Bool.false_eq_true] at h
    rw [eq_of_sameFields h]

theorem eq_of_sameItems : ∀ {as bs : List Value}, sameItems as bs = true → as = bs
  | [], [], _ => rfl
  | a :: as, b :: bs, h => by
    simp only [sameItems, Bool.and_eq_true] at h
    rw [eq_of_same h.1, eq_of_sameItems h.2]
  | [], _ :: _, h => by simp [sameItems] at h
  | _ :: _, [], h => by simp [sameItems] at h

theorem eq_of_sameFields : ∀ {as bs : List (String × Value)}, sameFields as bs = true → as = bs
  | [], [], _ => rfl
  | (k, a) :: as, (l, b) :: bs, h => by
    simp only [sameFields, Bool.and_eq_true, beq_iff_eq] at h
    rw [h.1.1, eq_of_same h.1.2, eq_of_sameFields h.2]
  | [], _ :: _, h => by simp [sameFields] at h
  | _ :: _, [], h => by simp [sameFields] at h

end

mutual

theorem same_refl : ∀ a : Value, same a a = true
  | .null | .bool _ | .int _ | .float _ | .text _ | .unpaired _ => by simp [same]
  | .list as => by simpa [same] using sameItems_refl as
  | .object as => by simpa [same] using sameFields_refl as

theorem sameItems_refl : ∀ as : List Value, sameItems as as = true
  | [] => rfl
  | a :: as => by simp [sameItems, same_refl a, sameItems_refl as]

theorem sameFields_refl : ∀ as : List (String × Value), sameFields as as = true
  | [] => rfl
  | (_, a) :: as => by simp [sameFields, same_refl a, sameFields_refl as]

end

instance : DecidableEq Value := fun a b =>
  if h : same a b = true then .isTrue (eq_of_same h)
  else .isFalse fun e => h (e ▸ same_refl a)

instance : Inhabited Value := ⟨.null⟩

/-- The word for a value's type in a message. -/
def typeName : Value → String
  | .null => "NoneType"
  | .bool _ => "bool"
  | .int _ => "int"
  | .float _ => "float"
  | .text _ | .unpaired _ => "str"
  | .list _ => "list"
  | .object _ => "dict"

/-- Whether a value counts as holding: nothing empty, no zero, no false. -/
def truthy : Value → Bool
  | .null => false
  | .bool b => b
  | .int n => n != 0
  | .float x => !x.isZero
  | .text s => s != ""
  | .unpaired codes => !codes.isEmpty
  | .list items => !items.isEmpty
  | .object fields => !fields.isEmpty

/-! ## Levels -/

/-- How many lists and objects may stand inside one another where a value is read or shown. Each of
them takes a call of its own, and no more are left of the thousand that may be open at once. -/
def maxLevels : Nat := 990

mutual

/-- How many lists and objects stand inside one another in a value. -/
def levels : Value → Nat
  | .list items => itemsLevels items + 1
  | .object fields => fieldsLevels fields + 1
  | _ => 0

def itemsLevels : List Value → Nat
  | [] => 0
  | v :: rest => max (levels v) (itemsLevels rest)

def fieldsLevels : List (String × Value) → Nat
  | [] => 0
  | (_, v) :: rest => max (levels v) (fieldsLevels rest)

end

/-! ## Texts and parts -/

/-- The characters with the given code points; a surrogate without a partner becomes the replacement
character. -/
def charactersOf (codes : List Nat) : String :=
  String.ofList (codes.map fun code => if code.isValidChar then Char.ofNat code else '\ufffd')

/-- The characters of a text. -/
def characters? : Value → Option String
  | .text s => some s
  | .unpaired codes => some (charactersOf codes)
  | _ => none

/-- A code point as a text of its own. -/
def ofCode (code : Nat) : Value :=
  if h : code.isValidChar then .text (String.singleton (Char.ofNatAux code h)) else .unpaired [code]

/-- What a value is made up of: the items of a list, the characters of a text, the field names of an
object. -/
def elements? : Value → Option (List Value)
  | .text s => some (s.toList.map fun c => .text (String.singleton c))
  | .unpaired codes => some (codes.map ofCode)
  | .list items => some items
  | .object fields => some (fields.map fun field => .text field.1)
  | _ => none

/-- How many elements a value has, if it is made up of elements. -/
def size? (v : Value) : Option Nat := v.elements?.map (·.length)

end Value
end SellRules
