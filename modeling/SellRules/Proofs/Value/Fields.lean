import Mathlib.Data.List.Induction
import Mathlib.Data.List.Nodup
import SellRules.Value.Basic

/-!
# Updated objects

What an object holds after fields were put into it. A name stands where it first appeared
(`Fields.names_update`) and has the value that was put last (`Fields.get?_update`). It makes no
difference whether fields are put into an object one after the other or put together first
(`Fields.update_update`), as long as no name stands twice (`Fields.Distinct`), which holds of every
object that was put together (`Fields.distinct_update`).
-/

set_option autoImplicit false

namespace SellRules.Fields

/-- The names of the fields, in order. -/
def names (fields : Fields) : List String := fields.map Prod.fst

/-- No name stands twice. -/
def Distinct (fields : Fields) : Prop := fields.names.Nodup

instance (fields : Fields) : Decidable fields.Distinct :=
  inferInstanceAs (Decidable (List.Nodup _))

/-! ## One field -/

theorem names_cons (field : String × Value) (fields : Fields) :
    names (field :: fields) = field.1 :: names fields :=
  rfl

theorem mem_names_put {fields : Fields} {name other : String} {v : Value} :
    other ∈ (put name v fields).names ↔ other = name ∨ other ∈ fields.names := by
  induction fields with
  | nil => simp [put, names]
  | cons field fields ih =>
    unfold put
    split
    next hname => simp [names_cons, hname]
    next => rw [names_cons, List.mem_cons, ih, names_cons, List.mem_cons, or_left_comm]

/-- A field of an object that is given a value is the one that is given it, or was there before. -/
theorem mem_of_mem_put {fields : Fields} {name : String} {v : Value} {field : String × Value}
    (h : field ∈ put name v fields) : field = (name, v) ∨ field ∈ fields := by
  induction fields with
  | nil => exact .inl (List.mem_singleton.1 h)
  | cons first fields ih =>
    unfold put at h
    split at h
    · rcases List.mem_cons.1 h with h | h
      · exact .inl h
      · exact .inr (List.mem_cons_of_mem _ h)
    · rcases List.mem_cons.1 h with h | h
      · exact .inr (h ▸ List.mem_cons_self)
      · exact (ih h).imp_right (List.mem_cons_of_mem _)

theorem mem_of_get? {fields : Fields} {name : String} {v : Value}
    (h : fields.get? name = some v) : (name, v) ∈ fields := by
  induction fields with
  | nil => cases h
  | cons field rest ih =>
    rw [get?] at h
    split at h
    next hname =>
      cases h
      rw [← hname]
      exact List.mem_cons_self
    next => exact List.mem_cons_of_mem field (ih h)

theorem names_put_of_mem {fields : Fields} {name : String} (h : name ∈ fields.names) (v : Value) :
    (put name v fields).names = fields.names := by
  induction fields with
  | nil => cases h
  | cons field fields ih =>
    unfold put
    split
    next hname => simp [names_cons, hname]
    next hname =>
      rcases List.mem_cons.1 h with heq | hrest
      · exact absurd heq.symm hname
      · rw [names_cons, ih hrest, names_cons]

theorem names_put_of_not_mem {fields : Fields} {name : String} (h : name ∉ fields.names)
    (v : Value) : (put name v fields).names = fields.names ++ [name] := by
  induction fields with
  | nil => rfl
  | cons field fields ih =>
    rw [names_cons, List.mem_cons, not_or] at h
    rw [put, if_neg (Ne.symm h.1), names_cons, ih h.2]
    rfl

theorem distinct_put {fields : Fields} (h : fields.Distinct) (name : String) (v : Value) :
    (put name v fields).Distinct := by
  rw [Distinct]
  by_cases hname : name ∈ fields.names
  · rw [names_put_of_mem hname]
    exact h
  · rw [names_put_of_not_mem hname, ← List.concat_eq_append]
    exact h.concat hname

theorem put_put (fields : Fields) (name : String) (v w : Value) :
    put name v (put name w fields) = put name v fields := by
  induction fields with
  | nil => simp [put]
  | cons field fields ih => by_cases hname : field.1 = name <;> simp [put, hname, ih]

/-- A field that is there keeps its place, so another may be put before or after it. -/
theorem put_comm {fields : Fields} {name other : String} (hname : name ∈ fields.names)
    (hne : name ≠ other) (v w : Value) :
    put other w (put name v fields) = put name v (put other w fields) := by
  induction fields with
  | nil => cases hname
  | cons field fields ih =>
    by_cases hfield : field.1 = name
    · simp [put, hfield, hne]
    · have hrest : name ∈ names fields := by
        rcases List.mem_cons.1 hname with heq | hrest
        · exact absurd heq.symm hfield
        · exact hrest
      by_cases hother : field.1 = other
      · simp [put, hother, Ne.symm hne]
      · simp [put, hfield, hother, ih hrest]

/-! ## Many fields -/

theorem update_cons (old : Fields) (field : String × Value) (new : Fields) :
    old.update (field :: new) = (old.put field.1 field.2).update new :=
  rfl

theorem update_append (old new more : Fields) :
    old.update (new ++ more) = (old.update new).update more :=
  List.foldl_append

theorem distinct_update {old : Fields} (h : old.Distinct) (new : Fields) :
    (old.update new).Distinct := by
  induction new generalizing old with
  | nil => exact h
  | cons field new ih => exact ih (distinct_put h field.1 field.2)

/-- The names of an object that was put together, in the order of first appearance. -/
theorem names_update (new : Fields) : names (update [] new) = new.names.eraseDups := by
  induction new using List.reverseRecOn with
  | nil => rfl
  | append_singleton new field ih =>
    have hnames : names (new ++ [field]) = names new ++ [field.1] := List.map_append
    have hput : update [] (new ++ [field]) = put field.1 field.2 (update [] new) :=
      update_append [] new [field]
    rw [hput, hnames, List.eraseDups_append]
    by_cases hmem : field.1 ∈ names new
    · rw [names_put_of_mem (by rwa [ih, List.mem_eraseDups]), ih]
      simp [List.removeAll, hmem]
    · rw [names_put_of_not_mem (by rwa [ih, List.mem_eraseDups]), ih]
      simp [List.removeAll, hmem, List.eraseDups_cons]

/-- A field has the value that was put last. -/
theorem get?_update (old new : Fields) (name : String) :
    (old.update new).get? name =
      ((new.filter fun field => field.1 = name).getLast?.map Prod.snd).or (old.get? name) := by
  induction new generalizing old with
  | nil => rfl
  | cons field new ih =>
    rw [update_cons, ih, get?_put]
    by_cases hname : field.1 = name
    · rw [if_pos hname.symm, List.filter_cons_of_pos (by simpa using hname), List.getLast?_cons]
      cases (new.filter fun field => field.1 = name).getLast? <;> rfl
    · rw [if_neg (Ne.symm hname), List.filter_cons_of_neg (by simpa using hname)]

/-- Of fields with different names the last one of a name is the only one. -/
theorem getLast?_eq_get? {fields : Fields} (h : fields.Distinct) (name : String) :
    (fields.filter fun field => field.1 = name).getLast?.map Prod.snd = fields.get? name := by
  induction fields with
  | nil => rfl
  | cons field fields ih =>
    obtain ⟨hfield, hrest⟩ := List.nodup_cons.1 h
    by_cases hname : field.1 = name
    · have hnone : (fields.filter fun field => field.1 = name) = [] := by
        rw [List.filter_eq_nil_iff]
        intro other hother heq
        apply hfield
        rw [hname, ← of_decide_eq_true heq]
        exact List.mem_map_of_mem hother
      rw [List.filter_cons_of_pos (by simpa using hname), hnone, get?, if_pos hname]
      rfl
    · rw [List.filter_cons_of_neg (by simpa using hname), get?, if_neg hname, ih hrest]

/-- A field that is there may be given its value before others are updated, or after it. -/
theorem put_update {old new : Fields} {name : String} (hold : name ∈ old.names)
    (hnew : name ∉ new.names) (v : Value) :
    put name v (old.update new) = (old.put name v).update new := by
  induction new generalizing old with
  | nil => rfl
  | cons field new ih =>
    rw [names_cons, List.mem_cons, not_or] at hnew
    have hput : name ∈ (old.put field.1 field.2).names := mem_names_put.2 (.inr hold)
    rw [update_cons, ih hput hnew.2, ← put_comm hold hnew.1, update_cons]

/-- Putting a field and then updating with the object is updating and then putting the field. -/
theorem update_put {between : Fields} (h : between.Distinct) (old : Fields) (name : String)
    (v : Value) : old.update (between.put name v) = (old.update between).put name v := by
  induction between generalizing old with
  | nil => rfl
  | cons field between ih =>
    obtain ⟨hfield, hrest⟩ := List.nodup_cons.1 h
    rw [put]
    split
    next hname =>
      rw [← hname, update_cons, update_cons, put_update (mem_names_put.2 (.inl rfl)) hfield,
        put_put]
    next => rw [update_cons, ih hrest, update_cons]

/-- Updates are associative. -/
theorem update_update {between : Fields} (h : between.Distinct) (old new : Fields) :
    old.update (between.update new) = (old.update between).update new := by
  induction new generalizing between with
  | nil => rfl
  | cons field new ih => rw [update_cons, ih (distinct_put h _ _), update_put h, update_cons]

end SellRules.Fields
