import SellRules.Entry.Marker

/-!
# Names of markers

A name that is read out of a note is not empty and holds no angle bracket and no colon
(`Marker.isName_of_get?_ofNote`). The invariant is one on the place of the reader: what was read of
a name so far is free of these characters.
-/

set_option autoImplicit false

namespace SellRules

namespace Fields

/-- A field of an object that was put together is one of the fields that were put into it. -/
theorem mem_of_get?_update {old new : Fields} {name : String} {v : Value}
    (h : (old.update new).get? name = some v) : (name, v) ∈ new ∨ old.get? name = some v := by
  induction new generalizing old with
  | nil => exact .inr h
  | cons field rest ih =>
    rcases ih h with h | h
    · exact .inl (by simp [h])
    · rw [get?_put] at h
      split at h
      next hname =>
        cases h
        exact .inl (by simp [hname])
      next => exact .inr h

end Fields

namespace Marker

/-- Characters that stand in a name. -/
def IsNameChar (c : Char) : Prop := c ≠ '<' ∧ c ≠ '>' ∧ c ≠ ':'

def IsName (cs : List Char) : Prop := cs ≠ [] ∧ ∀ c ∈ cs, IsNameChar c

/-- What was read of a name is fit for one. -/
def Place.Clean : Place → Prop
  | .outside => True
  | .name read => ∀ c ∈ read, IsNameChar c
  | .value found _ _ => IsName found

theorem isName_entryOf {name : List Char} (h : IsName name) (v : Value) :
    IsName (entryOf name v).1.toList := by
  rw [entryOf, String.toList_ofList]
  exact ⟨by simpa using h.1, fun c hc => h.2 c (by simpa using hc)⟩

theorem isName_of_mem_scan {place : Place} (hp : place.Clean) {cs : List Char}
    {marker : String × Value} (h : marker ∈ scan place cs) : IsName marker.1.toList := by
  fun_induction scan place cs with
  | case1 => simp at h
  | case2 c cs ih =>
    refine ih ?_ h
    split
    · exact fun c hc => nomatch hc
    · exact trivial
  | case3 cs ih => exact ih hp h
  | case4 c cs _ _ ih => exact ih trivial h
  | case5 c cs hopen hstop ih =>
    -- The first character of a name.
    simp only [Bool.or_eq_true, decide_eq_true_eq, not_or] at hstop
    refine ih (fun x hx => ?_) h
    rw [List.mem_singleton.1 hx]
    exact ⟨hopen, hstop⟩
  | case6 d read cs ih =>
    rcases List.mem_cons.1 h with rfl | h
    · exact isName_entryOf ⟨by simp, hp⟩ _
    · exact ih trivial h
  | case7 d read cs _ ih => exact ih ⟨by simp, hp⟩ h
  | case8 d read cs _ _ ih => exact ih ⟨by simp, hp⟩ h
  | case9 d read c cs hclose hcolon hopen ih =>
    refine ih (fun x hx => ?_) h
    rcases List.mem_cons.1 hx with rfl | hx
    · exact ⟨hopen, hclose, hcolon⟩
    · exact hp x hx
  | case10 name valued read cs ih =>
    rcases List.mem_cons.1 h with rfl | h
    · exact isName_entryOf hp _
    · exact ih trivial h
  | case11 name valued read c cs _ ih => exact ih hp h

theorem isName_of_get?_ofNote {note name : String} {v : Value}
    (h : (ofNote note).get? name = some v) : IsName name.toList := by
  rcases Fields.mem_of_get?_update h with h | h
  · exact @isName_of_mem_scan .outside trivial _ _ h
  · cases h

end Marker

end SellRules
