import Mathlib.Data.List.TakeWhile
import SellRules.Proofs.Entry.Marker
import SellRules.Proofs.Value.Fields

/-!
# Occurrences of markers

Which pieces of a note are markers, said without the reader of notes. An occurrence has a name that
goes on as long as it can, a colon if one stands behind it, and then everything up to the next
closing bracket (`Marker.Occurrence`). The occurrences of a note are found from left to right, each
behind the one before (`Marker.Finds`). Every note has its occurrences (`Marker.exists_finds`), and
they are what is read of it (`Marker.scan_of_finds`): a name means what its last occurrence means
(`Marker.get?_ofNote`).
-/

set_option autoImplicit false

namespace SellRules.Marker

instance (c : Char) : Decidable (IsNameChar c) := inferInstanceAs (Decidable (_ ∧ _))

-- By the members of the list: there is also an instance that goes through all characters.
instance (cs : List Char) : Decidable (IsName cs) :=
  @instDecidableAnd _ _ _ (List.decidableBAll IsNameChar cs)

/-- A piece of a note that is a marker. -/
structure Occurrence where
  name : List Char
  /-- Whether a colon follows the name. -/
  valued : Bool
  /-- What stands behind the name and the colon. -/
  rest : List Char
  deriving DecidableEq

namespace Occurrence

def text (m : Occurrence) : List Char :=
  '<' :: m.name ++ (if m.valued then ':' :: m.rest else m.rest) ++ ['>']

/-- A name without a colon is followed by the closing bracket or by an opening one: any other
character would belong to the name. -/
structure IsFit (m : Occurrence) : Prop where
  name : IsName m.name
  rest : '>' ∉ m.rest
  ends : m.valued = false → ∀ c ∈ m.rest.head?, c = '<'

/-- True without a colon, and with one the text behind it. -/
def meaning (m : Occurrence) : Value :=
  if m.valued then .text (String.ofList m.rest) else .bool true

def field (m : Occurrence) : String × Value := (String.ofList m.name, m.meaning)

end Occurrence

/-- The occurrences in a text from left to right. Where one begins it is taken, and the search goes
on behind it; where none begins, the search goes on at the next character. -/
inductive Finds : List Char → List Occurrence → Prop
  | nil : Finds [] []
  | skip {c : Char} {cs : List Char} {found : List Occurrence}
      (hnone : ∀ m : Occurrence, m.IsFit → ¬m.text <+: c :: cs) (hrest : Finds cs found) :
      Finds (c :: cs) found
  | take {m : Occurrence} {after : List Char} {found : List Occurrence} (hfit : m.IsFit)
      (hrest : Finds after found) : Finds (m.text ++ after) (m :: found)

/-! ## Reading pieces -/

/-- Characters of a name are kept. -/
theorem scan_name {cs : List Char} (h : ∀ c ∈ cs, IsNameChar c) (read rest : List Char) :
    scan (.name read) (cs ++ rest) = scan (.name (cs.reverse ++ read)) rest := by
  induction cs generalizing read with
  | nil => rfl
  | cons c cs ih =>
    obtain ⟨⟨hopen, hclose, hcolon⟩, hcs⟩ := List.forall_mem_cons.1 h
    have hstep : scan (.name read) (c :: (cs ++ rest)) = scan (.name (c :: read)) (cs ++ rest) := by
      cases read <;> simp [scan, hopen, hclose, hcolon]
    rw [List.cons_append, hstep, ih hcs, List.reverse_cons, List.append_assoc]
    rfl

/-- A value goes up to the first closing bracket. -/
theorem scan_value {cs : List Char} (h : '>' ∉ cs) (name : List Char) (valued : Bool)
    (read rest : List Char) :
    scan (.value name valued read) (cs ++ '>' :: rest) =
      entryOf name (meaning valued (cs.reverse ++ read)) :: scan .outside rest := by
  induction cs generalizing read with
  | nil => simp [scan]
  | cons c cs ih =>
    rw [List.mem_cons, not_or] at h
    rw [List.cons_append, scan, if_neg (Ne.symm h.1), ih h.2, List.reverse_cons, List.append_assoc]
    rfl

/-- Without a closing bracket there is no marker. -/
theorem scan_of_not_mem {cs : List Char} (h : '>' ∉ cs) (place : Place) : scan place cs = [] := by
  fun_induction scan place cs with
  | case1 place => rfl
  | case6 d read cs ih => simp at h
  | case10 name valued read cs ih => simp at h
  | _ => simp_all

theorem scan_text {m : Occurrence} (h : m.IsFit) (after : List Char) :
    scan .outside (m.text ++ after) = m.field :: scan .outside after := by
  obtain ⟨name, valued, rest⟩ := m
  obtain ⟨⟨hne, hname⟩, hrest, hends⟩ := h
  have hread : name.reverse ++ [] ≠ [] := by simpa using hne
  obtain ⟨d, read, hreverse⟩ := List.exists_cons_of_ne_nil hread
  have hfield (v : Value) : entryOf (d :: read) v = (String.ofList name, v) := by
    rw [entryOf, ← hreverse, List.append_nil, List.reverse_reverse]
  rw [Occurrence.text, List.append_assoc, List.append_assoc, List.cons_append, scan, if_pos rfl,
    scan_name hname, hreverse]
  cases valued with
  | true =>
    rw [if_pos rfl, List.cons_append, scan, if_neg (by decide), if_pos rfl, List.singleton_append,
      scan_value hrest, hfield, List.append_nil]
    simp [Occurrence.field, Occurrence.meaning, meaning]
  | false =>
    rw [if_neg Bool.false_ne_true, List.singleton_append]
    cases rest with
    | nil =>
      rw [List.nil_append, scan, if_pos rfl, hfield]
      rfl
    | cons c rest =>
      obtain rfl := hends rfl c rfl
      rw [List.mem_cons, not_or] at hrest
      rw [List.cons_append, scan, if_neg (by decide), if_neg (by decide), if_pos rfl,
        scan_value hrest.2, hfield]
      rfl

/-! ## Where an occurrence begins -/

theorem exists_prefix_of_text {m : Occurrence} {c : Char} {cs : List Char}
    (h : m.text <+: c :: cs) : c = '<' := by
  obtain ⟨after, hafter⟩ := h
  exact (List.cons.inj hafter).1.symm

/-- An opening bracket with a name behind it and a closing bracket somewhere begins an
occurrence. -/
theorem exists_occurrence {name tail : List Char} (hname : IsName name)
    (htail : ∀ c ∈ tail.head?, ¬IsNameChar c) (hclose : '>' ∈ tail) :
    ∃ m : Occurrence, m.IsFit ∧ m.text <+: '<' :: (name ++ tail) := by
  obtain ⟨rest, after, rfl, hrest⟩ := List.eq_append_cons_of_mem hclose
  cases rest with
  | nil =>
    refine ⟨⟨name, false, []⟩, ⟨hname, hrest, by simp⟩, after, ?_⟩
    simp [Occurrence.text]
  | cons c rest =>
    rw [List.mem_cons, not_or] at hrest
    have hc : c = '<' ∨ c = ':' := by
      have hstop := htail c rfl
      simp only [IsNameChar, ne_eq, Ne.symm hrest.1, not_false_eq_true, true_and] at hstop
      tauto
    rcases hc with rfl | rfl
    · refine ⟨⟨name, false, '<' :: rest⟩, ⟨hname, by simpa using hrest.2, by simp⟩, after, ?_⟩
      simp [Occurrence.text]
    · refine ⟨⟨name, true, rest⟩, ⟨hname, hrest.2, by simp⟩, after, ?_⟩
      simp [Occurrence.text]

/-- Where no occurrence begins, a character is passed over. -/
theorem scan_cons_of_none {c : Char} {cs : List Char}
    (hnone : ∀ m : Occurrence, m.IsFit → ¬m.text <+: c :: cs) :
    scan .outside (c :: cs) = scan .outside cs := by
  by_cases hc : c = '<'
  · subst hc
    rw [scan, if_pos rfl]
    obtain hname | hname := eq_or_ne (cs.takeWhile (IsNameChar ·)) []
    · -- Nothing that could be a name follows the bracket.
      cases cs with
      | nil => rfl
      | cons d cs =>
        have hd : ¬IsNameChar d := by
          intro hd
          rw [List.takeWhile_cons_of_pos (by simpa using hd)] at hname
          cases hname
        by_cases hopen : d = '<'
        · simp [scan, hopen]
        · have hstop : d = '>' ∨ d = ':' := by
            simp only [IsNameChar, ne_eq, hopen, not_false_eq_true, true_and] at hd
            tauto
          simp [scan, hopen, hstop]
    · -- A name follows, so there is no closing bracket to end a marker.
      have hsplit : cs.takeWhile (IsNameChar ·) ++ cs.dropWhile (IsNameChar ·) = cs :=
        List.takeWhile_append_dropWhile
      have hchars : ∀ c ∈ cs.takeWhile (IsNameChar ·), IsNameChar c := fun c hc => by
        simpa using List.mem_takeWhile_imp hc
      have htail : ∀ c ∈ (cs.dropWhile (IsNameChar ·)).head?, ¬IsNameChar c := by
        intro c hc
        have hstop := List.head?_dropWhile_not (IsNameChar ·) cs
        rw [Option.mem_def.1 hc] at hstop
        simpa using hstop
      have hclose : '>' ∉ cs := by
        rw [← hsplit, List.mem_append, not_or]
        refine ⟨fun hmem => (hchars _ hmem).2.1 rfl, fun hmem => ?_⟩
        obtain ⟨m, hfit, hprefix⟩ := exists_occurrence ⟨hname, hchars⟩ htail hmem
        rw [hsplit] at hprefix
        exact hnone m hfit hprefix
      rw [scan_of_not_mem hclose, scan_of_not_mem hclose]
  · rw [scan, if_neg hc]

/-! ## Occurrences of a note -/

/-- What is read of a text are its occurrences. -/
theorem scan_of_finds {cs : List Char} {found : List Occurrence} (h : Finds cs found) :
    scan .outside cs = found.map Occurrence.field := by
  induction h with
  | nil => rfl
  | skip hnone _ ih => rw [scan_cons_of_none hnone, ih]
  | take hfit _ ih => rw [scan_text hfit, ih, List.map_cons]

theorem exists_finds (cs : List Char) : ∃ found, Finds cs found := by
  induction hlength : cs.length using Nat.strong_induction_on generalizing cs with
  | _ n ih =>
    cases cs with
    | nil => exact ⟨[], .nil⟩
    | cons c cs =>
      by_cases hbegins : ∃ m : Occurrence, m.IsFit ∧ m.text <+: c :: cs
      · obtain ⟨m, hfit, after, hafter⟩ := hbegins
        have hshorter : after.length < n := by
          rw [← hlength, ← hafter, List.length_append, Occurrence.text, List.cons_append,
            List.cons_append, List.length_cons]
          omega
        obtain ⟨found, hfound⟩ := ih _ hshorter after rfl
        exact ⟨m :: found, hafter ▸ .take hfit hfound⟩
      · have hshorter : cs.length < n := by
          rw [← hlength]
          exact Nat.lt_succ_self _
        obtain ⟨found, hfound⟩ := ih _ hshorter cs rfl
        exact ⟨found, .skip (fun m hfit hprefix => hbegins ⟨m, hfit, hprefix⟩) hfound⟩

theorem ofNote_of_finds {note : String} {found : List Occurrence} (h : Finds note.toList found) :
    ofNote note = Fields.update [] (found.map Occurrence.field) := by
  rw [ofNote, scan_of_finds h]

theorem names_ofNote {note : String} {found : List Occurrence} (h : Finds note.toList found) :
    (ofNote note).names = (found.map fun m => String.ofList m.name).eraseDups := by
  rw [ofNote_of_finds h, Fields.names_update, Fields.names, List.map_map]
  rfl

/-- A name means what its last occurrence means. -/
theorem get?_ofNote {note : String} {found : List Occurrence} (h : Finds note.toList found)
    (name : String) :
    (ofNote note).get? name =
      (found.filter fun m => m.name = name.toList).getLast?.map Occurrence.meaning := by
  have hfilter : (found.map Occurrence.field).filter (fun field => field.1 = name) =
      (found.filter fun m => m.name = name.toList).map Occurrence.field := by
    rw [List.filter_map]
    congr 2
    funext m
    apply decide_eq_decide.2
    show String.ofList m.name = name ↔ m.name = name.toList
    rw [← String.toList_inj, String.toList_ofList]
  rw [ofNote_of_finds h, Fields.get?_update, hfilter, List.getLast?_map, Option.map_map]
  exact Option.or_none

end SellRules.Marker
