import Mathlib.Data.List.DropRight
import SellRules.Proofs.Entry.Occurrence

/-!
# Notes with written markers

Reading a note undoes writing it: markers that were written between texts without opening brackets
are the occurrences that are found (`Marker.finds_noteOf`). Reading is also local. After a closing
bracket the reader stands outside of all markers (`Marker.scan_append_close`), so a note that ends
there, or in text without an opening bracket, is read by itself (`Marker.scan_append`).
-/

set_option autoImplicit false

namespace SellRules.Marker

/-- A marker to be written. -/
structure Written where
  name : String
  /-- None for a marker that means true. -/
  value : Option String

namespace Written

/-- The name can be one, and the value does not close the marker. -/
structure IsFit (w : Written) : Prop where
  name : IsName w.name.toList
  value : ∀ v ∈ w.value, '>' ∉ v.toList

instance (w : Written) : Decidable w.IsFit :=
  decidable_of_iff (IsName w.name.toList ∧ ∀ v ∈ w.value, '>' ∉ v.toList)
    ⟨fun h => ⟨h.1, h.2⟩, fun h => ⟨h.name, h.value⟩⟩

def meaning (w : Written) : Value := w.value.elim (.bool true) .text

def occurrence (w : Written) : Occurrence :=
  ⟨w.name.toList, w.value.isSome, (w.value.getD "").toList⟩

theorem text_occurrence (w : Written) : w.occurrence.text = write w.name w.value := by
  obtain ⟨name, value⟩ := w
  cases value with
  | none => simp [occurrence, Occurrence.text, write]
  | some v => simp [occurrence, Occurrence.text, write]

theorem meaning_occurrence (w : Written) : w.occurrence.meaning = w.meaning := by
  obtain ⟨name, value⟩ := w
  cases value with
  | none => rfl
  | some v => simp [occurrence, Occurrence.meaning, meaning]

theorem IsFit.occurrence {w : Written} (h : w.IsFit) : w.occurrence.IsFit := by
  obtain ⟨name, value⟩ := w
  cases value with
  | none => exact ⟨h.name, by simp [Written.occurrence], by simp [Written.occurrence]⟩
  | some v => exact ⟨h.name, h.value v rfl, nofun⟩

end Written

/-- A note with markers in it: some text, and then each marker with the text behind it. -/
def noteOf (before : String) (pieces : List (Written × String)) : String :=
  String.ofList (before.toList ++
    pieces.flatMap fun piece => write piece.1.name piece.1.value ++ piece.2.toList)

/-! ## Finding what was written -/

/-- Text without an opening bracket has no part in any occurrence. -/
theorem Finds.append_left {before cs : List Char} {found : List Occurrence} (h : Finds cs found)
    (hbefore : '<' ∉ before) : Finds (before ++ cs) found := by
  induction before with
  | nil => exact h
  | cons c before ih =>
    rw [List.mem_cons, not_or] at hbefore
    apply Finds.skip
    · intro m _ hprefix
      exact hbefore.1 (exists_prefix_of_text hprefix).symm
    · exact ih hbefore.2

/-- The markers that were written are found, and no others. -/
theorem finds_noteOf {before : String} {pieces : List (Written × String)}
    (hbefore : '<' ∉ before.toList)
    (hpieces : ∀ piece ∈ pieces, piece.1.IsFit ∧ '<' ∉ piece.2.toList) :
    Finds (noteOf before pieces).toList (pieces.map fun piece => piece.1.occurrence) := by
  rw [noteOf, String.toList_ofList]
  apply Finds.append_left _ hbefore
  induction pieces with
  | nil => exact .nil
  | cons piece pieces ih =>
    obtain ⟨⟨hfit, hbehind⟩, hpieces⟩ := List.forall_mem_cons.1 hpieces
    rw [List.flatMap_cons, List.append_assoc, ← piece.1.text_occurrence]
    exact .take hfit.occurrence ((ih hpieces).append_left hbehind)

/-! ## Reading notes one after the other -/

/-- Behind a closing bracket, wherever it stands, the reader is outside of all markers. -/
theorem scan_append_close (place : Place) (cs rest : List Char) :
    scan place (cs ++ '>' :: rest) = scan place (cs ++ ['>']) ++ scan .outside rest := by
  induction cs generalizing place with
  | nil =>
    match place with
    | .outside => simp [scan]
    | .name [] => simp [scan]
    | .name (d :: read) => simp [scan]
    | .value name valued read => simp [scan]
  | cons c cs ih =>
    match place with
    | .outside => simp only [List.cons_append, scan, ih]
    | .name [] =>
      simp only [List.cons_append, scan]
      split_ifs <;> exact ih _
    | .name (d :: read) =>
      simp only [List.cons_append, scan]
      split_ifs
      · rw [ih, List.cons_append]
      all_goals exact ih _
    | .value name valued read =>
      simp only [List.cons_append, scan]
      split_ifs
      · rw [ih, List.cons_append]
      · exact ih _

/-- In text without an opening bracket no marker begins. -/
theorem scan_outside_append {cs : List Char} (h : '<' ∉ cs) (rest : List Char) :
    scan .outside (cs ++ rest) = scan .outside rest := by
  induction cs with
  | nil => rfl
  | cons c cs ih =>
    rw [List.mem_cons, not_or] at h
    rw [List.cons_append, scan, if_neg (Ne.symm h.1), ih h.2]

/-- No marker is left open at the end: behind the last closing bracket, and in the whole text if
there is none, no opening one stands. -/
def IsClosed (cs : List Char) : Prop := '<' ∉ cs.rtakeWhile (· ≠ '>')

instance (cs : List Char) : Decidable (IsClosed cs) := inferInstanceAs (Decidable (¬_))

theorem isClosed_cases {cs : List Char} (h : IsClosed cs) :
    '<' ∉ cs ∨ ∃ front behind, cs = front ++ '>' :: behind ∧ '<' ∉ behind := by
  induction cs using List.reverseRecOn with
  | nil => exact .inl List.not_mem_nil
  | append_singleton cs c ih =>
    by_cases hclose : c = '>'
    · exact .inr ⟨cs, [], by rw [hclose], List.not_mem_nil⟩
    · rw [IsClosed, List.rtakeWhile_concat_pos _ _ _ (by simpa using hclose), List.mem_append,
        List.mem_singleton, not_or] at h
      rcases ih h.1 with hcs | ⟨front, behind, rfl, hbehind⟩
      · exact .inl (by simp [hcs, h.2])
      · exact .inr ⟨front, behind ++ [c], by simp, by simp [hbehind, h.2]⟩

/-- A text in which no marker is left open is read by itself. -/
theorem scan_append {cs : List Char} (h : IsClosed cs) (rest : List Char) :
    scan .outside (cs ++ rest) = scan .outside cs ++ scan .outside rest := by
  have hnone {behind : List Char} (h : '<' ∉ behind) : scan .outside behind = [] := by
    have hread := scan_outside_append h []
    rwa [List.append_nil] at hread
  rcases isClosed_cases h with hcs | ⟨front, behind, rfl, hbehind⟩
  · rw [scan_outside_append hcs, hnone hcs, List.nil_append]
  · rw [List.append_assoc, List.cons_append, scan_append_close, scan_outside_append hbehind,
      scan_append_close .outside front behind, hnone hbehind, List.append_nil]

/-! ## Notes -/

/-- **Reading markers undoes writing them, and it is local.** From a note with written markers each
name is read with its last value, in the order of first appearance, whatever text without an opening
bracket stands around them. And a note that is put behind another, in which no marker is left open,
adds to the markers of that what it gives by itself. -/
theorem written_markers_are_read :
    (∀ (before : String) (pieces : List (Written × String)), '<' ∉ before.toList →
      (∀ piece ∈ pieces, piece.1.IsFit ∧ '<' ∉ piece.2.toList) →
      (ofNote (noteOf before pieces)).names =
          (pieces.map fun piece => piece.1.name).eraseDups ∧
        ∀ name, (ofNote (noteOf before pieces)).get? name =
          (pieces.filter fun piece => piece.1.name = name).getLast?.map (·.1.meaning)) ∧
    ∀ a b : String, IsClosed a.toList → ofNote (a ++ b) = (ofNote a).update (ofNote b) := by
  constructor
  · intro before pieces hbefore hpieces
    have hfound := finds_noteOf hbefore hpieces
    constructor
    · rw [names_ofNote hfound, List.map_map]
      congr 2
      funext piece
      exact String.ofList_toList
    · intro name
      have hname (piece : Written × String) :
          piece.1.occurrence.name = name.toList ↔ piece.1.name = name := String.toList_inj
      rw [get?_ofNote hfound, List.filter_map, List.getLast?_map, Option.map_map]
      simp only [Function.comp_def, hname, Written.meaning_occurrence]
  · intro a b hclosed
    have hdistinct : Fields.Distinct [] := List.nodup_nil
    rw [ofNote, String.toList_append, scan_append hclosed, Fields.update_append]
    exact (Fields.update_update hdistinct (ofNote a) _).symm

/-- Two markers of one name, and between them one with an opening bracket in its value. -/
def fireAndIce : List (Written × String) :=
  [(⟨"fire", none⟩, " and "), (⟨"ice", some "a<b"⟩, " sword, "), (⟨"fire", some "hot"⟩, "")]

def fireAndIceNote : String := "a <fire> and <ice:a<b> sword, <fire:hot>"

/-- The markers of the note are read, and one behind it replaces the value of the other name. -/
theorem fire_and_ice_are_read :
    (ofNote fireAndIceNote).names = ["fire", "ice"] ∧
      (ofNote fireAndIceNote).get? "fire" = some (.text "hot") ∧
      ofNote (fireAndIceNote ++ "<ice>") = (ofNote fireAndIceNote).update (ofNote "<ice>") := by
  have hnote : noteOf "a " fireAndIce = fireAndIceNote := by decide +kernel
  have hpieces : ∀ piece ∈ fireAndIce, piece.1.IsFit ∧ '<' ∉ piece.2.toList := by
    refine List.forall_mem_cons.2 ⟨⟨?_, ?_⟩, List.forall_mem_cons.2 ⟨⟨?_, ?_⟩,
      List.forall_mem_singleton.2 ⟨?_, ?_⟩⟩⟩ <;> decide +kernel
  obtain ⟨hread, hlocal⟩ := written_markers_are_read
  obtain ⟨hnames, hvalues⟩ := hread "a " fireAndIce (by decide +kernel) hpieces
  rw [hnote] at hnames hvalues
  exact ⟨by rw [hnames]; decide +kernel, by rw [hvalues]; decide +kernel,
    hlocal _ _ (by decide +kernel)⟩

end SellRules.Marker
