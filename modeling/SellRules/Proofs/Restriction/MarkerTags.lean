import SellRules.Proofs.Entry.Marker
import SellRules.Proofs.Restriction.Lookup
import SellRules.Proofs.Restriction.Token
import SellRules.Restriction.Structured

/-!
# Tags that ask for markers

A tag that is declared in structured form asks for the marker whose name is the tag without quotes,
brackets and blanks. Brackets never stand in the name of a marker, so writing them around the name
makes no difference; quotes and blanks may, and then the tag asks for another name than the note
declares.
-/

set_option autoImplicit false

namespace SellRules

/-! ## Decoration -/

namespace Token

theorem stripMarker_bracketed (t : String) : stripMarker ("<" ++ t ++ ">") = stripMarker t := by
  unfold stripMarker
  rw [String.toList_append, String.toList_append, List.filter_append, List.filter_append]
  exact congrArg String.ofList (List.append_nil _)

end Token

/-- Brackets are no concern in the name of a marker. -/
theorem Marker.stripMarker_eq_self {note t : String} {v : Value}
    (h : (ofNote note).get? t = some v)
    (hplain : ∀ c ∈ t.toList, c ≠ '\x22' ∧ Text.isBlank c = false) : Token.stripMarker t = t := by
  refine Token.stripMarker_eq_self fun c hc => ?_
  obtain ⟨hopen, hclose, -⟩ := (isName_of_get?_ofNote h).2 c hc
  obtain ⟨hquote, hblank⟩ := hplain c hc
  simp [Token.isDecoration, hopen, hclose, hquote, hblank]

/-! ## Tags alone -/

namespace RestrictionSet

/-- The restriction set with one tag. -/
def ofTag (tag : String) : RestrictionSet := .ofRules [(.tags, .text tag)]

theorem tags_ofTag (tag : String) : (ofTag tag).tags.toList = [.text tag] := rfl

/-- With one tag alone, each id is looked up among none. -/
theorem idAnswers_ofTag {tag : String} {e : Entry} {a : Except Failure Bool}
    (ha : a ∈ (ofTag tag).idAnswers e) : ∃ v ∈ e.id :: e.typeIds, a = ScalarSet.has .empty v := by
  simp only [idAnswers, List.mem_append, List.mem_ite_nil_right, List.mem_cons, List.not_mem_nil,
    or_false] at ha
  rcases ha with (⟨-, rfl | rfl | rfl⟩ | ⟨-, rfl | rfl | rfl⟩) | ⟨-, rfl | rfl⟩ <;>
    exact ⟨_, by simp [Entry.typeIds], rfl⟩

/-- An entry is allowed on account of a tag alone if its marker of that name holds anything. -/
theorem allows_ofTag {e : Entry} (he : e.Plain) {markers : Fields}
    (hmarkers : e.markers = .object markers) (tag : String) :
    (ofTag tag).allows e = .ok ((markers.get? tag).getD .null).truthy := by
  have hids : ∀ a ∈ (ofTag tag).idAnswers e, a = .ok false := by
    intro a ha
    obtain ⟨v, hv, rfl⟩ := idAnswers_ofTag ha
    exact ScalarSet.has_empty (he v hv)
  rw [allows, firstYes_append_of_no hids, tagAnswers, tags_ofTag]
  simp only [List.map_cons, List.map_nil, marked, hmarkers]
  cases ((markers.get? tag).getD .null).truthy <;> rfl

end RestrictionSet

/-- A list of one text, as tags. -/
theorem Structured.parse_meta (t : String) :
    parse (.object [("meta", .list [.text t])]) = .ok (.ofTag (Token.stripMarker t)) := rfl

/-- **A tag asks for the marker of its plain name.** A marker that a note declares may be declared
as a tag, with brackets or without. The restriction set then allows an entry with the markers of the
note if the name without quotes and blanks is itself a marker that holds anything; so it does
whenever there are none in the name. -/
theorem tag_of_marker_asks_for_plain_name {note t element : String} {v : Value}
    (hmarker : (Marker.ofNote note).get? t = some v) (hv : v.truthy = true)
    (helement : element = t ∨ element = "<" ++ t ++ ">") :
    ∃ r, Structured.parse (.object [("meta", .list [.text element])]) = .ok r ∧
      ∀ e : Entry, e.Plain → e.markers = .object (Marker.ofNote note) →
        r.allows e =
          .ok (((Marker.ofNote note).get? (Token.stripMarker t)).getD .null).truthy ∧
        ((∀ c ∈ t.toList, c ≠ '\x22' ∧ Text.isBlank c = false) → r.allows e = .ok true) := by
  have hstrip : Token.stripMarker element = Token.stripMarker t := by
    rcases helement with rfl | rfl
    · rfl
    · exact Token.stripMarker_bracketed t
  refine ⟨.ofTag (Token.stripMarker t), ?_, fun e he hmarkers => ?_⟩
  · rw [Structured.parse_meta, hstrip]
  · have hallows := RestrictionSet.allows_ofTag he hmarkers (Token.stripMarker t)
    refine ⟨hallows, fun hplain => ?_⟩
    rw [hallows, Marker.stripMarker_eq_self hmarker hplain, hmarker, Option.getD_some, hv]

/-- A weapon with the markers of a note. -/
def Entry.ofNote (note : String) : Entry where
  id := .int 1
  name := .text "sword"
  kind := .weapon
  weaponTypeId := .int 1
  markers := .object (Marker.ofNote note)

theorem Entry.plain_ofNote (note : String) : (ofNote note).Plain := by
  simp [Plain, typeIds, ofNote, Value.hasParts]

/-- A name without blanks and quotes, declared in brackets, is asked for. -/
theorem tag_of_plain_marker_allows :
    ∃ r, Structured.parse (.object [("meta", .list [.text "<rare>"])]) = .ok r ∧
      r.allows (.ofNote "a <rare> and <old:very> sword") = .ok true := by
  obtain ⟨r, hr, hallows⟩ := @tag_of_marker_asks_for_plain_name "a <rare> and <old:very> sword"
    "rare" "<rare>" (.bool true) (by decide +kernel) rfl (.inr (by decide +kernel))
  have hall : ("rare".toList.all fun c => c != '\x22' && !Text.isBlank c) = true := by
    decide +kernel
  simp only [List.all_eq_true, Bool.and_eq_true, bne_iff_ne, Bool.not_eq_true'] at hall
  exact ⟨r, hr, (hallows _ (Entry.plain_ofNote _) rfl).2 hall⟩

/-- A name with a blank is declared by the note, but its tag asks for another name. -/
theorem tag_of_spaced_marker_does_not_allow :
    (Marker.ofNote "<fire sword>").get? "fire sword" = some (.bool true) ∧
      ∃ r, Structured.parse (.object [("meta", .list [.text "fire sword"])]) = .ok r ∧
        r.allows (.ofNote "<fire sword>") = .ok false := by
  have hstrip : Token.stripMarker "fire sword" = "firesword" := by decide +kernel
  have hnone : (((Marker.ofNote "<fire sword>").get? "firesword").getD .null).truthy = false := by
    decide +kernel
  refine ⟨by decide +kernel, _, Structured.parse_meta _, ?_⟩
  rw [hstrip, RestrictionSet.allows_ofTag (Entry.plain_ofNote _) rfl, hnone]

end SellRules
