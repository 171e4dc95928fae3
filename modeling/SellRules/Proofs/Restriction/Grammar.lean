import SellRules.Proofs.Json.Limit
import SellRules.Proofs.Number.Numeral
import SellRules.Proofs.Restriction.Structured
import SellRules.Proofs.Restriction.Union

/-!
# The grammar of structured declarations

What a structured declaration may look like, said without the decoder: the list that the value of a
field stands for (`Structured.StandsFor`), what an element of it gives (`Structured.Reads`), and
where the value of a field stands (`Structured.Stands`). The decoder accepts exactly this grammar and
gives what the elements give; a declaration that does not keep to it is reported under the key of the
first field that does not fit (`Structured.parse_accepts_exactly_grammar`). The exception are
declarations with a field that is nested too deep (`Structured.NestedTooDeep`), on which the reader
gives up without a report.
-/

set_option autoImplicit false

namespace SellRules.Structured

open Number (IsSigned readPlain_eq_ok_iff)
open RestrictionSet (Suits suits_int suits_text mem_ofRules_iff)

/-! ## The grammar -/

/-- The list that a value stands for: nothing and a blank text stand for the empty list, a JSON text
for the list that it holds. -/
inductive StandsFor : Value → List Value → Prop
  | nothing : StandsFor .null []
  | blank {s : String} (h : ∀ c ∈ s.toList, Text.isBlank c = true) : StandsFor (.text s) []
  | list (items : List Value) : StandsFor (.list items) items
  | encoded {raw : Value} {items : List Value}
      (h : Json.readText? raw = some (.ok (.list items))) : StandsFor raw items

/-- What an element gives for a rule: a whole number or a text of one, with blanks around it, gives
an id; a text gives the tag that is left without double quotes, angle brackets and blanks. -/
inductive Reads : Rule → Value → Scalar → Prop
  | number {rule : Rule} (hrule : rule ≠ .tags) (n : Int) : Reads rule (.int n) (.int n)
  | numeral {rule : Rule} {s : String} {n : Int} (hrule : rule ≠ .tags)
      (h : IsSigned (Text.trim s.toList) n) : Reads rule (.text s) (.int n)
  | tag (s : String) : Reads .tags (.text s) (.text (String.ofList (s.toList.filter fun c =>
      c ≠ '\x22' ∧ c ≠ '<' ∧ c ≠ '>' ∧ Text.isBlank c = false)))

/-- The value of a rule stands under its authoring name or, if nothing does, under the name of the
rule. -/
inductive Stands (fields : Fields) (rule : Rule) (authored : String) : String → Value → Prop
  | authored {raw : Value} (h : fields.get? authored = some raw) :
      Stands fields rule authored authored raw
  | named {raw : Value} (hauthored : fields.get? authored = none)
      (h : fields.get? rule.name = some raw) : Stands fields rule authored rule.name raw

/-- A value stands for a list all of whose elements give something. -/
def Fits (rule : Rule) (raw : Value) : Prop :=
  ∃ items, StandsFor raw items ∧ ∀ element ∈ items, ∃ a, Reads rule element a

/-- The value of a rule, if there is one, fits. -/
def FieldFits (fields : Fields) (rule : Rule) (authored : String) : Prop :=
  ∀ name raw, Stands fields rule authored name raw → Fits rule raw

/-- The value of a rule stands for a list with an element that gives a scalar. -/
def Given (fields : Fields) (rule : Rule) (authored : String) (a : Scalar) : Prop :=
  ∃ name raw items element, Stands fields rule authored name raw ∧ StandsFor raw items ∧
    element ∈ items ∧ Reads rule element a

/-- An element that does not stop the reading of its list: it gives something, or it is a tag with a
lone surrogate, which is refused only when the whole list was read. -/
inductive Passes (rule : Rule) : Value → Prop
  | read {element : Value} {a : Scalar} (h : Reads rule element a) : Passes rule element
  | brokenTag (codes : List Nat) (hrule : rule = .tags) : Passes rule (.unpaired codes)

/-- The value of a rule is nested too deep: its text cannot be read for that, or the first element
that stops the reading cannot be shown for that. -/
inductive NestedTooDeep (rule : Rule) : Value → Prop
  | text {raw : Value} (h : Json.readText? raw = some (.error .tooDeep)) : NestedTooDeep rule raw
  | element {raw element : Value} {before after : List Value}
      (hitems : StandsFor raw (before ++ element :: after)) (hbefore : ∀ e ∈ before, Passes rule e)
      (h : element.obstacle? = some .levels) : NestedTooDeep rule raw

/-- The value of a rule is there and is nested too deep. -/
def FieldTooDeep (fields : Fields) (rule : Rule) (authored : String) : Prop :=
  ∃ name raw, Stands fields rule authored name raw ∧ NestedTooDeep rule raw

/-- The value of some rule is nested too deep. -/
def SomeTooDeep (fields : Fields) : Prop := ∃ x ∈ authoring, FieldTooDeep fields x.1 x.2

/-- The first of the rules whose value does not fit, with the key under which that stands. -/
def Offends (fields : Fields) (rules : List (Rule × String)) (name : String) (raw : Value) : Prop :=
  ∃ before rule authored after, rules = before ++ (rule, authored) :: after ∧
    (∀ x ∈ before, FieldFits fields x.1 x.2) ∧ Stands fields rule authored name raw ∧
    ¬ Fits rule raw

/-- The place that a fault is reported at: the key of the field or, for a tag with a lone surrogate,
the key and the index of the tag. -/
inductive Blames (name : String) (raw : Value) : String → Prop
  | key : Blames name raw name
  | brokenTag {items : List Value} {index : Nat} {codes : List Nat} (hitems : StandsFor raw items)
      (h : items[index]? = some (.unpaired codes)) : Blames name raw (name ++ s!".{index}")

/-! ## Lists -/

/-- A text of either kind is decoded as it is read, unless it is malformed. -/
theorem decodeList_readText? {raw : Value} {r : Except Json.ReadError Value}
    (h : Json.readText? raw = some r) (hr : ∀ fault position, r ≠ .error (.malformed fault position)) :
    decodeList raw = listOfRead raw r := by
  cases raw with
  | text s => exact decodeList_text (Option.some.inj h) hr
  | unpaired codes => exact congrArg (listOfRead (.unpaired codes)) (Option.some.inj h)
  | _ => cases h

theorem decodeList_eq_ok_iff {raw : Value} {items : List Value} :
    decodeList raw = .ok items ↔ StandsFor raw items := by
  constructor
  · intro h
    unfold decodeList at h
    split at h
    · cases h
      exact .nothing
    · cases h
      exact .list _
    · split at h
      next hblank =>
        cases h
        exact .blank (Text.trim_eq_nil_iff.1 (List.isEmpty_iff.1 hblank))
      next => exact .encoded (congrArg some (listOfRead_eq_ok_iff.1 h))
    · exact .encoded (congrArg some (listOfRead_eq_ok_iff.1 h))
    · cases h
  · intro h
    cases h with
    | nothing => rfl
    | blank hblank =>
      rw [decodeList, if_pos (List.isEmpty_iff.2 (Text.trim_eq_nil_iff.2 hblank))]
    | list => rfl
    | encoded hread => exact decodeList_readText? hread (by simp)

/-- A value stands for one list at most. -/
theorem StandsFor.unique {raw : Value} {items others : List Value} (h : StandsFor raw items)
    (hothers : StandsFor raw others) : items = others :=
  Except.ok.inj ((decodeList_eq_ok_iff.2 h).symm.trans (decodeList_eq_ok_iff.2 hothers))

/-- A list is not decoded for its levels if its text is nested too deep. -/
theorem decodeList_eq_tooDeep_iff {raw : Value} :
    decodeList raw = .error .tooDeep ↔ Json.readText? raw = some (.error .tooDeep) := by
  constructor
  · intro h
    unfold decodeList at h
    split at h
    · cases h
    · cases h
    · split at h
      · cases h
      · exact congrArg some (listOfRead_eq_tooDeep_iff.1 h)
    · exact congrArg some (listOfRead_eq_tooDeep_iff.1 h)
    · cases h
  · intro h
    rw [decodeList_readText? h (by simp)]
    rfl

/-- Either a value stands for a list whose elements are all decoded, or it has a fault and no list
that it stands for has only elements that are decoded. -/
theorem decoded_cases {β : Type} (decode : Value → Except FieldFault β) (name : String)
    (raw : Value) :
    (∃ items found, StandsFor raw items ∧ items.mapM decode = .ok found ∧
      ((decodeList raw).bind (·.mapM decode)).mapError (badField name) = .ok found) ∨
    ∃ fault, ((decodeList raw).bind (·.mapM decode)).mapError (badField name) =
        .error (badField name fault) ∧
      ∀ items, StandsFor raw items → ∃ element ∈ items, ∃ e, decode element = .error e := by
  cases hlist : decodeList raw with
  | error e =>
    refine .inr ⟨e, rfl, fun items hitems => ?_⟩
    rw [decodeList_eq_ok_iff.2 hitems] at hlist
    cases hlist
  | ok items =>
    have hitems := decodeList_eq_ok_iff.1 hlist
    cases hfound : items.mapM decode with
    | error e =>
      refine .inr ⟨e, ?_, fun others hothers => ?_⟩
      · simp only [Except.bind, hfound, Except.mapError]
      · obtain ⟨element, helement, hfails⟩ := exists_of_mapM_eq_error hfound
        exact ⟨element, hitems.unique hothers ▸ helement, e, hfails⟩
    | ok found =>
      refine .inl ⟨items, found, hitems, hfound, ?_⟩
      simp only [Except.bind, hfound, Except.mapError]

/-! ## Elements -/

theorem Reads.suits {rule : Rule} {element : Value} {a : Scalar} (h : Reads rule element a) :
    Suits rule a := by
  cases h with
  | number hrule n => exact suits_int hrule n
  | numeral hrule => exact suits_int hrule _
  | tag => exact suits_text _

theorem decodeId_eq_ok_iff {rule : Rule} (hrule : rule ≠ .tags) {element : Value} {a : Scalar} :
    decodeId element = .ok a ↔ Reads rule element a := by
  constructor
  · intro h
    unfold decodeId at h
    split at h
    · cases h
      exact .number hrule _
    · split at h <;> cases h
      exact .numeral hrule (readPlain_eq_ok_iff.1 ‹_›)
    · cases h
  · intro h
    cases h with
    | number => rfl
    | numeral _ hsigned => simp only [decodeId, readPlain_eq_ok_iff.2 hsigned]
    | tag => exact absurd rfl hrule

theorem stripMarker_eq (s : String) : Token.stripMarker s = String.ofList (s.toList.filter fun c =>
    c ≠ '\x22' ∧ c ≠ '<' ∧ c ≠ '>' ∧ Text.isBlank c = false) := by
  refine congrArg String.ofList (List.filter_congr fun c _ => ?_)
  rw [Bool.eq_iff_iff]
  simp [Token.isDecoration, and_assoc]

theorem decodeTag_eq_ok_iff {element : Value} {a : Scalar} :
    decodeTag element = .ok (some a) ↔ Reads .tags element a := by
  constructor
  · intro h
    obtain ⟨s, rfl, rfl⟩ := decodeTag_eq_ok h
    rw [stripMarker_eq]
    exact .tag s
  · intro h
    cases h with
    | number hrule | numeral hrule => exact absurd rfl hrule
    | tag s => rw [decodeTag, stripMarker_eq]

theorem exists_unpaired_of_decodeTag {element : Value} (h : decodeTag element = .ok none) :
    ∃ codes, element = .unpaired codes := by
  unfold decodeTag at h
  split at h <;> cases h
  exact ⟨_, rfl⟩

/-! ## Levels -/

/-- An element that is read can be shown, as far as its levels go. -/
theorem Reads.obstacle?_ne {rule : Rule} {element : Value} {a : Scalar} (h : Reads rule element a) :
    element.obstacle? ≠ some .levels := by
  cases h with
  | number hrule n =>
    rw [Value.obstacle?, Value.obstacleWithin?]
    split <;> rintro ⟨⟩
  | numeral | tag => rintro ⟨⟩

theorem showing_eq_tooDeep_iff {shown : Value} {fault : FieldFault} (hfault : fault ≠ .tooDeep) :
    FieldFault.showing shown fault = .tooDeep ↔ shown.obstacle? = some .levels := by
  unfold FieldFault.showing
  split
  next hnone => exact iff_of_false hfault (by simp [hnone])
  next hdigits => exact iff_of_false (by rintro ⟨⟩) (by simp [hdigits])
  next hlevels => exact iff_of_true rfl hlevels

theorem decodeId_eq_tooDeep_iff {element : Value} :
    decodeId element = .error .tooDeep ↔ element.obstacle? = some .levels := by
  cases element with
  | int n =>
    refine iff_of_false (by rintro ⟨⟩) ?_
    rw [Value.obstacle?, Value.obstacleWithin?]
    split <;> rintro ⟨⟩
  | text s =>
    refine iff_of_false (fun h => ?_) (by rintro ⟨⟩)
    unfold decodeId at h
    dsimp only at h
    split at h <;> cases h
  | _ =>
    rw [decodeId, Except.error.injEq]
    · exact showing_eq_tooDeep_iff (by rintro ⟨⟩)
    all_goals rintro _ ⟨⟩

theorem decodeTag_eq_tooDeep_iff {element : Value} :
    decodeTag element = .error .tooDeep ↔ element.obstacle? = some .levels := by
  cases element with
  | text s => exact iff_of_false (by rintro ⟨⟩) (by rintro ⟨⟩)
  | unpaired codes => exact iff_of_false (by rintro ⟨⟩) (by rintro ⟨⟩)
  | _ =>
    rw [decodeTag, Except.error.injEq]
    · exact showing_eq_tooDeep_iff (by rintro ⟨⟩)
    all_goals rintro _ ⟨⟩

theorem passes_iff_decodeId {rule : Rule} (hrule : rule ≠ .tags) {element : Value} :
    Passes rule element ↔ ∃ a, decodeId element = .ok a := by
  constructor
  · rintro (⟨h⟩ | ⟨codes, htags⟩)
    · exact ⟨_, (decodeId_eq_ok_iff hrule).2 h⟩
    · exact absurd htags hrule
  · rintro ⟨a, ha⟩
    exact .read ((decodeId_eq_ok_iff hrule).1 ha)

theorem passes_iff_decodeTag {element : Value} :
    Passes .tags element ↔ ∃ tag, decodeTag element = .ok tag := by
  constructor
  · rintro (⟨h⟩ | ⟨codes, -⟩)
    · exact ⟨_, decodeTag_eq_ok_iff.2 h⟩
    · exact ⟨none, rfl⟩
  · rintro ⟨tag, htag⟩
    cases tag with
    | none =>
      obtain ⟨codes, rfl⟩ := exists_unpaired_of_decodeTag htag
      exact .brokenTag codes rfl
    | some a => exact .read (decodeTag_eq_ok_iff.1 htag)

theorem badField_eq_tooDeep_iff {name : String} {fault : FieldFault} :
    badField name fault = .value .tooDeep ↔ fault = .tooDeep := by
  cases fault <;> simp [badField]

/-- A list is not decoded for its levels if it is nested too deep. -/
theorem decoded_eq_tooDeep_iff {β : Type} {decode : Value → Except FieldFault β} {rule : Rule}
    (hpasses : ∀ element, Passes rule element ↔ ∃ b, decode element = .ok b)
    (hdeep : ∀ element, decode element = .error .tooDeep ↔ element.obstacle? = some .levels)
    (name : String) (raw : Value) :
    ((decodeList raw).bind (·.mapM decode)).mapError (badField name) = .error (.value .tooDeep) ↔
      NestedTooDeep rule raw := by
  have hfault : ((decodeList raw).bind (·.mapM decode)).mapError (badField name) =
      .error (.value .tooDeep) ↔ (decodeList raw).bind (·.mapM decode) = .error .tooDeep := by
    cases (decodeList raw).bind (·.mapM decode) with
    | ok found => exact iff_of_false nofun nofun
    | error fault => simp only [Except.mapError, Except.error.injEq, badField_eq_tooDeep_iff]
  rw [hfault]
  constructor
  · intro h
    cases hlist : decodeList raw with
    | error fault =>
      rw [hlist] at h
      cases h
      exact .text (decodeList_eq_tooDeep_iff.1 hlist)
    | ok items =>
      rw [hlist] at h
      obtain ⟨before, element, after, rfl, hbefore, hfail⟩ := mapM_eq_error_iff.1 h
      exact .element (decodeList_eq_ok_iff.1 hlist) (fun e he => (hpasses e).2 (hbefore e he))
        ((hdeep element).1 hfail)
  · rintro (h | ⟨hitems, hbefore, h⟩)
    · rw [decodeList_eq_tooDeep_iff.2 h]
      rfl
    · rw [decodeList_eq_ok_iff.2 hitems]
      exact mapM_eq_error_iff.2 ⟨_, _, _, rfl, fun e he => (hpasses e).1 (hbefore e he),
        (hdeep _).2 h⟩

/-- The field of a rule is given up for its levels if it is nested too deep. -/
theorem decodeField_eq_tooDeep_iff {rule : Rule} {name : String} {raw : Value} :
    decodeField rule name raw = .error (.value .tooDeep) ↔ NestedTooDeep rule raw := by
  unfold decodeField
  split
  next hrule =>
    subst hrule
    rw [← decoded_eq_tooDeep_iff (fun _ => passes_iff_decodeTag) (fun _ => decodeTag_eq_tooDeep_iff)
      name raw, decodeTags]
    cases ((decodeList raw).bind (·.mapM decodeTag)).mapError (badField name) with
    | error f =>
      show Except.error f = _ ↔ _
      rw [Except.error.injEq, Except.error.injEq]
    | ok tags =>
      rw [ok_bind]
      split <;> exact iff_of_false (by rintro ⟨⟩) (by rintro ⟨⟩)
  next hrule =>
    exact decoded_eq_tooDeep_iff (fun _ => passes_iff_decodeId hrule)
      (fun _ => decodeId_eq_tooDeep_iff) name raw

/-- A value that is nested too deep does not fit. -/
theorem NestedTooDeep.not_fits {rule : Rule} {raw : Value} (h : NestedTooDeep rule raw) :
    ¬ Fits rule raw := by
  rintro ⟨items, hitems, hread⟩
  cases h with
  | text h =>
    cases (decodeList_eq_ok_iff.2 hitems).symm.trans (decodeList_eq_tooDeep_iff.2 h)
  | @element element before after hcut hbefore h =>
    obtain ⟨a, ha⟩ := hread element (hcut.unique hitems ▸ by simp)
    exact ha.obstacle?_ne h

/-! ## Fields -/

/-- An outcome of decoding the field of a rule as the grammar has it: what the elements of the list
give, a report about a value that does not fit, or no report on one that is nested too deep. -/
inductive FieldOutcome (rule : Rule) (name : String) (raw : Value) :
    Except Failure (List Scalar) → Prop
  | accepted {items : List Value} {scalars : List Scalar} (hitems : StandsFor raw items)
      (hread : ∀ element ∈ items, ∃ a, Reads rule element a)
      (hmem : ∀ a, a ∈ scalars ↔ ∃ element ∈ items, Reads rule element a) :
      FieldOutcome rule name raw (.ok scalars)
  | refused {place : String} {fault : DeclarationFault} (hnot : ¬ Fits rule raw)
      (hblames : Blames name raw place) :
      FieldOutcome rule name raw (.error (.declaration (some place) fault))
  | givenUp (h : ¬ Fits rule raw) : FieldOutcome rule name raw (.error (.value .tooDeep))

/-- A value does not fit if every list that it stands for has an element that is not read. -/
theorem not_fits {rule : Rule} {raw : Value}
    (h : ∀ items, StandsFor raw items → ∃ element ∈ items, ∀ a, ¬ Reads rule element a) :
    ¬ Fits rule raw := by
  rintro ⟨items, hitems, hread⟩
  obtain ⟨element, helement, hnone⟩ := h items hitems
  obtain ⟨a, ha⟩ := hread element helement
  exact hnone a ha

/-- A fault is reported under the name of the field, unless the field is given up. -/
theorem fieldOutcome_badField {rule : Rule} {name : String} {raw : Value} (h : ¬ Fits rule raw)
    (fault : FieldFault) : FieldOutcome rule name raw (.error (badField name fault)) := by
  cases fault with
  | tooDeep => exact .givenUp h
  | _ => exact .refused h .key

theorem fieldOutcome_decodeTags (name : String) (raw : Value) :
    FieldOutcome .tags name raw (decodeTags name raw) := by
  unfold decodeTags
  rcases decoded_cases decodeTag name raw with
    ⟨items, found, hitems, hfound, hdecoded⟩ | ⟨fault, hdecoded, hfails⟩
  · rw [hdecoded, ok_bind]
    cases hbroken : found.findIdx? (·.isNone) with
    | none =>
      refine .accepted hitems (fun element helement => ?_) fun a => ?_
      · obtain ⟨tag, htag⟩ := exists_of_mapM_eq_ok hfound element helement
        have hmem := (mem_of_mapM_eq_ok hfound).2 ⟨element, helement, htag⟩
        have hsome := List.findIdx?_eq_none_iff.1 hbroken tag hmem
        obtain ⟨a, rfl⟩ := Option.isSome_iff_exists.1 (by simpa using hsome)
        exact ⟨a, decodeTag_eq_ok_iff.1 htag⟩
      · have hmem : a ∈ found.filterMap id ↔ some a ∈ found := by simp
        rw [hmem, mem_of_mapM_eq_ok hfound]
        simp only [decodeTag_eq_ok_iff]
    | some index =>
      obtain ⟨hlt, hnone, -⟩ := List.findIdx?_eq_some_iff_getElem.1 hbroken
      have htag : found[index]? = some none := by
        rw [List.getElem?_eq_getElem hlt, Option.isNone_iff_eq_none.1 hnone]
      obtain ⟨element, helement, hdecode⟩ := getElem?_of_mapM_eq_ok hfound htag
      obtain ⟨codes, rfl⟩ := exists_unpaired_of_decodeTag hdecode
      refine .refused (not_fits fun others hothers => ?_) (.brokenTag hitems helement)
      exact ⟨_, hitems.unique hothers ▸ List.mem_of_getElem? helement, fun a ha => by cases ha⟩
  · rw [hdecoded]
    refine fieldOutcome_badField (not_fits fun items hitems => ?_) fault
    obtain ⟨element, helement, e, hdecode⟩ := hfails items hitems
    refine ⟨element, helement, fun a ha => ?_⟩
    rw [decodeTag_eq_ok_iff.2 ha] at hdecode
    cases hdecode

theorem fieldOutcome_decodeIds {rule : Rule} (hrule : rule ≠ .tags) (name : String) (raw : Value) :
    FieldOutcome rule name raw
      (((decodeList raw).bind (·.mapM decodeId)).mapError (badField name)) := by
  rcases decoded_cases decodeId name raw with
    ⟨items, found, hitems, hfound, hdecoded⟩ | ⟨fault, hdecoded, hfails⟩
  · rw [hdecoded]
    refine .accepted hitems (fun element helement => ?_) fun a => ?_
    · obtain ⟨a, ha⟩ := exists_of_mapM_eq_ok hfound element helement
      exact ⟨a, (decodeId_eq_ok_iff hrule).1 ha⟩
    · rw [mem_of_mapM_eq_ok hfound]
      simp only [decodeId_eq_ok_iff hrule]
  · rw [hdecoded]
    refine fieldOutcome_badField (not_fits fun items hitems => ?_) fault
    obtain ⟨element, helement, e, hdecode⟩ := hfails items hitems
    refine ⟨element, helement, fun a ha => ?_⟩
    rw [(decodeId_eq_ok_iff hrule).2 ha] at hdecode
    cases hdecode

theorem fieldOutcome_decodeField (rule : Rule) (name : String) (raw : Value) :
    FieldOutcome rule name raw (decodeField rule name raw) := by
  unfold decodeField
  split
  next hrule =>
    subst hrule
    exact fieldOutcome_decodeTags name raw
  next hrule => exact fieldOutcome_decodeIds hrule name raw

theorem find?_eq_some_iff {fields : Fields} {rule : Rule} {authored name : String} {raw : Value} :
    find? fields rule authored = some (name, raw) ↔ Stands fields rule authored name raw := by
  constructor
  · intro h
    unfold find? at h
    split at h
    next hget =>
      cases h
      exact .authored hget
    next hget =>
      obtain ⟨v, hv, heq⟩ := Option.map_eq_some_iff.1 h
      cases heq
      exact .named hget hv
  · intro h
    cases h with
    | authored hget => simp only [find?, hget]
    | named hauthored hget => simp only [find?, hauthored, hget, Option.map_some]

theorem Stands.mem {fields : Fields} {rule : Rule} {authored name : String} {raw : Value}
    (h : Stands fields rule authored name raw) : (name, raw) ∈ fields := by
  cases h with
  | authored hget => exact Fields.mem_of_get? hget
  | named _ hget => exact Fields.mem_of_get? hget

theorem Stands.unique {fields : Fields} {rule : Rule} {authored name other : String}
    {raw v : Value} (h : Stands fields rule authored name raw)
    (hother : Stands fields rule authored other v) : other = name ∧ v = raw := by
  have heq := (find?_eq_some_iff.2 hother).symm.trans (find?_eq_some_iff.2 h)
  cases heq
  exact ⟨rfl, rfl⟩

theorem decodeRule_of_stands {fields : Fields} {rule : Rule} {authored name : String} {raw : Value}
    (h : Stands fields rule authored name raw) :
    decodeRule fields rule authored = decodeField rule name raw := by
  rw [decodeRule, find?_eq_some_iff.2 h]

/-- Nothing stands for a rule, or some value does. -/
theorem stands_cases (fields : Fields) (rule : Rule) (authored : String) :
    ((∀ name raw, ¬ Stands fields rule authored name raw) ∧
      decodeRule fields rule authored = .ok []) ∨
    ∃ name raw, Stands fields rule authored name raw := by
  cases hfind : find? fields rule authored with
  | none =>
    refine .inl ⟨fun name raw h => ?_, by rw [decodeRule, hfind]⟩
    cases hfind.symm.trans (find?_eq_some_iff.2 h)
  | some field => exact .inr ⟨field.1, field.2, find?_eq_some_iff.1 hfind⟩

theorem decodeRule_eq_tooDeep_iff {fields : Fields} {rule : Rule} {authored : String} :
    decodeRule fields rule authored = .error (.value .tooDeep) ↔
      FieldTooDeep fields rule authored := by
  rcases stands_cases fields rule authored with ⟨hnone, hnothing⟩ | ⟨name, raw, hstands⟩
  · rw [hnothing]
    exact iff_of_false nofun fun ⟨name, raw, h, _⟩ => hnone name raw h
  · rw [decodeRule_of_stands hstands, decodeField_eq_tooDeep_iff]
    constructor
    · exact fun h => ⟨name, raw, hstands, h⟩
    · rintro ⟨other, v, hother, h⟩
      rwa [(hstands.unique hother).2] at h

theorem isTooDeep_iff_someTooDeep {fields : Fields} :
    isTooDeep fields = true ↔ SomeTooDeep fields := by
  simp only [isTooDeep_iff, SomeTooDeep, decodeRule_eq_tooDeep_iff, Prod.exists]

theorem decodeRule_cases (fields : Fields) (rule : Rule) (authored : String) :
    (∃ scalars, decodeRule fields rule authored = .ok scalars ∧ FieldFits fields rule authored ∧
      ∀ a, a ∈ scalars ↔ Given fields rule authored a) ∨
    (∃ name raw place fault, Stands fields rule authored name raw ∧ ¬ Fits rule raw ∧
      Blames name raw place ∧
      decodeRule fields rule authored = .error (.declaration (some place) fault)) ∨
    FieldTooDeep fields rule authored := by
  rcases stands_cases fields rule authored with ⟨hnone, hnothing⟩ | ⟨name, raw, hstands⟩
  · refine .inl ⟨[], hnothing, fun name raw h => absurd h (hnone name raw), fun a => ?_⟩
    exact ⟨nofun, fun ⟨name, raw, _, _, h, _⟩ => absurd h (hnone name raw)⟩
  · rw [← decodeRule_eq_tooDeep_iff, decodeRule_of_stands hstands]
    have houtcome := fieldOutcome_decodeField rule name raw
    generalize decodeField rule name raw = outcome at houtcome
    cases houtcome with
    | @accepted items scalars hitems hread hmem =>
      refine .inl ⟨scalars, rfl, fun other v h => ?_, fun a => ?_⟩
      · rw [(hstands.unique h).2]
        exact ⟨items, hitems, hread⟩
      · rw [hmem]
        constructor
        · rintro ⟨element, helement, ha⟩
          exact ⟨name, raw, items, element, hstands, hitems, helement, ha⟩
        · rintro ⟨other, v, others, element, h, hothers, helement, ha⟩
          rw [(hstands.unique h).2] at hothers
          exact ⟨element, hitems.unique hothers ▸ helement, ha⟩
    | refused hnot hblames => exact .inr (.inl ⟨name, raw, _, _, hstands, hnot, hblames, rfl⟩)
    | givenUp => exact .inr (.inr rfl)

/-- The fields of some rules are given element by element, or the first that does not fit is
reported, unless one of them is nested too deep. -/
theorem decodeFields_cases {fields : Fields} {rules : List (Rule × String)}
    (hdeep : ∀ x ∈ rules, ¬ FieldTooDeep fields x.1 x.2) :
    (∃ found, decodeFields fields rules = .ok found ∧
      (∀ x ∈ rules, FieldFits fields x.1 x.2) ∧
      ∀ rule a, (rule, a) ∈ found ↔
        ∃ authored, (rule, authored) ∈ rules ∧ Given fields rule authored a) ∨
    ∃ name raw place fault, Offends fields rules name raw ∧ Blames name raw place ∧
      decodeFields fields rules = .error (.declaration (some place) fault) := by
  induction rules with
  | nil => exact .inl ⟨[], rfl, by simp, by simp⟩
  | cons x rules ih =>
    obtain ⟨rule, authored⟩ := x
    obtain ⟨hfirst, hothers⟩ := List.forall_mem_cons.1 hdeep
    rw [decodeFields]
    rcases decodeRule_cases fields rule authored with
      ⟨scalars, hscalars, hfits, hmem⟩ |
        ⟨name, raw, place, fault, hstands, hnot, hblames, hfails⟩ | hfield
    · rw [hscalars, ok_bind]
      rcases ih hothers with ⟨found, hfound, hrest, hmemRest⟩ |
        ⟨name, raw, place, fault, hoffends, hblames, hfails⟩
      · rw [hfound, ok_bind]
        refine .inl ⟨_, rfl, List.forall_mem_cons.2 ⟨hfits, hrest⟩, fun other a => ?_⟩
        simp only [List.mem_append, List.mem_map, Prod.mk.injEq, hmemRest, hmem, List.mem_cons]
        constructor
        · rintro (⟨b, hb, rfl, rfl⟩ | ⟨name, hname, ha⟩)
          · exact ⟨authored, .inl ⟨rfl, rfl⟩, hb⟩
          · exact ⟨name, .inr hname, ha⟩
        · rintro ⟨name, ⟨rfl, rfl⟩ | hname, ha⟩
          · exact .inl ⟨a, ha, rfl, rfl⟩
          · exact .inr ⟨name, hname, ha⟩
      · rw [hfails]
        obtain ⟨before, other, otherAuthored, after, rfl, hbefore, hoffence⟩ := hoffends
        exact .inr ⟨name, raw, place, fault, ⟨(rule, authored) :: before, other, otherAuthored,
          after, rfl, List.forall_mem_cons.2 ⟨hfits, hbefore⟩, hoffence⟩, hblames, rfl⟩
    · rw [hfails]
      exact .inr ⟨name, raw, place, fault, ⟨[], rule, authored, rules, rfl, by simp, hstands, hnot⟩,
        hblames, rfl⟩
    · exact absurd hfield hfirst

/-! ## Declarations -/

/-- A rule has one authoring name. -/
theorem authoring_unique {rule : Rule} {authored other : String} (h : (rule, authored) ∈ authoring)
    (hother : (rule, other) ∈ authoring) : authored = other := by
  simp only [authoring, List.mem_cons, Prod.mk.injEq, List.not_mem_nil, or_false] at h hother
  cases rule <;> simp_all

/-- An object whose fields fit has none that is nested too deep. -/
theorem SomeTooDeep.not_fits {fields : Fields} (h : SomeTooDeep fields) :
    ¬ ∀ x ∈ authoring, FieldFits fields x.1 x.2 := by
  obtain ⟨x, hx, name, raw, hstands, hnested⟩ := h
  exact fun hfits => hnested.not_fits (hfits x hx name raw hstands)

/-- An object of fields is accepted, reported or given up. -/
theorem parse_cases (fields : Fields) :
    (∃ found, parse (.object fields) = .ok (.ofRules found) ∧ ¬ SomeTooDeep fields ∧
      (∀ x ∈ authoring, FieldFits fields x.1 x.2) ∧
      ∀ rule a, (rule, a) ∈ found ↔
        ∃ authored, (rule, authored) ∈ authoring ∧ Given fields rule authored a) ∨
    (∃ name raw place fault, parse (.object fields) = .error (.declaration (some place) fault) ∧
      ¬ SomeTooDeep fields ∧ Offends fields authoring name raw ∧ Blames name raw place) ∨
    parse (.object fields) = .error (.value .tooDeep) ∧ SomeTooDeep fields := by
  by_cases hdeep : SomeTooDeep fields
  · exact .inr (.inr ⟨parse_of_isTooDeep (isTooDeep_iff_someTooDeep.2 hdeep), hdeep⟩)
  · have hnot : isTooDeep fields = false := by
      rw [← Bool.not_eq_true, isTooDeep_iff_someTooDeep]
      exact hdeep
    have hfields : ∀ x ∈ authoring, ¬ FieldTooDeep fields x.1 x.2 := fun x hx hfield =>
      hdeep ⟨x, hx, hfield⟩
    rw [parse_object hnot]
    rcases decodeFields_cases hfields with
      ⟨found, hfound, hfits, hmem⟩ | ⟨name, raw, place, fault, hoffends, hblames, hfails⟩
    · rw [hfound]
      exact .inl ⟨found, rfl, hdeep, hfits, hmem⟩
    · rw [hfails]
      exact .inr (.inl ⟨name, raw, place, fault, rfl, hdeep, hoffends, hblames⟩)

theorem parse_of_someTooDeep {fields : Fields} (h : SomeTooDeep fields) :
    parse (.object fields) = .error (.value .tooDeep) :=
  parse_of_isTooDeep (isTooDeep_iff_someTooDeep.2 h)

/-- An object of fields none of which is nested too deep is accepted or reported. -/
theorem accepted_or_reported {fields : Fields} (h : ¬ SomeTooDeep fields) :
    (∃ r, parse (.object fields) = .ok r) ∨
      ∃ place fault, parse (.object fields) = .error (.declaration place fault) := by
  rcases parse_cases fields with
    ⟨found, hparse, -⟩ | ⟨-, -, place, fault, hparse, -⟩ | ⟨-, hdeep⟩
  · exact .inl ⟨_, hparse⟩
  · exact .inr ⟨some place, fault, hparse⟩
  · exact absurd hdeep h

theorem Offends.not_fits {fields : Fields} {rules : List (Rule × String)} {name : String}
    {raw : Value} (h : Offends fields rules name raw) :
    ¬ ∀ x ∈ rules, FieldFits fields x.1 x.2 := by
  obtain ⟨before, rule, authored, after, rfl, -, hstands, hnot⟩ := h
  exact fun hfits => hnot (hfits (rule, authored) (by simp) name raw hstands)

/-- **The structured parser accepts exactly its grammar and reports the first bad field.** An object
of fields is accepted exactly if the value of each of the eight rules, where there is one, stands for
a list whose elements can all be read. Then the set of a rule has exactly what these elements give.
Otherwise the declaration is refused, and what is reported is the key of the first rule, in the
order of `authoring`, whose value does not fit; for a tag with a lone surrogate the index of the tag
is added. Only where the value of some rule is nested too deep nothing is reported, and the failure
is another one. -/
theorem parse_accepts_exactly_grammar (fields : Fields) :
    ((∃ r, parse (.object fields) = .ok r) ↔
      ∀ x ∈ authoring, FieldFits fields x.1 x.2) ∧
    (∀ r, parse (.object fields) = .ok r → ∀ rule authored, (rule, authored) ∈ authoring →
      ∀ a, a ∈ r.get rule ↔ Given fields rule authored a) ∧
    ((¬ ∃ r, parse (.object fields) = .ok r) → ¬ SomeTooDeep fields →
      ∃ name raw place fault, Offends fields authoring name raw ∧ Blames name raw place ∧
        parse (.object fields) = .error (.declaration (some place) fault)) ∧
    (SomeTooDeep fields → parse (.object fields) = .error (.value .tooDeep)) := by
  rcases parse_cases fields with
    ⟨found, hparse, hdeep, hfits, hmem⟩ |
      ⟨name, raw, place, fault, hparse, hdeep, hoffends, hblames⟩ | ⟨hparse, hdeep⟩
  · rw [hparse]
    refine ⟨⟨fun _ => hfits, fun _ => ⟨_, rfl⟩⟩, fun r hr rule authored hrule a => ?_,
      fun hno => absurd ⟨_, rfl⟩ hno, fun h => absurd h hdeep⟩
    cases hr
    have hsuits : ∀ x ∈ found, Suits x.1 x.2 := fun x hx => by
      obtain ⟨_, -, _, _, _, _, -, -, -, hread⟩ := (hmem x.1 x.2).1 hx
      exact hread.suits
    rw [mem_ofRules_iff hsuits, hmem]
    constructor
    · rintro ⟨other, hother, ha⟩
      rwa [authoring_unique hrule hother]
    · exact fun ha => ⟨authored, hrule, ha⟩
  · rw [hparse]
    exact ⟨iff_of_false nofun hoffends.not_fits, nofun,
      fun _ _ => ⟨name, raw, place, fault, hoffends, hblames, rfl⟩, fun h => absurd h hdeep⟩
  · rw [hparse]
    exact ⟨iff_of_false nofun hdeep.not_fits, nofun, fun _ hnot => absurd hdeep hnot, fun _ => rfl⟩

/-- A text that opens many lists. -/
def brackets : String := String.ofList (List.replicate 1100 '[')

theorem read_brackets : Json.read brackets = .error .tooDeep := by
  have hread := Json.read_tooDeep (n := 1100) (by decide) []
  rwa [List.append_nil] at hread

theorem someTooDeep_brackets : SomeTooDeep [("itemId", .text brackets)] :=
  ⟨(.itemIds, "itemId"), by decide, "itemId", _, .authored rfl, .text (congrArg some read_brackets)⟩

/-- A text of a list that opens too many of them is malformed, but it is not reported. -/
theorem brackets_are_not_reported :
    parse (.object [("itemId", .text brackets)]) = .error (.value .tooDeep) ∧
    ¬ ((∃ r, parse (.object [("itemId", .text brackets)]) = .ok r) ∨ ∃ place fault,
      parse (.object [("itemId", .text brackets)]) = .error (.declaration place fault)) := by
  have hparse := parse_of_someTooDeep someTooDeep_brackets
  refine ⟨hparse, ?_⟩
  rw [hparse]
  rintro (⟨r, hr⟩ | ⟨place, fault, hfault⟩)
  · cases hr
  · cases hfault

end SellRules.Structured
