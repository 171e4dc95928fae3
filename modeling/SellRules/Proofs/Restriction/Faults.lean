import SellRules.Proofs.Json.Limit
import SellRules.Proofs.Restriction.Grammar
import SellRules.Proofs.Restriction.Token

/-!
# How declarations fail

A declaration is settled if it is read or reported as malformed (`Settled`). Three faults are not
reported. A numeral that is too long fails by itself: in a token, or as the text of a whole
declaration, while the same numeral in a field is reported. A text that is nested too deep ends the
reading wherever it stands. And arguments are searched for the declaration before it is known that
they are an object. The main statement names these cases and shows that there are no others
(`settled_iff_not_overlooked`).
-/

set_option autoImplicit false

namespace SellRules

/-- Restrictions were read, or the declaration is reported as malformed. -/
def Settled (x : Except Failure RestrictionSet) : Prop :=
  (∃ r, x = .ok r) ∨ ∃ field fault, x = .error (.declaration field fault)

theorem settled_declaration (field : Option String) (fault : DeclarationFault) :
    Settled (.error (.declaration field fault)) :=
  .inr ⟨field, fault, rfl⟩

/-- How a declaration fails that is not settled: for a shape that nothing can be looked up in, for a
numeral that is too long, or for too many levels. -/
inductive IsUnsettled : Failure → Prop
  | shape : IsUnsettled .shape
  | tooManyDigits (count : Nat) : IsUnsettled (.value (.tooManyDigits count))
  | tooDeep : IsUnsettled (.value .tooDeep)

theorem IsUnsettled.not_settled {x : Except Failure RestrictionSet} {f : Failure}
    (h : IsUnsettled f) (hx : x = .error f) : ¬Settled x := by
  subst hx
  rintro (⟨r, hr⟩ | ⟨field, fault, hfault⟩)
  · cases hr
  · cases hfault
    cases h

/-! ## Tokens -/

namespace Token

/-- A token is a code with more digits than a numeral may have. -/
def IsOverlong (token : String) : Prop :=
  ∃ code ∈ codes, isCoded code.1 token.toList = true ∧
    Number.maxDigits < (token.toList.drop code.1.length).length

theorem not_isOverlong_of_length_le {token : String}
    (h : token.toList.length ≤ Number.maxDigits) : ¬IsOverlong token := by
  rintro ⟨code, -, -, hlong⟩
  rw [List.length_drop] at hlong
  omega

theorem classify_of_isOverlong {token : String} (h : IsOverlong token) :
    ∃ count, classify token = .error (.value (.tooManyDigits count)) := by
  obtain ⟨code, hcode, hcoded, hlong⟩ := h
  refine ⟨(token.toList.drop code.1.length).length, ?_⟩
  simp only [classify, find?_codes hcode hcoded, Number.ofSignedDigits, if_pos hlong,
    Failure.ofNumeral]

/-- Every other token is a code or a tag. -/
theorem exists_classify {token : String} (h : ¬IsOverlong token) : ∃ x, classify token = .ok x := by
  unfold classify
  dsimp only
  split
  · rename_i letters rule hfind
    have hcode := List.mem_of_find?_eq_some hfind
    have hcoded : isCoded letters token.toList = true := by simpa using List.find?_some hfind
    have hshort : ¬Number.maxDigits < (token.toList.drop letters.length).length := fun hlong =>
      h ⟨_, hcode, hcoded, hlong⟩
    rw [Number.ofSignedDigits, if_neg hshort]
    exact ⟨_, rfl⟩
  · exact ⟨_, rfl⟩

/-- Tokens are read if none of them is overlong. -/
theorem exists_parse_iff_not_isOverlong {tokens : List String} :
    (∃ r, parse tokens = .ok r) ↔ ∀ token ∈ tokens, ¬IsOverlong token := by
  rw [exists_parse_iff]
  refine forall₂_congr fun token _ => ⟨?_, exists_classify⟩
  rintro ⟨x, hx⟩ hlong
  obtain ⟨count, hcount⟩ := classify_of_isOverlong hlong
  rw [hx] at hcount
  cases hcount

/-- An overlong token is what tokens can fail for. -/
theorem parse_eq_error {tokens : List String} {f : Failure} (h : parse tokens = .error f) :
    ∃ count, f = .value (.tooManyDigits count) := by
  unfold parse at h
  cases hrules : tokens.mapM classify with
  | ok rules =>
    rw [hrules] at h
    cases h
  | error e =>
    rw [hrules] at h
    cases h
    obtain ⟨token, -, hfail⟩ := exists_of_mapM_eq_error hrules
    by_cases hlong : IsOverlong token
    · obtain ⟨count, hcount⟩ := classify_of_isOverlong hlong
      exact ⟨count, Except.error.inj (hfail.symm.trans hcount)⟩
    · obtain ⟨x, hx⟩ := exists_classify hlong
      rw [hx] at hfail
      cases hfail

end Token

/-! ## Structured declarations -/

namespace Structured

/-- The declaration is an object of fields, or a text of either kind that is read as one. -/
inductive Denotes : Value → Fields → Prop
  | object (fields : Fields) : Denotes (.object fields) fields
  | text {raw : Value} {fields : Fields} (h : Json.readText? raw = some (.ok (.object fields))) :
      Denotes raw fields

/-- Arguments whose fault is not reported. -/
inductive Overlooked : Value → Prop
  /-- Nothing can be looked up in a value without parts. -/
  | single {args : Value} (h : args.elements? = none) : Overlooked args
  /-- A list only names the declaration. -/
  | listed {items : List Value} (h : .text argument ∈ items) : Overlooked (.list items)
  /-- A text only mentions the declaration. -/
  | mentioned {s : String} (h : Text.occursIn argument.toList s.toList = true) :
      Overlooked (.text s)
  /-- So does a text with lone surrogates. -/
  | mentionedUnpaired {codes : List Nat}
      (h : Text.occursIn (argument.toList.map Char.toNat) codes = true) :
      Overlooked (.unpaired codes)
  /-- The text of the declaration holds a numeral that is too long. -/
  | overlong {fields : Fields} {raw : Value} {count : Nat} (h : fields.get? argument = some raw)
      (hread : Json.readText? raw = some (.error (.tooManyDigits count))) :
      Overlooked (.object fields)
  /-- The text of the declaration is nested too deep. -/
  | tooDeep {fields : Fields} {raw : Value} (h : fields.get? argument = some raw)
      (hread : Json.readText? raw = some (.error .tooDeep)) : Overlooked (.object fields)
  /-- A field of the declaration is nested too deep. -/
  | fieldTooDeep {fields declared : Fields} {raw : Value} (h : fields.get? argument = some raw)
      (hdenotes : Denotes raw declared) (hdeep : SomeTooDeep declared) :
      Overlooked (.object fields)

theorem parseArguments_of_get? {fields : Fields} {raw : Value}
    (h : fields.get? argument = some raw) :
    parseArguments (.object fields) = decodeObject raw >>= fun
      | .object declared => parse (.object declared)
      | _ => .error (.declaration (some argument) .notAnObject) := by
  simp only [parseArguments, argumentOf, h, ok_bind]
  rfl

theorem decodeObject_of_denotes {raw : Value} {declared : Fields} (h : Denotes raw declared) :
    decodeObject raw = .ok (.object declared) := by
  cases h with
  | object => rfl
  | text hread => simp only [decodeObject, hread]

theorem parseArguments_of_overlooked {args : Value} (h : Overlooked args) :
    ∃ f, IsUnsettled f ∧ parseArguments args = .error f := by
  cases h with
  | single h =>
    refine ⟨.shape, .shape, ?_⟩
    cases args <;> first | rfl | cases h
  | listed h =>
    refine ⟨.shape, .shape, ?_⟩
    simp only [parseArguments, argumentOf, List.contains_iff_mem.2 h, ↓reduceIte]
    rfl
  | mentioned h | mentionedUnpaired h =>
    refine ⟨.shape, .shape, ?_⟩
    simp only [parseArguments, argumentOf, h, ↓reduceIte]
    rfl
  | @overlong fields raw count h hread =>
    refine ⟨.value (.tooManyDigits count), .tooManyDigits count, ?_⟩
    simp only [parseArguments_of_get? h, decodeObject, hread]
    rfl
  | tooDeep h hread =>
    refine ⟨.value .tooDeep, .tooDeep, ?_⟩
    simp only [parseArguments_of_get? h, decodeObject, hread]
    rfl
  | fieldTooDeep h hdenotes hdeep =>
    refine ⟨.value .tooDeep, .tooDeep, ?_⟩
    rw [parseArguments_of_get? h, decodeObject_of_denotes hdenotes, ok_bind]
    exact parse_of_someTooDeep hdeep

/-- A declaration is decoded to a value, or it is reported; or its text holds a numeral that is too
long or is nested too deep. -/
theorem decodeObject_cases (raw : Value) :
    (∃ v, decodeObject raw = .ok v ∧ ∀ declared, v = .object declared → Denotes raw declared) ∨
    (∃ fault, decodeObject raw = .error (.declaration (some argument) fault)) ∨
    (∃ count, Json.readText? raw = some (.error (.tooManyDigits count))) ∨
    Json.readText? raw = some (.error .tooDeep) := by
  unfold decodeObject
  split
  · refine .inl ⟨raw, rfl, ?_⟩
    rintro declared rfl
    exact .object declared
  · rename_i v hread
    refine .inl ⟨v, rfl, ?_⟩
    rintro declared rfl
    exact .text hread
  · exact .inr (.inl ⟨_, rfl⟩)
  · exact .inr (.inr (.inl ⟨_, by assumption⟩))
  · exact .inr (.inr (.inr (by assumption)))

/-- A declaration that was found is settled, unless its fault is overlooked. -/
theorem settled_of_get? {fields : Fields} {raw : Value} (hget : fields.get? argument = some raw)
    (h : ¬Overlooked (.object fields)) : Settled (parseArguments (.object fields)) := by
  rw [parseArguments_of_get? hget]
  rcases decodeObject_cases raw with
    ⟨v, hdecode, hdenotes⟩ | ⟨fault, hdecode⟩ | ⟨count, hread⟩ | hread
  · rw [hdecode, ok_bind]
    split
    · rename_i declared
      exact accepted_or_reported fun hdeep =>
        h (.fieldTooDeep hget (hdenotes declared rfl) hdeep)
    · exact settled_declaration _ _
  · rw [hdecode]
    exact settled_declaration _ _
  · exact absurd (.overlong hget hread) h
  · exact absurd (.tooDeep hget hread) h

theorem settled_of_not_overlooked {args : Value} (h : ¬Overlooked args) :
    Settled (parseArguments args) := by
  cases args with
  | null => exact absurd (.single rfl) h
  | bool b => exact absurd (.single rfl) h
  | int n => exact absurd (.single rfl) h
  | float x => exact absurd (.single rfl) h
  | text s =>
    have hs : Text.occursIn argument.toList s.toList = false :=
      Bool.eq_false_iff.2 fun hs => h (.mentioned hs)
    simp only [parseArguments, argumentOf, hs, Bool.false_eq_true, ↓reduceIte]
    exact settled_declaration _ _
  | unpaired codes =>
    have hcodes : Text.occursIn (argument.toList.map Char.toNat) codes = false :=
      Bool.eq_false_iff.2 fun hcodes => h (.mentionedUnpaired hcodes)
    simp only [parseArguments, argumentOf, hcodes, Bool.false_eq_true, ↓reduceIte]
    exact settled_declaration _ _
  | list items =>
    have hitems : items.contains (.text argument) = false :=
      Bool.eq_false_iff.2 fun hitems => h (.listed (List.contains_iff_mem.1 hitems))
    simp only [parseArguments, argumentOf, hitems, Bool.false_eq_true, ↓reduceIte]
    exact settled_declaration _ _
  | object fields =>
    cases hget : Fields.get? fields argument with
    | none =>
      simp only [parseArguments, argumentOf, hget]
      exact settled_declaration _ _
    | some raw => exact settled_of_get? hget h

end Structured

open Structured (Overlooked argument parseArguments)

/-- **How declarations fail.** The arguments of a plugin command give restrictions or are reported as
malformed, unless their fault is overlooked; tokens give restrictions, unless one of them is
overlong. In the other cases the failure is no report on the declaration. -/
theorem settled_iff_not_overlooked (args : Value) (tokens : List String) :
    (Settled (parseArguments args) ↔ ¬Overlooked args) ∧
    (Overlooked args → ∃ f, IsUnsettled f ∧ parseArguments args = .error f) ∧
    ((∃ r, Token.parse tokens = .ok r) ↔ ∀ token ∈ tokens, ¬Token.IsOverlong token) ∧
    (∀ token ∈ tokens, Token.IsOverlong token →
      ∃ f, IsUnsettled f ∧ Token.parse tokens = .error f) := by
  refine ⟨⟨fun hsettled hoverlooked => ?_, Structured.settled_of_not_overlooked⟩,
    Structured.parseArguments_of_overlooked, Token.exists_parse_iff_not_isOverlong,
    fun token htoken hlong => ?_⟩
  · obtain ⟨f, hf, hfail⟩ := Structured.parseArguments_of_overlooked hoverlooked
    exact hf.not_settled hfail hsettled
  · cases hparse : Token.parse tokens with
    | ok r => exact absurd hlong (Token.exists_parse_iff_not_isOverlong.1 ⟨r, hparse⟩ token htoken)
    | error f =>
      obtain ⟨count, rfl⟩ := Token.parse_eq_error hparse
      exact ⟨_, .tooManyDigits count, rfl⟩

/-- One digit more than a numeral may have. -/
def tooManyOnes : List Char := List.replicate (Number.maxDigits + 1) '1'

theorem isWhole_tooManyOnes : Json.IsWhole tooManyOnes where
  digits c hc := by
    rw [List.eq_of_mem_replicate hc]
    decide
  nonempty := by simp [tooManyOnes]
  leading := .inr (by simp [tooManyOnes, List.head?_replicate])

theorem read_tooManyOnes :
    Json.read (String.ofList tooManyOnes) = .error (.tooManyDigits tooManyOnes.length) :=
  Json.read_overlong isWhole_tooManyOnes (by simp [tooManyOnes])

theorem isOverlong_tooManyOnes : Token.IsOverlong (String.ofList ('i' :: tooManyOnes)) := by
  have hdigits : tooManyOnes.all Text.isAsciiDigit = true :=
    List.all_eq_true.2 isWhole_tooManyOnes.digits
  refine ⟨(['i'], .itemIds), by decide, ?_, ?_⟩
  · rw [String.toList_ofList]
    simp [Token.isCoded, hdigits, isWhole_tooManyOnes.nonempty]
  · rw [String.toList_ofList]
    simp [tooManyOnes]

/-- A field with the text of a numeral that is too long is not nested too deep. -/
theorem not_someTooDeep_of_overlong {name s : String} {count : Nat}
    (h : Json.read s = .error (.tooManyDigits count)) :
    ¬Structured.SomeTooDeep [(name, .text s)] := by
  rintro ⟨x, -, other, raw, hstands, hdeep⟩
  cases List.mem_singleton.1 hstands.mem
  cases hdeep with
  | text hdeep => cases (congrArg some h).symm.trans hdeep
  | element hitems =>
    have hlist := Structured.decodeList_eq_ok_iff.2 hitems
    rw [Structured.decodeList_text h nofun] at hlist
    cases hlist

/-- A numeral that is too long is reported in a field, but neither as the text of a declaration nor
in a token; and no argument at all is not reported. -/
theorem overlong_numeral_is_not_reported :
    ¬Settled (parseArguments (.object [(argument, .text (String.ofList tooManyOnes))])) ∧
    Settled (parseArguments
      (.object [(argument, .object [("itemId", .text (String.ofList tooManyOnes))])])) ∧
    (¬∃ r, Token.parse [String.ofList ('i' :: tooManyOnes)] = .ok r) ∧
    ¬Settled (parseArguments .null) := by
  have hoverlooked : Overlooked (.object [(argument, .text (String.ofList tooManyOnes))]) :=
    .overlong rfl (congrArg some read_tooManyOnes)
  obtain ⟨f, hf, hfail⟩ := Structured.parseArguments_of_overlooked hoverlooked
  have hnothing : Overlooked .null := .single rfl
  obtain ⟨g, hg, hnull⟩ := Structured.parseArguments_of_overlooked hnothing
  refine ⟨hf.not_settled hfail, ?_, fun hread => ?_, hg.not_settled hnull⟩
  · rw [Structured.parseArguments_object]
    exact Structured.accepted_or_reported (not_someTooDeep_of_overlong read_tooManyOnes)
  · exact Token.exists_parse_iff_not_isOverlong.1 hread _ (by simp) isOverlong_tooManyOnes

end SellRules
