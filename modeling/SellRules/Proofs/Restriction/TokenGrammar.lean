import Mathlib.Data.Nat.Digits.Defs
import SellRules.Proofs.Restriction.Token

/-!
# The grammar of tokens

What a token stands for, said without the search through the codes: the letters of a code
(`Token.IsCode`) with digits behind them stand for the number that the digits are in base ten, and
any other token for the tag that is left of it without decoration (`Token.IsBareForm`). The letters
of a code hold no digit, so the digits of a token begin at one place only. For this reason no token
is spelled by two codes (`Token.Spelled.unique`), although `i` begins `it`, and it makes no
difference in which order the codes are tried (`Token.classifyBy_eq`). A token is classified as what
it stands for and fails only for too many digits (`Token.classify_follows_grammar`).
-/

set_option autoImplicit false

namespace SellRules.Token

/-! ## The grammar -/

/-- The letters of the seven codes, each with the rule that its numbers are for. -/
inductive IsCode : List Char → Rule → Prop
  | itemType : IsCode ['i', 't'] .itemTypeIds
  | armorType : IsCode ['a', 't'] .armorTypeIds
  | weaponType : IsCode ['w', 't'] .weaponTypeIds
  | equipmentType : IsCode ['e', 't'] .equipmentTypeIds
  | item : IsCode ['i'] .itemIds
  | armor : IsCode ['a'] .armorIds
  | weapon : IsCode ['w'] .weaponIds

/-- At least one of the characters from 0 to 9 of ASCII, and no other character. -/
def IsDigits (cs : List Char) : Prop := cs ≠ [] ∧ ∀ c ∈ cs, '0' ≤ c ∧ c ≤ '9'

/-- The number that digits are in base ten; the last of them counts once. -/
def decimal (digits : List Char) : Nat :=
  Nat.ofDigits 10 (digits.reverse.map fun c => c.toNat - '0'.toNat)

/-- A token consists of letters and of digits behind them. -/
structure Spelled (token : String) (letters digits : List Char) : Prop where
  eq : token.toList = letters ++ digits
  digits : IsDigits digits

/-- No double quote, no angle bracket and no blank. -/
def Undecorated (cs : List Char) : Prop :=
  ∀ c ∈ cs, c ≠ '\x22' ∧ c ≠ '<' ∧ c ≠ '>' ∧ Text.isBlank c = false

/-- What is left of a text without its decoration. Whatever undecorated characters the text has, in
their order, are left, so nothing but decoration is taken out. -/
structure IsBareForm (s t : String) : Prop where
  undecorated : Undecorated t.toList
  sublist : t.toList.Sublist s.toList
  greatest : ∀ cs, Undecorated cs → cs.Sublist s.toList → cs.Sublist t.toList

/-- What a token stands for. Not more than 4300 digits are read, leading zeros counted. -/
inductive StandsFor (token : String) : Rule → Scalar → Prop
  | number {letters digits : List Char} {rule : Rule} (hcode : IsCode letters rule)
      (h : Spelled token letters digits) (hlength : digits.length ≤ 4300) :
      StandsFor token rule (.int (decimal digits))
  | tag {t : String}
      (hcode : ∀ letters rule digits, IsCode letters rule → ¬ Spelled token letters digits)
      (h : IsBareForm token t) : StandsFor token .tags (.text t)

/-- What a token is classified as when the given codes are tried one after the other. -/
def classifyBy (order : List (List Char × Rule)) (token : String) :
    Except Failure (Rule × Scalar) :=
  let cs := token.toList
  match order.find? fun code => isCoded code.1 cs with
  | some (letters, rule) =>
    match Number.ofSignedDigits Number.maxDigits false (cs.drop letters.length) with
    | .ok n => .ok (rule, .int n)
    | .error fault => .error (.ofNumeral (.text token) fault)
  | none => .ok (.tags, .text (stripMarker token))

theorem classifyBy_codes (token : String) : classifyBy codes token = classify token := rfl

variable {token : String} {letters digits : List Char} {rule : Rule}

/-! ## Codes -/

theorem isCode_iff : IsCode letters rule ↔ (letters, rule) ∈ codes := by
  refine ⟨fun h => ?_, fun h => ?_⟩
  · cases h <;> decide
  · simp only [codes, List.mem_cons, Prod.mk.injEq, List.not_mem_nil, or_false] at h
    rcases h with ⟨rfl, rfl⟩ | ⟨rfl, rfl⟩ | ⟨rfl, rfl⟩ | ⟨rfl, rfl⟩ | ⟨rfl, rfl⟩ | ⟨rfl, rfl⟩ |
      ⟨rfl, rfl⟩
    · exact .itemType
    · exact .armorType
    · exact .weaponType
    · exact .equipmentType
    · exact .item
    · exact .armor
    · exact .weapon

theorem isDigits_iff :
    IsDigits digits ↔ digits ≠ [] ∧ ∀ c ∈ digits, Text.isAsciiDigit c = true := by
  simp only [IsDigits, Text.isAsciiDigit, Bool.and_eq_true, decide_eq_true_eq]

theorem isCoded_iff :
    isCoded letters token.toList = true ↔ ∃ digits, Spelled token letters digits := by
  simp only [isCoded, Bool.and_eq_true, List.isPrefixOf_iff_prefix, List.all_eq_true,
    Bool.not_eq_true', List.isEmpty_eq_false_iff]
  refine ⟨?_, ?_⟩
  · intro h
    obtain ⟨⟨⟨digits, heq⟩, hne⟩, hdigits⟩ := h
    rw [← heq, List.drop_left] at hne hdigits
    exact ⟨digits, heq.symm, isDigits_iff.2 ⟨hne, hdigits⟩⟩
  · intro h
    obtain ⟨digits, heq, hdigits⟩ := h
    rw [heq, List.drop_left]
    exact ⟨⟨List.prefix_append _ _, (isDigits_iff.1 hdigits).1⟩, (isDigits_iff.1 hdigits).2⟩

/-- The letters of a spelled token are what stands before its first digit, so they are the letters
of one code only. -/
theorem Spelled.unique {others rest : List Char} {other : Rule} (hcode : IsCode letters rule)
    (hother : IsCode others other) (h : Spelled token letters digits)
    (hrest : Spelled token others rest) : letters = others ∧ rule = other ∧ digits = rest := by
  have hbefore {ls ds : List Char} {r : Rule} (hls : IsCode ls r) (hds : Spelled token ls ds) :
      token.toList.takeWhile (!Text.isAsciiDigit ·) = ls :=
    takeWhile_of_isCoded (codes_not_digit _ (isCode_iff.1 hls)) (isCoded_iff.2 ⟨ds, hds⟩)
  have hletters : letters = others := (hbefore hcode h).symm.trans (hbefore hother hrest)
  subst hletters
  have hsame := codes_injective _ (isCode_iff.1 hcode) _ (isCode_iff.1 hother) rfl
  refine ⟨rfl, congrArg Prod.snd hsame, ?_⟩
  exact List.append_cancel_left (h.eq.symm.trans hrest.eq)

/-- Where no two elements pass a test, it makes no difference in which order they are tried. -/
theorem find?_eq_of_mem_iff {α : Type} {p : α → Bool} {l m : List α} (h : ∀ a, a ∈ l ↔ a ∈ m)
    (hunique : ∀ a ∈ m, ∀ b ∈ m, p a = true → p b = true → a = b) : l.find? p = m.find? p := by
  cases hm : m.find? p with
  | none =>
    apply List.find?_eq_none.2
    intro a ha
    exact List.find?_eq_none.1 hm a ((h a).1 ha)
  | some b =>
    have hb := List.mem_of_find?_eq_some hm
    have hpb : p b = true := List.find?_some hm
    cases hl : l.find? p with
    | none => exact absurd hpb (List.find?_eq_none.1 hl b ((h b).2 hb))
    | some a =>
      have ha := (h a).1 (List.mem_of_find?_eq_some hl)
      rw [hunique a ha b hb (List.find?_some hl) hpb]

/-- The codes may be tried in any order, and more than once. -/
theorem classifyBy_eq {order : List (List Char × Rule)}
    (horder : ∀ letters rule, (letters, rule) ∈ order ↔ IsCode letters rule) (token : String) :
    classifyBy order token = classify token := by
  have hfind : (order.find? fun code => isCoded code.1 token.toList) =
      codes.find? fun code => isCoded code.1 token.toList := by
    apply find?_eq_of_mem_iff
    · intro code
      exact (horder code.1 code.2).trans isCode_iff
    · intro code hcode other hother h hreads
      obtain ⟨digits, hdigits⟩ := isCoded_iff.1 h
      obtain ⟨rest, hrest⟩ := isCoded_iff.1 hreads
      obtain ⟨hletters, hrule, -⟩ :=
        hdigits.unique (isCode_iff.2 hcode) (isCode_iff.2 hother) hrest
      exact Prod.ext hletters hrule
  rw [← classifyBy_codes, classifyBy, hfind]
  rfl

/-! ## Numbers -/

theorem decimal_eq (digits : List Char) : decimal digits = Number.ofDigits digits := by
  induction digits with
  | nil => rfl
  | cons c digits ih =>
    have hfirst : Number.ofDigits [c] = c.toNat - '0'.toNat := by
      rw [Number.ofDigits, Nat.ofDigitChars_cons, Nat.mul_zero, Nat.zero_add]
      rfl
    calc decimal (c :: digits)
        = decimal digits + 10 ^ digits.length * (c.toNat - '0'.toNat) := by
          rw [decimal, List.reverse_cons, List.map_append, Nat.ofDigits_append, List.length_map,
            List.length_reverse, List.map_singleton, Nat.ofDigits_singleton]
          rfl
      _ = Number.ofDigits [c] * 10 ^ digits.length + Number.ofDigits digits := by
          rw [ih, hfirst, Nat.add_comm, Nat.mul_comm]
      _ = Number.ofDigits (c :: digits) := (Number.ofDigits_append [c] digits).symm

theorem classify_of_spelled (hcode : IsCode letters rule) (h : Spelled token letters digits)
    (hlength : digits.length ≤ 4300) : classify token = .ok (rule, .int (decimal digits)) := by
  obtain ⟨hne, hascii⟩ := isDigits_iff.1 h.digits
  have hnumeral : Number.IsNumeral digits (decimal digits) :=
    ⟨hne, hascii, hlength, by rw [decimal_eq]⟩
  rw [← String.ofList_toList (s := token), h.eq]
  exact classify_number (isCode_iff.1 hcode) hnumeral

theorem classify_of_long (hcode : IsCode letters rule) (h : Spelled token letters digits)
    (hlength : 4300 < digits.length) :
    classify token = .error (.value (.tooManyDigits digits.length)) := by
  have hfind := find?_codes (isCode_iff.1 hcode) (isCoded_iff.2 ⟨digits, h⟩)
  have hdrop : token.toList.drop letters.length = digits := by
    rw [h.eq, List.drop_left]
  have hlong : Number.ofSignedDigits Number.maxDigits false digits =
      .error (.tooLong digits.length) := if_pos hlength
  simp only [classify, hfind, hdrop, hlong, Failure.ofNumeral]

/-! ## Tags -/

theorem undecorated_iff {cs : List Char} :
    Undecorated cs ↔ ∀ c ∈ cs, (!isDecoration c) = true := by
  simp only [Undecorated, isDecoration, Bool.not_eq_true', Bool.or_eq_false_iff, beq_eq_false_iff_ne,
    and_assoc]

theorem isBareForm_stripMarker (s : String) : IsBareForm s (stripMarker s) := by
  unfold stripMarker
  refine ⟨?_, ?_, ?_⟩
  · rw [String.toList_ofList, undecorated_iff]
    intro c hc
    exact (List.mem_filter.1 hc).2
  · rw [String.toList_ofList]
    exact List.filter_sublist
  · intro cs hcs hsublist
    rw [String.toList_ofList, ← List.filter_eq_self.2 (undecorated_iff.1 hcs)]
    exact hsublist.filter _

/-- A text has one bare form. -/
theorem IsBareForm.unique {s t u : String} (ht : IsBareForm s t) (hu : IsBareForm s u) : t = u := by
  apply String.toList_injective
  apply List.Sublist.antisymm
  · exact hu.greatest _ ht.undecorated ht.sublist
  · exact ht.greatest _ hu.undecorated hu.sublist

theorem stripMarker_eq_iff {s t : String} : stripMarker s = t ↔ IsBareForm s t := by
  refine ⟨fun h => ?_, fun h => (isBareForm_stripMarker s).unique h⟩
  rw [← h]
  exact isBareForm_stripMarker s

/-- Just the undecorated texts are their own bare forms. -/
theorem stripMarker_eq_self_iff {s : String} : stripMarker s = s ↔ Undecorated s.toList := by
  rw [stripMarker_eq_iff]
  refine ⟨IsBareForm.undecorated, fun h => ?_⟩
  exact ⟨h, List.Sublist.refl _, fun _ _ hsublist => hsublist⟩

theorem classify_of_not_spelled
    (h : ∀ letters rule digits, IsCode letters rule → ¬ Spelled token letters digits) :
    classify token = .ok (.tags, .text (stripMarker token)) := by
  have hfind : (codes.find? fun code => isCoded code.1 token.toList) = none := by
    apply List.find?_eq_none.2
    intro code hcode hcoded
    obtain ⟨digits, hdigits⟩ := isCoded_iff.1 hcoded
    exact h _ _ digits (isCode_iff.2 hcode) hdigits
  simp only [classify, hfind]

/-! ## Tokens -/

theorem classify_eq_ok_iff {a : Scalar} :
    classify token = .ok (rule, a) ↔ StandsFor token rule a := by
  refine ⟨fun h => ?_, fun h => ?_⟩
  · by_cases hspelled : ∃ letters rule digits, IsCode letters rule ∧ Spelled token letters digits
    · obtain ⟨letters, other, digits, hcode, hdigits⟩ := hspelled
      rcases Nat.lt_or_ge 4300 digits.length with hlong | hlength
      · rw [classify_of_long hcode hdigits hlong] at h
        cases h
      · rw [classify_of_spelled hcode hdigits hlength] at h
        cases h
        exact .number hcode hdigits hlength
    · have hnone : ∀ letters rule digits, IsCode letters rule → ¬ Spelled token letters digits :=
        fun letters rule digits hcode hdigits => hspelled ⟨letters, rule, digits, hcode, hdigits⟩
      rw [classify_of_not_spelled hnone] at h
      cases h
      exact .tag hnone (isBareForm_stripMarker token)
  · cases h with
    | number hcode h hlength => exact classify_of_spelled hcode h hlength
    | tag hcode h => rw [classify_of_not_spelled hcode, stripMarker_eq_iff.2 h]

/-- **Tokens are classified by their grammar.** A token is spelled by one of the seven codes at most,
so the codes may be tried in any order. It is classified exactly as what it stands for: with the
letters of a code and up to 4300 digits, as the number for the rule of the code; and if no code
spells it, as the tag that is left without double quotes, angle brackets and blanks. More digits are
a failure that tells how many they are. Decoration is taken out all at once, and nothing is taken
out exactly if there is none. -/
theorem classify_follows_grammar (token : String) :
    (∀ letters rule digits others other rest, IsCode letters rule → IsCode others other →
      Spelled token letters digits → Spelled token others rest →
        letters = others ∧ rule = other) ∧
    (∀ order : List (List Char × Rule),
      (∀ letters rule, (letters, rule) ∈ order ↔ IsCode letters rule) →
        classifyBy order token = classify token) ∧
    (∀ rule a, classify token = .ok (rule, a) ↔ StandsFor token rule a) ∧
    (∀ letters rule digits, IsCode letters rule → Spelled token letters digits →
      4300 < digits.length → classify token = .error (.value (.tooManyDigits digits.length))) ∧
    stripMarker (stripMarker token) = stripMarker token ∧
    (stripMarker token = token ↔ Undecorated token.toList) := by
  refine ⟨?_, ?_, ?_, ?_, ?_, ?_⟩
  · intro letters rule digits others other rest hcode hother h hrest
    obtain ⟨hletters, hrule, -⟩ := h.unique hcode hother hrest
    exact ⟨hletters, hrule⟩
  · intro order horder
    exact classifyBy_eq horder token
  · intro rule a
    exact classify_eq_ok_iff
  · intro letters rule digits hcode h hlong
    exact classify_of_long hcode h hlong
  · exact stripMarker_stripMarker token
  · exact stripMarker_eq_self_iff

/-- Two letters win over one, and what is partly a code is a tag. -/
example : classify "it007" = .ok (.itemTypeIds, .int 7) ∧
    classify "i1x" = .ok (.tags, .text "i1x") ∧
    classify "\"<big i1>\"" = .ok (.tags, .text "bigi1") := by decide +kernel

end SellRules.Token
