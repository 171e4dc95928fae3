import SellRules.Proofs.Number.Numeral
import SellRules.Proofs.Restriction.Typed
import SellRules.Proofs.Text.Blank

/-!
# Plain restriction sets and their tokens

A plain restriction set is one that can be declared with tokens: its ids are numbers from zero on
that can be shown, and its tags are words that are no codes and carry no decoration. Tokens for all
its members, in any order, with repetitions and with leading zeros, are words and declare the set
(`Token.parse_of_spells`).
-/

set_option autoImplicit false

namespace SellRules

open Number (IsNumeral)

namespace Token

theorem stripMarker_eq_self {t : String} (h : ∀ c ∈ t.toList, isDecoration c = false) :
    stripMarker t = t := by
  have hfilter : t.toList.filter (!isDecoration ·) = t.toList :=
    List.filter_eq_self.2 fun c hc => by simp [h c hc]
  rw [stripMarker, hfilter, String.ofList_toList]

/-- What is left of a tag carries no decoration. -/
@[simp] theorem stripMarker_stripMarker (s : String) : stripMarker (stripMarker s) = stripMarker s :=
  stripMarker_eq_self fun c hc => by
    rw [stripMarker, String.toList_ofList, List.mem_filter] at hc
    simpa using hc.2

/-- A tag that is a token as it stands: not empty, without decoration and not the letters of a code
with digits. -/
structure IsPlain (tag : String) : Prop where
  nonempty : tag.toList ≠ []
  undecorated : ∀ c ∈ tag.toList, isDecoration c = false
  uncoded : ∀ code ∈ codes, isCoded code.1 tag.toList = false

/-- The tokens for a value of a rule: the letters of the rule's code and a numeral, or a tag. -/
inductive Writes : String → Rule → Scalar → Prop
  | number {letters digits : List Char} {rule : Rule} {n : Int} (hcode : (letters, rule) ∈ codes)
      (hn : IsNumeral digits n) : Writes (String.ofList (letters ++ digits)) rule (.int n)
  | tag (s : String) : Writes s .tags (.text s)

/-- Tokens for all members of a restriction set and for nothing else. -/
structure Spells (tokens : List String) (r : RestrictionSet) : Prop where
  members : ∀ token ∈ tokens, ∃ rule, ∃ a ∈ r.get rule, Writes token rule a
  all : ∀ rule, ∀ a ∈ r.get rule, ∃ token ∈ tokens, Writes token rule a

end Token

namespace RestrictionSet

/-- Ids and type ids are numbers from zero on that can be shown, tags are plain. -/
structure Plain (r : RestrictionSet) : Prop where
  ids : ∀ rule, rule ≠ .tags → ∀ a ∈ r.get rule, ∃ n, a = .int n ∧ 0 ≤ n ∧ Number.isShown n = true
  tags : ∀ a ∈ r.tags, ∃ s, a = .text s ∧ Token.IsPlain s

theorem Plain.isPlain {r : RestrictionSet} (hr : r.Plain) {s : String}
    (hs : .text s ∈ r.get .tags) : Token.IsPlain s := by
  obtain ⟨t, ht, hplain⟩ := hr.tags _ hs
  cases ht
  exact hplain

/-- No tag carries decoration. -/
def Bare (r : RestrictionSet) : Prop := ∀ s, .text s ∈ r.get .tags → Token.stripMarker s = s

theorem Plain.bare {r : RestrictionSet} (hr : r.Plain) : r.Bare :=
  fun _ hs => Token.stripMarker_eq_self (hr.isPlain hs).undecorated

theorem Plain.typed {r : RestrictionSet} (hr : r.Plain) : r.Typed where
  ids rule hrule a ha := by
    obtain ⟨n, rfl, -⟩ := hr.ids rule hrule a ha
    exact ⟨n, rfl⟩
  tags a ha := by
    obtain ⟨s, rfl, -⟩ := hr.tags a ha
    exact ⟨s, rfl⟩

/-- A restriction set is made of its members. -/
theorem ofRules_eq {r : RestrictionSet} {rules : List (Rule × Scalar)}
    (h : ∀ rule a, (rule, a) ∈ rules ↔ a ∈ r.get rule) : ofRules rules = r := by
  refine ext_get fun rule => ?_
  have hmem (a : Scalar) : a ∈ (rules.filter fun x => x.1 = rule).map (·.2) ↔ a ∈ r.get rule := by
    rw [← h rule a]
    simp
  rw [ofRules, get_ofSets]
  refine OrderedList.ext_mem fun a => ?_
  rw [OrderedList.mem_ofList_iff, hmem]
  intro a ha b hb
  exact OrderedList.eq_of_mem_of_mem ((hmem a).1 ha) ((hmem b).1 hb)

end RestrictionSet

namespace Token

open RestrictionSet (ofRules_eq)

/-! ## Codes -/

theorem codes_not_digit : ∀ code ∈ codes, ∀ c ∈ code.1, Text.isAsciiDigit c = false := by
  simp [codes, Text.isAsciiDigit]

theorem codes_not_blank : ∀ code ∈ codes, ∀ c ∈ code.1, Text.isBlank c = false := by
  simp [codes, Text.isBlank]

theorem codes_injective : ∀ code ∈ codes, ∀ other ∈ codes, code.1 = other.1 → code = other := by
  decide

theorem isCoded_append (letters : List Char) {digits : List Char} {n : Int}
    (hn : IsNumeral digits n) : isCoded letters (letters ++ digits) = true := by
  have hdigits : digits.all Text.isAsciiDigit = true := List.all_eq_true.2 hn.ascii
  simp [isCoded, hdigits, hn.nonempty]

/-- The letters of a coded token are what stands before its first digit. -/
theorem takeWhile_of_isCoded {letters token : List Char}
    (hletters : ∀ c ∈ letters, Text.isAsciiDigit c = false) (h : isCoded letters token = true) :
    token.takeWhile (!Text.isAsciiDigit ·) = letters := by
  simp only [isCoded, Bool.and_eq_true, List.isPrefixOf_iff_prefix] at h
  obtain ⟨⟨⟨digits, rfl⟩, hne⟩, hdigits⟩ := h
  rw [List.drop_left] at hne hdigits
  rw [List.takeWhile_append_of_pos fun c hc => by simp [hletters c hc]]
  cases digits with
  | nil => simp at hne
  | cons d digits =>
    have hd := List.all_eq_true.1 hdigits d (by simp)
    simp [hd]

/-- No token is read by two codes. -/
theorem find?_codes {code : List Char × Rule} {token : List Char} (hcode : code ∈ codes)
    (hcoded : isCoded code.1 token = true) :
    (codes.find? fun other => isCoded other.1 token) = some code := by
  cases hfind : codes.find? fun other => isCoded other.1 token with
  | none =>
    have hnone := List.find?_eq_none.1 hfind _ hcode
    exact absurd hcoded hnone
  | some other =>
    have hother := List.mem_of_find?_eq_some hfind
    have hreads : isCoded other.1 token = true := by simpa using List.find?_some hfind
    have hsame : other.1 = code.1 :=
      (takeWhile_of_isCoded (codes_not_digit _ hother) hreads).symm.trans
        (takeWhile_of_isCoded (codes_not_digit _ hcode) hcoded)
    rw [codes_injective _ hother _ hcode hsame]

/-! ## Tokens -/

theorem classify_number {letters digits : List Char} {rule : Rule} {n : Int}
    (hcode : (letters, rule) ∈ codes) (hn : IsNumeral digits n) :
    classify (String.ofList (letters ++ digits)) = .ok (rule, .int n) := by
  simp only [classify, String.toList_ofList, find?_codes hcode (isCoded_append letters hn),
    List.drop_left, hn.ofSignedDigits_eq]

theorem classify_of_isPlain {tag : String} (h : IsPlain tag) :
    classify tag = .ok (.tags, .text tag) := by
  have hfind : (codes.find? fun code => isCoded code.1 tag.toList) = none :=
    List.find?_eq_none.2 fun code hcode => by simp [h.uncoded code hcode]
  simp only [classify, hfind, stripMarker_eq_self h.undecorated]

variable {r : RestrictionSet} {token : String} {rule : Rule} {a : Scalar}

/-- A token for a member of a plain set is classified as that member. -/
theorem classify_of_writes (hr : r.Plain) (ha : a ∈ r.get rule) (h : Writes token rule a) :
    classify token = .ok (rule, a) := by
  cases h with
  | number hcode hn => exact classify_number hcode hn
  | tag s => exact classify_of_isPlain (hr.isPlain ha)

theorem isWord_of_writes (hr : r.Plain) (ha : a ∈ r.get rule) (h : Writes token rule a) :
    Text.IsWord token.toList := by
  cases h with
  | number hcode hn =>
    rw [String.toList_ofList]
    refine ⟨by simp [hn.nonempty], fun c hc => ?_⟩
    rcases List.mem_append.1 hc with hc | hc
    · exact codes_not_blank _ hcode c hc
    · exact hn.not_blank c hc
  | tag s =>
    have hs := hr.isPlain ha
    refine ⟨hs.nonempty, fun c hc => ?_⟩
    have hplain := hs.undecorated c hc
    simp only [isDecoration, Bool.or_eq_false_iff] at hplain
    exact hplain.2

theorem isWord_of_spells (hr : r.Plain) {tokens : List String} (h : Spells tokens r) :
    ∀ token ∈ tokens, Text.IsWord token.toList := by
  intro token htoken
  obtain ⟨rule, a, ha, hwrites⟩ := h.members token htoken
  exact isWord_of_writes hr ha hwrites

/-- Tokens for all members of a plain set declare it, in any order and any number of times. -/
theorem parse_of_spells (hr : r.Plain) {tokens : List String} (h : Spells tokens r) :
    parse tokens = .ok r := by
  obtain ⟨rules, hrules, hmem⟩ := exists_mapM_eq_ok (f := classify) (l := tokens)
    fun token htoken => by
      obtain ⟨rule, a, ha, hwrites⟩ := h.members token htoken
      exact ⟨_, classify_of_writes hr ha hwrites⟩
  rw [parse, hrules]
  refine congrArg Except.ok (ofRules_eq fun rule a => ?_)
  rw [hmem]
  constructor
  · rintro ⟨token, htoken, hclassify⟩
    obtain ⟨other, b, hb, hwrites⟩ := h.members token htoken
    cases (classify_of_writes hr hb hwrites).symm.trans hclassify
    exact hb
  · intro ha
    obtain ⟨token, htoken, hwrites⟩ := h.all rule a ha
    exact ⟨token, htoken, classify_of_writes hr ha hwrites⟩

/-! ## Every plain set has tokens -/

theorem exists_code {rule : Rule} (h : rule ≠ .tags) : ∃ letters, (letters, rule) ∈ codes := by
  have hcodes : ∀ other ∈ Rule.all, other ≠ .tags → ∃ code ∈ codes, code.2 = other := by decide
  obtain ⟨⟨letters, rule⟩, hcode, rfl⟩ := hcodes rule (Rule.mem_all rule) h
  exact ⟨letters, hcode⟩

theorem exists_writes (hr : r.Plain) (ha : a ∈ r.get rule) : ∃ token, Writes token rule a := by
  by_cases hrule : rule = .tags
  · subst hrule
    obtain ⟨s, rfl, -⟩ := hr.tags a ha
    exact ⟨s, .tag s⟩
  · obtain ⟨n, rfl, hn, hshown⟩ := hr.ids rule hrule a ha
    obtain ⟨letters, hcode⟩ := exists_code hrule
    exact ⟨_, .number hcode (Number.isNumeral_digitsOf hn hshown)⟩

theorem exists_spells (hr : r.Plain) : ∃ tokens, Spells tokens r := by
  have hexists : ∀ rule a, a ∈ r.get rule → ∃ token, Writes token rule a :=
    fun _ _ => exists_writes hr
  choose! token htoken using hexists
  refine ⟨Rule.all.flatMap fun rule => (r.get rule).toList.map (token rule), ?_, ?_⟩
  · intro t ht
    obtain ⟨rule, -, ht⟩ := List.mem_flatMap.1 ht
    obtain ⟨a, ha, rfl⟩ := List.mem_map.1 ht
    exact ⟨rule, a, ha, htoken rule a ha⟩
  · intro rule a ha
    have hmem := List.mem_map_of_mem (f := token rule) ha
    exact ⟨_, List.mem_flatMap.2 ⟨rule, Rule.mem_all rule, hmem⟩, htoken rule a ha⟩

end Token
end SellRules
