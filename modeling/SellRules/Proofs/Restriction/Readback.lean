import SellRules.Proofs.Json.Limit
import SellRules.Proofs.Restriction.Structured
import SellRules.Proofs.Restriction.Union

/-!
# Listed restriction sets read back

What a parser gives is typed, and its tags carry no decoration any more
(`RestrictionSet.Parsed.bare`). Such a restriction set is declared by the fields that list it under
the names of the rules (`Structured.parse_listing`). If it was read from texts, its members can stand
in a JSON text (`Token.writable_parse`, `Structured.writable_parse`), and the text of the fields
declares it as well.
-/

set_option autoImplicit false

namespace SellRules

/-! ## What tokens give -/

namespace Token

/-- A collection of tokens is one of texts. -/
theorem exists_mapM_classify {elements : List Value} {rules : List (Rule × Scalar)}
    (h : elements.mapM classifyValue = .ok rules) :
    ∃ tokens : List String, tokens.mapM classify = .ok rules := by
  induction elements generalizing rules with
  | nil => exact ⟨[], h⟩
  | cons element elements ih =>
    rw [List.mapM_cons] at h
    obtain ⟨first, hfirst, h⟩ := bind_eq_ok.1 h
    obtain ⟨rest, hrest, h⟩ := bind_eq_ok.1 h
    cases h
    obtain ⟨tokens, htokens⟩ := ih hrest
    unfold classifyValue at hfirst
    split at hfirst
    · rename_i token _
      refine ⟨token :: tokens, ?_⟩
      rw [List.mapM_cons, hfirst, htokens]
      rfl
    · cases hfirst

theorem exists_parse_of_parseValue {v : Value} {r : RestrictionSet} (h : parseValue v = .ok r) :
    ∃ tokens, parse tokens = .ok r := by
  unfold parseValue at h
  split at h
  · exact ⟨_, h⟩
  · obtain ⟨rules, hrules, h⟩ := bind_eq_ok.1 h
    obtain ⟨tokens, htokens⟩ := exists_mapM_classify hrules
    exact ⟨tokens, by rw [parse, htokens]; exact h⟩
  · cases h

variable {tokens : List String} {r : RestrictionSet}

theorem classify_eq_tag {token s : String} (h : classify token = .ok (.tags, .text s)) :
    s = stripMarker token := by
  simp only [classify] at h
  split at h
  · split at h <;> cases h
  · cases h
    rfl

theorem bare_parse (h : parse tokens = .ok r) : r.Bare := by
  intro s hs
  obtain ⟨token, -, hclassify⟩ := (mem_get_parse_iff h).1 hs
  rw [classify_eq_tag hclassify, stripMarker_stripMarker]

/-- The digits of a token are not too many to be shown. -/
theorem isJson_of_classify {token : String} {rule : Rule} {a : Scalar}
    (h : classify token = .ok (rule, a)) : a.toValue.isJson = true := by
  simp only [classify] at h
  split at h
  · rename_i letters other hfind
    have hcoded : isCoded letters token.toList = true := by simpa using List.find?_some hfind
    simp only [isCoded, Bool.and_eq_true] at hcoded
    split at h
    · rename_i n hn
      cases h
      rw [Scalar.toValue, Value.isJson_int]
      exact Number.isShown_of_ofSignedDigits (fun c hc => List.all_eq_true.1 hcoded.2 c hc) hn
    · cases h
  · cases h
    rfl

theorem writable_parse (h : parse tokens = .ok r) : r.Writable := by
  intro rule a ha
  obtain ⟨token, -, hclassify⟩ := (mem_get_parse_iff h).1 ha
  exact isJson_of_classify hclassify

end Token

/-! ## What fields give -/

namespace Structured

theorem exists_parse_of_parseArguments {args : Value} {r : RestrictionSet}
    (h : parseArguments args = .ok r) : ∃ fields, parse fields = .ok r := by
  obtain ⟨raw, -, h⟩ := bind_eq_ok.1 h
  obtain ⟨v, -, h⟩ := bind_eq_ok.1 h
  split at h
  · exact ⟨_, h⟩
  · cases h

theorem exists_object_of_parse {v : Value} {r : RestrictionSet} (h : parse v = .ok r) :
    ∃ fields, v = .object fields := by
  cases v with
  | object fields => exact ⟨fields, rfl⟩
  | _ => cases h

theorem bare_parse {v : Value} {r : RestrictionSet} (h : parse v = .ok r) : r.Bare := by
  obtain ⟨fields, rfl⟩ := exists_object_of_parse h
  intro s hs
  obtain ⟨name, raw, items, -, -, element, -, hdeclares⟩ :=
    declares_of_mem_parse h hs
  cases hdeclares with
  | tag => exact Token.stripMarker_stripMarker _

theorem itemsModest_of_decodeList {raw : Value} {items : List Value} (hraw : raw.isModest = true)
    (h : decodeList raw = .ok items) : Value.itemsModest items = true := by
  unfold decodeList at h
  split at h
  · cases h
    rfl
  · cases h
    exact Value.itemsModest_of_isModest hraw
  · split at h
    · cases h
      rfl
    · exact Value.itemsModest_of_isModest (Json.isModest_of_read (listOfRead_eq_ok_iff.1 h))
  · rename_i codes
    have hread : Json.readText? (.unpaired codes) = some (.ok (.list items)) :=
      congrArg some (listOfRead_eq_ok_iff.1 h)
    exact Value.itemsModest_of_isModest (Json.isModest_of_readText? hread)
  · cases h

theorem isShown_of_decodeId {element : Value} {n : Int} (helement : element.isModest = true)
    (h : decodeId element = .ok (.int n)) : Number.isShown n = true := by
  unfold decodeId at h
  split at h
  · cases h
    rwa [Value.isModest_int] at helement
  · split at h
    · rename_i hread
      cases h
      exact Number.isShown_of_readPlain hread
    all_goals cases h
  · cases h

/-- What fields declare that were read from a text can stand in a text. -/
theorem writable_parse {v : Value} {r : RestrictionSet} (hv : v.isModest = true)
    (h : parse v = .ok r) : r.Writable := by
  obtain ⟨fields, rfl⟩ := exists_object_of_parse h
  intro rule a ha
  obtain ⟨name, raw, items, hget, hlist, element, helement, hdeclares⟩ :=
    declares_of_mem_parse h ha
  have hraw := Value.isModest_of_get? (Value.fieldsModest_of_isModest hv) hget
  have hitems := itemsModest_of_decodeList hraw hlist
  cases hdeclares with
  | id _ hdecode =>
    rw [Scalar.toValue, Value.isJson_int]
    exact isShown_of_decodeId (Value.itemsModest_iff.1 hitems element helement) hdecode
  | tag => rfl

end Structured

namespace RestrictionSet

/-- A parser has given a restriction set: from tokens, from a text or a collection of tokens, from
fields, or from the arguments of a plugin command. -/
inductive Parsed (r : RestrictionSet) : Prop
  | tokens {tokens : List String} (h : Token.parse tokens = .ok r)
  | tokenValue {v : Value} (h : Token.parseValue v = .ok r)
  | fields {v : Value} (h : Structured.parse v = .ok r)
  | arguments {args : Value} (h : Structured.parseArguments args = .ok r)

/-- Every parser gives what tokens or fields declare. -/
theorem Parsed.declared {r : RestrictionSet} (h : r.Parsed) :
    (∃ tokens, Token.parse tokens = .ok r) ∨ ∃ v, Structured.parse v = .ok r := by
  cases h with
  | tokens h => exact .inl ⟨_, h⟩
  | tokenValue h => exact .inl (Token.exists_parse_of_parseValue h)
  | fields h => exact .inr ⟨_, h⟩
  | arguments h => exact .inr (Structured.exists_parse_of_parseArguments h)

theorem Parsed.typed {r : RestrictionSet} (h : r.Parsed) : r.Typed := by
  rcases h.declared with ⟨tokens, h⟩ | ⟨v, h⟩
  · exact Token.typed_parse h
  · exact Structured.typed_parse h

theorem Parsed.bare {r : RestrictionSet} (h : r.Parsed) : r.Bare := by
  rcases h.declared with ⟨tokens, h⟩ | ⟨v, h⟩
  · exact Token.bare_parse h
  · exact Structured.bare_parse h

end RestrictionSet

/-! ## Listed sets -/

theorem Rule.name_injective : Function.Injective Rule.name := fun rule other h => by
  simpa using congrArg Rule.ofName? h

namespace RestrictionSet

theorem get?_listing {rules : List Rule} {rule : Rule} (h : rule ∈ rules) (r : RestrictionSet) :
    (r.listing rules).get? rule.name = some (.list ((r.get rule).toList.map Scalar.toValue)) := by
  induction rules with
  | nil => cases h
  | cons other rules ih =>
    rw [listing, List.map_cons, Fields.get?]
    by_cases hname : other.name = rule.name
    · obtain rfl := Rule.name_injective hname
      rw [if_pos rfl]
    · rw [if_neg hname]
      exact ih ((List.mem_cons.1 h).resolve_left fun heq => hname (heq ▸ rfl))

theorem get?_listing_of_ne {name : String} (h : ∀ rule : Rule, rule.name ≠ name) (rules : List Rule)
    (r : RestrictionSet) : (r.listing rules).get? name = none := by
  induction rules with
  | nil => rfl
  | cons other rules ih =>
    rw [listing, List.map_cons, Fields.get?, if_neg (h other)]
    exact ih

/-- The lists of a restriction set in the order of their names can stand in a JSON text. -/
theorem Writable.isJson_listing {r : RestrictionSet} (h : r.Writable) :
    (Value.object (r.listing Rule.byName)).isJson = true := by
  have hnames : ((r.listing Rule.byName).map Prod.fst).Nodup := by
    rw [listing, List.map_map]
    exact (by decide : (Rule.byName.map Rule.name).Nodup)
  have hlists : ∀ field ∈ r.listing Rule.byName, field.2.isWritable = true ∧ field.2.levels ≤ 1 := by
    intro field hfield
    obtain ⟨rule, -, rfl⟩ := List.mem_map.1 hfield
    exact Structured.isWritable_toValue h rule
  refine Value.isJson_iff.2 ⟨?_, ?_⟩
  · rw [Value.isWritable, decide_eq_true hnames, Bool.true_and, Value.fieldsWritable_iff]
    exact fun field hfield => (hlists field hfield).1
  · have hfields := Value.fieldsLevels_le_iff.2 fun field hfield => (hlists field hfield).2
    rw [Value.levels]
    exact (Nat.succ_le_succ hfields).trans (by decide)

end RestrictionSet

namespace Structured

/-- No rule goes by the authoring name of a rule. -/
theorem name_ne_authored : ∀ x ∈ authoring, ∀ rule : Rule, rule.name ≠ x.2 := by
  have hall : ∀ x ∈ authoring, ∀ rule ∈ Rule.all, rule.name ≠ x.2 := by decide
  exact fun x hx rule => hall x hx rule (Rule.mem_all rule)

/-- The lists are found under the names of the rules. -/
theorem holds_listing {r : RestrictionSet} (hr : r.Typed) {rules : List Rule}
    (hrules : ∀ rule, rule ∈ rules) : Holds (r.listing rules) r := by
  intro rule authored hrule
  refine ⟨rule.name, .list ((r.get rule).toList.map Scalar.toValue), _, ?_, rfl,
    lists_toValue hr rule⟩
  rw [find?, RestrictionSet.get?_listing_of_ne (name_ne_authored _ hrule),
    RestrictionSet.get?_listing (hrules rule)]
  rfl

/-- A restriction set without decoration is declared by the fields that list it. -/
theorem parse_listing {r : RestrictionSet} (hr : r.Typed) (hbare : r.Bare) {rules : List Rule}
    (hrules : ∀ rule, rule ∈ rules) : parse (.object (r.listing rules)) = .ok r :=
  parse_of_holds hbare (holds_listing hr hrules)

end Structured
end SellRules
