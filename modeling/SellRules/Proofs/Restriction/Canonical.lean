import Mathlib.Data.Set.List
import SellRules.Proofs.Restriction.Equality
import SellRules.Proofs.Restriction.Readback
import SellRules.Proofs.Value.Fields

/-!
# Listings are canonical

The fields that list a typed restriction set have each member once and in strictly ascending order,
the ids by size and the tags by code points (`RestrictionSet.listsAscending`). They give the set back
(`RestrictionSet.ofLists_listing`), and two sets are equal exactly if the fields that list them are
(`RestrictionSet.equal_listing`, `RestrictionSet.same_iff`). A set that is put together from lists
has their members and depends on nothing else: not on the order of a list or of the lists, not on
repetitions, and not on whether an empty list is there (`RestrictionSet.ofLists_eq_iff`). The main
statement is `RestrictionSet.listing_is_canonical`.
-/

set_option autoImplicit false

namespace SellRules

/-! ## Scalars -/

/-- The code points of the characters of a text. -/
def Text.codePoints (s : String) : List Nat := s.toList.map Char.toNat

theorem Text.lt_iff_codePoints {s t : String} : s < t ↔ codePoints s < codePoints t := by
  have hlists (l m : List Char) : l < m ↔ l.map Char.toNat < m.map Char.toNat := by
    induction l generalizing m with
    | nil => cases m <;> simp
    | cons c l ih =>
      cases m with
      | nil => simp
      | cons d m =>
        rw [List.map_cons, List.map_cons, List.cons_lt_cons_iff, List.cons_lt_cons_iff, ih,
          Char.toNat_inj]
        rfl
  exact hlists s.toList t.toList

theorem Scalar.order_text_lt {s t : String} : order (.text s) (.text t) = .lt ↔ s < t := by
  have hcompare : compare s t = .lt ↔ s < t := compareOfLessAndEq_eq_lt
  simpa [order, compareLex, compareOn, rank, units, wording] using hcompare

theorem Scalar.mapM_ofValue? (scalars : List Scalar) :
    (scalars.map toValue).mapM ofValue? = some scalars := by
  induction scalars with
  | nil => rfl
  | cons a scalars ih =>
    have ha : ofValue? a.toValue = some a := by
      cases a <;> rfl
    rw [List.map_cons, List.mapM_cons, ha, ih]
    rfl

namespace Value

theorem similar_toValue (a b : Scalar) : similar a.toValue b.toValue = a.same b := by
  cases a <;> cases b <;> simp [similar, Scalar.toValue, Scalar.ofValue?]

/-- Lists of scalars are equal if they are of one length and equal at every place. -/
theorem similarItems_map (l m : List Scalar) :
    similarItems (l.map Scalar.toValue) (m.map Scalar.toValue) =
      (l.length == m.length && (l.zip m).all fun (a, b) => a.same b) := by
  induction l generalizing m with
  | nil => cases m <;> rfl
  | cons a l ih =>
    cases m with
    | nil => rfl
    | cons b m =>
      rw [List.map_cons, List.map_cons, similarItems, ih, similar_toValue, Bool.and_left_comm]
      simp

end Value

namespace ScalarSet

theorem ofValue_list (scalars : List Scalar) :
    ofValue (.list (scalars.map Scalar.toValue)) = .ok (.ofList scalars) := by
  unfold ofValue
  simp only [Value.elements?, Scalar.mapM_ofValue?]

theorem same_self (s : ScalarSet) : s.same s = true := by
  have hself (a : Scalar) : a.same a = true := beq_iff_eq.2 Std.ReflCmp.compare_self
  have hzip (l : List Scalar) : ((l.zip l).all fun (a, b) => a.same b) = true := by
    induction l with
    | nil => rfl
    | cons a l ih => simp only [List.zip_cons_cons, List.all_cons, hself, ih, Bool.and_self]
  rw [same, hzip, beq_self_eq_true]
  rfl

theorem contains_of_same {s t : ScalarSet} (h : s.same t = true) (a : Scalar) :
    s.contains a = t.contains a := by
  have hhas := has_of_same h a.toValue
  rw [has_toValue, has_toValue] at hhas
  exact Except.ok.inj hhas

end ScalarSet

namespace RestrictionSet

variable {r s : RestrictionSet}

/-! ## What a listing lists -/

/-- Fields list a restriction set: all its members and nothing else, each list in strictly ascending
order, ids by size and tags by code points. -/
structure ListsAscending (fields : Fields) (r : RestrictionSet) : Prop where
  names : fields.names = Rule.all.map Rule.name
  ids : ∀ rule, rule ≠ .tags → ∃ ns : List Int,
    fields.get? rule.name = some (.list (ns.map .int)) ∧ ns.Pairwise (· < ·) ∧
      ∀ n, n ∈ ns ↔ .int n ∈ r.get rule
  tags : ∃ ts : List String, fields.get? Rule.tags.name = some (.list (ts.map .text)) ∧
    ts.Pairwise (fun t u => Text.codePoints t < Text.codePoints u) ∧
      ∀ t, t ∈ ts ↔ .text t ∈ r.get .tags

/-- The ids of a rule are whole numbers. -/
theorem Typed.exists_ints (hr : r.Typed) {rule : Rule} (hrule : rule ≠ .tags) :
    ∃ ns : List Int, ns.map .int = (r.get rule).toList := by
  show (r.get rule).toList ∈ Set.range (List.map Scalar.int)
  rw [Set.range_list_map]
  intro a ha
  obtain ⟨n, rfl⟩ := hr.ids rule hrule a ha
  exact ⟨n, rfl⟩

theorem Typed.exists_texts (hr : r.Typed) :
    ∃ ts : List String, ts.map .text = (r.get .tags).toList := by
  show (r.get .tags).toList ∈ Set.range (List.map Scalar.text)
  rw [Set.range_list_map]
  intro a ha
  obtain ⟨t, rfl⟩ := hr.tags a ha
  exact ⟨t, rfl⟩

theorem listsAscending (hr : r.Typed) : ListsAscending (r.listing Rule.all) r := by
  refine ⟨?_, ?_, ?_⟩
  · rw [Fields.names, listing, List.map_map]
    rfl
  · intro rule hrule
    obtain ⟨ns, hns⟩ := hr.exists_ints hrule
    have hascending := (r.get rule).ascending
    rw [← hns, List.pairwise_map] at hascending
    refine ⟨ns, ?_, hascending.imp Scalar.order_int_lt.1, ?_⟩
    · rw [get?_listing (Rule.mem_all rule), ← hns, List.map_map]
      rfl
    · intro n
      rw [OrderedList.mem_def, ← hns, List.mem_map_of_injective fun _ _ => Scalar.int.inj]
  · obtain ⟨ts, hts⟩ := hr.exists_texts
    have hascending := (r.get .tags).ascending
    rw [← hts, List.pairwise_map] at hascending
    refine ⟨ts, ?_, ?_, ?_⟩
    · rw [get?_listing (Rule.mem_all .tags), ← hts, List.map_map]
      rfl
    · refine hascending.imp fun {t u} h => ?_
      exact Text.lt_iff_codePoints.1 (Scalar.order_text_lt.1 h)
    · intro t
      rw [OrderedList.mem_def, ← hts, List.mem_map_of_injective fun _ _ => Scalar.text.inj]

/-- A restriction set is empty exactly if all its lists are. -/
theorem isEmpty_iff : r.isEmpty = true ↔ ∀ field ∈ r.listing Rule.all, field.2 = .list [] := by
  unfold isEmpty listing
  rw [List.all_eq_true, List.forall_mem_map]
  simp only [OrderedList.isEmpty, List.isEmpty_iff, Value.list.injEq, List.map_eq_nil_iff]

/-! ## Lists by rule -/

/-- Lists for some of the rules, of whole numbers for ids and of texts for tags. -/
structure Collections where
  rows : List (Rule × List Scalar)
  distinct : (rows.map Prod.fst).Nodup
  suits : ∀ row ∈ rows, ∀ a ∈ row.2, Suits row.1 a

namespace Collections

/-- The lists as fields, each under the name of its rule. -/
def fields (given : Collections) : Fields :=
  given.rows.map fun row => (row.1.name, .list (row.2.map Scalar.toValue))

/-- The list for a rule, the empty one if there is none. -/
def items (given : Collections) (rule : Rule) : List Scalar := (given.rows.lookup rule).getD []

theorem suits_of_mem_items {given : Collections} {rule : Rule} {a : Scalar}
    (h : a ∈ given.items rule) : Suits rule a := by
  unfold items at h
  cases hlookup : given.rows.lookup rule with
  | none =>
    rw [hlookup] at h
    cases h
  | some list =>
    rw [hlookup] at h
    obtain ⟨before, after, hrows, -⟩ := List.lookup_eq_some_iff.1 hlookup
    exact given.suits (rule, list) (by simp [hrows]) a h

/-- Items of one rule that compare as equal are the same. -/
theorem eq_of_mem_items (given : Collections) (rule : Rule) :
    ∀ a ∈ given.items rule, ∀ b ∈ given.items rule, Scalar.order a b = .eq → a = b :=
  fun _ ha _ hb => eq_of_suits (suits_of_mem_items ha) (suits_of_mem_items hb)

end Collections

/-- A set for each rule that is given a list. An empty list is left out, which leaves the set of the
rule empty, for there is no other list for it. -/
theorem ofLists_rows (rows : List (Rule × List Scalar)) (h : (rows.map Prod.fst).Nodup) :
    ofLists (rows.map fun row => (row.1.name, .list (row.2.map Scalar.toValue))) =
      .ok (ofSets fun rule => .ofList ((rows.lookup rule).getD [])) := by
  induction rows with
  | nil => rfl
  | cons row rows ih =>
    obtain ⟨rule, list⟩ := row
    obtain ⟨hnew, hrest⟩ := List.nodup_cons.1 h
    have hnone : rows.lookup rule = none := by
      apply List.lookup_eq_none_iff.2
      intro row hrow
      have hne : rule ≠ row.1 := by
        intro heq
        apply hnew
        show rule ∈ rows.map Prod.fst
        rw [heq]
        exact List.mem_map_of_mem hrow
      simpa using hne
    rw [List.map_cons, ofLists, ih hrest, ok_bind]
    cases list with
    | nil =>
      refine congrArg Except.ok (ext_get fun other => ?_)
      rw [get_ofSets, get_ofSets, List.lookup_cons]
      by_cases hother : other = rule
      · rw [hother, hnone, beq_self_eq_true]
        rfl
      · rw [beq_false_of_ne hother]
    | cons a list =>
      rw [if_pos (show (Value.list ((a :: list).map Scalar.toValue)).truthy = true from rfl),
        ScalarSet.ofValue_list, ok_bind, Rule.ofName?_name]
      refine congrArg Except.ok (ext_get fun other => ?_)
      rw [withSet, get_ofSets, get_ofSets, get_ofSets, List.lookup_cons]
      by_cases hother : other = rule
      · rw [hother, if_pos rfl, beq_self_eq_true]
        rfl
      · rw [if_neg hother, beq_false_of_ne hother]

/-- The fields that list a restriction set give it back. -/
theorem ofLists_listing (r : RestrictionSet) : ofLists (r.listing Rule.all) = .ok r := by
  have hdistinct : ((Rule.all.map fun rule => (rule, (r.get rule).toList)).map Prod.fst).Nodup := by
    rw [List.map_map]
    exact (by decide : Rule.all.Nodup)
  have hrows := ofLists_rows _ hdistinct
  rw [List.map_map] at hrows
  refine hrows.trans (congrArg Except.ok (ext_get fun rule => ?_))
  rw [get_ofSets, ← OrderedList.ofList_toList (r.get rule)]
  cases rule <;> rfl

variable (given others : Collections)

theorem exists_ofLists : ∃ t, ofLists given.fields = .ok t ∧ t.Typed ∧
    ∀ rule a, a ∈ t.get rule ↔ a ∈ given.items rule := by
  have hmem : ∀ rule a, a ∈ (ofSets fun rule => .ofList (given.items rule)).get rule ↔
      a ∈ given.items rule := by
    intro rule a
    rw [get_ofSets]
    exact OrderedList.mem_ofList_iff (given.eq_of_mem_items rule)
  have hsuits : ∀ rule, ∀ a ∈ (ofSets fun rule => .ofList (given.items rule)).get rule,
      Suits rule a := fun rule a ha => Collections.suits_of_mem_items ((hmem rule a).1 ha)
  refine ⟨_, ofLists_rows _ given.distinct, ⟨fun rule hrule a ha => ?_, hsuits .tags⟩, hmem⟩
  have ha := hsuits rule a ha
  rwa [Suits, if_neg hrule] at ha

/-- Lists give the same restriction set exactly if they have the same members for every rule. -/
theorem ofLists_eq_iff : ofLists others.fields = ofLists given.fields ↔
    ∀ rule a, a ∈ others.items rule ↔ a ∈ given.items rule := by
  rw [Collections.fields, Collections.fields, ofLists_rows _ others.distinct,
    ofLists_rows _ given.distinct, Except.ok.injEq]
  have hrule (rule : Rule) :
      (OrderedList.ofList (others.items rule) : ScalarSet) = .ofList (given.items rule) ↔
        ∀ a, a ∈ others.items rule ↔ a ∈ given.items rule :=
    OrderedList.ofList_eq_ofList_iff (others.eq_of_mem_items rule) (given.eq_of_mem_items rule)
  refine ⟨fun h rule => ?_, fun h => ext_get fun rule => ?_⟩
  · have hget := congrArg (fun t => t.get rule) h
    simp only [get_ofSets] at hget
    exact (hrule rule).1 hget
  · rw [get_ofSets, get_ofSets]
    exact (hrule rule).2 (h rule)

/-! ## Equal sets and equal listings -/

theorem listing_inj : r.listing Rule.all = s.listing Rule.all ↔ r = s := by
  refine ⟨fun h => ?_, fun h => h ▸ rfl⟩
  apply Except.ok.inj
  rw [← ofLists_listing r, h, ofLists_listing]

theorem similarFields_listing (rules : List Rule) (r s : RestrictionSet) :
    Value.similarFields (r.listing rules) (s.listing Rule.all) =
      rules.all fun rule => (r.get rule).same (s.get rule) := by
  induction rules with
  | nil => rfl
  | cons rule rules ih =>
    have hlist : Value.similar (.list ((r.get rule).toList.map Scalar.toValue))
        (.list ((s.get rule).toList.map Scalar.toValue)) = (r.get rule).same (s.get rule) := by
      rw [Value.similar, Value.similarItems_map]
      rfl
    rw [listing, List.map_cons, Value.similarFields, get?_listing (Rule.mem_all rule),
      Option.any_some, hlist, List.all_cons]
    exact congrArg _ ih

/-- As data the fields that list two restriction sets are equal exactly if the sets are. -/
theorem equal_listing (r s : RestrictionSet) :
    Value.equal (.object (r.listing Rule.all)) (.object (s.listing Rule.all)) = r.same s := by
  have hobject : (Value.object (r.listing Rule.all) != .float .notANumber) = true := by simp
  rw [Value.equal, hobject, Bool.and_true, Value.similar, similarFields_listing]
  rfl

theorem Typed.mem_iff_contains (hr : r.Typed) {rule : Rule} {a : Scalar} (ha : Suits rule a) :
    a ∈ r.get rule ↔ (r.get rule).contains a = true := by
  rw [OrderedList.contains_eq_true_iff]
  refine ⟨fun hmem => ⟨a, hmem, Std.ReflCmp.compare_self⟩, fun h => ?_⟩
  obtain ⟨b, hb, hab⟩ := h
  rwa [eq_of_suits ha (hr.suits hb) hab]

/-- Typed sets are equal only if they are the same. -/
theorem same_iff (hr : r.Typed) (hs : s.Typed) : r.same s = true ↔ r = s := by
  unfold same
  rw [List.all_eq_true]
  refine ⟨fun h => ext_get fun rule => OrderedList.ext_mem fun a => ?_, fun h rule _ => ?_⟩
  · have hcontains := ScalarSet.contains_of_same (h rule (Rule.mem_all rule)) a
    refine ⟨fun ha => ?_, fun ha => ?_⟩
    · have hsuits := hr.suits ha
      rwa [hs.mem_iff_contains hsuits, ← hcontains, ← hr.mem_iff_contains hsuits]
    · have hsuits := hs.suits ha
      rwa [hr.mem_iff_contains hsuits, hcontains, ← hs.mem_iff_contains hsuits]
  · rw [h]
    exact ScalarSet.same_self _

/-! ## Canonical listings -/

/-- **Listings are canonical.** A typed restriction set has a listing: the fields of all eight rules
with their members, each once and in strictly ascending order. Put together again they give the set,
and all of them are empty exactly if the set is. Two sets are the same exactly if their listings are,
and nothing else is equal to them in the comparison of sets or of data. Lists that are given for
rules make up the set with their members, and they make up the same one exactly if they have the same
members for each rule: in any order, with repetitions or without, and with empty lists or without. -/
theorem listing_is_canonical (hr : r.Typed) (hs : s.Typed) (given others : Collections) :
    (∃ fields more, r.toFields = .ok fields ∧ s.toFields = .ok more ∧ ListsAscending fields r ∧
      ofLists fields = .ok r ∧ (r.isEmpty = true ↔ ∀ field ∈ fields, field.2 = .list []) ∧
      (r = s ↔ fields = more) ∧ (r = s ↔ r.same s = true) ∧
      (r = s ↔ Value.equal (.object fields) (.object more) = true)) ∧
    (∃ t, ofLists given.fields = .ok t ∧ t.Typed ∧
      ∀ rule a, a ∈ t.get rule ↔ a ∈ given.items rule) ∧
    (ofLists others.fields = ofLists given.fields ↔
      ∀ rule a, a ∈ others.items rule ↔ a ∈ given.items rule) := by
  refine ⟨⟨_, _, hr.toFields_eq, hs.toFields_eq, listsAscending hr, ofLists_listing r, isEmpty_iff,
    listing_inj.symm, (same_iff hr hs).symm, ?_⟩, exists_ofLists given, ofLists_eq_iff given others⟩
  rw [equal_listing, same_iff hr hs]

/-- Two items, one of them twice, no weapons and two tags. -/
def repeatedItems : Collections where
  rows := [(.itemIds, [.int 10, .int 2, .int 10]), (.weaponIds, []),
    (.tags, [.text "ice", .text "fire"])]
  distinct := by decide
  suits := by simp [Suits]

/-- The same items and tags in another order and without repetitions. -/
def singleItems : Collections where
  rows := [(.tags, [.text "fire", .text "ice"]), (.itemIds, [.int 2, .int 10])]
  distinct := by decide
  suits := by simp [Suits]

/-- These items and tags as a restriction set. -/
def twoItems : RestrictionSet :=
  .ofRules [(.itemIds, .int 10), (.itemIds, .int 2), (.tags, .text "ice"), (.tags, .text "fire")]

/-- Repeated items are listed once, the smaller one first, and make up what single ones do. -/
theorem repeated_items_are_listed_once :
    twoItems.Typed ∧ ofLists repeatedItems.fields = .ok twoItems ∧
      ofLists singleItems.fields = .ok twoItems ∧
      ∃ fields, twoItems.toFields = .ok fields ∧
        fields.get? "item_ids" = some (.list [.int 2, .int 10]) ∧
        fields.get? "tags" = some (.list [.text "fire", .text "ice"]) ∧
        ofLists fields = .ok twoItems := by
  have htyped : twoItems.Typed := typed_ofRules (by simp [Suits])
  have hmade : ofLists repeatedItems.fields = .ok twoItems := by decide +kernel
  have hmembers : ∀ rule ∈ Rule.all,
      (∀ a ∈ singleItems.items rule, a ∈ repeatedItems.items rule) ∧
        ∀ a ∈ repeatedItems.items rule, a ∈ singleItems.items rule := by decide +kernel
  obtain ⟨⟨fields, -, hfields, -, -, hback, -⟩, -, hsame⟩ :=
    listing_is_canonical htyped htyped repeatedItems singleItems
  have hsingle : ofLists singleItems.fields = ofLists repeatedItems.fields := by
    apply hsame.2
    intro rule a
    obtain ⟨hsingle, hrepeated⟩ := hmembers rule (Rule.mem_all rule)
    exact ⟨hsingle a, hrepeated a⟩
  refine ⟨htyped, hmade, hsingle.trans hmade, fields, hfields, ?_, ?_, hback⟩
  all_goals
    obtain rfl := Except.ok.inj (htyped.toFields_eq.symm.trans hfields)
    decide +kernel

end RestrictionSet
end SellRules
