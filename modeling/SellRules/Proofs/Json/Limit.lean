import Mathlib.Data.Nat.Cast.Order.Field
import SellRules.Proofs.Json.RoundTrip
import SellRules.Proofs.Value.Fields
import SellRules.Proofs.Value.Levels

/-!
# What a JSON text can hold

Numerals are limited in length, numbers of double precision are limited in size by far less, and so
are the levels of lists and objects. So what was read from a text is modest (`isModest_of_read`): it
can be shown, and so can the whole part of every number of double precision in it. A text that is a
longer numeral is refused (`read_overlong`), and so is one that opens more lists than there may be
levels (`read_tooDeep`).
-/

set_option autoImplicit false

namespace SellRules

namespace Number

namespace Binary64

/-- Whether the whole part of a number can be shown, if it has one. -/
def isModest (x : Binary64) : Bool := x.truncate?.all isShown

/-- What the largest significand and the largest exponent give can still be shown. -/
theorem isModest_of_le {negative : Bool} {m : Nat} {e : Int}
    (h : (if 0 ≤ e then m * 2 ^ e.toNat else m / 2 ^ (-e).toNat) ≤ 2 ^ 53 * 2 ^ 971) :
    (finite negative m e).isModest = true := by
  have hlimit : 2 ^ 53 * 2 ^ 971 < leastUnshown := by decide +kernel
  generalize 2 ^ 53 * 2 ^ 971 = most at h hlimit
  simp only [isModest, truncate?, Option.all_some, isShown, natAbs_withSign, decide_eq_true_eq]
  exact lt_of_le_of_lt h hlimit

theorem isModest_zero (negative : Bool) : (finite negative 0 0).isModest = true :=
  isModest_of_le (by rw [if_pos le_rfl, zero_mul]; exact Nat.zero_le _)

/-- The factors of two that leave the significand come into the exponent. -/
theorem exists_stripTwos (limit m : Nat) (e : Int) :
    ∃ s : Nat, m = (stripTwos limit m e).1 * 2 ^ s ∧ (stripTwos limit m e).2 = e + s := by
  induction limit generalizing m e with
  | zero => exact ⟨0, by simp [stripTwos], by simp [stripTwos]⟩
  | succ limit ih =>
    unfold stripTwos
    split
    · rename_i heven
      obtain ⟨s, hm, he⟩ := ih (m / 2) (e + 1)
      refine ⟨s + 1, ?_, ?_⟩
      · rw [pow_succ, ← mul_assoc, ← hm]
        omega
      · rw [he]
        push_cast
        ring
    · exact ⟨0, by simp, by simp⟩

theorem isModest_ofScaled (negative : Bool) {m : Nat} {e : Int} (hm : m ≤ 2 ^ 53)
    (he : e ≤ maxExponent) : (ofScaled negative m e).isModest = true := by
  unfold ofScaled
  split
  · exact isModest_zero negative
  · obtain ⟨s, hstrip, hexponent⟩ := exists_stripTwos 53 m e
    dsimp only
    rw [hexponent]
    refine isModest_of_le ?_
    generalize (stripTwos 53 m e).1 = k at hstrip ⊢
    split
    · calc k * 2 ^ (e + s).toNat
          ≤ k * 2 ^ (s + 971) := by
            refine Nat.mul_le_mul_left k (Nat.pow_le_pow_right (by decide) ?_)
            simp only [maxExponent] at he
            omega
        _ = m * 2 ^ 971 := by rw [pow_add, ← mul_assoc, ← hstrip]
        _ ≤ 2 ^ 53 * 2 ^ 971 := Nat.mul_le_mul_right _ hm
    · have hk : k ≤ m := hstrip ▸ Nat.le_mul_of_pos_right k (Nat.two_pow_pos s)
      have hpower : 2 ^ 53 ≤ 2 ^ 53 * 2 ^ 971 := Nat.le_mul_of_pos_right _ (by positivity)
      exact (Nat.div_le_self _ _).trans (hk.trans (hm.trans hpower))

theorem roundHalfEven_le (n d : Nat) : roundHalfEven n d ≤ n / d + 1 := by
  unfold roundHalfEven
  dsimp only
  split <;> omega

theorem isModest_ofRatio (negative : Bool) (n : Nat) {d : Nat} (hd : 0 < d) :
    (ofRatio negative n d).isModest = true := by
  unfold ofRatio
  split
  · exact isModest_zero negative
  · rename_i hn
    obtain ⟨k, hk, -, hlt⟩ := exists_ratioExponent (Nat.pos_of_ne_zero hn) hd
    dsimp only
    split
    · rfl
    · rename_i hsize
      simp only [Bool.or_eq_true, decide_eq_true_eq, not_or, not_lt] at hsize
      refine isModest_ofScaled negative ?_ hsize.1
      obtain ⟨hb, hscaled⟩ := scaleRatio_eq n hd (ratioExponent n d)
      have hquotient : (scaleRatio n d (ratioExponent n d)).1 /
          (scaleRatio n d (ratioExponent n d)).2 < 2 ^ 53 := by
        have hratio : (n : ℚ) / d / 2 ^ ratioExponent n d < 2 ^ (53 : Int) := by
          rw [div_lt_iff₀ (by positivity), ← zpow_add₀ two_ne_zero]
          refine hlt.trans_le (zpow_le_zpow_right₀ one_le_two ?_)
          omega
        rw [← hscaled] at hratio
        exact_mod_cast Nat.cast_div_le.trans_lt hratio
      exact (roundHalfEven_le _ _).trans hquotient

theorem isModest_ofDecimal (negative : Bool) (n : Nat) (e : Int) :
    (ofDecimal negative n e).isModest = true := by
  unfold ofDecimal
  dsimp only
  split
  · exact isModest_zero negative
  · split
    · rfl
    · split
      · exact isModest_ofRatio negative _ (by decide)
      · exact isModest_ofRatio negative n (Nat.pow_pos (by decide))

end Binary64
end Number

/-! ## Values -/

namespace Value

/-- Whether the number that a value is, if it is one, can be shown as a whole number. -/
def hasModestSize : Value → Bool
  | .int n => Number.isShown n
  | .float x => x.isModest
  | _ => true

/-- Whether the whole numbers in a value can be shown, and so can the whole parts of its numbers of
double precision, and its lists and objects do not stand too deep inside one another. -/
def isModest (v : Value) : Bool := every hasModestSize v && decide (v.levels ≤ maxLevels)

def itemsModest (items : List Value) : Bool := items.all isModest

def fieldsModest (fields : Fields) : Bool := fields.all fun field => field.2.isModest

/-- A value is modest where `room` lists and objects may stand inside one another. -/
structure IsModestWithin (room : Nat) (v : Value) : Prop where
  size : every hasModestSize v = true
  levels : v.levels ≤ room

variable {v : Value} {items : List Value} {fields : Fields} {room : Nat}

theorem isModest_iff : v.isModest = true ↔ IsModestWithin maxLevels v := by
  rw [isModest, Bool.and_eq_true, decide_eq_true_iff]
  exact ⟨fun h => ⟨h.1, h.2⟩, fun h => ⟨h.size, h.levels⟩⟩

theorem itemsModest_iff : itemsModest items = true ↔ ∀ v ∈ items, v.isModest = true :=
  List.all_eq_true

theorem fieldsModest_iff :
    fieldsModest fields = true ↔ ∀ field ∈ fields, field.2.isModest = true :=
  List.all_eq_true

@[simp] theorem isModest_int (n : Int) : (int n).isModest = Number.isShown n := by
  simp [isModest, every, hasModestSize, Value.levels]

@[simp] theorem isModest_float (x : Number.Binary64) : (float x).isModest = x.isModest := by
  simp [isModest, every, hasModestSize, Value.levels]

theorem isModestWithin_list :
    IsModestWithin (room + 1) (list items) ↔ ∀ v ∈ items, IsModestWithin room v := by
  have hlevels : (list items).levels ≤ room + 1 ↔ ∀ v ∈ items, v.levels ≤ room := by
    rw [Value.levels, Nat.add_le_add_iff_right, itemsLevels_le_iff]
  constructor
  · rintro ⟨hsize, hroom⟩ v hv
    rw [every, itemsEvery_iff] at hsize
    exact ⟨hsize v hv, hlevels.1 hroom v hv⟩
  · refine fun h => ⟨?_, hlevels.2 fun v hv => (h v hv).levels⟩
    rw [every, itemsEvery_iff]
    exact fun v hv => (h v hv).size

theorem isModestWithin_object :
    IsModestWithin (room + 1) (object fields) ↔ ∀ field ∈ fields, IsModestWithin room field.2 := by
  have hlevels : (object fields).levels ≤ room + 1 ↔ ∀ field ∈ fields, field.2.levels ≤ room := by
    rw [Value.levels, Nat.add_le_add_iff_right, fieldsLevels_le_iff]
  constructor
  · rintro ⟨hsize, hroom⟩ field hfield
    rw [every, fieldsEvery_iff] at hsize
    exact ⟨hsize field hfield, hlevels.1 hroom field hfield⟩
  · refine fun h => ⟨?_, hlevels.2 fun field hfield => (h field hfield).levels⟩
    rw [every, fieldsEvery_iff]
    exact fun field hfield => (h field hfield).size

theorem IsModestWithin.mono {more : Nat} (h : IsModestWithin room v) (hle : room ≤ more) :
    IsModestWithin more v := ⟨h.size, h.levels.trans hle⟩

/-- The items of a modest list are modest. -/
theorem itemsModest_of_isModest (h : (list items).isModest = true) : itemsModest items = true := by
  have hwithin : IsModestWithin (maxLevels + 1) (list items) :=
    (isModest_iff.1 h).mono (Nat.le_succ _)
  exact itemsModest_iff.2 fun v hv => isModest_iff.2 (isModestWithin_list.1 hwithin v hv)

/-- The fields of a modest object are modest. -/
theorem fieldsModest_of_isModest (h : (object fields).isModest = true) :
    fieldsModest fields = true := by
  have hwithin : IsModestWithin (maxLevels + 1) (object fields) :=
    (isModest_iff.1 h).mono (Nat.le_succ _)
  exact fieldsModest_iff.2 fun field hfield =>
    isModest_iff.2 (isModestWithin_object.1 hwithin field hfield)

theorem isShown_of_isModest (h : v.isModest = true) : v.isShown = true := by
  obtain ⟨hsize, hlevels⟩ := isModest_iff.1 h
  refine isShown_iff.2 ⟨every_of_imp (fun v hv => ?_) hsize, hlevels⟩
  cases v with
  | int n => exact hv
  | _ => rfl

theorem isModest_of_get? (h : fieldsModest fields = true) {name : String}
    (hget : fields.get? name = some v) : v.isModest = true :=
  fieldsModest_iff.1 h _ (Fields.mem_of_get? hget)

end Value

namespace Json

open Value (IsModestWithin isModest_iff isModestWithin_list isModestWithin_object)

/-! ## What the reader gives -/

theorem isModestWithin_zero {v : Value} (h : v.hasModestSize = true) (hlevels : v.levels = 0)
    (room : Nat) : IsModestWithin room v :=
  ⟨(Value.every_of_levels_eq_zero hlevels).trans h, hlevels ▸ Nat.zero_le room⟩

theorem isModest_of_readNumber {cs rest : List Char} {v : Value}
    (h : readNumber Number.maxDigits cs = .ok (v, rest)) (room : Nat) : IsModestWithin room v := by
  have hwhole : ∀ body : List Char, ∀ c ∈ (takeWhole body).1, Text.isAsciiDigit c = true := by
    intro body c hc
    unfold takeWhole at hc
    split at hc
    · cases List.mem_singleton.1 hc
      decide
    · exact List.all_eq_true.1 List.all_takeWhile c hc
  unfold readNumber at h
  split at h
  split at h
  rename_i htake
  split at h
  · cases h
  · split at h
    split at h
    · split at h
      · rename_i n hn
        cases h
        have hsize : (Value.int n).hasModestSize = true :=
          Number.isShown_of_ofSignedDigits (fun c hc => hwhole _ c (by rwa [htake])) hn
        exact isModestWithin_zero hsize rfl room
      · cases h
      · cases h
    · cases h
      refine isModestWithin_zero (v := .float _) ?_ rfl room
      exact Number.Binary64.isModest_ofDecimal _ _ _

theorem isModest_of_readConstant? {cs rest : List Char} {v : Value}
    (h : readConstant? cs = some (v, rest)) (room : Nat) : IsModestWithin room v := by
  have hconstants : ∀ constant ∈ constants,
      constant.2.hasModestSize = true ∧ constant.2.levels = 0 := by decide
  obtain ⟨constant, hfound, heq⟩ := Option.map_eq_some_iff.1 h
  cases heq
  obtain ⟨hsize, hlevels⟩ := hconstants constant (List.mem_of_find?_eq_some hfound)
  exact isModestWithin_zero hsize hlevels room

theorem isModest_textOfCodes (codes : List Nat) (room : Nat) :
    IsModestWithin room (textOfCodes codes) := by
  unfold textOfCodes
  split <;> exact isModestWithin_zero rfl rfl room

/-- What the reader gives within some depth of calls is modest, and within the room for levels: a
value, the items of a list and the fields of an object. -/
structure GivesModest (code : List Char → Nat) (limit : Nat) : Prop where
  value : ∀ {room : Nat} {cs rest : List Char} {v : Value},
    readValue Number.maxDigits code limit room cs = .ok (v, rest) → IsModestWithin room v
  items : ∀ {room : Nat} {cs rest : List Char} {items : List Value},
    readItems Number.maxDigits code limit room cs = .ok (items, rest) →
      ∀ v ∈ items, IsModestWithin room v
  fields : ∀ {room : Nat} {before fields : Fields} {cs rest : List Char},
    (∀ field ∈ before, IsModestWithin room field.2) →
    readFields Number.maxDigits code limit room before cs = .ok (fields, rest) →
      ∀ field ∈ fields, IsModestWithin room field.2

section

variable {code : List Char → Nat} {limit room : Nat} {cs rest : List Char}

theorem GivesModest.readValue (h : GivesModest code limit) {v : Value}
    (hread : readValue Number.maxDigits code (limit + 1) room cs = .ok (v, rest)) :
    IsModestWithin room v := by
  rw [readValue.eq_def] at hread
  dsimp only at hread
  split at hread
  · obtain ⟨⟨pieces, after⟩, -, hread⟩ := bind_eq_ok.1 hread
    cases hread
    exact isModest_textOfCodes _ room
  · split at hread
    · cases hread
    · split at hread
      · cases hread
        exact isModestWithin_list.2 (List.forall_mem_nil _)
      · obtain ⟨⟨items, after⟩, hitems, hread⟩ := bind_eq_ok.1 hread
        cases hread
        exact isModestWithin_list.2 (h.items hitems)
  · split at hread
    · cases hread
    · split at hread
      · cases hread
        exact isModestWithin_object.2 (List.forall_mem_nil _)
      · obtain ⟨⟨fields, after⟩, hfields, hread⟩ := bind_eq_ok.1 hread
        cases hread
        exact isModestWithin_object.2 (h.fields (List.forall_mem_nil _) hfields)
  · split at hread
    · rename_i hconstant
      cases hread
      exact isModest_of_readConstant? hconstant room
    · exact isModest_of_readNumber hread room

theorem GivesModest.readItems (h : GivesModest code limit) {items : List Value}
    (hread : readItems Number.maxDigits code (limit + 1) room cs = .ok (items, rest)) :
    ∀ v ∈ items, IsModestWithin room v := by
  obtain ⟨⟨v, after⟩, hvalue, hread⟩ := bind_eq_ok.1 hread
  have hv := h.value hvalue
  dsimp only at hread
  split at hread
  · cases hread
    exact List.forall_mem_singleton.2 hv
  · obtain ⟨⟨more, last⟩, hmore, hread⟩ := bind_eq_ok.1 hread
    cases hread
    exact List.forall_mem_cons.2 ⟨hv, h.items hmore⟩
  · cases hread

theorem GivesModest.readFields (h : GivesModest code limit) {before fields : Fields}
    (hbefore : ∀ field ∈ before, IsModestWithin room field.2)
    (hread : readFields Number.maxDigits code (limit + 1) room before cs = .ok (fields, rest)) :
    ∀ field ∈ fields, IsModestWithin room field.2 := by
  rw [readFields.eq_def] at hread
  dsimp only at hread
  split at hread
  · obtain ⟨⟨pieces, after⟩, -, hread⟩ := bind_eq_ok.1 hread
    dsimp only at hread
    split at hread
    · obtain ⟨⟨v, behind⟩, hvalue, hread⟩ := bind_eq_ok.1 hread
      have hput : ∀ field ∈ before.put (nameOfCodes (joinPairs pieces)) v,
          IsModestWithin room field.2 := by
        intro field hfield
        rcases Fields.mem_of_mem_put hfield with rfl | hfield
        · exact h.value hvalue
        · exact hbefore field hfield
      dsimp only at hread
      split at hread
      · cases hread
        exact hput
      · exact h.fields hput hread
      · cases hread
    · cases hread
  · cases hread

end

/-- The reader gives modest values at every depth of calls. -/
theorem givesModest (code : List Char → Nat) (limit : Nat) : GivesModest code limit := by
  induction limit with
  | zero => exact ⟨nofun, nofun, nofun⟩
  | succ limit ih => exact ⟨ih.readValue, ih.readItems, ih.readFields⟩

theorem isModest_of_readAll {code : List Char → Nat} {cs : List Char} {v : Value}
    (h : readAll Number.maxDigits code Value.maxLevels cs = .ok v) : v.isModest = true := by
  unfold readAll at h
  split at h
  · cases h
  · split at h
    · rename_i hvalue
      split at h
      · cases h
        exact isModest_iff.2 ((givesModest code _).value hvalue)
      · cases h
    · cases h

theorem located_eq_ok {cs : List Char} {r : Except Stop Value} {v : Value} :
    located cs r = .ok v ↔ r = .ok v := by
  cases r with
  | ok w => simp [located]
  | error stop => cases stop <;> simp [located]

/-- What a JSON text holds is modest. -/
theorem isModest_of_read {s : String} {v : Value} (h : read s = .ok v) : v.isModest = true :=
  isModest_of_readAll (located_eq_ok.1 h)

/-- What a text with lone surrogates holds is modest as well. -/
theorem isModest_of_readText? {raw v : Value} (h : readText? raw = some (.ok v)) :
    v.isModest = true := by
  cases raw with
  | text s => exact isModest_of_read (Option.some.inj h)
  | unpaired codes => exact isModest_of_readAll (located_eq_ok.1 (Option.some.inj h))
  | _ => cases h

/-- A value that some JSON text holds. -/
def IsJson (v : Value) : Prop := ∃ s, read s = .ok v

theorem IsJson.isModest {v : Value} (h : IsJson v) : v.isModest = true := by
  obtain ⟨s, hread⟩ := h
  exact isModest_of_read hread

/-! ## Numerals that are too long -/

/-- A text that is a numeral with too many digits is refused for that. -/
theorem read_overlong {whole : List Char} (hwhole : IsWhole whole)
    (hlong : Number.maxDigits < whole.length) :
    read (String.ofList whole) = .error (.tooManyDigits whole.length) := by
  have hnumber : readNumber Number.maxDigits whole = .error (.tooManyDigits whole.length) := by
    have hread := @readNumber_signed Number.maxDigits false whole [] [] [] [] none hwhole nofun
      (takeFraction_of_ne_point nofun) (takeExponent_of_ends nofun)
    rw [if_pos ⟨rfl, rfl⟩, Number.ofSignedDigits, if_pos hlong, List.append_nil] at hread
    exact hread
  have hbegins := begins_of_isWhole hwhole false []
  have hskip := hbegins.skipSpace_eq []
  have hvalue : readValue Number.maxDigits headCode (2 * whole.length + 2) Value.maxLevels
      (signed false whole ++ []) = readNumber Number.maxDigits (signed false whole ++ []) :=
    readValue_number hwhole false []
  simp only [signed, Bool.false_eq_true, ↓reduceIte, List.nil_append, List.append_nil]
    at hbegins hskip hvalue
  obtain ⟨c, cs, rfl, -, -, hmark⟩ := hbegins
  have hall : readAll Number.maxDigits headCode Value.maxLevels (c :: cs) =
      .error (.tooManyDigits (c :: cs).length) := by
    unfold readAll
    split
    next heq => exact absurd (List.cons.inj heq).1 hmark
    next => rw [hskip, hvalue, hnumber]
  rw [read, readUpTo, readWithin, String.toList_ofList, hall]
  rfl

/-! ## Texts that are nested too deep -/

/-- Opening one list more than there is room for stops the reader, whatever follows. -/
theorem readValue_brackets (most : Nat) (code : List Char → Nat) (limit room : Nat)
    (rest : List Char) :
    readValue most code (limit + 2 * room + 1) room (List.replicate (room + 1) '[' ++ rest) =
      .error .tooDeep := by
  induction room with
  | zero =>
    rw [readValue.eq_def]
    rfl
  | succ room ih =>
    have hcons : List.replicate (room + 1) '[' ++ rest =
        '[' :: (List.replicate room '[' ++ rest) := by rw [List.replicate_succ, List.cons_append]
    have hskip : skipSpace ('[' :: (List.replicate room '[' ++ rest)) =
        '[' :: (List.replicate room '[' ++ rest) := skipSpace_of_not fun c hc => by cases hc; rfl
    have hitems : readItems most code (limit + 2 * room + 2) room
        ('[' :: (List.replicate room '[' ++ rest)) = .error .tooDeep := by
      rw [readItems, ← hcons, ih]
      rfl
    rw [List.replicate_succ, List.cons_append, hcons, readValue.eq_def]
    simp only [hskip]
    show (readItems most code (limit + 2 * room + 2) room _ >>= _) = _
    rw [hitems]
    rfl

/-- A text that opens more lists than there may be levels is refused for that. -/
theorem read_tooDeep {n : Nat} (h : Value.maxLevels < n) (rest : List Char) :
    read (String.ofList (List.replicate n '[' ++ rest)) = .error .tooDeep := by
  obtain ⟨more, rfl⟩ := Nat.exists_eq_add_of_lt h
  have hlists : List.replicate (Value.maxLevels + more + 1) '[' ++ rest =
      List.replicate (Value.maxLevels + 1) '[' ++ (List.replicate more '[' ++ rest) := by
    rw [Nat.add_right_comm, ← List.replicate_append_replicate, List.append_assoc]
  rw [hlists, read, readUpTo, readWithin, String.toList_ofList]
  generalize List.replicate more '[' ++ rest = rest
  have hskip : skipSpace (List.replicate (Value.maxLevels + 1) '[' ++ rest) =
      List.replicate (Value.maxLevels + 1) '[' ++ rest :=
    skipSpace_of_not fun c hc => by cases hc; rfl
  have hlimit : 2 * (List.replicate (Value.maxLevels + 1) '[' ++ rest).length + 2 =
      (2 * rest.length + 3) + 2 * Value.maxLevels + 1 := by
    rw [List.length_append, List.length_replicate]
    omega
  have hall : readAll Number.maxDigits headCode Value.maxLevels
      (List.replicate (Value.maxLevels + 1) '[' ++ rest) = .error .tooDeep := by
    unfold readAll
    split
    next heq => exact absurd (List.cons.inj heq).1 (by decide)
    next => rw [hskip, hlimit, readValue_brackets]
  rw [hall]
  rfl

end Json
end SellRules
