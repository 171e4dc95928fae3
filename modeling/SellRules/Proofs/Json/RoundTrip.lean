import Mathlib.Data.List.TakeWhile
import SellRules.Proofs.Json.Float
import SellRules.Proofs.Json.Text
import SellRules.Proofs.Outcome

/-!
# Written values read back

What is written of a value is read as that value (`Json.read_write`), in every layout. That holds of
the values that a JSON text can hold (`Value.isJson`): texts without broken halves, whole numbers
that are short enough to be shown, fields with different names, and no more levels than may be read.
In front of other characters a value is read up to its end, if what follows does not go on with a
number (`Json.readsBack_writeValue`).
-/

set_option autoImplicit false

namespace SellRules

mutual

/-- Whether the parts of a value can be written, however deep they stand inside one another. -/
def Value.isWritable : Value → Bool
  | .null | .bool _ | .text _ => true
  | .int n => Number.isShown n
  | .float x => x.isCanonical
  | .unpaired _ => false
  | .list items => Value.itemsWritable items
  | .object fields => decide (fields.map Prod.fst).Nodup && Value.fieldsWritable fields

def Value.itemsWritable : List Value → Bool
  | [] => true
  | v :: rest => v.isWritable && Value.itemsWritable rest

def Value.fieldsWritable : List (String × Value) → Bool
  | [] => true
  | (_, v) :: rest => v.isWritable && Value.fieldsWritable rest

end

namespace Value

/-- Whether a JSON text can hold a value. -/
def isJson (v : Value) : Bool := v.isWritable && decide (v.levels ≤ maxLevels)

theorem isJson_iff {v : Value} : v.isJson = true ↔ v.isWritable = true ∧ v.levels ≤ maxLevels := by
  rw [isJson, Bool.and_eq_true, decide_eq_true_iff]

@[simp] theorem isJson_int (n : Int) : (int n).isJson = Number.isShown n := by
  simp [isJson, isWritable, levels]

theorem itemsWritable_iff {items : List Value} :
    itemsWritable items = true ↔ ∀ v ∈ items, v.isWritable = true := by
  induction items with
  | nil => simp [itemsWritable]
  | cons v items ih => simp [itemsWritable, ih]

theorem fieldsWritable_iff {fields : Fields} :
    fieldsWritable fields = true ↔ ∀ field ∈ fields, field.2.isWritable = true := by
  induction fields with
  | nil => simp [fieldsWritable]
  | cons field fields ih => simp [fieldsWritable, ih]

end Value

namespace Json

/-! ## Blanks between the parts -/

theorem skipSpace_of_not {cs : List Char} (h : ∀ c ∈ cs.head?, isSpace c = false) :
    skipSpace cs = cs := by
  cases cs with
  | nil => rfl
  | cons c cs => simp [skipSpace, h c rfl]

theorem skipSpace_replicate (n : Nat) (cs : List Char) :
    skipSpace (List.replicate n ' ' ++ cs) = skipSpace cs := by
  induction n with
  | zero => rfl
  | succ n ih => simpa [skipSpace, List.replicate_succ, isSpace] using ih

theorem skipSpace_gap (layout : Layout) (depth : Nat) (cs : List Char) :
    skipSpace (layout.gap depth ++ cs) = skipSpace cs := by
  cases layout with
  | line => rfl
  | block step => simpa [skipSpace, Layout.gap, isSpace] using skipSpace_replicate (step * depth) cs

/-- A comma is followed by blanks only. -/
theorem exists_comma (layout : Layout) (depth : Nat) (cs : List Char) :
    ∃ after, layout.comma depth ++ cs = ',' :: after ∧ skipSpace after = skipSpace cs := by
  cases layout with
  | line => exact ⟨' ' :: cs, rfl, by simp [skipSpace, isSpace]⟩
  | block step =>
    refine ⟨'\n' :: (List.replicate (step * depth) ' ' ++ cs), rfl, ?_⟩
    simpa [skipSpace, isSpace] using skipSpace_replicate (step * depth) cs

/-! ## First characters -/

/-- What a written value may begin with: no blank, no bracket that closes a list and no mark of the
byte order. -/
def Begins (cs : List Char) : Prop :=
  ∃ c rest, cs = c :: rest ∧ isSpace c = false ∧ c ≠ ']' ∧ c ≠ '\ufeff'

theorem begins_of_isWhole {whole : List Char} (h : IsWhole whole) (negative : Bool)
    (rest : List Char) : Begins (signed negative whole ++ rest) := by
  obtain ⟨c, cs, rfl, hc⟩ := h.exists_cons
  have hne {d : Char} (hd : Text.isAsciiDigit d = false) : c ≠ d :=
    Text.ne_of_isAsciiDigit hc hd
  cases negative with
  | true => exact ⟨'-', c :: cs ++ rest, rfl, by decide, by decide, by decide⟩
  | false =>
    refine ⟨c, cs ++ rest, rfl, ?_, hne (by decide), hne (by decide)⟩
    simp [isSpace, hne (d := ' ') (by decide), hne (d := '\t') (by decide),
      hne (d := '\n') (by decide), hne (d := '\r') (by decide)]

theorem Begins.skipSpace_eq {cs : List Char} (h : Begins cs) (rest : List Char) :
    skipSpace (cs ++ rest) = cs ++ rest := by
  obtain ⟨c, cs, rfl, hspace, -⟩ := h
  exact skipSpace_of_not fun d hd => by cases hd; exact hspace

/-! ## Steps of the reader -/

section

variable {most limit room : Nat} {code : List Char → Nat} {cs rest after last : List Char}
  {v : Value}

/-- What begins with no quote and no bracket is a word for a value or a number. -/
theorem readValue_other {c : Char} (hquote : c ≠ '\x22') (hbracket : c ≠ '[') (hbrace : c ≠ '\x7b')
    (cs : List Char) :
    readValue most code (limit + 1) room (c :: cs) =
      match readConstant? (c :: cs) with
      | some (v, rest) => .ok (v, rest)
      | none => readNumber most (c :: cs) := by
  rw [readValue.eq_def]
  dsimp only
  split
  next heq => exact absurd (List.cons.inj heq).1 hquote
  next heq => exact absurd (List.cons.inj heq).1 hbracket
  next heq => exact absurd (List.cons.inj heq).1 hbrace
  next => rfl

/-- What begins with a digit, after a minus sign perhaps, is read as a number. -/
theorem readValue_number {whole : List Char} (hwhole : IsWhole whole) (negative : Bool)
    (rest : List Char) :
    readValue most code (limit + 1) room (signed negative whole ++ rest) =
      readNumber most (signed negative whole ++ rest) := by
  obtain ⟨c, cs, rfl, hc⟩ := hwhole.exists_cons
  have hne {d : Char} (hd : Text.isAsciiDigit d = false) : d ≠ c :=
    (Text.ne_of_isAsciiDigit hc hd).symm
  have hconstant : readConstant? (signed negative (c :: cs) ++ rest) = none := by
    cases negative <;>
      simp [readConstant?, constants, signed, hne (d := 'I') (by decide),
        hne (d := 'N') (by decide), hne (d := 'n') (by decide), hne (d := 't') (by decide),
        hne (d := 'f') (by decide), hne (d := '-') (by decide)]
  have hsigned : ∃ d ds, signed negative (c :: cs) ++ rest = d :: ds ∧ d ≠ '\x22' ∧ d ≠ '[' ∧
      d ≠ '\x7b' := by
    cases negative with
    | true => exact ⟨'-', _, rfl, by decide, by decide, by decide⟩
    | false =>
      exact ⟨c, _, rfl, (hne (by decide)).symm, (hne (by decide)).symm, (hne (by decide)).symm⟩
  obtain ⟨d, ds, hcons, hquote, hbracket, hbrace⟩ := hsigned
  rw [hcons] at hconstant ⊢
  rw [readValue_other hquote hbracket hbrace, hconstant]

theorem readValue_text {s : String} {pieces : List Piece}
    (h : readPieces code ('\x22' :: cs) cs = .ok (pieces, rest))
    (hs : textOfCodes (joinPairs pieces) = .text s) :
    readValue most code (limit + 1) room ('\x22' :: cs) = .ok (.text s, rest) := by
  simp only [readValue, h, ok_bind, hs]
  rfl

theorem readValue_list {items : List Value} (hcs : skipSpace rest = cs)
    (hclose : cs.head? ≠ some ']') (h : readItems most code limit room cs = .ok (items, last)) :
    readValue most code (limit + 1) (room + 1) ('[' :: rest) = .ok (.list items, last) := by
  rw [readValue.eq_def]
  simp only [hcs]
  split
  next heq => simp at hclose
  next => rw [h]; rfl

theorem readValue_object {fields : Fields} (hcs : skipSpace rest = cs)
    (hclose : cs.head? ≠ some '\x7d')
    (h : readFields most code limit room [] cs = .ok (fields, last)) :
    readValue most code (limit + 1) (room + 1) ('\x7b' :: rest) = .ok (.object fields, last) := by
  rw [readValue.eq_def]
  simp only [hcs]
  split
  next heq => simp at hclose
  next => rw [h]; rfl

theorem readItems_last (h : readValue most code limit room cs = .ok (v, rest))
    (hclose : skipSpace rest = ']' :: last) :
    readItems most code (limit + 1) room cs = .ok ([v], last) := by
  simp only [readItems, h, ok_bind, hclose]
  rfl

theorem readItems_more {items : List Value}
    (h : readValue most code limit room cs = .ok (v, rest))
    (hcomma : skipSpace rest = ',' :: after)
    (hitems : readItems most code limit room (skipSpace after) = .ok (items, last)) :
    readItems most code (limit + 1) room cs = .ok (v :: items, last) := by
  simp only [readItems, h, ok_bind, hcomma, hitems]
  rfl

theorem readFields_last {before : Fields} {name : String} {pieces : List Piece}
    (hname : readPieces code ('\x22' :: cs) cs = .ok (pieces, ':' :: after))
    (hs : nameOfCodes (joinPairs pieces) = name)
    (h : readValue most code limit room (skipSpace after) = .ok (v, rest))
    (hclose : skipSpace rest = '\x7d' :: last) :
    readFields most code (limit + 1) room before ('\x22' :: cs) = .ok (before.put name v, last) := by
  have hcolon : skipSpace (':' :: after) = ':' :: after := rfl
  simp only [readFields, hname, ok_bind, hcolon, h, hs, hclose]
  rfl

theorem readFields_more {before fields : Fields} {name : String} {pieces : List Piece}
    {next : List Char}
    (hname : readPieces code ('\x22' :: cs) cs = .ok (pieces, ':' :: after))
    (hs : nameOfCodes (joinPairs pieces) = name)
    (h : readValue most code limit room (skipSpace after) = .ok (v, rest))
    (hcomma : skipSpace rest = ',' :: next)
    (hfields : readFields most code limit room (before.put name v) (skipSpace next) =
      .ok (fields, last)) :
    readFields most code (limit + 1) room before ('\x22' :: cs) = .ok (fields, last) := by
  have hcolon : skipSpace (':' :: after) = ':' :: after := rfl
  simp only [readFields, hname, ok_bind, hcolon, h, hs, hcomma, hfields]

end

/-! ## The round trip -/

/-- A text is read as a value, also in front of other characters, with a depth of calls up to its
length and with room for the levels of the value. -/
def ReadsBack (text : List Char) (v : Value) : Prop :=
  ∀ limit room, text.length ≤ limit → v.levels ≤ room → ∀ rest, EndsNumber rest →
    readValue Number.maxDigits headCode limit room (text ++ rest) = .ok (v, rest)

theorem endsNumber_gap (layout : Layout) (depth : Nat) {c : Char}
    (hc : Text.isAsciiDigit c = false ∧ c ≠ '.' ∧ c ≠ 'e' ∧ c ≠ 'E') (rest : List Char) :
    EndsNumber (layout.gap depth ++ c :: rest) := by
  cases layout with
  | line => rintro d ⟨⟩; exact hc
  | block step => rintro d ⟨⟩; decide

theorem endsNumber_comma (layout : Layout) (depth : Nat) (rest : List Char) :
    EndsNumber (layout.comma depth ++ rest) := by
  cases layout <;> (rintro d ⟨⟩; decide)

/-- A written value begins as values do. -/
theorem begins_writeValue (layout : Layout) (depth : Nat) {v : Value} (h : v.isWritable = true) :
    Begins (writeValue layout depth v) := by
  cases v with
  | null => exact ⟨'n', _, rfl, by decide, by decide, by decide⟩
  | bool b => cases b <;> exact ⟨_, _, rfl, by decide, by decide, by decide⟩
  | int n =>
    rw [writeValue, signedDigits_eq, ← List.append_nil (signed _ _)]
    exact begins_of_isWhole (isWhole_digitsOf _) _ []
  | float x =>
    cases x with
    | notANumber => exact ⟨'N', _, rfl, by decide, by decide, by decide⟩
    | infinite negative => cases negative <;> exact ⟨_, _, rfl, by decide, by decide, by decide⟩
    | finite negative m e =>
      obtain ⟨negative, whole, fraction, exponent, htext, hwhole, -⟩ :=
        (isDecimal_writeFloat h).parts
      rw [writeValue, htext]
      exact begins_of_isWhole hwhole negative _
  | text s => exact ⟨'\x22', _, rfl, by decide, by decide, by decide⟩
  | unpaired codes => cases h
  | list items => cases items <;> exact ⟨'[', _, rfl, by decide, by decide, by decide⟩
  | object fields =>
    cases fields with
    | nil => exact ⟨'\x7b', _, rfl, by decide, by decide, by decide⟩
    | cons field fields => exact ⟨'\x7b', _, rfl, by decide, by decide, by decide⟩

/-- What is read without any deeper call. -/
theorem readsBack_of_succ {text : List Char} {v : Value} (hne : text ≠ [])
    (h : ∀ limit room rest, v.levels ≤ room → EndsNumber rest →
      readValue Number.maxDigits headCode (limit + 1) room (text ++ rest) = .ok (v, rest)) :
    ReadsBack text v := by
  intro limit room hlimit hroom rest hrest
  have hpos := List.length_pos_iff.2 hne
  obtain ⟨limit, rfl⟩ := Nat.exists_eq_add_one_of_ne_zero (n := limit) (by omega)
  exact h limit room rest hroom hrest

/-- Words for values are read back. -/
theorem readsBack_constant {c : Char} {cs : List Char} {v : Value} (hquote : c ≠ '\x22')
    (hbracket : c ≠ '[') (hbrace : c ≠ '\x7b')
    (h : ∀ rest, readConstant? (c :: cs ++ rest) = some (v, rest)) : ReadsBack (c :: cs) v :=
  readsBack_of_succ (by simp) fun limit room rest _ _ => by
    rw [List.cons_append, readValue_other hquote hbracket hbrace, ← List.cons_append, h rest]

theorem readsBack_int {n : Int} (h : Number.isShown n = true) :
    ReadsBack (Number.signedDigits n) (.int n) := by
  have hwhole := isWhole_digitsOf n.natAbs
  refine readsBack_of_succ ?_ fun limit room rest _ hrest => ?_
  · simp [signedDigits_eq, signed, hwhole.nonempty]
  · rw [signedDigits_eq, readValue_number hwhole, ← signedDigits_eq,
      readNumber_whole (Number.length_digitsOf_of_isShown h) hrest]

theorem IsDecimal.readsBack {text : List Char} {x : Number.Binary64} (h : IsDecimal text x) :
    ReadsBack text (.float x) := by
  obtain ⟨negative, whole, fraction, exponent, rfl, hwhole, hfraction, hexponent, hparts, hx⟩ :=
    h.parts
  refine readsBack_of_succ ?_ fun limit room rest _ hrest => ?_
  · simp [signed, hwhole.nonempty]
  · rw [List.append_assoc, readValue_number hwhole, ← List.append_assoc,
      readNumber_decimal _ negative hwhole hfraction hexponent hparts hrest, hx]

theorem writeText_append (s : String) (rest : List Char) :
    writeText s ++ rest = '\x22' :: ((codesOf s).flatMap writeCode ++ '\x22' :: rest) := by
  simp [writeText, writeCodes, codesOf]

theorem readsBack_text (s : String) : ReadsBack (writeText s) (.text s) := by
  refine readsBack_of_succ (by simp [writeText, writeCodes]) fun limit room rest _ _ => ?_
  obtain ⟨pieces, hpieces, hs, -⟩ := readPieces_writeText (writeText s ++ rest) s rest
  rw [writeText_append] at hpieces ⊢
  exact readValue_text hpieces hs

variable {layout : Layout} {depth outer room : Nat}

/-- An item, then the closing bracket. -/
theorem readItems_close {text rest : List Char} {v : Value} (h : ReadsBack text v) {limit : Nat}
    (hlimit : text.length < limit) (hroom : v.levels ≤ room) :
    readItems Number.maxDigits headCode limit room (text ++ (layout.gap outer ++ ']' :: rest)) =
      .ok ([v], rest) := by
  obtain ⟨limit, rfl⟩ := Nat.exists_eq_add_one_of_ne_zero (n := limit) (by omega)
  have hends : EndsNumber (layout.gap outer ++ ']' :: rest) :=
    endsNumber_gap layout outer (by decide) rest
  refine readItems_last (h limit room (by omega) hroom _ hends) ?_
  rw [skipSpace_gap]
  rfl

/-- An item, then a comma and more items. -/
theorem readItems_comma {text more rest : List Char} {v : Value} {items : List Value}
    (h : ReadsBack text v) {limit : Nat} (hlimit : text.length ≤ limit) (hroom : v.levels ≤ room)
    (hskip : skipSpace more = more)
    (hmore : readItems Number.maxDigits headCode limit room more = .ok (items, rest)) :
    readItems Number.maxDigits headCode (limit + 1) room (text ++ (layout.comma depth ++ more)) =
      .ok (v :: items, rest) := by
  obtain ⟨after, hcomma, hafter⟩ := exists_comma layout depth more
  have hnext : skipSpace (layout.comma depth ++ more) = ',' :: after := by
    rw [hcomma]
    rfl
  have hends := endsNumber_comma layout depth more
  refine readItems_more (h limit room hlimit hroom _ hends) hnext ?_
  rw [hafter, hskip, hmore]

/-- A field, then the closing brace. -/
theorem readFields_close {name : String} {text rest : List Char} {v : Value} {before : Fields}
    (h : ReadsBack text v) (hbegins : Begins text) {limit : Nat} (hlimit : text.length < limit)
    (hroom : v.levels ≤ room) :
    readFields Number.maxDigits headCode limit room before
        (writeText name ++ ([':', ' '] ++ (text ++ (layout.gap outer ++ '\x7d' :: rest)))) =
      .ok (before.put name v, rest) := by
  obtain ⟨limit, rfl⟩ := Nat.exists_eq_add_one_of_ne_zero (n := limit) (by omega)
  obtain ⟨pieces, hpieces, -, hs⟩ := readPieces_writeText
    (writeText name ++ ([':', ' '] ++ (text ++ (layout.gap outer ++ '\x7d' :: rest)))) name
    ([':', ' '] ++ (text ++ (layout.gap outer ++ '\x7d' :: rest)))
  rw [writeText_append] at hpieces ⊢
  have hends : EndsNumber (layout.gap outer ++ '\x7d' :: rest) :=
    endsNumber_gap layout outer (by decide) rest
  have hread := h limit room (by omega) hroom _ hends
  rw [← hbegins.skipSpace_eq] at hread
  refine readFields_last hpieces hs hread ?_
  rw [skipSpace_gap]
  rfl

/-- A field, then a comma and more fields. -/
theorem readFields_comma {name : String} {text more rest : List Char} {v : Value}
    {before fields : Fields} (h : ReadsBack text v) (hbegins : Begins text) {limit : Nat}
    (hlimit : text.length ≤ limit) (hroom : v.levels ≤ room) (hskip : skipSpace more = more)
    (hmore : readFields Number.maxDigits headCode limit room (before.put name v) more =
      .ok (fields, rest)) :
    readFields Number.maxDigits headCode (limit + 1) room before
        (writeText name ++ ([':', ' '] ++ (text ++ (layout.comma depth ++ more)))) =
      .ok (fields, rest) := by
  obtain ⟨after, hcomma, hafter⟩ := exists_comma layout depth more
  obtain ⟨pieces, hpieces, -, hs⟩ := readPieces_writeText
    (writeText name ++ ([':', ' '] ++ (text ++ (layout.comma depth ++ more)))) name
    ([':', ' '] ++ (text ++ (layout.comma depth ++ more)))
  rw [writeText_append] at hpieces ⊢
  have hread := h limit room (by omega) hroom _ (endsNumber_comma layout depth more)
  rw [← hbegins.skipSpace_eq] at hread
  have hnext : skipSpace (layout.comma depth ++ more) = ',' :: after := by
    rw [hcomma]
    rfl
  refine readFields_more hpieces hs hread hnext ?_
  rw [hafter, hskip, hmore]

/-- A new field comes last. -/
theorem put_of_not_mem {before : Fields} {name : String} (h : name ∉ before.map Prod.fst)
    (v : Value) : before.put name v = before ++ [(name, v)] := by
  induction before with
  | nil => rfl
  | cons field before ih =>
    simp only [List.map_cons, List.mem_cons, not_or] at h
    rw [Fields.put, if_neg (Ne.symm h.1), ih h.2]
    rfl

theorem not_mem_of_nodup {before fields : Fields} {name : String} {v : Value}
    (h : ((before ++ (name, v) :: fields).map Prod.fst).Nodup) : name ∉ before.map Prod.fst := by
  rw [List.map_append, List.nodup_append] at h
  exact fun hmem => h.2.2 name hmem name (by simp) rfl

mutual

theorem readsBack_writeValue (layout : Layout) : ∀ (v : Value) (depth : Nat),
    v.isWritable = true → ReadsBack (writeValue layout depth v) v
  | .null, _ => fun _ => readsBack_constant (by decide) (by decide) (by decide) fun _ => rfl
  | .bool true, _ => fun _ => readsBack_constant (by decide) (by decide) (by decide) fun _ => rfl
  | .bool false, _ => fun _ => readsBack_constant (by decide) (by decide) (by decide) fun _ => rfl
  | .int _, _ => fun h => readsBack_int (by rwa [Value.isWritable] at h)
  | .float .notANumber, _ => fun _ =>
    readsBack_constant (by decide) (by decide) (by decide) fun _ => rfl
  | .float (.infinite true), _ => fun _ =>
    readsBack_constant (by decide) (by decide) (by decide) fun _ => rfl
  | .float (.infinite false), _ => fun _ =>
    readsBack_constant (by decide) (by decide) (by decide) fun _ => rfl
  | .float (.finite _ _ _), _ => fun h =>
    (isDecimal_writeFloat (by rwa [Value.isWritable] at h)).readsBack
  | .text s, _ => fun _ => readsBack_text s
  | .unpaired _, _ => fun h => by simp [Value.isWritable] at h
  | .list [], _ => fun _ => readsBack_of_succ (by simp [writeValue]) fun limit room rest hroom _ => by
    obtain ⟨room, rfl⟩ := Nat.exists_eq_add_one_of_ne_zero (Nat.ne_zero_of_lt hroom)
    rw [readValue.eq_def]
    rfl
  | .list (v :: items), depth => fun h => by
    simp only [Value.isWritable, Value.itemsWritable, Bool.and_eq_true] at h
    have hv := readsBack_writeValue layout v (depth + 1) h.1
    have hbegins := begins_writeValue layout (depth + 1) h.1
    intro limit room hlimit hroom rest _
    simp only [writeValue, List.length_append, List.length_cons, List.length_nil] at hlimit
    rw [Value.levels, Value.itemsLevels] at hroom
    obtain ⟨limit, rfl⟩ := Nat.exists_eq_add_one_of_ne_zero (n := limit) (by omega)
    obtain ⟨room, rfl⟩ := Nat.exists_eq_add_one_of_ne_zero (n := room) (by omega)
    have hitems := readItems_writeItems layout items (depth + 1) depth _ v h.2 hv limit room rest
      (by rw [List.length_append]; omega) (Nat.le_of_succ_le_succ hroom)
    have htext : writeValue layout depth (.list (v :: items)) ++ rest =
        '[' :: (layout.gap (depth + 1) ++ (writeValue layout (depth + 1) v ++
          (writeItems layout (depth + 1) items ++ (layout.gap depth ++ ']' :: rest)))) := by
      simp [writeValue]
    rw [htext]
    refine readValue_list ?_ ?_ hitems
    · rw [skipSpace_gap, hbegins.skipSpace_eq]
    · obtain ⟨c, cs, hcs, -, hclose, -⟩ := hbegins
      simp [hcs, hclose]
  | .object [], _ => fun _ =>
    readsBack_of_succ (by simp [writeValue]) fun limit room rest hroom _ => by
      obtain ⟨room, rfl⟩ := Nat.exists_eq_add_one_of_ne_zero (Nat.ne_zero_of_lt hroom)
      rw [readValue.eq_def]
      rfl
  | .object ((name, v) :: fields), depth => fun h => by
    simp only [Value.isWritable, Value.fieldsWritable, Bool.and_eq_true, decide_eq_true_eq] at h
    have hv := readsBack_writeValue layout v (depth + 1) h.2.1
    have hbegins := begins_writeValue layout (depth + 1) h.2.1
    intro limit room hlimit hroom rest _
    simp only [writeValue, List.length_append, List.length_cons, List.length_nil] at hlimit
    rw [Value.levels, Value.fieldsLevels] at hroom
    obtain ⟨limit, rfl⟩ := Nat.exists_eq_add_one_of_ne_zero (n := limit) (by omega)
    obtain ⟨room, rfl⟩ := Nat.exists_eq_add_one_of_ne_zero (n := room) (by omega)
    have hfields := readFields_writeFields layout fields (depth + 1) depth _ name v [] h.2.2 hv
      hbegins h.1 limit room rest (by rw [List.length_append]; omega)
      (Nat.le_of_succ_le_succ hroom)
    have htext : writeValue layout depth (.object ((name, v) :: fields)) ++ rest =
        '\x7b' :: (layout.gap (depth + 1) ++ (writeText name ++ ([':', ' '] ++
          (writeValue layout (depth + 1) v ++
            (writeFields layout (depth + 1) fields ++
              (layout.gap depth ++ '\x7d' :: rest)))))) := by
      simp [writeValue]
    rw [htext]
    refine readValue_object ?_ ?_ hfields
    · rw [skipSpace_gap, writeText_append]
      rfl
    · rw [writeText_append]
      simp

/-- The items of a list are read up to the closing bracket. -/
theorem readItems_writeItems (layout : Layout) : ∀ (items : List Value) (depth outer : Nat)
    (text : List Char) (v : Value), Value.itemsWritable items = true → ReadsBack text v →
    ∀ limit room rest, (text ++ writeItems layout depth items).length < limit →
      max v.levels (Value.itemsLevels items) ≤ room →
      readItems Number.maxDigits headCode limit room
          (text ++ (writeItems layout depth items ++ (layout.gap outer ++ ']' :: rest))) =
        .ok (v :: items, rest)
  | [], depth, outer, text, v, _, hv, limit, room, rest, hlimit, hroom => by
    rw [writeItems, List.append_nil] at hlimit
    exact readItems_close hv hlimit (Nat.max_le.1 hroom).1
  | w :: items, depth, outer, text, v, h, hv, limit, room, rest, hlimit, hroom => by
    simp only [Value.itemsWritable, Bool.and_eq_true] at h
    have hw := readsBack_writeValue layout w depth h.1
    have hbegins := begins_writeValue layout depth h.1
    have hcomma : 0 < (layout.comma depth).length := by cases layout <;> simp [Layout.comma]
    simp only [writeItems, List.length_append] at hlimit
    obtain ⟨hlevel, hmore⟩ := Nat.max_le.1 hroom
    obtain ⟨limit, rfl⟩ := Nat.exists_eq_add_one_of_ne_zero (n := limit) (by omega)
    rw [writeItems, List.append_assoc, List.append_assoc]
    refine readItems_comma hv (by omega) hlevel (hbegins.skipSpace_eq _) ?_
    exact readItems_writeItems layout items depth outer _ w h.2 hw limit room rest
      (by rw [List.length_append]; omega) hmore

/-- The fields of an object are read up to the closing brace and put behind those before. -/
theorem readFields_writeFields (layout : Layout) : ∀ (fields : List (String × Value))
    (depth outer : Nat) (text : List Char) (name : String) (v : Value) (before : Fields),
    Value.fieldsWritable fields = true → ReadsBack text v → Begins text →
    ((before ++ (name, v) :: fields).map Prod.fst).Nodup →
    ∀ limit room rest, (text ++ writeFields layout depth fields).length < limit →
      max v.levels (Value.fieldsLevels fields) ≤ room →
      readFields Number.maxDigits headCode limit room before
          (writeText name ++ ([':', ' '] ++ (text ++
            (writeFields layout depth fields ++ (layout.gap outer ++ '\x7d' :: rest))))) =
        .ok (before ++ (name, v) :: fields, rest)
  | [], depth, outer, text, name, v, before, _, hv, hbegins, hnames, limit, room, rest, hlimit,
      hroom => by
    rw [writeFields, List.append_nil] at hlimit
    rw [← put_of_not_mem (not_mem_of_nodup hnames) v]
    exact readFields_close hv hbegins hlimit (Nat.max_le.1 hroom).1
  | (other, w) :: fields, depth, outer, text, name, v, before, h, hv, hbegins, hnames, limit, room,
      rest, hlimit, hroom => by
    simp only [Value.fieldsWritable, Bool.and_eq_true] at h
    have hw := readsBack_writeValue layout w depth h.1
    have hbegins' := begins_writeValue layout depth h.1
    have hcomma : 0 < (layout.comma depth).length := by cases layout <;> simp [Layout.comma]
    simp only [writeFields, List.length_append] at hlimit
    obtain ⟨hlevel, hlevels⟩ := Nat.max_le.1 hroom
    obtain ⟨limit, rfl⟩ := Nat.exists_eq_add_one_of_ne_zero (n := limit) (by omega)
    have hmore := readFields_writeFields layout fields depth outer _ other w (before ++ [(name, v)])
      h.2 hw hbegins' (by simpa using hnames) limit room rest (by rw [List.length_append]; omega)
      hlevels
    rw [← put_of_not_mem (not_mem_of_nodup hnames) v] at hmore
    have htext : writeFields layout depth ((other, w) :: fields) ++
        (layout.gap outer ++ '\x7d' :: rest) =
        layout.comma depth ++ (writeText other ++ ([':', ' '] ++ (writeValue layout depth w ++
          (writeFields layout depth fields ++ (layout.gap outer ++ '\x7d' :: rest))))) := by
      simp only [writeFields, List.append_assoc]
    have hput : before ++ (name, v) :: (other, w) :: fields =
        before.put name v ++ (other, w) :: fields := by
      rw [put_of_not_mem (not_mem_of_nodup hnames) v, List.append_assoc]
      rfl
    rw [htext, hput]
    refine readFields_comma hv hbegins (by omega) hlevel ?_ hmore
    rw [writeText_append]
    rfl

end

/-- What is written is read back, also with blanks after it. -/
theorem read_write_append (layout : Layout) {v : Value} (h : v.isJson = true) (space : String)
    (hspace : ∀ c ∈ space.toList, isSpace c = true) : read (write layout v ++ space) = .ok v := by
  obtain ⟨hwritable, hlevels⟩ := Value.isJson_iff.1 h
  have hbegins := begins_writeValue layout 0 hwritable
  have hends : EndsNumber space.toList := by
    intro c hc
    have hc : isSpace c = true := hspace c (List.mem_of_mem_head? hc)
    simp only [isSpace, Bool.or_eq_true, beq_iff_eq] at hc
    rcases hc with ((rfl | rfl) | rfl) | rfl <;> decide
  have hread := readsBack_writeValue layout v 0 hwritable
    (2 * (writeValue layout 0 v ++ space.toList).length + 2) Value.maxLevels
    (by rw [List.length_append]; omega) hlevels space.toList hends
  have hrest : skipSpace space.toList = [] := List.dropWhile_eq_nil_iff.2 hspace
  have hall : readAll Number.maxDigits headCode Value.maxLevels
      (writeValue layout 0 v ++ space.toList) = .ok v := by
    unfold readAll
    split
    next heq =>
      obtain ⟨c, cs, hcs, -, -, hmark⟩ := hbegins
      rw [hcs] at heq
      exact absurd (List.cons.inj heq).1 hmark
    next =>
      rw [hbegins.skipSpace_eq, hread]
      simp only [hrest]
  rw [read, readUpTo, readWithin, String.toList_append, write, String.toList_ofList, hall]
  rfl

/-- **What is written is read back**, in every layout. -/
theorem read_write (layout : Layout) {v : Value} (h : v.isJson = true) :
    read (write layout v) = .ok v := by
  have hread := read_write_append layout h "" (by simp)
  rwa [String.append_empty] at hread

end Json
end SellRules
