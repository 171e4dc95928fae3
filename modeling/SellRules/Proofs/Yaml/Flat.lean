import Mathlib.Data.List.Induction
import SellRules.Proofs.Outcome
import SellRules.Yaml.Data

/-!
# Flat tables

A table is flat if its keys and values have no parts. Such a table is read row by row: what it stands
for are the rows that its nodes stand for, each key once, and it has the fault of its first row with
one. Only a merge is noticed before any row, and in a flat table there is nothing to merge.
-/

set_option autoImplicit false

namespace SellRules.Yaml

/-! ## Keys -/

namespace Key

variable {a b : Key}

/-- Keys that are the same are the same as the same others. -/
theorem same_congr (h : a.same b = true) (c : Key) : a.same c = b.same c := by
  cases a with
  | scalar x =>
    cases b with
    | scalar y =>
      cases c with
      | scalar z => exact congrArg (· == .eq) (Std.TransCmp.congr_left (eq_of_beq h))
      | other o => rfl
    | other o => cases h
  | other o =>
    cases b with
    | scalar y => cases h
    | other other =>
      cases c with
      | scalar z => rfl
      | other third =>
        simp only [same, Bool.and_eq_true, beq_iff_eq] at h
        simp only [same, h.1, h.2]

end Key

/-! ## Some of the keys, and each key once -/

namespace Rows

/-- The rows whose keys meet a condition. -/
def keep (p : Key → Bool) (rows : Rows) : Rows := rows.filter fun row => p row.1

variable {key : Key} {p : Key → Bool} {row : Key × Data}

theorem keep_cons_of_pos (h : p row.1 = true) (rows : Rows) :
    keep p (row :: rows) = row :: keep p rows := List.filter_cons_of_pos h

theorem keep_cons_of_neg (h : ¬ p row.1 = true) (rows : Rows) :
    keep p (row :: rows) = keep p rows := List.filter_cons_of_neg h

theorem unique_append_singleton (rows : Rows) (row : Key × Data) :
    unique (rows ++ [row]) = put row.1 row.2 (unique rows) := by
  rw [unique, List.foldl_append]
  rfl

/-- What is found under a key does not depend on rows of other keys. -/
theorem get?_keep (hp : ∀ other, other.same key = true → p other = true) (rows : Rows) :
    (keep p rows).get? key = rows.get? key := by
  induction rows with
  | nil => rfl
  | cons row rows ih =>
    by_cases hrow : p row.1 = true
    · rw [keep_cons_of_pos hrow, get?, get?, ih]
    · rw [keep_cons_of_neg hrow, get?, if_neg fun h => hrow (hp row.1 h), ih]

/-- A row that is put is kept or not, as its key is. -/
theorem keep_put (hp : ∀ a b : Key, a.same b = true → p a = p b) (key : Key) (v : Data)
    (rows : Rows) :
    keep p (put key v rows) = if p key then put key v (keep p rows) else keep p rows := by
  induction rows with
  | nil =>
    rw [put, keep, List.filter_cons]
    rfl
  | cons row rows ih =>
    obtain ⟨first, w⟩ := row
    rw [put]
    split
    next hsame =>
      have hkey := hp first key hsame
      by_cases hkept : p key = true
      · rw [keep_cons_of_pos (hkey.trans hkept), keep_cons_of_pos (hkey.trans hkept),
          if_pos hkept, put, if_pos hsame]
      · have hfirst : ¬ p first = true := fun h => hkept (hkey.symm.trans h)
        rw [keep_cons_of_neg hfirst, keep_cons_of_neg hfirst, if_neg hkept]
    next hother =>
      by_cases hfirst : p first = true
      · rw [keep_cons_of_pos hfirst, keep_cons_of_pos hfirst, ih, put, if_neg hother]
        split <;> rfl
      · rw [keep_cons_of_neg hfirst, keep_cons_of_neg hfirst, ih]

/-- Each key may be kept once before or after some of the keys are left out. -/
theorem unique_keep (hp : ∀ a b : Key, a.same b = true → p a = p b) (rows : Rows) :
    unique (keep p rows) = keep p (unique rows) := by
  induction rows using List.reverseRecOn with
  | nil => rfl
  | append_singleton rows row ih =>
    have happend : keep p (rows ++ [row]) = keep p rows ++ keep p [row] := List.filter_append _ _
    rw [unique_append_singleton, keep_put hp, ← ih, happend]
    split
    next hrow => rw [keep_cons_of_pos hrow, ← unique_append_singleton]; rfl
    next hrow => rw [keep_cons_of_neg hrow]; exact congrArg unique (List.append_nil _)

end Rows

/-! ## Rows without parts -/

/-- A node without parts. -/
def Node.IsSingle : Node → Prop
  | .list _ | .table _ => False
  | _ => True

/-- The sign of a merge in the place of a key. -/
def Node.isMerge : Node → Bool
  | .plain "<<" => true
  | _ => false

theorem Node.isMerge_iff {node : Node} : node.isMerge = true ↔ node = .plain "<<" := by
  constructor
  · intro h
    unfold isMerge at h
    split at h
    · rfl
    · cases h
  · rintro rfl
    rfl

/-- Keys and values without parts. -/
def IsFlat (rows : List (Node × Node)) : Prop := ∀ row ∈ rows, row.1.IsSingle ∧ row.2.IsSingle

namespace Data

/-- The row that a key and a value stand for. -/
def rowOf (row : Node × Node) : Except Fault (Key × Data) := do
  let key ← keyOf row.1
  let v ← ofNode row.2
  return (.scalar key, v)

variable {rows : List (Node × Node)} {row : Node × Node} {key node : Node} {table : Rows}

theorem keyOf_of_isMerge (h : key.isMerge = true) : keyOf key = .error .malformed := by
  rw [Node.isMerge_iff.1 h]
  rfl

/-- A node without parts is looked at and then done with. -/
theorem visit_of_isSingle (h : node.IsSingle) : visit node = (fun _ => []) <$> ofNode node := by
  cases node with
  | list items => exact h.elim
  | table rows => exact h.elim
  | empty => rfl
  | quoted s => rfl
  | plain s =>
    rw [visit, ofNode]
    cases meaning s <;> rfl

theorem visitRow_of_isSingle (h : row.2.IsSingle) :
    visitRow row = (fun _ => []) <$> rowOf row := by
  rw [visitRow, rowOf, visit_of_isSingle h]
  cases keyOf row.1 with
  | error fault => rfl
  | ok key => cases ofNode row.2 <;> rfl

/-- Looking at the rows finds the fault of the first that has one. -/
theorem mapM_visitRow (h : IsFlat rows) :
    rows.mapM visitRow = List.map (fun _ => []) <$> rows.mapM rowOf := by
  induction rows with
  | nil => rfl
  | cons row rows ih =>
    obtain ⟨hrow, hrows⟩ := List.forall_mem_cons.1 h
    rw [List.mapM_cons, List.mapM_cons, visitRow_of_isSingle hrow.2, ih hrows]
    cases rowOf row with
    | error fault => rfl
    | ok first => cases rows.mapM rowOf <;> rfl

theorem spreadMerge_of_isSingle (h : node.IsSingle) : spreadMerge node = none := by
  cases node with
  | list items => exact h.elim
  | table rows => exact h.elim
  | _ => rfl

/-- Rows without parts are their table's own unless one of them is a merge, of which there is no
table. -/
theorem spread_of_isFlat (h : IsFlat rows) :
    spread rows = if rows.any (·.1.isMerge) then none else some ([], rows) := by
  induction rows with
  | nil => rfl
  | cons row rows ih =>
    obtain ⟨hrow, hrows⟩ := List.forall_mem_cons.1 h
    unfold spread
    split
    next heq => cases heq
    next node rest heq =>
      cases heq
      rw [spreadMerge_of_isSingle hrow.2]
      rfl
    next first rest hmerge heq =>
      cases heq
      have hkey : row.1.isMerge = false := by
        rw [← Bool.not_eq_true, Node.isMerge_iff]
        exact fun hkey => hmerge row.2 (Prod.ext hkey rfl)
      rw [ih hrows, List.any_cons, hkey, Bool.false_or]
      cases rows.any (·.1.isMerge) <;> rfl

theorem ofRows_eq_map (h : rows.any (·.1.isMerge) = false) :
    ofRows rows = Prod.mk [] <$> rows.mapM rowOf := by
  induction rows with
  | nil => rfl
  | cons row rows ih =>
    rw [List.any_cons, Bool.or_eq_false_iff] at h
    unfold ofRows
    split
    next heq => cases heq
    next node rest heq =>
      cases heq
      cases h.1
    next key node rest hmerge heq =>
      cases heq
      rw [ih h.2, List.mapM_cons, rowOf]
      cases keyOf key with
      | error fault => rfl
      | ok k =>
        cases ofNode node with
        | error fault => rfl
        | ok v => cases rows.mapM rowOf <;> rfl

/-- What flat rows stand for. -/
def readRows (rows : List (Node × Node)) : Except Fault Rows :=
  if rows.any (·.1.isMerge) then .error .malformed else Rows.unique <$> rows.mapM rowOf

theorem visitParts_table (h : IsFlat rows) :
    visitParts (.table rows) = (fun _ => []) <$> readRows rows := by
  rw [visitParts, spread_of_isFlat h, readRows]
  cases rows.any (·.1.isMerge) with
  | true => rfl
  | false =>
    show (do return (← rows.mapM visitRow).flatten) = _
    rw [mapM_visitRow h]
    cases rows.mapM rowOf with
    | error fault => rfl
    | ok l => exact congrArg Except.ok (List.flatten_eq_nil_iff.2 (by simp))

/-- Flat rows can be read if every one of them can. -/
theorem readRows_eq_ok_iff :
    readRows rows = .ok table ↔ ∃ l, rows.mapM rowOf = .ok l ∧ Rows.unique l = table := by
  cases hmerge : rows.any (·.1.isMerge) with
  | false => rw [readRows, hmerge, if_neg Bool.false_ne_true, map_eq_ok]
  | true =>
    rw [readRows, hmerge, if_pos rfl]
    refine iff_of_false nofun ?_
    rintro ⟨l, hl, -⟩
    obtain ⟨row, hrow, hkey⟩ := List.any_eq_true.1 hmerge
    obtain ⟨data, hdata⟩ := exists_of_mapM_eq_ok hl row hrow
    rw [rowOf, keyOf_of_isMerge hkey] at hdata
    cases hdata

/-- There is nothing below the rows of a flat table. -/
theorem checkLevels_table (h : IsFlat rows) (limit : Nat) :
    checkLevels (limit + 1) [.table rows] = (fun _ => ()) <$> readRows rows := by
  rw [checkLevels, List.mapM_cons, visitParts_table h]
  · cases readRows rows with
    | error fault => rfl
    | ok table => cases limit <;> rfl
  · nofun

theorem ofNode_table (hread : readRows rows = .ok table) :
    ofNode (.table rows) = .ok (.table table) := by
  cases hmerge : rows.any (·.1.isMerge) with
  | true =>
    rw [readRows, hmerge] at hread
    cases hread
  | false =>
    obtain ⟨l, hl, rfl⟩ := readRows_eq_ok_iff.1 hread
    rw [ofNode, ofRows_eq_map hmerge, hl]
    rfl

end Data

/-- A text whose root is a flat table is read row by row. -/
theorem read_of_isFlat {s : String} {rows : List (Node × Node)}
    (hroot : Node.ofScanned (Scanned.ofText s) = .ok (.table rows)) (h : IsFlat rows) :
    read s = Data.table <$> Data.readRows rows := by
  rw [read, hroot, ok_bind]
  show (Data.checkLevels (s.length + 1) [.table rows] >>= fun _ => Data.ofNode (.table rows)) = _
  rw [Data.checkLevels_table h]
  cases hread : Data.readRows rows with
  | error fault => rfl
  | ok table => exact Data.ofNode_table hread

end SellRules.Yaml
