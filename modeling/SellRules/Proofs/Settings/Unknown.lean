import SellRules.Proofs.Settings.Loading
import SellRules.Proofs.Yaml.Flat

/-!
# Unknown settings

What a document gives is compared with what is left of it when every key but the settings is taken
out. What is left is said by the data that the reader gives for both (`Settings.Strips`): a document
that is read is read as a table, and what is left of it as the rows of this table that name settings.
The settings that are given are the same. The keys that name no setting matter in two ways only: a key
or value among them that cannot be read makes the whole document unreadable, and the report on them
fails unless they can be listed beside each other (`Settings.CanBeListed`).

The reader for the documents that are covered reads flat tables row by row, so it takes what is left
of such a document for what is left of its table (`Settings.strips_of_isFlat`).
-/

set_option autoImplicit false

namespace SellRules.Settings

open Yaml (Data IsFlat Node Rows Scanned)

/-! ## What is left of a document -/

/-- A key that is the name of a setting. -/
def NamesSetting (key : Yaml.Key) : Prop := ∃ name ∈ names, key = .text name

instance : DecidablePred NamesSetting := fun key =>
  inferInstanceAs (Decidable (∃ name ∈ names, key = .text name))

/-- The rows with the settings. -/
def settingRows (rows : Rows) : Rows := rows.keep fun key => decide (NamesSetting key)

/-- What is left of a table when every key but the settings is taken out: a table of the rows with
the settings, or nothing at all where there are none. -/
inductive Leaves (rows : Rows) : Data → Prop
  | table : Leaves rows (.table (settingRows rows))
  | nothing (h : settingRows rows = []) : Leaves rows (.scalar .null)

/-- The second text is what is left of the first, as the reader sees it: if the first is read at all,
it is read as a table, and the second as what is left of this table. -/
def Strips (read : Reader) (s rest : String) : Prop :=
  ∀ data, read s = .ok data →
    ∃ rows left, data = .table rows ∧ read rest = .ok left ∧ Leaves rows left

/-- Keys that can be listed beside each other. -/
structure CanBeListed (keys : List Yaml.Key) : Prop where
  alike : keys.length ≤ 1 ∨ ∃ family, ∀ key ∈ keys, key.family? = some family
  shown : ∀ key ∈ keys, key.isShown = true

variable {read : Reader} {rows : Rows} {keys : List Yaml.Key}

/-! ## The report -/

theorem canBeListed_nil : CanBeListed [] := ⟨.inl (Nat.zero_le 1), nofun⟩

theorem sortable_iff :
    Yaml.Key.sortable keys = true ↔
      keys.length ≤ 1 ∨ ∃ family, ∀ key ∈ keys, key.family? = some family := by
  rw [Yaml.Key.sortable, Bool.or_eq_true, decide_eq_true_eq]
  refine or_congr_right' fun hmany => ?_
  cases keys with
  | nil => exact absurd (Nat.zero_le 1) hmany
  | cons first rest =>
    rw [List.head?_cons, Option.bind_some]
    cases hfirst : first.family? with
    | none =>
      refine iff_of_false nofun fun ⟨family, hall⟩ => ?_
      cases hfirst.symm.trans (hall first List.mem_cons_self)
    | some family =>
      simp only [List.all_eq_true, beq_iff_eq]
      refine ⟨fun h => ⟨family, h⟩, fun ⟨other, hall⟩ => ?_⟩
      cases hfirst.symm.trans (hall first List.mem_cons_self)
      exact hall

/-- Keys are reported exactly if they can be listed. -/
theorem reportUnknown_succeeds_iff :
    (∃ lines, reportUnknown keys = .ok lines) ↔ CanBeListed keys := by
  unfold reportUnknown
  split
  next hempty =>
    obtain rfl := List.isEmpty_iff.1 hempty
    exact iff_of_true ⟨[], rfl⟩ canBeListed_nil
  next =>
    split
    next hsortable =>
      rw [Bool.not_eq_true', ← Bool.not_eq_true, sortable_iff] at hsortable
      exact iff_of_false nofun fun h => hsortable h.alike
    next hsortable =>
      rw [Bool.not_eq_true', Bool.not_eq_false, sortable_iff] at hsortable
      split
      next hshown =>
        rw [Bool.not_eq_true', ← Bool.not_eq_true, List.all_eq_true] at hshown
        exact iff_of_false nofun fun h => hshown h.shown
      next hshown =>
        rw [Bool.not_eq_true', Bool.not_eq_false, List.all_eq_true] at hshown
        exact iff_of_true ⟨_, rfl⟩ ⟨hsortable, hshown⟩

/-- What a table gives, apart from the report on its other keys: its settings, unless the report
fails. -/
theorem ofData_eq_ofRows_iff :
    Prod.fst <$> ofData (.table rows) = ofRows rows ↔
      ((∃ settings, ofRows rows = .ok settings) → CanBeListed (unknownKeys rows)) := by
  rw [ofData_table, ← reportUnknown_succeeds_iff]
  cases ofRows rows with
  | error f => exact iff_of_true rfl nofun
  | ok settings =>
    cases reportUnknown (unknownKeys rows) with
    | error f => exact iff_of_false nofun fun h => nomatch h ⟨settings, rfl⟩
    | ok lines => exact iff_of_true rfl fun _ => ⟨lines, rfl⟩

theorem ofRows_of_ofData {settings : Settings}
    (h : Prod.fst <$> ofData (.table rows) = .ok settings) : ofRows rows = .ok settings := by
  rw [ofData_table] at h
  obtain ⟨given, hgiven, h⟩ := bind_eq_ok.1 h
  obtain ⟨-, -, h⟩ := bind_eq_ok.1 h
  cases h
  exact hgiven

/-! ## The settings in a table -/

/-- The settings of a table depend on nothing else in it. -/
theorem ofRows_congr {other : Rows}
    (h : ∀ setting : Setting, rows.get? (.text setting.name) = other.get? (.text setting.name)) :
    ofRows rows = ofRows other := by
  have hvalue (setting : Setting) : valueOf rows setting = valueOf other setting := by
    cases setting <;> simp only [valueOf, textOf, flagOf, h]
  rw [ofRows_eq, ofRows_eq, hvalue, hvalue, hvalue]

/-- A key that a table finds under a text is this text. -/
theorem same_text_iff {key : Yaml.Key} {name : String} :
    key.same (.text name) = true ↔ key = .text name := by
  cases key with
  | other o => exact iff_of_false nofun nofun
  | scalar a =>
    rw [Yaml.Key.same, Scalar.same, beq_iff_eq, Yaml.Key.scalar.injEq]
    exact ⟨fun h => Scalar.order_text_eq_iff.1 (Std.OrientedCmp.eq_symm h),
      fun h => Std.OrientedCmp.eq_symm (Scalar.order_text_eq_iff.2 h)⟩

/-- Keys that are the same name the same setting. -/
theorem namesSetting_congr {a b : Yaml.Key} (h : a.same b = true) :
    decide (NamesSetting a) = decide (NamesSetting b) := by
  simp only [NamesSetting, ← same_text_iff, Yaml.Key.same_congr h]

/-- Taking the other rows out of a table leaves its settings as they are. -/
theorem ofRows_settingRows (rows : Rows) : ofRows (settingRows rows) = ofRows rows :=
  ofRows_congr fun setting => Rows.get?_keep (fun _ hsame =>
    decide_eq_true ⟨setting.name, setting.name_mem_names, same_text_iff.1 hsame⟩) rows

/-- There are no other keys among the rows with the settings. -/
theorem unknownKeys_settingRows (rows : Rows) : unknownKeys (settingRows rows) = [] := by
  refine List.filter_eq_nil_iff.2 fun key hkey => ?_
  obtain ⟨row, hrow, rfl⟩ := List.mem_map.1 hkey
  obtain ⟨name, hname, heq⟩ := of_decide_eq_true (List.mem_filter.1 hrow).2
  rw [Bool.not_eq_true', Bool.not_eq_false, List.any_eq_true]
  exact ⟨name, hname, same_text_iff.2 heq⟩

/-! ## Documents -/

variable {path strippedPath s rest : String} {file stripped : FileState}

theorem loaded_of_error {fault : ReadFault} (htext : file.text path = .ok s)
    (hread : read s = .error fault) : loaded read path file = .error fault.failure := by
  rw [loaded, loadBy, htext, ok_bind, ofText, hread]
  rfl

/-- What is left of a table gives its settings. -/
theorem loaded_leaves {left : Data} (htext : stripped.text strippedPath = .ok rest)
    (hread : read rest = .ok left) (h : Leaves rows left) :
    loaded read strippedPath stripped = ofRows rows := by
  rw [loaded_eq htext hread, ← ofRows_settingRows rows]
  cases h with
  | table => exact ofData_eq_ofRows_iff.2 fun _ => unknownKeys_settingRows rows ▸ canBeListed_nil
  | nothing hnone =>
    rw [hnone]
    rfl

/-- **What other keys do to the settings.** A document has the same outcome as what is left of it when
every key but the settings is taken out, exactly if it can be read and, where the settings are right,
its other keys can be listed beside each other, or if what is left fails in the same way as reading
does. The settings that it gives, if it gives any, are those of what is left. -/
theorem loaded_eq_loaded_leaves_iff (htext : file.text path = .ok s)
    (hstripped : stripped.text strippedPath = .ok rest) (hstrips : Strips read s rest) :
    (loaded read path file = loaded read strippedPath stripped ↔
      (∃ rows, read s = .ok (.table rows) ∧
        ((∃ settings, loaded read strippedPath stripped = .ok settings) →
          CanBeListed (unknownKeys rows))) ∨
      ∃ fault, read s = .error fault ∧
        loaded read strippedPath stripped = .error fault.failure) ∧
    ∀ settings, loaded read path file = .ok settings →
      loaded read strippedPath stripped = .ok settings := by
  cases hread : read s with
  | ok data =>
    obtain ⟨rows, left, rfl, hrest, hleaves⟩ := hstrips data hread
    rw [loaded_eq htext hread, loaded_leaves hstripped hrest hleaves]
    refine ⟨?_, fun settings => ofRows_of_ofData⟩
    rw [ofData_eq_ofRows_iff]
    constructor
    · exact fun h => .inl ⟨rows, rfl, h⟩
    · rintro (⟨other, ⟨⟩, h⟩ | ⟨fault, hfault, -⟩)
      · exact h
      · cases hfault
  | error fault =>
    rw [loaded_of_error htext hread]
    refine ⟨⟨fun h => .inr ⟨fault, rfl, h.symm⟩, ?_⟩, nofun⟩
    rintro (⟨other, hother, -⟩ | ⟨other, ⟨⟩, h⟩)
    · cases hother
    · exact h.symm

/-! ## Documents that are covered -/

/-- A node that is the name of a setting in the place of a key. -/
def NodeNamesSetting (key : Node) : Prop := ∃ name ∈ names, Data.keyOf key = .ok (.text name)

instance : DecidablePred NodeNamesSetting := fun key =>
  inferInstanceAs (Decidable (∃ name ∈ names, Data.keyOf key = .ok (.text name)))

/-- The rows with the settings, as they are written. -/
def settingNodes (rows : List (Node × Node)) : List (Node × Node) :=
  rows.filter fun row => decide (NodeNamesSetting row.1)

/-- What is left of a table as it is written. -/
inductive LeavesNodes (rows : List (Node × Node)) : Node → Prop
  | table : LeavesNodes rows (.table (settingNodes rows))
  | nothing (h : settingNodes rows = []) : LeavesNodes rows .empty

variable {nodes : List (Node × Node)} {left : Node}

/-- A row names a setting as it is written if it does so in what it stands for. -/
theorem namesSetting_iff {node : Node × Node} {row : Yaml.Key × Data}
    (h : Data.rowOf node = .ok row) :
    NodeNamesSetting node.1 ↔ NamesSetting row.1 := by
  obtain ⟨key, hkey, h⟩ := bind_eq_ok.1 h
  obtain ⟨v, -, h⟩ := bind_eq_ok.1 h
  cases h
  simp only [NodeNamesSetting, NamesSetting, hkey, Except.ok.injEq, Yaml.Key.scalar.injEq]

/-- The rows with the settings, as they are written, stand for those of the table. -/
theorem readRows_settingNodes (h : Data.readRows nodes = .ok rows) :
    Data.readRows (settingNodes nodes) = .ok (settingRows rows) := by
  obtain ⟨l, hl, rfl⟩ := Data.readRows_eq_ok_iff.1 h
  have hkept : (settingNodes nodes).mapM Data.rowOf = .ok (settingRows l) :=
    mapM_filter hl fun node row hrow => by
      rw [Bool.eq_iff_iff, decide_eq_true_iff, decide_eq_true_iff, namesSetting_iff hrow]
  exact Data.readRows_eq_ok_iff.2 ⟨_, hkept, Rows.unique_keep (fun _ _ => namesSetting_congr) l⟩

theorem yaml_eq_ok_iff {data : Data} : yaml s = .ok data ↔ Yaml.read s = .ok data :=
  mapError_eq_ok

/-- What is left of a flat document is read as what is left of its table. -/
theorem strips_of_isFlat (hroot : Node.ofScanned (Scanned.ofText s) = .ok (.table nodes))
    (hflat : IsFlat nodes) (hrest : Node.ofScanned (Scanned.ofText rest) = .ok left)
    (hleaves : LeavesNodes nodes left) : Strips yaml s rest := by
  intro data hdata
  rw [yaml_eq_ok_iff, Yaml.read_of_isFlat hroot hflat, map_eq_ok] at hdata
  obtain ⟨rows, hrows, rfl⟩ := hdata
  have hkept := readRows_settingNodes hrows
  cases hleaves with
  | table =>
    have hread := Yaml.read_of_isFlat hrest fun row hrow => hflat row (List.mem_filter.1 hrow).1
    rw [hkept] at hread
    exact ⟨rows, _, rfl, yaml_eq_ok_iff.2 hread, .table⟩
  | nothing hnone =>
    have hread : Yaml.read rest = .ok (.scalar .null) := by
      rw [Yaml.read, hrest]
      cases rest.length <;> rfl
    rw [hnone] at hkept
    have hsettings : settingRows rows = [] := (Except.ok.inj hkept).symm
    exact ⟨rows, _, rfl, yaml_eq_ok_iff.2 hread, .nothing hsettings⟩

/-! ## A key that is ignored, and two that are not -/

def redNodes : List (Node × Node) :=
  [(.plain "plugin_name", .plain "a"), (.plain "colour", .plain "red")]

def redTable : Rows :=
  [(.text "plugin_name", .scalar (.text "a")), (.text "colour", .scalar (.text "red"))]

/-- Two keys that cannot be listed beside each other. -/
def mixedNodes : List (Node × Node) := [(.plain "1", .plain "a"), (.plain "colour", .plain "red")]

def mixedTable : Rows :=
  [(.scalar (.int 1), .scalar (.text "a")), (.text "colour", .scalar (.text "red"))]

/-- The nodes of two rows of plain texts. -/
theorem ofScanned_twoRows (key value otherKey otherValue : String) :
    Node.ofScanned ⟨[.keysStart, .key, .plain key, .value, .plain value, .key, .plain otherKey,
      .value, .plain otherValue, .blockEnd], none⟩ =
    .ok (.table [(.plain key, .plain value), (.plain otherKey, .plain otherValue)]) := rfl

theorem isFlat_redNodes : IsFlat redNodes := by simp [IsFlat, redNodes, Node.IsSingle]

theorem isFlat_mixedNodes : IsFlat mixedNodes := by simp [IsFlat, mixedNodes, Node.IsSingle]

theorem readRows_redNodes : Data.readRows redNodes = .ok redTable := by
  refine Data.readRows_eq_ok_iff.2 ⟨redTable, rfl, ?_⟩
  have hother : Yaml.Key.same (.text "plugin_name") (.text "colour") = false := by decide +kernel
  simp [redTable, Rows.unique, Rows.put, hother]

theorem readRows_mixedNodes : Data.readRows mixedNodes = .ok mixedTable := by
  refine Data.readRows_eq_ok_iff.2 ⟨mixedTable, rfl, ?_⟩
  have hother : Yaml.Key.same (.scalar (.int 1)) (.text "colour") = false := by decide +kernel
  simp [mixedTable, Rows.unique, Rows.put, hother]

theorem keyOf_colour : Data.keyOf (.plain "colour") = .ok (.text "colour") := rfl

theorem settingNodes_redNodes : settingNodes redNodes = [(.plain "plugin_name", .plain "a")] := by
  have hplugin : Data.keyOf (.plain "plugin_name") = .ok (.text "plugin_name") := rfl
  simp [settingNodes, redNodes, NodeNamesSetting, names, hplugin, keyOf_colour]

theorem settingNodes_mixedNodes : settingNodes mixedNodes = [] := by
  have hone : Data.keyOf (.plain "1") = .ok (.int 1) := rfl
  simp [settingNodes, mixedNodes, NodeNamesSetting, names, hone, keyOf_colour]

/-- A key of text beside a setting is ignored. -/
theorem colour_beside_plugin_is_ignored :
    Strips yaml "plugin_name: a\ncolour: red" "plugin_name: a" ∧
    loaded yaml "settings.yaml" (.bytes "plugin_name: a\ncolour: red".toUTF8) =
      loaded yaml "settings.yaml" (.bytes "plugin_name: a".toUTF8) := by
  have htokens : Scanned.ofText "plugin_name: a\ncolour: red" =
      ⟨[.keysStart, .key, .plain "plugin_name", .value, .plain "a", .key, .plain "colour", .value,
        .plain "red", .blockEnd], none⟩ := by decide +kernel
  have hroot : Node.ofScanned (Scanned.ofText "plugin_name: a\ncolour: red") =
      .ok (.table redNodes) := by
    rw [htokens, ofScanned_twoRows, redNodes]
  have hrestTokens : Scanned.ofText "plugin_name: a" =
      ⟨[.keysStart, .key, .plain "plugin_name", .value, .plain "a", .blockEnd], none⟩ := by
    decide +kernel
  have hrest : Node.ofScanned (Scanned.ofText "plugin_name: a") =
      .ok (.table [(.plain "plugin_name", .plain "a")]) := by
    rw [hrestTokens]
    rfl
  have hleaves : LeavesNodes redNodes (.table [(.plain "plugin_name", .plain "a")]) :=
    settingNodes_redNodes ▸ .table
  have hstrips : Strips yaml "plugin_name: a\ncolour: red" "plugin_name: a" :=
    strips_of_isFlat hroot isFlat_redNodes hrest hleaves
  have hread : yaml "plugin_name: a\ncolour: red" = .ok (.table redTable) := by
    rw [yaml_eq_ok_iff, Yaml.read_of_isFlat hroot isFlat_redNodes, readRows_redNodes]
    rfl
  have hunknown : unknownKeys redTable = [.text "colour"] := by decide +kernel
  have hlisted : CanBeListed (unknownKeys redTable) := by
    rw [hunknown]
    exact ⟨.inl (Nat.le_refl 1), List.forall_mem_singleton.2 rfl⟩
  exact ⟨hstrips, (loaded_eq_loaded_leaves_iff (text_bytes (by decide)) (text_bytes (by decide))
    hstrips).1.2 (.inl ⟨redTable, hread, fun _ => hlisted⟩)⟩

/-- A number and a text among the other keys cannot be listed beside each other, and loading fails;
without them there is nothing to fail. -/
theorem number_and_text_are_not_ignored :
    Strips yaml "1: a\ncolour: red" "" ∧
    loaded yaml "settings.yaml" (.bytes "1: a\ncolour: red".toUTF8) = .error .shape ∧
    loaded yaml "settings.yaml" (.bytes "".toUTF8) = .ok {} := by
  have htokens : Scanned.ofText "1: a\ncolour: red" =
      ⟨[.keysStart, .key, .plain "1", .value, .plain "a", .key, .plain "colour", .value,
        .plain "red", .blockEnd], none⟩ := by decide +kernel
  have hroot : Node.ofScanned (Scanned.ofText "1: a\ncolour: red") = .ok (.table mixedNodes) := by
    rw [htokens, ofScanned_twoRows, mixedNodes]
  have hempty : Scanned.ofText "" = ⟨[], none⟩ := by decide +kernel
  have hnothing : Node.ofScanned (Scanned.ofText "") = .ok .empty := by
    rw [hempty]
    rfl
  have hread : yaml "1: a\ncolour: red" = .ok (.table mixedTable) := by
    rw [yaml_eq_ok_iff, Yaml.read_of_isFlat hroot isFlat_mixedNodes, readRows_mixedNodes]
    rfl
  have hunknown : unknownKeys mixedTable = [.scalar (.int 1), .text "colour"] := by decide +kernel
  have hnone (setting : Setting) :
      mixedTable.get? (.text setting.name) = Rows.get? [] (.text setting.name) :=
    Option.isNone_iff_eq_none.1 (by cases setting <;> decide +kernel)
  have hyaml : yaml "" = .ok (.scalar .null) := by
    rw [yaml_eq_ok_iff, Yaml.read, hnothing]
    rfl
  refine ⟨strips_of_isFlat hroot isFlat_mixedNodes hnothing (.nothing settingNodes_mixedNodes),
    ?_, ?_⟩
  · rw [loaded_eq (text_bytes (by decide)) hread, ofData_table, hunknown, ofRows_congr hnone]
    rfl
  · rw [loaded_eq (text_bytes (by decide)) hyaml]
    rfl

end SellRules.Settings
