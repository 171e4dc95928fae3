import Mathlib.Data.List.Induction
import SellRules.Proofs.Entry.Schema
import SellRules.Proofs.Item.Refusal

/-!
# Documents that are accepted

Which documents of objects give a database (`Database.exists_ofDocument_iff`): those whose objects
conform to the schema of their section and have different ids within it (`Database.Acceptable`). All
others are refused for the first object that departs from the schema or has the id of one before it
(`Database.FirstRefused`). The ids that a database holds are those of the objects that were added,
so what happens to the next object depends on the ones before it alone.
-/

set_option autoImplicit false

namespace SellRules

open Value (IsInteger fieldsModest isModest_of_get?)
open Record (Conforms Departs toEntry)

/-! ## Ids -/

namespace Record

/-- The record has this number as its id. -/
def HasId (fields : Fields) (n : Int) : Prop := ∃ v, fields.get? "id" = some v ∧ IsInteger v n

theorem HasId.unique {fields : Fields} {m n : Int} (hm : HasId fields m) (hn : HasId fields n) :
    m = n := by
  obtain ⟨v, hv, hm⟩ := hm
  obtain ⟨w, hw, hn⟩ := hn
  cases hv.symm.trans hw
  exact Except.ok.inj ((toWhole_of_isInteger hm).symm.trans (toWhole_of_isInteger hn))

/-- An entry has the id of its record as a whole number. -/
theorem hasId_of_toEntry {kind : Kind} {fields : Fields} {e : Entry}
    (h : toEntry kind (.object fields) = .ok e) : ∃ n, HasId fields n ∧ e.id = .int n := by
  obtain ⟨_, hfields, hgives⟩ := gives_of_toEntry h
  cases hfields
  obtain ⟨v, n, hget, hn, hid⟩ := hgives.id
  obtain ⟨w, hw, hwhole⟩ := hgives.checked.id
  cases hget.symm.trans hw
  exact ⟨n, ⟨v, hget, isInteger_iff.2 ⟨hwhole, hn⟩⟩, hid⟩

theorem HasId.isShown {fields : Fields} {n : Int} (h : HasId fields n)
    (hfields : fieldsModest fields = true) : (Value.int n).isShown = true := by
  obtain ⟨v, hget, hn⟩ := h
  obtain ⟨hwhole, htoWhole⟩ := isInteger_iff.1 hn
  rw [Value.isShown_int]
  exact isShown_of_toWhole hwhole (isModest_of_get? hfields hget) htoWhole

theorem toEntry_of_not_conforms {kind : Kind} {fields : Fields} (h : ¬ Conforms kind fields) :
    toEntry kind (.object fields) =
      .error (.showing ((violations (some kind) (.object fields)).flatMap Violation.shown)
        (.data (.badRecord kind.name (violations (some kind) (.object fields))))) := by
  rw [toEntry, fieldsOf, ok_bind, check_of_not_conforms h]
  rfl

end Record

open Record (HasId)

/-! ## Keys that are taken -/

namespace Database

/-- The database has an entry of this kind with this number as id. -/
def Holds (db : Database) (kind : Kind) (n : Int) : Prop :=
  ∃ row ∈ db, Key.order ⟨kind, .int n⟩ row.key = .eq

variable {db next : Database} {kind : Kind} {e : Entry} {n : Int}

theorem exists_find?_iff {key : Key} :
    (∃ row, db.find? key = some row) ↔ ∃ row ∈ db, key.order row.key = .eq := by
  rw [← Option.isSome_iff_exists, find?, List.find?_isSome]
  simp only [beq_iff_eq]
  rfl

theorem key_of_describes (he : Record.Describes kind e) (hid : e.id = .int n) :
    e.key = .ok ⟨kind, .int n⟩ := by
  obtain ⟨m, hm, hkey⟩ := he.key_eq
  cases hm.symm.trans hid
  exact hkey

/-- An entry whose id is free is added. -/
theorem add_of_free (he : Record.Describes kind e) (hid : e.id = .int n)
    (hfree : ¬ db.Holds kind n) :
    ∃ next, db.add e = .ok next ∧
      ∀ other m, next.Holds other m ↔ db.Holds other m ∨ other = kind ∧ m = n := by
  have hkey := key_of_describes he hid
  have hnone : db.find? ⟨kind, .int n⟩ = none := by
    rw [Option.eq_none_iff_forall_ne_some]
    intro row hrow
    exact hfree (exists_find?_iff.1 ⟨row, hrow⟩)
  have hadd := add_of_find?_eq_none hkey hnone
  refine ⟨_, hadd, fun other m => ?_⟩
  obtain ⟨row, -, hrow, hperm⟩ := exists_row_of_add hadd
  have hrowKey : row.key = ⟨kind, .int n⟩ := Except.ok.inj (hrow.symm.trans hkey)
  have hmem (other : Row) : other ∈ db.put ⟨⟨kind, .int n⟩, e⟩ ↔ other ∈ db ∨ other = row :=
    hperm.mem_iff.trans (List.mem_cons.trans or_comm)
  simp only [Holds, hmem, or_and_right, exists_or, exists_eq_left, hrowKey, Key.order_int_eq]

/-- An entry whose id is taken is refused. -/
theorem add_of_taken (he : Record.Describes kind e) (hid : e.id = .int n)
    (htaken : db.Holds kind n) :
    db.add e = .error (.showing [.int n] (.data (.duplicate kind (.int n)))) := by
  obtain ⟨row, hrow⟩ := exists_find?_iff.2 htaken
  rw [add_of_find?_eq_some (key_of_describes he hid) hrow, hid, he.kind_eq]

/-! ## Objects that are accepted -/

/-- Objects that can be loaded as the section of a kind: each conforms to the schema, and no two
have the same number as id. -/
structure Acceptable (kind : Kind) (objects : List Fields) : Prop where
  conforms : ∀ fields ∈ objects, Conforms kind fields
  distinct : objects.Pairwise fun a b => ∀ n, HasId a n → ¬ HasId b n

theorem acceptable_nil (kind : Kind) : Acceptable kind [] := ⟨nofun, .nil⟩

theorem acceptable_append_singleton {before : List Fields} {fields : Fields} :
    Acceptable kind (before ++ [fields]) ↔
      Acceptable kind before ∧ Conforms kind fields ∧
        ∀ a ∈ before, ∀ n, HasId a n → ¬ HasId fields n := by
  constructor
  · rintro ⟨hconforms, hdistinct⟩
    obtain ⟨hbefore, hfields⟩ := List.forall_mem_append.1 hconforms
    obtain ⟨hpairs, -, hnew⟩ := List.pairwise_append.1 hdistinct
    exact ⟨⟨hbefore, hpairs⟩, hfields fields (by simp), fun a ha => hnew a ha fields (by simp)⟩
  · rintro ⟨⟨hconforms, hdistinct⟩, hfields, hnew⟩
    refine ⟨List.forall_mem_append.2 ⟨hconforms, by simpa using hfields⟩, ?_⟩
    exact List.pairwise_append.2 ⟨hdistinct, List.pairwise_singleton _ _, by simpa using hnew⟩

theorem Acceptable.perm {objects other : List Fields} (h : Acceptable kind objects)
    (hperm : other.Perm objects) : Acceptable kind other := by
  refine ⟨fun fields hfields => h.conforms fields (hperm.mem_iff.1 hfields), ?_⟩
  refine h.distinct.perm hperm.symm fun hab n hb ha => hab n ha hb

/-- For which fault an object is refused behind others: it departs from the schema, or its id is
taken. -/
inductive Refuses (kind : Kind) (before : List Fields) (fields : Fields) : DataFault → Prop
  | departs {found : List Violation} (hnot : ¬ Conforms kind fields)
    (hfound : ∀ x, x ∈ found ↔ Departs kind fields x) :
    Refuses kind before fields (.badRecord kind.name found)
  | duplicate {other : Fields} {n : Int} (hconforms : Conforms kind fields)
    (hid : HasId fields n) (hother : other ∈ before) (hsame : HasId other n) :
    Refuses kind before fields (.duplicate kind (.int n))

/-! ## Loading a section -/

/-- Acceptable objects are added, and then their ids are taken. -/
theorem addRecords_of_acceptable {objects : List Fields} (h : Acceptable kind objects)
    (hfree : ∀ n, ¬ db.Holds kind n) :
    ∃ read next, addRecords kind db (objects.map .object) = (read, .ok next) ∧
      read.length = objects.length ∧ ∀ other m, next.Holds other m ↔
        db.Holds other m ∨ other = kind ∧ ∃ a ∈ objects, HasId a m := by
  induction objects using List.reverseRecOn with
  | nil => exact ⟨[], db, rfl, rfl, by simp⟩
  | append_singleton before fields ih =>
    obtain ⟨hbefore, hconforms, hnew⟩ := acceptable_append_singleton.1 h
    obtain ⟨read, between, hadd, hlength, hholds⟩ := ih hbefore
    obtain ⟨e, he⟩ := Record.exists_entry_of_conforms hconforms
    obtain ⟨n, hn, hid⟩ := Record.hasId_of_toEntry he
    have hdescribes := Record.describes_of_toEntry he
    have hfreeBetween : ¬ between.Holds kind n := by
      rw [hholds]
      rintro (htaken | ⟨-, a, ha, han⟩)
      · exact hfree n htaken
      · exact hnew a ha n han hn
    obtain ⟨next, hnext, hholdsNext⟩ := add_of_free hdescribes hid hfreeBetween
    refine ⟨read ++ [e], next, ?_, by simp [hlength], fun other m => ?_⟩
    · have hpresent : Value.object fields ≠ .null := nofun
      rw [List.map_append, addRecords_append hadd, List.map_singleton,
        addRecords_cons hpresent he hnext]
      rfl
    · have hfields : HasId fields m ↔ m = n := ⟨fun hm => hm.unique hn, fun heq => heq ▸ hn⟩
      rw [hholdsNext, hholds, or_assoc, ← and_or_left, ← hfields]
      simp only [List.mem_append, List.mem_singleton, or_and_right, exists_or, exists_eq_left]

/-- An object that is not acceptable beside those before it is refused, and if its numbers can be
shown, the fault is reported. -/
theorem addRecords_of_refused {before : List Fields} {fields : Fields}
    (hdb : ∀ m, db.Holds kind m ↔ ∃ a ∈ before, HasId a m)
    (h : Acceptable kind before) (hnot : ¬ Acceptable kind (before ++ [fields]))
    (after : List Value) :
    ∃ f fault, (addRecords kind db (.object fields :: after)).2 = .error f ∧
      Refuses kind before fields fault ∧ (fieldsModest fields = true → f = .data fault) := by
  by_cases hconforms : Conforms kind fields
  · obtain ⟨e, he⟩ := Record.exists_entry_of_conforms hconforms
    obtain ⟨n, hn, hid⟩ := Record.hasId_of_toEntry he
    have htaken : ∃ a ∈ before, HasId a n := by
      by_contra hfree
      refine hnot (acceptable_append_singleton.2 ⟨h, hconforms, fun a ha m ham hm => ?_⟩)
      exact hfree ⟨a, ha, hn.unique hm ▸ ham⟩
    obtain ⟨a, ha, han⟩ := htaken
    have hadd := add_of_taken (Record.describes_of_toEntry he) hid ((hdb n).2 ⟨a, ha, han⟩)
    refine ⟨.showing [.int n] (.data (.duplicate kind (.int n))), _, ?_,
      .duplicate hconforms hn ha han, fun hmodest => ?_⟩
    · rw [addRecords.eq_def]
      simp only [he, hadd]
    · have hshown : [Value.int n].all Value.isShown = true := by
        rw [List.all_cons, hn.isShown hmodest]
        rfl
      exact Failure.showing_of_isShown hshown _
  · obtain ⟨-, hfound, -⟩ := Record.violations_spec kind fields
    have hentry := Record.toEntry_of_not_conforms hconforms
    generalize hviolations : Record.violations (some kind) (.object fields) = found at hfound hentry
    refine ⟨.showing (found.flatMap Violation.shown) (.data (.badRecord kind.name found)), _, ?_,
      .departs hconforms hfound, fun hmodest => ?_⟩
    · rw [addRecords.eq_def]
      simp only [hentry]
    · exact Failure.showing_of_isShown (hviolations ▸ Record.violations_shown hmodest) _

/-- The first part of a list that does not have a property all beginnings would need. -/
theorem exists_first_not {α : Type} {P : List α → Prop} (hnil : P []) {l : List α} (h : ¬ P l) :
    ∃ before a after, l = before ++ a :: after ∧ P before ∧ ¬ P (before ++ [a]) := by
  induction l using List.reverseRecOn with
  | nil => exact absurd hnil h
  | append_singleton before a ih =>
    by_cases hbefore : P before
    · exact ⟨before, a, [], rfl, hbefore, h⟩
    · obtain ⟨first, b, after, rfl, hfirst, hnot⟩ := ih hbefore
      exact ⟨first, b, after ++ [a], by simp, hfirst, hnot⟩

/-- Where a section stops: at an object that is refused beside those before it, which are
accepted. -/
structure StopsAt (kind : Kind) (objects before : List Fields) (fields : Fields) : Prop where
  split : before ++ [fields] <+: objects
  accepted : Acceptable kind before
  refused : ¬ Acceptable kind (before ++ [fields])

/-- Objects that are not acceptable are refused for the first that is not. -/
theorem addRecords_of_not_acceptable {objects : List Fields} (h : ¬ Acceptable kind objects)
    (hfree : ∀ n, ¬ db.Holds kind n) :
    ∃ before fields f fault, (addRecords kind db (objects.map .object)).2 = .error f ∧
      StopsAt kind objects before fields ∧ Refuses kind before fields fault ∧
      (fieldsModest fields = true → f = .data fault) := by
  obtain ⟨before, fields, after, rfl, hbefore, hnot⟩ := exists_first_not (acceptable_nil kind) h
  obtain ⟨read, between, hadd, -, hholds⟩ := addRecords_of_acceptable hbefore hfree
  have hbetween (m : Int) : between.Holds kind m ↔ ∃ a ∈ before, HasId a m := by
    rw [hholds, or_iff_right (hfree m), and_iff_right rfl]
  obtain ⟨f, fault, hfails, hrefuses⟩ :=
    addRecords_of_refused hbetween hbefore hnot (after.map .object)
  refine ⟨before, fields, f, fault, ?_, ⟨⟨after, by simp⟩, hbefore, hnot⟩, hrefuses⟩
  rw [List.map_append, addRecords_append hadd]
  exact hfails

/-! ## Loading a document -/

/-- The objects of a section. It may be missing or null, and otherwise it is a list of objects with
nulls between them. -/
inductive IsSection : Option Value → List Fields → Prop
  | missing : IsSection none []
  | null : IsSection (some .null) []
  | records {records : List Value} {objects : List Fields}
    (h : present records = objects.map .object) : IsSection (some (.list records)) objects

/-- The sections of a document have these objects. -/
def HasObjects (document : Fields) (objects : Kind → List Fields) : Prop :=
  ∀ kind, IsSection (document.get? (sectionName kind)) (objects kind)

theorem present_cons {record : Value} (h : record ≠ .null) (rest : List Value) :
    present (record :: rest) = record :: present rest :=
  List.filter_cons_of_pos (bne_iff_ne.2 h)

/-- Nulls are passed over. -/
theorem addRecords_present (records : List Value) :
    addRecords kind db (present records) = addRecords kind db records := by
  fun_induction addRecords kind db records with
  | case1 db => rfl
  | case2 db rest ih => exact ih
  | case3 db record rest hne f hentry =>
    rw [present_cons hne, addRecords.eq_def]
    cases record <;> first | exact absurd rfl hne | simp only [hentry]
  | case4 db record rest hne e hentry f hadd =>
    rw [present_cons hne, addRecords.eq_def]
    cases record <;> first | exact absurd rfl hne | simp only [hentry, hadd]
  | case5 db record rest hne e hentry between hadd more outcome hmore ih =>
    rw [present_cons hne, addRecords_cons hne hentry hadd, ih, hmore]

variable {document : Fields} {objects : Kind → List Fields}

/-- Loading the section of a kind is loading its objects. -/
theorem HasObjects.exists_records (h : HasObjects document objects) (kind : Kind) :
    ∃ records, recordsOf document kind = .ok records ∧
      present records = (objects kind).map .object := by
  have hsection := h kind
  unfold recordsOf
  generalize objects kind = found at hsection
  cases hget : document.get? (sectionName kind) with
  | none =>
    rw [hget] at hsection
    cases hsection
    exact ⟨[], rfl, rfl⟩
  | some v =>
    rw [hget] at hsection
    cases hsection with
    | null => exact ⟨[], rfl, rfl⟩
    | @records records _ hpresent =>
      cases records with
      | nil => exact ⟨[], rfl, hpresent⟩
      | cons record records => exact ⟨record :: records, rfl, hpresent⟩

theorem addSections_of_acceptable (hdocument : HasObjects document objects) {kinds : List Kind}
    (hkinds : kinds.Nodup) (h : ∀ kind ∈ kinds, Acceptable kind (objects kind))
    (hfree : ∀ kind ∈ kinds, ∀ n, ¬ db.Holds kind n) :
    ∃ read next, addSections document db kinds = (read, .ok next) ∧
      read.length = (kinds.map fun kind => (objects kind).length).sum ∧
      ∀ kind, kind ∉ kinds → ∀ n, next.Holds kind n → db.Holds kind n := by
  induction kinds generalizing db with
  | nil => exact ⟨[], db, rfl, rfl, fun _ _ _ => id⟩
  | cons kind kinds ih =>
    obtain ⟨hkind, hkinds⟩ := List.nodup_cons.1 hkinds
    obtain ⟨hfirst, hrest⟩ := List.forall_mem_cons.1 h
    obtain ⟨hfreeFirst, hfreeRest⟩ := List.forall_mem_cons.1 hfree
    obtain ⟨records, hrecords, hpresent⟩ := hdocument.exists_records kind
    obtain ⟨read, between, hadd, hlength, hholds⟩ := addRecords_of_acceptable hfirst hfreeFirst
    rw [← hpresent, addRecords_present] at hadd
    -- The section of a kind takes no ids of another.
    have hother (other : Kind) (hne : other ≠ kind) (n : Int) :
        between.Holds other n → db.Holds other n := by
      rw [hholds]
      rintro (hheld | ⟨heq, -⟩)
      · exact hheld
      · exact absurd heq hne
    have hfreeBetween : ∀ other ∈ kinds, ∀ n, ¬ between.Holds other n := by
      intro other hmem n hheld
      have hne : other ≠ kind := fun heq => hkind (heq ▸ hmem)
      exact hfreeRest other hmem n (hother other hne n hheld)
    obtain ⟨more, next, hmore, hlengthMore, hnext⟩ := ih hkinds hrest hfreeBetween
    refine ⟨read ++ more, next, ?_, ?_, fun other hnot n hheld => ?_⟩
    · rw [addSections_cons hrecords hadd, hmore]
    · rw [List.length_append, hlength, hlengthMore, List.map_cons, List.sum_cons]
    · rw [List.mem_cons, not_or] at hnot
      exact hother other hnot.1 n (hnext other hnot.2 n hheld)

theorem not_holds_empty (kind : Kind) (n : Int) : ¬ Holds .empty kind n := by
  rintro ⟨row, hrow, -⟩
  cases hrow

/-- The sections are loaded in order, and the first that is not acceptable is refused. -/
theorem addSections_of_not_acceptable (hdocument : HasObjects document objects)
    {earlier later : List Kind} (hkinds : (earlier ++ kind :: later).Nodup)
    (h : ∀ other ∈ earlier, Acceptable other (objects other))
    (hnot : ¬ Acceptable kind (objects kind)) :
    ∃ before fields f fault,
      (addSections document .empty (earlier ++ kind :: later)).2 = .error f ∧
      StopsAt kind (objects kind) before fields ∧ Refuses kind before fields fault ∧
      (fieldsModest fields = true → f = .data fault) := by
  obtain ⟨hearlier, -, hapart⟩ := List.nodup_append.1 hkinds
  obtain ⟨read, between, hadd, -, hholds⟩ :=
    addSections_of_acceptable hdocument hearlier h fun other _ => not_holds_empty other
  have hfree (n : Int) : ¬ between.Holds kind n := by
    intro hheld
    refine not_holds_empty kind n (hholds kind (fun hmem => ?_) n hheld)
    exact hapart kind hmem kind List.mem_cons_self rfl
  obtain ⟨records, hrecords, hpresent⟩ := hdocument.exists_records kind
  obtain ⟨before, fields, f, fault, hfails, hrefuses⟩ := addRecords_of_not_acceptable hnot hfree
  refine ⟨before, fields, f, fault, ?_, hrefuses⟩
  rw [← hpresent, addRecords_present] at hfails
  obtain ⟨added, hadded⟩ : ∃ added, addRecords kind between records = (added, .error f) :=
    ⟨_, Prod.ext rfl hfails⟩
  rw [addSections_append hadd, addSections, hrecords]
  simp only [hadded]

/-! ## Documents -/

theorem nodup_kinds : Kind.all.Nodup := by decide

theorem load_of_acceptable (hdocument : HasObjects document objects)
    (h : ∀ kind, Acceptable kind (objects kind)) :
    ∃ read db, load (.object document) = (read, .ok db) ∧
      db.size = (Kind.all.map fun kind => (objects kind).length).sum := by
  obtain ⟨read, db, hload, hlength, -⟩ :=
    addSections_of_acceptable hdocument nodup_kinds (fun kind _ => h kind)
      fun kind _ => not_holds_empty kind
  refine ⟨read, db, hload, ?_⟩
  obtain ⟨rows, hentries, -, hperm⟩ := exists_rows_of_load hload
  rw [OrderedList.size, hperm.length_eq, ← hlength, ← hentries, List.length_map]

/-- The fault for which the first object of a document is refused that is not accepted: the sections
before are accepted, and so are the objects before it in its own. -/
inductive FirstRefused (objects : Kind → List Fields) : DataFault → Prop
  | mk {earlier later : List Kind} {kind : Kind} {before : List Fields} {fields : Fields}
      {fault : DataFault} (hkinds : Kind.all = earlier ++ kind :: later)
      (hearlier : ∀ other ∈ earlier, Acceptable other (objects other))
      (hstops : StopsAt kind (objects kind) before fields)
      (hrefuses : Refuses kind before fields fault) : FirstRefused objects fault

/-- A document that is not accepted is refused for the first object that is not. If the numbers in
its objects can be shown, the fault is reported. -/
theorem ofDocument_of_not_acceptable (hdocument : HasObjects document objects)
    (h : ¬ ∀ kind, Acceptable kind (objects kind)) :
    ∃ f fault, ofDocument (.object document) = .error f ∧ FirstRefused objects fault ∧
      ((∀ kind, ∀ fields ∈ objects kind, fieldsModest fields = true) → f = .data fault) := by
  have hkinds : ¬ ∀ kind ∈ Kind.all, Acceptable kind (objects kind) :=
    fun hall => h fun kind => hall kind (by cases kind <;> decide)
  obtain ⟨earlier, kind, later, hsplit, hearlier, hnot⟩ := exists_first_not
    (P := fun kinds => ∀ kind ∈ kinds, Acceptable kind (objects kind)) nofun hkinds
  have hrefused : ¬ Acceptable kind (objects kind) := by
    intro hkind
    exact hnot (List.forall_mem_append.2 ⟨hearlier, by simpa using hkind⟩)
  obtain ⟨before, fields, f, fault, hfails, hstops, hrefuses, hreported⟩ :=
    addSections_of_not_acceptable hdocument (hsplit ▸ nodup_kinds) hearlier hrefused
  refine ⟨f, fault, ?_, .mk hsplit hearlier hstops hrefuses, fun hmodest => hreported ?_⟩
  · rw [ofDocument, load, hsplit]
    exact hfails
  · exact hmodest kind fields (hstops.split.subset (by simp))

theorem exists_ofDocument_iff (hdocument : HasObjects document objects) :
    (∃ db, ofDocument (.object document) = .ok db) ↔ ∀ kind, Acceptable kind (objects kind) := by
  constructor
  · rintro ⟨db, hdb⟩
    by_contra hnot
    obtain ⟨f, fault, hfails, -⟩ := ofDocument_of_not_acceptable hdocument hnot
    cases hdb.symm.trans hfails
  · intro h
    obtain ⟨read, db, hload, -⟩ := load_of_acceptable hdocument h
    exact ⟨db, congrArg Prod.snd hload⟩

end Database
end SellRules
