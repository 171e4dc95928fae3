import SellRules.Proofs.Item.Acceptance

/-!
# Rearranged documents

What an accepted document gives depends on the objects of its sections alone, and not on their order
or on the nulls between them: its rows are those of the entries that were read
(`Database.mem_of_load_iff`), and two databases with the same rows are the same
(`Database.eq_of_load`).
-/

set_option autoImplicit false

namespace SellRules

open Record (toEntry HasId)

namespace Database

variable {document : Fields} {objects : Kind → List Fields} {db : Database} {read : List Entry}

/-! ## What is loaded -/

theorem HasObjects.entriesOf_eq (h : HasObjects document objects) (kind : Kind) :
    entriesOf document kind = ((objects kind).map .object).mapM (toEntry kind) := by
  obtain ⟨records, hrecords, hpresent⟩ := h.exists_records kind
  rw [entriesOf, hrecords, ok_bind, hpresent]

/-- The entries that are read are those of the objects. -/
theorem mem_read_iff (hdocument : HasObjects document objects)
    (h : load (.object document) = (read, .ok db)) {e : Entry} :
    e ∈ read ↔ ∃ kind, ∃ fields ∈ objects kind, toEntry kind (.object fields) = .ok e := by
  obtain ⟨lists, hlists, rfl, -⟩ := addSections_eq_ok h
  have hall (kind : Kind) : kind ∈ Kind.all := by cases kind <;> decide
  rw [List.mem_flatten]
  constructor
  · rintro ⟨entries, hentries, he⟩
    obtain ⟨kind, -, hkind⟩ := (mem_of_mapM_eq_ok hlists).1 hentries
    rw [hdocument.entriesOf_eq] at hkind
    obtain ⟨record, hrecord, hentry⟩ := (mem_of_mapM_eq_ok hkind).1 he
    obtain ⟨fields, hfields, rfl⟩ := List.mem_map.1 hrecord
    exact ⟨kind, fields, hfields, hentry⟩
  · rintro ⟨kind, fields, hfields, hentry⟩
    obtain ⟨entries, hentries⟩ := exists_of_mapM_eq_ok hlists kind (hall kind)
    refine ⟨entries, (mem_of_mapM_eq_ok hlists).2 ⟨kind, hall kind, hentries⟩, ?_⟩
    rw [hdocument.entriesOf_eq] at hentries
    exact (mem_of_mapM_eq_ok hentries).2 ⟨_, List.mem_map_of_mem hfields, hentry⟩

/-- A loaded database has the entries that were read, each under its key. -/
theorem mem_of_load_iff (h : load (.object document) = (read, .ok db)) {row : Row} :
    row ∈ db ↔ row.entry ∈ read ∧ row.entry.key = .ok row.key := by
  obtain ⟨rows, rfl, hkeys, hperm⟩ := exists_rows_of_load h
  constructor
  · intro hrow
    have hmem := hperm.mem_iff.1 hrow
    exact ⟨List.mem_map_of_mem hmem, hkeys row hmem⟩
  · rintro ⟨hread, hkey⟩
    obtain ⟨other, hother, hentry⟩ := List.mem_map.1 hread
    have heq : other = row := by
      obtain ⟨key, entry⟩ := row
      obtain ⟨key', entry'⟩ := other
      cases hentry
      cases (hkeys _ hother).symm.trans hkey
      rfl
    exact hperm.mem_iff.2 (heq ▸ hother)

/-- Documents with the same objects in any order, and with any nulls between them, give one
database. -/
theorem eq_of_load {other : Fields} {objects' : Kind → List Fields} {db' : Database}
    {read' : List Entry} (hdocument : HasObjects document objects)
    (hother : HasObjects other objects') (hperm : ∀ kind, (objects' kind).Perm (objects kind))
    (h : load (.object document) = (read, .ok db)) (h' : load (.object other) = (read', .ok db')) :
    db' = db := by
  refine OrderedList.ext_mem fun row => ?_
  rw [mem_of_load_iff h, mem_of_load_iff h', mem_read_iff hdocument h, mem_read_iff hother h']
  simp only [(hperm _).mem_iff]

/-! ## Documents -/

/-- **A database is built from the objects of its document, in whatever order they stand.** A
document whose sections hold objects and nulls gives a database exactly if the objects of each
section conform to its schema and have different numbers as ids. Otherwise, if they are JSON
objects, it is refused with a fault of the data, that of the first object which departs from the
schema or repeats an id. The database has one entry for each object, those of a kind by ascending
id; and a document with the same objects in any order, with nulls wherever they stand, gives the
same database, so whatever is asked of it has the same answer. -/
theorem built_from_objects_in_any_order (hdocument : HasObjects document objects) :
    ((∃ db, ofDocument (.object document) = .ok db) ↔ ∀ kind, Acceptable kind (objects kind)) ∧
    ((∀ kind, ∀ fields ∈ objects kind, Json.IsJson (.object fields)) →
      (¬ ∀ kind, Acceptable kind (objects kind)) →
        ∃ fault, FirstRefused objects fault ∧
          ofDocument (.object document) = .error (.data fault)) ∧
    ∀ db, ofDocument (.object document) = .ok db →
      db.size = (Kind.all.map fun kind => (objects kind).length).sum ∧
      (∀ kind, ∃ entries listed,
        ((objects kind).map .object).mapM (toEntry kind) = .ok entries ∧
          db.ofKind kind = .ok listed ∧ listed.Perm entries ∧ listed.Pairwise IdsAscend) ∧
      ∀ other objects', HasObjects other objects' → (∀ kind, (objects' kind).Perm (objects kind)) →
        ofDocument (.object other) = .ok db := by
  refine ⟨exists_ofDocument_iff hdocument, fun hjson hnot => ?_, fun db hdb => ?_⟩
  · obtain ⟨f, fault, hfails, hfirst, hreported⟩ := ofDocument_of_not_acceptable hdocument hnot
    refine ⟨fault, hfirst, ?_⟩
    rw [hfails, hreported fun kind fields hfields => ?_]
    exact Value.fieldsModest_of_isModest (hjson kind fields hfields).isModest
  · have haccepted := (exists_ofDocument_iff hdocument).1 ⟨db, hdb⟩
    obtain ⟨read, hload⟩ : ∃ read, load (.object document) = (read, .ok db) := ⟨_, Prod.ext rfl hdb⟩
    refine ⟨?_, fun kind => ?_, fun other objects' hother hperm => ?_⟩
    · obtain ⟨read', db', hload', hsize⟩ := load_of_acceptable hdocument haccepted
      cases hload.symm.trans hload'
      exact hsize
    · obtain ⟨entries, hentries, hperm⟩ := perm_of_load hload kind
      rw [hdocument.entriesOf_eq] at hentries
      exact ⟨entries, _, hentries, ofKind_of_load hload kind, hperm, ascending_of_load hload kind⟩
    · have hacceptedOther (kind : Kind) : Acceptable kind (objects' kind) :=
        (haccepted kind).perm (hperm kind)
      obtain ⟨read', db', hload', -⟩ := load_of_acceptable hother hacceptedOther
      rw [ofDocument, hload', eq_of_load hdocument hother hperm hload hload']

def herbFields : Fields :=
  [("id", .float (.finite false 1 0)), ("name", .text "herb"), ("itypeId", .int 1)]

def salveFields : Fields := [("id", .int 2), ("name", .text "salve"), ("itypeId", .int 1)]

def bladeFields : Fields := [("id", .int 1), ("name", .text "blade"), ("wtypeId", .int 1)]

/-- The objects of a shelf with two items and a weapon that has the id of one of them. -/
def shelved : Kind → List Fields
  | .item => [herbFields, salveFields]
  | .weapon => [bladeFields]
  | .armor => []

def shelf : Fields :=
  [("items", .list [.null, .object herbFields, .object salveFields]),
    ("weapons", .list [.object bladeFields])]

/-- The shelf with its items in the other order, other nulls and an empty section. -/
def rearrangedShelf : Fields :=
  [("weapons", .list [.object bladeFields, .null]), ("armors", .null),
    ("items", .list [.object salveFields, .object herbFields])]

/-- The fields of an item with the id of the herb in its other form. -/
def rootFields : Fields := [("id", .int 1), ("name", .text "root"), ("itypeId", .int 1)]

def crowded : Kind → List Fields
  | .item => [herbFields, rootFields]
  | _ => []

/-- A shelf with two items of one id. -/
def crowdedShelf : Fields := [("items", .list [.object herbFields, .object rootFields])]

/-- The shelf is the same when it is rearranged, and the crowded shelf is refused. -/
theorem rearranged_shelf_is_the_same :
    (∃ db, ofDocument (.object shelf) = .ok db ∧
      ofDocument (.object rearrangedShelf) = .ok db ∧ db.size = 3) ∧
    ∃ fault, FirstRefused crowded fault ∧
      ofDocument (.object crowdedShelf) = .error (.data fault) := by
  constructor
  · have hshelf : HasObjects shelf shelved := by
      intro kind
      cases kind with
      | item => exact .records (by decide +kernel)
      | weapon => exact .records (by decide +kernel)
      | armor => exact .missing
    have hrearranged : HasObjects rearrangedShelf fun kind => (shelved kind).reverse := by
      intro kind
      cases kind with
      | item => exact .records (by decide +kernel)
      | weapon => exact .records (by decide +kernel)
      | armor => exact .null
    have hok : (ofDocument (.object shelf)).isOk = true := by decide +kernel
    cases hdb : ofDocument (.object shelf) with
    | error f =>
      rw [hdb] at hok
      cases hok
    | ok db =>
      obtain ⟨-, -, hbuilt⟩ := built_from_objects_in_any_order hshelf
      obtain ⟨hsize, -, hsame⟩ := hbuilt db hdb
      exact ⟨db, rfl, hsame _ _ hrearranged fun kind => List.reverse_perm _, hsize⟩
  · have hcrowded : HasObjects crowdedShelf crowded := by
      intro kind
      cases kind with
      | item => exact .records (by decide +kernel)
      | weapon => exact .missing
      | armor => exact .missing
    have hherb : Json.IsJson (.object herbFields) :=
      ⟨"\x7b\"id\": 1.0, \"name\": \"herb\", \"itypeId\": 1\x7d", by decide +kernel⟩
    have hroot : Json.IsJson (.object rootFields) :=
      ⟨"\x7b\"id\": 1, \"name\": \"root\", \"itypeId\": 1\x7d", by decide +kernel⟩
    have hjson : ∀ kind, ∀ fields ∈ crowded kind, Json.IsJson (.object fields) := by
      intro kind
      cases kind with
      | item => exact List.forall_mem_cons.2 ⟨hherb, List.forall_mem_singleton.2 hroot⟩
      | weapon => exact nofun
      | armor => exact nofun
    have hnot : ¬ ∀ kind, Acceptable kind (crowded kind) := by
      intro h
      have happart := List.pairwise_pair.1 (h .item).distinct
      exact happart 1 ⟨.float (.finite false 1 0), rfl, .float (.inr le_rfl)⟩ ⟨.int 1, rfl, .int 1⟩
    obtain ⟨-, hrefused, -⟩ := built_from_objects_in_any_order hcrowded
    exact hrefused hjson hnot

end Database
end SellRules
