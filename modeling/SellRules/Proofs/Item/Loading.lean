import SellRules.Item.File
import SellRules.Proofs.Entry.Record

/-!
# Loading a database

What a database holds that was loaded from a document: for each kind the entries of the records in
its section, each once (`Database.perm_of_load`), by ascending id (`Database.ascending_of_load`).
Records that are null are left out. Such a database can be listed, and what a shop buys of it has an
answer (`Database.bought_of_load`).
-/

set_option autoImplicit false

namespace SellRules

namespace Database

/-! ## Adding entries -/

/-- An entry whose key is free is added. -/
theorem add_of_find?_eq_none {db : Database} {e : Entry} {key : Key} (hkey : e.key = .ok key)
    (hfind : db.find? key = none) : db.add e = .ok (db.put ⟨key, e⟩) := by
  simp only [add, hkey, ok_bind, hfind]
  rfl

/-- An entry whose key is taken is refused. -/
theorem add_of_find?_eq_some {db : Database} {e : Entry} {key : Key} {row : Row}
    (hkey : e.key = .ok key) (hfind : db.find? key = some row) :
    db.add e = .error (.showing [e.id] (.data (.duplicate e.kind e.id))) := by
  simp only [add, hkey, ok_bind, hfind]
  rfl

/-- An entry that was added has a row of its own. -/
theorem exists_row_of_add {db next : Database} {e : Entry} (h : db.add e = .ok next) :
    ∃ row : Row, row.entry = e ∧ e.key = .ok row.key ∧ next.toList.Perm (row :: db.toList) := by
  obtain ⟨key, hkey, h⟩ := bind_eq_ok.1 h
  split at h
  · cases h
  · rename_i hfind
    cases h
    refine ⟨⟨key, e⟩, rfl, hkey, OrderedList.place_perm fun row hrow heq => ?_⟩
    have hother := List.find?_eq_none.1 hfind row hrow
    exact hother (beq_iff_eq.2 heq)

/-- Entries that were added have a row each. -/
theorem exists_rows_of_addAll {db next : Database} {entries : List Entry}
    (h : db.addAll entries = .ok next) :
    ∃ rows : List Row, rows.map (·.entry) = entries ∧
      (∀ row ∈ rows, row.entry.key = .ok row.key) ∧ next.toList.Perm (rows ++ db.toList) := by
  induction entries generalizing db with
  | nil =>
    cases h
    exact ⟨[], rfl, by simp, .refl _⟩
  | cons e entries ih =>
    rw [addAll, List.foldlM_cons] at h
    obtain ⟨between, hadd, h⟩ := bind_eq_ok.1 h
    obtain ⟨row, hentry, hkey, hperm⟩ := exists_row_of_add hadd
    obtain ⟨rows, hentries, hkeys, hpermAll⟩ := ih h
    refine ⟨row :: rows, by rw [List.map_cons, hentry, hentries],
      List.forall_mem_cons.2 ⟨hentry ▸ hkey, hkeys⟩, ?_⟩
    exact (hpermAll.trans (hperm.append_left rows)).trans List.perm_middle

theorem kind_eq_of_key {e : Entry} {key : Key} (h : e.key = .ok key) : key.kind = e.kind := by
  unfold Entry.key at h
  split at h <;> cases h
  rfl

/-- The rows of a kind hold the entries of this kind that were added, each once. -/
theorem perm_of_addAll {db : Database} {entries : List Entry}
    (h : addAll .empty entries = .ok db) (kind : Kind) :
    ((db.rowsOf kind).map (·.entry)).Perm (entries.filter fun e => e.kind = kind) := by
  obtain ⟨rows, hentries, hkeys, hperm⟩ := exists_rows_of_addAll h
  rw [OrderedList.empty, List.append_nil] at hperm
  rw [← hentries, List.filter_map, rowsOf]
  have hsame : rows.filter (fun row => row.key.kind = kind) =
      rows.filter ((fun e => decide (e.kind = kind)) ∘ (·.entry)) :=
    List.filter_congr fun row hrow => by
      rw [Function.comp_apply, kind_eq_of_key (hkeys row hrow)]
  rw [← hsame]
  exact (hperm.filter _).map _

/-! ## Whole numbers as ids -/

/-- The rows of a database have whole numbers as ids. -/
def Numbered (db : Database) : Prop :=
  ∀ row ∈ db, ∃ n, row.entry.id = .int n ∧ row.key = ⟨row.key.kind, .int n⟩

/-- Entries with whole numbers as ids, the first below the second. -/
def IdsAscend (a b : Entry) : Prop := ∃ m n : Int, a.id = .int m ∧ b.id = .int n ∧ m < n

theorem mem_rowsOf {db : Database} {kind : Kind} {row : Row} :
    row ∈ db.rowsOf kind ↔ row ∈ db ∧ row.key.kind = kind := by
  simp only [rowsOf, List.mem_filter, decide_eq_true_eq]
  rfl

/-- The entries of a kind stand by ascending id. -/
theorem Numbered.ascending {db : Database} (h : db.Numbered) (kind : Kind) :
    ((db.rowsOf kind).map (·.entry)).Pairwise IdsAscend := by
  rw [List.pairwise_map]
  refine (db.ascending.filter _).imp_of_mem fun {a b} ha hb hlt => ?_
  obtain ⟨ha, hakind⟩ := mem_rowsOf.1 ha
  obtain ⟨hb, hbkind⟩ := mem_rowsOf.1 hb
  obtain ⟨m, hm, hakey⟩ := h a ha
  obtain ⟨n, hn, hbkey⟩ := h b hb
  refine ⟨m, n, hm, hn, Scalar.order_int_lt.1 ?_⟩
  rw [Row.order, hakey, hbkey, hakind, hbkind] at hlt
  simpa [Key.order, Key.idOrder, compareLex, compareOn] using hlt

/-- The entries of a kind can be listed. -/
theorem Numbered.ofKind_eq {db : Database} (h : db.Numbered) (kind : Kind) :
    db.ofKind kind = .ok ((db.rowsOf kind).map (·.entry)) := by
  have hnumbers : ((db.rowsOf kind).map (·.key.id)).all Scalar.isNumber = true := by
    rw [List.all_map, List.all_eq_true]
    intro row hrow
    obtain ⟨n, -, hkey⟩ := h row (mem_rowsOf.1 hrow).1
    rw [Function.comp_apply, hkey]
    rfl
  have hsortable : Scalar.sortable ((db.rowsOf kind).map (·.key.id)) = true := by
    rw [Scalar.sortable, hnumbers, Bool.or_true, Bool.true_or]
  rw [ofKind, if_pos hsortable]

/-! ## Records and sections -/

/-- The records that are not null. -/
def present (records : List Value) : List Value := records.filter (· != .null)

/-- The entries of the records in the section of a kind. -/
def entriesOf (document : Fields) (kind : Kind) : Except Failure (List Entry) := do
  (present (← recordsOf document kind)).mapM (Record.toEntry kind)

theorem addRecords_eq_ok {kind : Kind} {db next : Database} {records : List Value}
    {read : List Entry} (h : addRecords kind db records = (read, .ok next)) :
    (present records).mapM (Record.toEntry kind) = .ok read ∧ db.addAll read = .ok next := by
  fun_induction addRecords kind db records generalizing read with
  | case1 db =>
    cases h
    exact ⟨rfl, rfl⟩
  | case2 db rest ih => exact ih h
  | case3 db record rest hne f hentry => cases h
  | case4 db record rest hne e hentry f hadd => cases h
  | case5 db record rest hne e hentry between hadd more outcome hmore ih =>
    cases h
    obtain ⟨hmap, hall⟩ := ih hmore
    have hpresent : present (record :: rest) = record :: present rest :=
      List.filter_cons_of_pos (bne_iff_ne.2 hne)
    constructor
    · rw [hpresent, List.mapM_cons, hentry, ok_bind, hmap]
      rfl
    · rw [addAll, List.foldlM_cons, hadd, ok_bind]
      exact hall

theorem addSections_eq_ok {document : Fields} {db next : Database} {kinds : List Kind}
    {read : List Entry} (h : addSections document db kinds = (read, .ok next)) :
    ∃ lists, kinds.mapM (entriesOf document) = .ok lists ∧ read = lists.flatten ∧
      db.addAll read = .ok next := by
  fun_induction addSections document db kinds generalizing read with
  | case1 db =>
    cases h
    exact ⟨[], rfl, rfl, rfl⟩
  | case2 db kind rest f hrecords => cases h
  | case3 db kind rest records hrecords read f hadd => cases h
  | case4 db kind rest records hrecords first between hadd more outcome hmore ih =>
    cases h
    obtain ⟨lists, hlists, rfl, hall⟩ := ih hmore
    obtain ⟨hmap, hfirst⟩ := addRecords_eq_ok hadd
    have hentries : entriesOf document kind = .ok first := by
      rw [entriesOf, hrecords, ok_bind, hmap]
    refine ⟨first :: lists, ?_, rfl, ?_⟩
    · rw [List.mapM_cons, hentries, ok_bind, hlists]
      rfl
    · rw [addAll] at hfirst hall ⊢
      rw [List.foldlM_append, hfirst, ok_bind]
      exact hall

theorem describes_of_entriesOf {document : Fields} {kind : Kind} {entries : List Entry}
    (h : entriesOf document kind = .ok entries) : ∀ e ∈ entries, Record.Describes kind e := by
  obtain ⟨records, -, h⟩ := bind_eq_ok.1 h
  exact forall_of_mapM_eq_ok (fun _ _ => Record.describes_of_toEntry) h

/-- Among the entries of several kinds those of one kind are the ones of its section. -/
theorem filter_flatten_of_mapM {document : Fields} {kinds : List Kind}
    {lists : List (List Entry)} (h : kinds.mapM (entriesOf document) = .ok lists)
    (hdistinct : kinds.Nodup) (kind : Kind) :
    (kind ∈ kinds → entriesOf document kind =
      .ok (lists.flatten.filter fun e => e.kind = kind)) ∧
    (kind ∉ kinds → (lists.flatten.filter fun e => e.kind = kind) = []) := by
  induction kinds generalizing lists with
  | nil =>
    cases h
    simp
  | cons other kinds ih =>
    rw [List.mapM_cons] at h
    obtain ⟨first, hfirst, h⟩ := bind_eq_ok.1 h
    obtain ⟨rest, hrest, h⟩ := bind_eq_ok.1 h
    cases h
    obtain ⟨hother, hdistinct⟩ := List.nodup_cons.1 hdistinct
    obtain ⟨hmem, hnot⟩ := ih hrest hdistinct
    have hkind : ∀ e ∈ first, e.kind = other := fun e he =>
      (describes_of_entriesOf hfirst e he).kind_eq
    rw [List.flatten_cons, List.filter_append]
    by_cases heq : other = kind
    · subst heq
      rw [hnot hother, List.append_nil, List.filter_eq_self.2 fun e he => by simp [hkind e he]]
      exact ⟨fun _ => hfirst, fun habsent => absurd List.mem_cons_self habsent⟩
    · have hnone : (first.filter fun e => e.kind = kind) = [] :=
        List.filter_eq_nil_iff.2 fun e he => by simp [hkind e he, heq]
      rw [hnone, List.nil_append, List.mem_cons, or_iff_right (Ne.symm heq)]
      exact ⟨hmem, hnot⟩

/-! ## Loaded databases -/

/-- What is known of a row that was loaded. -/
structure IsLoaded (row : Row) : Prop where
  key_eq : row.entry.key = .ok row.key
  describes : Record.Describes row.key.kind row.entry

variable {document : Fields} {db : Database} {read : List Entry}

theorem exists_rows_of_load (h : load (.object document) = (read, .ok db)) :
    ∃ rows : List Row, rows.map (·.entry) = read ∧
      (∀ row ∈ rows, row.entry.key = .ok row.key) ∧ db.toList.Perm rows := by
  obtain ⟨lists, -, -, hall⟩ := addSections_eq_ok h
  obtain ⟨rows, hentries, hkeys, hperm⟩ := exists_rows_of_addAll hall
  exact ⟨rows, hentries, hkeys, by rwa [OrderedList.empty, List.append_nil] at hperm⟩

theorem isLoaded_of_load (h : load (.object document) = (read, .ok db)) :
    ∀ row ∈ db, IsLoaded row := by
  obtain ⟨rows, hentries, hkeys, hperm⟩ := exists_rows_of_load h
  obtain ⟨lists, hlists, rfl, -⟩ := addSections_eq_ok h
  intro row hrow
  have hmem : row ∈ rows := hperm.mem_iff.1 hrow
  have hkey := hkeys row hmem
  refine ⟨hkey, ?_⟩
  have hread : row.entry ∈ lists.flatten := hentries ▸ List.mem_map_of_mem hmem
  obtain ⟨entries, hentriesMem, he⟩ := List.mem_flatten.1 hread
  obtain ⟨kind, -, hkind⟩ := (mem_of_mapM_eq_ok hlists).1 hentriesMem
  have hdescribes := describes_of_entriesOf hkind row.entry he
  rwa [kind_eq_of_key hkey, hdescribes.kind_eq]

/-- The rows of a kind hold the entries of its section, each once. -/
theorem perm_of_load (h : load (.object document) = (read, .ok db)) (kind : Kind) :
    ∃ entries, entriesOf document kind = .ok entries ∧
      ((db.rowsOf kind).map (·.entry)).Perm entries := by
  obtain ⟨lists, hlists, rfl, hadded⟩ := addSections_eq_ok h
  have hall : kind ∈ Kind.all := by cases kind <;> decide
  have hdistinct : Kind.all.Nodup := by decide
  exact ⟨_, (filter_flatten_of_mapM hlists hdistinct kind).1 hall, perm_of_addAll hadded kind⟩

theorem IsLoaded.exists_id {row : Row} (h : IsLoaded row) :
    ∃ n, row.entry.id = .int n ∧ row.key = ⟨row.key.kind, .int n⟩ := by
  obtain ⟨n, hn, hkey⟩ := h.describes.key_eq
  exact ⟨n, hn, Except.ok.inj (h.key_eq.symm.trans hkey)⟩

theorem numbered_of_load (h : load (.object document) = (read, .ok db)) : db.Numbered :=
  fun row hrow => (isLoaded_of_load h row hrow).exists_id

theorem ascending_of_load (h : load (.object document) = (read, .ok db)) (kind : Kind) :
    ((db.rowsOf kind).map (·.entry)).Pairwise IdsAscend :=
  (numbered_of_load h).ascending kind

theorem ofKind_of_load (h : load (.object document) = (read, .ok db)) (kind : Kind) :
    db.ofKind kind = .ok ((db.rowsOf kind).map (·.entry)) :=
  (numbered_of_load h).ofKind_eq kind

/-- Whether a shop under the given restrictions buys an entry. -/
def wanted (r : Option RestrictionSet) (e : Entry) : Bool :=
  decide (RestrictionSet.buys r e = .ok true)

theorem buys_eq_wanted {r : Option RestrictionSet} {kind : Kind} {e : Entry}
    (h : Record.Describes kind e) : RestrictionSet.buys r e = .ok (wanted r e) := by
  obtain ⟨b, hb⟩ := h.exists_buys r
  cases b <;> simp [wanted, hb]

/-- What a shop buys of a loaded database is listed kind by kind. -/
theorem bought_of_load (h : load (.object document) = (read, .ok db)) (r : Option RestrictionSet) :
    db.bought r = .ok (Kind.all.map fun kind =>
      (kind, ((db.rowsOf kind).map (·.entry)).filter (wanted r))) := by
  unfold bought
  refine mapM_eq_ok_map fun kind _ => ?_
  rw [ofKind_of_load h, ok_bind, RestrictionSet.bought,
    filterM_eq_ok_filter (g := wanted r) fun e he => ?_, ok_bind]
  · rfl
  · obtain ⟨row, hrow, rfl⟩ := List.mem_map.1 he
    exact buys_eq_wanted (isLoaded_of_load h row (mem_rowsOf.1 hrow).1).describes

end Database
end SellRules
