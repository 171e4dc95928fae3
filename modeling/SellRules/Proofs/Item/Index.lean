import Mathlib.Data.List.Induction
import SellRules.Proofs.Item.Loading

/-!
# The database as an index

A database that entries with whole numbers as ids were offered to, some of which it refused, has for
each kind and id the first of them (`Database.find?_filled`). All that it answers follows from that:
which entries it refuses, what it finds, and what it lists. The entries that it added are the ones
that it holds (`Database.addAll_added`).

A fault of the data names the id, and an id with too many digits cannot be named. So a refusal is a
fault of the data only for ids that can be shown.
-/

set_option autoImplicit false

namespace SellRules

/-- The entry is of this kind and has this number as its id. -/
def Entry.IsAt (kind : Kind) (n : Int) (e : Entry) : Prop := e.kind = kind ∧ e.id = .int n

instance (kind : Kind) (n : Int) (e : Entry) : Decidable (e.IsAt kind n) :=
  inferInstanceAs (Decidable (_ ∧ _))

theorem Row.order_eq (a b : Row) : a.order b = a.key.order b.key := rfl

/-- A fault about an id is reported if the id can be shown. -/
theorem Failure.exists_showing_eq_data {n : Int} {fault : DataFault} :
    (∃ reported, Failure.showing [.int n] (.data fault) = .data reported) ↔
      Number.isShown n = true := by
  rw [← Value.isShown_int, Value.isShown, Option.isNone_iff_eq_none, Failure.showing,
    List.findSome?_singleton]
  cases (Value.int n).obstacle? <;> simp

namespace Database

/-! ## Offering entries -/

/-- Offers an entry: it is added, or it is refused and the database stays as it is. -/
def offer (entry : Entry) : Action Database Unit := do
  let db ← MonadState.get
  let next ← Action.ofExcept (db.add entry)
  set next

/-- The database after entries were offered, one after the other. -/
def after (offers : List Entry) (db : Database) : Database :=
  offers.foldl (fun db e => ((offer e).perform db).2) db

/-- The entries among those offered that were added, in order. -/
def added : List Entry → Database → List Entry
  | [], _ => []
  | e :: rest, db =>
    let (answer, next) := (offer e).perform db
    if answer.isOk then e :: added rest next else added rest next

/-- The database that offered entries fill. -/
def filled (offers : List Entry) : Database := after offers .empty

variable {db next : Database} {e : Entry} {f : Failure}

theorem perform_offer_ok (h : db.add e = .ok next) : (offer e).perform db = (.ok (), next) := by
  simp only [offer, Action.perform_bind, Action.perform_get, h, Action.perform_ofExcept,
    Action.perform_set]

theorem perform_offer_error (h : db.add e = .error f) : (offer e).perform db = (.error f, db) := by
  simp only [offer, Action.perform_bind, Action.perform_get, h, Action.perform_ofExcept]

theorem added_cons_ok (h : db.add e = .ok next) (rest : List Entry) :
    added (e :: rest) db = e :: added rest next := by
  rw [added, perform_offer_ok h]
  rfl

theorem added_cons_error (h : db.add e = .error f) (rest : List Entry) :
    added (e :: rest) db = added rest db := by
  rw [added, perform_offer_error h]
  rfl

theorem after_cons (e : Entry) (rest : List Entry) (db : Database) :
    after (e :: rest) db = after rest ((offer e).perform db).2 := rfl

theorem filled_append_singleton (offers : List Entry) (e : Entry) :
    filled (offers ++ [e]) = ((offer e).perform (filled offers)).2 := by
  rw [filled, after, List.foldl_append]
  rfl

/-- The entries that were added make up the database. -/
theorem addAll_added (offers : List Entry) (db : Database) :
    db.addAll (added offers db) = .ok (after offers db) := by
  induction offers generalizing db with
  | nil => rfl
  | cons e offers ih =>
    cases hadd : db.add e with
    | error f =>
      rw [added_cons_error hadd, after_cons, perform_offer_error hadd]
      exact ih db
    | ok next =>
      rw [added_cons_ok hadd, after_cons, perform_offer_ok hadd, addAll, List.foldlM_cons, hadd,
        ok_bind]
      exact ih next

/-- Offering entries that are all added is adding them. -/
theorem after_of_addAll {entries : List Entry} (h : db.addAll entries = .ok next) :
    after entries db = next := by
  induction entries generalizing db with
  | nil =>
    cases h
    rfl
  | cons e entries ih =>
    rw [addAll, List.foldlM_cons] at h
    obtain ⟨between, hadd, h⟩ := bind_eq_ok.1 h
    rw [after_cons, perform_offer_ok hadd]
    exact ih h

theorem added_sublist (offers : List Entry) (db : Database) : (added offers db).Sublist offers := by
  induction offers generalizing db with
  | nil => exact .slnil
  | cons e offers ih =>
    cases hadd : db.add e with
    | error f =>
      rw [added_cons_error hadd]
      exact (ih db).cons e
    | ok next =>
      rw [added_cons_ok hadd]
      exact (ih next).cons_cons e

/-! ## What is held -/

variable {offers : List Entry}

/-- A row that is put stands under its key; no other key is concerned. -/
theorem find?_put (db : Database) (row : Row) (key : Key) :
    Database.find? (db.put row) key =
      if key.order row.key = .eq then some row else db.find? key :=
  OrderedList.find?_put Row.key Row.order_eq db row key

/-- A key with a number is that of an entry exactly if the entry is of its kind and has the number
as its id. -/
theorem order_key_iff {kind : Kind} {m n : Int} (hid : e.id = .int m) :
    Key.order ⟨kind, .int n⟩ ⟨e.kind, .int m⟩ = .eq ↔ e.IsAt kind n := by
  rw [Key.order_int_eq, Entry.IsAt, hid, Value.int.injEq, eq_comm (a := kind), eq_comm (a := n)]

/-- Under each key the first entry stands that was offered with it. -/
theorem find?_filled (hids : ∀ e ∈ offers, ∃ n, e.id = .int n) (kind : Kind) (n : Int) :
    (filled offers).find? ⟨kind, .int n⟩ =
      (offers.find? fun e => e.IsAt kind n).map (Row.mk ⟨kind, .int n⟩) := by
  -- From the last offer backward: it is refused exactly if its key is taken by an earlier one.
  induction offers using List.reverseRecOn generalizing kind n with
  | nil => rfl
  | append_singleton before e ih =>
    obtain ⟨hbefore, he⟩ := List.forall_mem_append.1 hids
    obtain ⟨m, hid⟩ := he e (by simp)
    have hkey := Entry.key_of_id hid
    have hat : Key.order ⟨kind, .int n⟩ ⟨e.kind, .int m⟩ = .eq ↔ e.IsAt kind n := order_key_iff hid
    have hfind := ih hbefore e.kind m
    rw [filled_append_singleton, List.find?_append, List.find?_singleton]
    cases hfirst : before.find? fun x => x.IsAt e.kind m with
    | some first =>
      rw [hfirst] at hfind
      rw [perform_offer_error (add_of_find?_eq_some hkey hfind), ih hbefore]
      by_cases h : e.IsAt kind n
      · obtain ⟨rfl, hn⟩ := h
        cases hid.symm.trans hn
        rw [hfirst, Option.some_or]
      · simp only [h, decide_false, Bool.false_eq_true, ↓reduceIte, Option.or_none]
    | none =>
      rw [hfirst] at hfind
      rw [perform_offer_ok (add_of_find?_eq_none hkey hfind), find?_put, ih hbefore]
      by_cases h : e.IsAt kind n
      · obtain ⟨rfl, hn⟩ := h
        cases hid.symm.trans hn
        rw [hfirst, if_pos (hat.2 ⟨rfl, hid⟩)]
        simp [Entry.IsAt, hid]
      · rw [if_neg (mt hat.1 h)]
        simp only [h, decide_false, Bool.false_eq_true, ↓reduceIte, Option.or_none]

/-- The first entry that was added with a key is the first that was offered with it. -/
theorem find?_added (hids : ∀ e ∈ offers, ∃ n, e.id = .int n) (kind : Kind) (n : Int) :
    ((added offers .empty).find? fun e => e.IsAt kind n) = offers.find? fun e => e.IsAt kind n := by
  have hadded : ∀ e ∈ added offers .empty, ∃ n, e.id = .int n := fun e he =>
    hids e ((added_sublist offers .empty).subset he)
  have hsame : filled (added offers .empty) = filled offers :=
    after_of_addAll (addAll_added offers .empty)
  have hfind := find?_filled hadded kind n
  rw [hsame, find?_filled hids] at hfind
  exact (Option.map_injective (fun a b h => congrArg Row.entry h) hfind).symm

theorem exists_isAt_iff {kind : Kind} {n : Int} :
    (∃ e ∈ offers, e.IsAt kind n) ↔ (offers.find? fun e => e.IsAt kind n) ≠ none := by
  rw [Ne, List.find?_eq_none]
  simp

/-- An entry with a key was added if one was offered. -/
theorem exists_isAt_added_iff (hids : ∀ e ∈ offers, ∃ n, e.id = .int n) {kind : Kind} {n : Int} :
    (∃ e ∈ added offers .empty, e.IsAt kind n) ↔ ∃ e ∈ offers, e.IsAt kind n := by
  rw [exists_isAt_iff, exists_isAt_iff, find?_added hids]

/-! ## What is answered -/

/-- An entry is refused if one with its key was offered before. -/
theorem perform_offer_filled (hids : ∀ e ∈ offers, ∃ n, e.id = .int n) {n : Int}
    (hid : e.id = .int n) :
    (∃ x ∈ offers, x.IsAt e.kind n) ∧ (offer e).perform (filled offers) =
        (.error (.showing [.int n] (.data (.duplicate e.kind (.int n)))), filled offers) ∨
      (¬ ∃ x ∈ offers, x.IsAt e.kind n) ∧
        ∃ next, (offer e).perform (filled offers) = (.ok (), next) := by
  have hkey := Entry.key_of_id hid
  have hfind := find?_filled hids e.kind n
  rw [exists_isAt_iff]
  cases hfirst : offers.find? fun x => x.IsAt e.kind n with
  | some first =>
    rw [hfirst] at hfind
    refine .inl ⟨nofun, ?_⟩
    rw [perform_offer_error (add_of_find?_eq_some hkey hfind), hid]
  | none =>
    rw [hfirst] at hfind
    exact .inr ⟨not_not.2 rfl, _, perform_offer_ok (add_of_find?_eq_none hkey hfind)⟩

/-- What is found under a number is the first entry that was offered with this key. -/
theorem get_filled (hids : ∀ e ∈ offers, ∃ n, e.id = .int n) (kind : Kind) (n : Int) :
    (filled offers).get kind (.int n) =
      match offers.find? fun e => e.IsAt kind n with
      | some e => .ok e
      | none => .error (.showing [.int n] (.data (.unknown kind (.int n)))) := by
  simp only [Database.get, Scalar.ofValue?, find?_filled hids]
  cases offers.find? fun e => e.IsAt kind n <;> rfl

theorem numbered_filled (hids : ∀ e ∈ offers, ∃ n, e.id = .int n) : (filled offers).Numbered := by
  obtain ⟨rows, hentries, hkeys, hperm⟩ := exists_rows_of_addAll (addAll_added offers .empty)
  rw [OrderedList.empty, List.append_nil] at hperm
  intro row hrow
  have hmem : row ∈ rows := hperm.mem_iff.1 hrow
  have hadded : row.entry ∈ added offers .empty := hentries ▸ List.mem_map_of_mem hmem
  obtain ⟨n, hid⟩ := hids row.entry ((added_sublist offers .empty).subset hadded)
  have hkey : row.key = ⟨row.entry.kind, .int n⟩ :=
    Except.ok.inj ((hkeys row hmem).symm.trans (Entry.key_of_id hid))
  exact ⟨n, hid, by rw [hkey]⟩

theorem size_filled (offers : List Entry) :
    (filled offers).size = (added offers .empty).length := by
  obtain ⟨rows, hentries, -, hperm⟩ := exists_rows_of_addAll (addAll_added offers .empty)
  rw [OrderedList.empty, List.append_nil] at hperm
  rw [← hentries, List.length_map]
  exact hperm.length_eq

/-- All entries are listed kind by kind. -/
theorem Numbered.entries_eq (h : db.Numbered) :
    db.entries = .ok ((db.rowsOf .item).map (·.entry) ++ (db.rowsOf .weapon).map (·.entry) ++
      (db.rowsOf .armor).map (·.entry)) := by
  have hlists : Kind.all.mapM db.ofKind =
      .ok (Kind.all.map fun kind => (db.rowsOf kind).map (·.entry)) :=
    mapM_eq_ok_map fun kind _ => h.ofKind_eq kind
  rw [entries, hlists, ok_bind]
  simp only [Kind.all, List.map_cons, List.map_nil, List.flatten_cons, List.flatten_nil,
    List.append_nil, List.append_assoc]
  rfl

/-- Every row is of one of the kinds. -/
theorem length_rowsOf (db : Database) :
    (db.rowsOf .item).length + (db.rowsOf .weapon).length + (db.rowsOf .armor).length =
      db.size := by
  unfold rowsOf OrderedList.size
  induction db.toList with
  | nil => rfl
  | cons row rows ih =>
    simp only [List.filter_cons, List.length_cons]
    cases row.key.kind <;> simp <;> omega

/-- **A database holds the first entry of each kind and id.** Offer entries with whole numbers as
ids to an empty database, one after the other. An entry is refused exactly if one of its kind and id
was added before, and then the database stays as it is. What is found under a kind and id is the
first entry that was added with them, which is the first that was offered. Those that were added are
listed kind by kind, each kind by ascending id, and their number is the size of the database. A
refusal, and a failure to find, is a fault of the data exactly if the id can be shown. -/
theorem first_entry_of_each_key_is_held (hids : ∀ e ∈ offers, ∃ n, e.id = .int n) :
    (∀ e n, e.id = .int n → ∃ answer next,
      (offer e).perform (filled offers) = (answer, next) ∧
      ((∃ f, answer = .error f) ↔ ∃ x ∈ added offers .empty, x.IsAt e.kind n) ∧
      ((∃ fault, answer = .error (.data fault)) ↔
        (∃ x ∈ added offers .empty, x.IsAt e.kind n) ∧ Number.isShown n = true) ∧
      ∀ f, answer = .error f → next = filled offers) ∧
    (∀ kind n,
      ((added offers .empty).find? fun e => e.IsAt kind n) =
        (offers.find? fun e => e.IsAt kind n) ∧
      (∀ e, (filled offers).get kind (.int n) = .ok e ↔
        ((added offers .empty).find? fun e => e.IsAt kind n) = some e) ∧
      ((∃ fault, (filled offers).get kind (.int n) = .error (.data fault)) ↔
        (¬ ∃ x ∈ added offers .empty, x.IsAt kind n) ∧ Number.isShown n = true)) ∧
    ∃ listed : Kind → List Entry,
      (∀ kind, (filled offers).ofKind kind = .ok (listed kind) ∧
        (listed kind).Perm ((added offers .empty).filter fun e => e.kind = kind) ∧
        (listed kind).Pairwise IdsAscend) ∧
      (filled offers).entries = .ok (listed .item ++ listed .weapon ++ listed .armor) ∧
      (filled offers).size = (added offers .empty).length ∧
      (filled offers).size = (listed .item ++ listed .weapon ++ listed .armor).length := by
  have hnumbered := numbered_filled hids
  refine ⟨fun e n hid => ?_, fun kind n => ⟨find?_added hids kind n, ?_, ?_⟩,
    fun kind => ((filled offers).rowsOf kind).map (·.entry), fun kind => ⟨?_, ?_, ?_⟩, ?_, ?_, ?_⟩
  · rw [exists_isAt_added_iff hids]
    rcases perform_offer_filled hids hid with ⟨htaken, hoffer⟩ | ⟨hfree, next, hoffer⟩
    · refine ⟨_, _, hoffer, ?_, ?_, fun _ _ => rfl⟩
      · simp [htaken]
      · simp [htaken, Failure.exists_showing_eq_data]
    · refine ⟨_, _, hoffer, ?_, ?_, nofun⟩
      · simp [hfree]
      · simp [hfree]
  · intro e
    rw [get_filled hids, find?_added hids]
    cases offers.find? fun e => e.IsAt kind n <;> simp
  · rw [get_filled hids, exists_isAt_added_iff hids, exists_isAt_iff]
    cases offers.find? fun e => e.IsAt kind n <;> simp [Failure.exists_showing_eq_data]
  · exact hnumbered.ofKind_eq kind
  · exact perm_of_addAll (addAll_added offers .empty) kind
  · exact hnumbered.ascending kind
  · exact hnumbered.entries_eq
  · exact size_filled offers
  · simp only [List.length_append, List.length_map, length_rowsOf]

def mint : Entry := { id := .int 1, name := .text "mint", kind := .item, itemTypeId := .int 1 }

def sage : Entry := { id := .int 2, name := .text "sage", kind := .item, itemTypeId := .int 1 }

/-- An item with the id of the mint. -/
def nettle : Entry := { id := .int 1, name := .text "nettle", kind := .item, itemTypeId := .int 1 }

/-- A weapon with the id of the mint. -/
def sickle : Entry :=
  { id := .int 1, name := .text "sickle", kind := .weapon, weaponTypeId := .int 1 }

/-- The mint is held and the nettle refused, so that three entries are listed. -/
theorem mint_is_held_and_nettle_refused :
    (∀ e ∈ [sage, mint, sickle, nettle], ∃ n, e.id = .int n) ∧
      (∃ fault, (offer nettle).perform (filled [sage, mint, sickle]) =
        (.error (.data fault), filled [sage, mint, sickle])) ∧
      (filled [sage, mint, sickle, nettle]).get .item (.int 1) = .ok mint ∧
      (filled [sage, mint, sickle, nettle]).size = 3 := by
  have hids : ∀ e ∈ [sage, mint, sickle, nettle], ∃ n, e.id = .int n := by
    simp only [List.forall_mem_cons, List.not_mem_nil, false_implies, implies_true, and_true]
    exact ⟨⟨2, rfl⟩, ⟨1, rfl⟩, ⟨1, rfl⟩, ⟨1, rfl⟩⟩
  have hbefore : ∀ e ∈ [sage, mint, sickle], ∃ n, e.id = .int n := fun e he =>
    hids e (List.mem_append_left [nettle] he)
  obtain ⟨-, hget, -, -, -, hsize, -⟩ := first_entry_of_each_key_is_held hids
  refine ⟨hids, ?_, ((hget .item 1).2.1 mint).2 (by decide +kernel),
    hsize.trans (by decide +kernel)⟩
  obtain ⟨answer, next, hoffer, -, hfault, hkept⟩ :=
    (first_entry_of_each_key_is_held hbefore).1 nettle 1 rfl
  obtain ⟨fault, rfl⟩ := hfault.2 ⟨⟨mint, by decide +kernel, rfl, rfl⟩, by decide +kernel⟩
  exact ⟨fault, by rw [hoffer, hkept _ rfl]⟩

/-- That there is no entry is not always reported as a fault of the data: not for an id that cannot
be shown, nor for a kind that is none. -/
theorem unknown_overlong_id_is_not_reported :
    (¬ ∃ x ∈ added [] .empty, x.IsAt .item Number.leastUnshown) ∧
    (filled []).get .item (.int Number.leastUnshown) = .error (.value .unshown) ∧
    (¬ ∃ fault, (filled []).get .item (.int Number.leastUnshown) = .error (.data fault)) ∧
    ¬ ∃ fault, (Kind.ofValue (.text "potion") >>= fun kind => (filled []).get kind (.int 1)) =
      .error (.data fault) := by
  have hunshown : Number.isShown Number.leastUnshown = false := by
    rw [Number.isShown, Int.natAbs_natCast]
    exact decide_eq_false (Nat.lt_irrefl _)
  have hget : (filled []).get .item (.int Number.leastUnshown) = .error (.value .unshown) := by
    rw [get_filled (List.forall_mem_nil _), List.find?_nil, Failure.showing,
      List.findSome?_singleton, Value.obstacle?, Value.obstacleWithin?, hunshown]
    rfl
  have hkind : Kind.ofValue (.text "potion") = .error (.value (.notAKind (.text "potion"))) := by
    decide +kernel
  refine ⟨?_, hget, ?_, ?_⟩
  · rintro ⟨x, hx, -⟩
    exact List.not_mem_nil hx
  · rintro ⟨fault, h⟩
    cases hget.symm.trans h
  · rw [hkind]
    rintro ⟨fault, h⟩
    cases h

end Database
end SellRules
