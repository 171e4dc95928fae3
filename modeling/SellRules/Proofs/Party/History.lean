import Mathlib.Data.Finset.Card
import SellRules.Proofs.Item.Loading
import SellRules.Proofs.Party.Account
import SellRules.Proofs.Party.Holdings

/-!
# What a party holds after any changes

Whole amounts of entries with whole numbers as ids are added to an inventory and taken from it, in
any order, and some of that is refused. Every line of the inventory stands under the key of its
entry and holds a whole amount above zero (`Line.Counts`). It has come with the addition that found
nothing under its key, and since then there was always something under it (`Party.Created`).

The step is `Party.line_of_perform`, which says where a line comes from; `Party.created_after` is
the run.
-/

set_option autoImplicit false

namespace SellRules

open Std (ReflCmp)

/-- An entry with a whole number as its id. -/
def Entry.Numbered (entry : Entry) : Prop := ∃ n, entry.id = .int n

/-- A line under the key of its entry, which has a whole number as id, with some of it held. -/
structure Line.Counts (line : Line) : Prop where
  id : line.entry.Numbered
  key : line.entry.key = .ok line.key
  amount : ∃ held : Int, 0 < held ∧ line.amount = .whole held

/-- The first line stands before the second: its kind comes first, or the kind is the same and its
id is below. -/
def Line.Ascend (a b : Line) : Prop :=
  a.entry.kind.rank < b.entry.kind.rank ∨
    a.entry.kind = b.entry.kind ∧ Database.IdsAscend a.entry b.entry

theorem Line.Counts.exists_key {line : Line} (h : line.Counts) :
    ∃ n, line.entry.id = .int n ∧ line.key = ⟨line.entry.kind, .int n⟩ := by
  obtain ⟨n, hid⟩ := h.id
  exact ⟨n, hid, Except.ok.inj (h.key.symm.trans (Entry.key_of_id hid))⟩

/-- Lines in the order of their keys ascend. -/
theorem Line.Counts.ascend {a b : Line} (ha : a.Counts) (hb : b.Counts) (h : a.order b = .lt) :
    a.Ascend b := by
  obtain ⟨m, haid, hakey⟩ := ha.exists_key
  obtain ⟨n, hbid, hbkey⟩ := hb.exists_key
  rw [Line.order_eq, hakey, hbkey, Key.order_int_lt] at h
  exact h.imp_right fun ⟨hkind, hlt⟩ => ⟨hkind, m, n, haid, hbid, hlt⟩

namespace Inventory

variable {inventory : Inventory} {entry : Entry} {key : Key} {line : Line} {n : Int}

theorem counted_of_counts (h : ∀ line ∈ inventory, line.Counts) : inventory.Counted :=
  fun line hline => by
    obtain ⟨held, -, hheld⟩ := (h line hline).amount
    exact ⟨held, hheld⟩

/-- Something is held under the key of a line, and under no other key. -/
theorem held_pos_iff (h : ∀ line ∈ inventory, line.Counts) :
    (∃ held : Int, 0 < held ∧ inventory.held key = .whole held) ↔
      ∃ line ∈ inventory, key.order line.key = .eq := by
  constructor
  · rintro ⟨held, hpos, hheld⟩
    obtain ⟨line, hline, -⟩ := exists_line_of_held hheld hpos
    exact ⟨line, find?_eq_some_iff.1 hline⟩
  · rintro ⟨line, hline, hkey⟩
    obtain ⟨held, hpos, hamount⟩ := (h line hline).amount
    refine ⟨held, hpos, ?_⟩
    rw [held_congr inventory hkey, held_eq_of_mem hline, hamount]

theorem quantity_eq (hid : entry.id = .int n) (inventory : Inventory) :
    inventory.quantity entry = .ok (inventory.held ⟨entry.kind, .int n⟩) := by
  rw [quantity, Entry.key_of_id hid]
  rfl

/-- The lines can be listed, in ascending order. -/
theorem ascending_of_counts (h : ∀ line ∈ inventory, line.Counts) :
    inventory.lines = .ok inventory.toList ∧ inventory.toList.Pairwise Line.Ascend := by
  constructor
  · refine lines_eq_of_ids fun line hline => ?_
    obtain ⟨n, -, hkey⟩ := (h line hline).exists_key
    exact ⟨n, by rw [hkey]⟩
  · exact inventory.ascending.imp_of_mem fun ha hb hlt => (h _ ha).ascend (h _ hb) hlt

/-- There is one line for each key under which something is held. -/
theorem exists_keys_of_counts (h : ∀ line ∈ inventory, line.Counts) :
    ∃ keys : Finset (Kind × Int),
      (∀ kind n, (kind, n) ∈ keys ↔
        ∃ held : Int, 0 < held ∧ inventory.held ⟨kind, .int n⟩ = .whole held) ∧
      inventory.size = keys.card := by
  choose! number hnumber using fun line hline => (h line hline).exists_key
  have hkey (line : Line) (hline : line ∈ inventory) :
      line.key = ⟨line.entry.kind, .int (number line)⟩ := (hnumber line hline).2
  have hdistinct :
      (inventory.toList.map fun line => (line.entry.kind, number line)).Nodup := by
    refine List.pairwise_map.2 (inventory.ascending.imp_of_mem fun {a b} ha hb hlt heq => ?_)
    have hsame : a.key = b.key := by
      rw [hkey a ha, hkey b hb, (Prod.mk.inj heq).1, (Prod.mk.inj heq).2]
    have hself : b.key.order b.key = .eq := ReflCmp.compare_self
    rw [Line.order_eq, hsame, hself] at hlt
    cases hlt
  refine ⟨(inventory.toList.map fun line => (line.entry.kind, number line)).toFinset,
    fun kind n => ?_, ?_⟩
  · rw [held_pos_iff h, List.mem_toFinset, List.mem_map]
    refine exists_congr fun line => and_congr_right fun hline => ?_
    rw [hkey line hline, Key.order_int_eq, Prod.mk.injEq, eq_comm (a := kind), eq_comm (a := n)]
  · rw [List.toFinset_card_of_nodup hdistinct, List.length_map]
    rfl

end Inventory

namespace Party

/-- Some of an entry is added or taken away. -/
inductive Change where
  | add (entry : Entry) (n : Int)
  | remove (entry : Entry) (n : Int)

namespace Change

def entry : Change → Entry
  | .add entry _ | .remove entry _ => entry

def act : Change → Action Party Unit
  | .add entry n => Party.add entry (.whole n)
  | .remove entry n => Party.remove entry (.whole n)

end Change

/-- The party after changes, one after the other, whichever of them are refused. -/
def after (changes : List Change) (party : Party) : Party :=
  changes.foldl (fun party change => (change.act.perform party).2) party

/-- The addition among the changes with which a line has come: it found nothing under the key, and
since then there was always something under it. -/
def Created (party : Party) (changes : List Change) (line : Line) : Prop :=
  ∃ before n later, changes = before ++ .add line.entry n :: later ∧ 0 < n ∧
    (after before party).inventory.held line.key = .whole 0 ∧
    ∀ since, since <+: later → ∃ held : Int, 0 < held ∧
      (after (before ++ .add line.entry n :: since) party).inventory.held line.key = .whole held

variable {party next : Party} {changes : List Change} {change : Change} {entry : Entry}
  {line : Line} {n : Int}

theorem after_append_singleton (changes : List Change) (change : Change) (party : Party) :
    after (changes ++ [change]) party = (change.act.perform (after changes party)).2 := by
  rw [after, List.foldl_append]
  rfl

/-! ## One change -/

/-- Where a line comes from: it was there before, with some other amount perhaps, or the change
added it and nothing was there under its key. -/
def Change.Explains (change : Change) (party : Party) (line : Line) : Prop :=
  (∃ old ∈ party.inventory, old.entry = line.entry ∧ old.key = line.key) ∨
    ∃ n, change = .add line.entry n ∧ 0 < n ∧ party.inventory.held line.key = .whole 0

/-- Every line after a change has come with it or was there before. -/
theorem line_of_perform (hcounts : ∀ line ∈ party.inventory, line.Counts)
    (hid : change.entry.Numbered)
    (hline : line ∈ (change.act.perform party).2.inventory) :
    line.Counts ∧ change.Explains party line := by
  have hkept (h : line ∈ party.inventory) : line.Counts ∧ change.Explains party line :=
    ⟨hcounts line h, .inl ⟨line, h, rfl, rfl⟩⟩
  have hcounted := Inventory.counted_of_counts hcounts
  cases change with
  | add entry n =>
    cases hadd : party.inventory.add entry (.whole n) with
    | error f =>
      rw [Change.act, perform_add_error hadd] at hline
      exact hkept hline
    | ok inventory =>
      rw [Change.act, perform_add_ok hadd] at hline
      rcases Inventory.add_cases hcounted hadd with
        rfl | ⟨hpos, key, hkey, ⟨hfind, rfl⟩ | ⟨old, hold, held, hheld, rfl⟩⟩
      · exact hkept hline
      · rcases OrderedList.mem_put_iff.1 hline with rfl | ⟨hother, -⟩
        · refine ⟨⟨hid, hkey, n, hpos, rfl⟩, .inr ⟨n, rfl, hpos, ?_⟩⟩
          rw [Inventory.held, hfind]
          rfl
        · exact hkept hother
      · obtain ⟨hcount, hunder, before, hbefore, hamount⟩ := hcounts old hold
        cases hamount.symm.trans hheld
        rcases OrderedList.mem_put_iff.1 hline with rfl | ⟨hother, -⟩
        · exact ⟨⟨hcount, hunder, _, by omega, rfl⟩, .inl ⟨old, hold, rfl, rfl⟩⟩
        · exact hkept hother
  | remove entry n =>
    cases hremove : party.inventory.remove entry (.whole n) with
    | error f =>
      rw [Change.act, perform_remove_error hremove] at hline
      exact hkept hline
    | ok inventory =>
      rw [Change.act, perform_remove_ok hremove] at hline
      obtain ⟨old, hold, held, -, -, hle, rfl⟩ :=
        Inventory.exists_leaving_of_remove hcounted hremove
      rcases Inventory.mem_leaving hline with ⟨hleft, rfl⟩ | hother
      · exact ⟨⟨(hcounts old hold).id, (hcounts old hold).key, _, by omega, rfl⟩,
          .inl ⟨old, hold, rfl, rfl⟩⟩
      · exact hkept hother

/-! ## Any number of changes -/

/-- Something is held under the key of a line. -/
theorem held_of_counts (hcounts : ∀ line ∈ party.inventory, line.Counts)
    (hline : line ∈ party.inventory) :
    ∃ held : Int, 0 < held ∧ party.inventory.held line.key = .whole held :=
  (Inventory.held_pos_iff hcounts).2 ⟨line, hline, ReflCmp.compare_self⟩

/-- A line that has come stays the same while something is under its key. -/
theorem Created.append_singleton {old : Line} (h : Created party changes old)
    (hentry : old.entry = line.entry) (hkey : old.key = line.key)
    (hheld : ∃ held : Int, 0 < held ∧
      (after (changes ++ [change]) party).inventory.held line.key = .whole held) :
    Created party (changes ++ [change]) line := by
  obtain ⟨before, n, later, rfl, hpos, hfree, hsince⟩ := h
  rw [hentry, hkey] at *
  refine ⟨before, n, later ++ [change], by simp, hpos, hfree, fun since hprefix => ?_⟩
  rcases List.prefix_concat_iff.1 hprefix with rfl | hprefix
  · simpa using hheld
  · exact hsince since hprefix

/-- After any changes of an empty inventory, every line has come with one of them. -/
theorem created_after (hempty : party.inventory = .empty)
    (hids : ∀ change ∈ changes, change.entry.Numbered) :
    ∀ line ∈ (after changes party).inventory, line.Counts ∧ Created party changes line := by
  -- The last change brings a line, or leaves one that came before and is still above zero.
  induction changes using List.reverseRecOn with
  | nil =>
    intro line hline
    rw [after, List.foldl_nil, hempty] at hline
    exact absurd hline (OrderedList.not_mem_empty line)
  | append_singleton before change ih =>
    obtain ⟨hbefore, hchange⟩ := List.forall_mem_append.1 hids
    have hcounts : ∀ line ∈ (after before party).inventory, line.Counts := fun line hline =>
      (ih hbefore line hline).1
    have hcounts' : ∀ line ∈ (after (before ++ [change]) party).inventory, line.Counts := by
      intro line hline
      rw [after_append_singleton] at hline
      exact (line_of_perform hcounts (hchange change (by simp)) hline).1
    intro line hline
    refine ⟨hcounts' line hline, ?_⟩
    have hheld := held_of_counts hcounts' hline
    rw [after_append_singleton] at hline
    rcases (line_of_perform hcounts (hchange change (by simp)) hline).2 with
      ⟨old, hold, hentry, hkey⟩ | ⟨n, rfl, hpos, hfree⟩
    · exact (ih hbefore old hold).2.append_singleton hentry hkey hheld
    · refine ⟨before, n, [], rfl, hpos, hfree, fun since hprefix => ?_⟩
      rw [List.prefix_nil.1 hprefix]
      exact hheld

/-! ## What a change answers -/

variable {held : Int}

theorem held_eq (hcounts : ∀ line ∈ party.inventory, line.Counts) (key : Key) :
    ∃ held : Int, 0 ≤ held ∧ party.inventory.held key = .whole held := by
  cases hfind : party.inventory.find? key with
  | none => exact ⟨0, Int.le_refl 0, by rw [Inventory.held, hfind]; rfl⟩
  | some line =>
    obtain ⟨held, hpos, hheld⟩ :=
      (Inventory.held_pos_iff hcounts).2 ⟨line, Inventory.find?_eq_some_iff.1 hfind⟩
    exact ⟨held, Int.le_of_lt hpos, hheld⟩

/-- An addition is never refused, and adds nothing if the amount is zero or less. -/
theorem add_answers (hid : entry.Numbered)
    (hheld : party.inventory.quantity entry = .ok (.whole held)) (n : Int) :
    ∃ next, (Party.add entry (.whole n)).perform party = (.ok (), next) ∧
      next.inventory.quantity entry = .ok (.whole (held + max n 0)) ∧
      (n ≤ 0 → next = party) := by
  obtain ⟨m, hm⟩ := hid
  by_cases hn : n ≤ 0
  · refine ⟨party, perform_add_ok (Inventory.add_of_nonpos party.inventory entry hn), ?_,
      fun _ => rfl⟩
    rw [hheld, Int.max_eq_right hn, Int.add_zero]
  · rw [Inventory.quantity_eq hm] at hheld
    obtain ⟨inventory, hadd, hsame⟩ := Inventory.add_eq_ok (n := n) (Entry.key_of_id hm)
      (Except.ok.inj hheld) (by omega)
    refine ⟨{ party with inventory }, perform_add_ok hadd, ?_, fun hle => absurd hle hn⟩
    rw [Inventory.quantity_eq hm, hsame, if_pos ReflCmp.compare_self, Int.max_eq_left (by omega)]

/-- Taking an amount away is refused if it is not above zero or more than is held. -/
theorem remove_refused (hid : entry.Numbered)
    (hheld : party.inventory.quantity entry = .ok (.whole held)) (hn : n ≤ 0 ∨ held < n) :
    ∃ fault, (Party.remove entry (.whole n)).perform party = (.error (.value fault), party) := by
  obtain ⟨m, hm⟩ := hid
  rw [Inventory.quantity_eq hm] at hheld
  obtain ⟨fault, hremove⟩ :=
    Inventory.remove_eq_error (Entry.key_of_id hm) (Except.ok.inj hheld) hn
  exact ⟨fault, perform_remove_error hremove⟩

theorem remove_answers (hid : entry.Numbered)
    (hheld : party.inventory.quantity entry = .ok (.whole held)) (hpos : 0 < n) (hle : n ≤ held) :
    ∃ next, (Party.remove entry (.whole n)).perform party = (.ok (), next) ∧
      next.inventory.quantity entry = .ok (.whole (held - n)) := by
  obtain ⟨m, hm⟩ := hid
  rw [Inventory.quantity_eq hm] at hheld
  obtain ⟨inventory, hremove, hsame⟩ :=
    Inventory.held_of_remove (Entry.key_of_id hm) (Except.ok.inj hheld) hpos hle
  refine ⟨{ party with inventory }, perform_remove_ok hremove, ?_⟩
  rw [Inventory.quantity_eq hm, hsame, if_pos ReflCmp.compare_self]

/-- **The lines of an inventory are what the changes left.** Add whole amounts of entries with whole
numbers as ids to an empty inventory and take such amounts away, in any order, whatever of that is
refused. Then every line holds what there is of its entry, which is above zero, and it has the entry
with which it came since nothing was left under its key. The lines are listed once each, by kind and
then by id, and their number is that of the keys under which something is held. An addition is never
refused and adds nothing if the amount is not above zero. Taking away is refused, with a fault of
the value, exactly if the amount is not above zero or more than is held, and then nothing
changes. -/
theorem lines_are_what_changes_left (hempty : party.inventory = .empty)
    (hids : ∀ change ∈ changes, change.entry.Numbered) (hnext : after changes party = next) :
    (∀ line ∈ next.inventory,
      (∃ held : Int, 0 < held ∧ line.amount = .whole held) ∧
      next.inventory.quantity line.entry = .ok line.amount ∧
      line.entry.key = .ok line.key ∧ Created party changes line) ∧
    (∃ listed, next.inventory.lines = .ok listed ∧
      (∀ line, line ∈ listed ↔ line ∈ next.inventory) ∧ listed.Pairwise Line.Ascend) ∧
    (∃ keys : Finset (Kind × Int),
      (∀ kind n, (kind, n) ∈ keys ↔
        ∃ held : Int, 0 < held ∧ next.inventory.held ⟨kind, .int n⟩ = .whole held) ∧
      next.inventory.size = keys.card) ∧
    ∀ entry n, entry.Numbered → ∃ held : Int, 0 ≤ held ∧
      next.inventory.quantity entry = .ok (.whole held) ∧
      (∃ more, (Party.add entry (.whole n)).perform next = (.ok (), more) ∧
        more.inventory.quantity entry = .ok (.whole (held + max n 0)) ∧ (n ≤ 0 → more = next)) ∧
      (n ≤ 0 ∨ held < n → ∃ fault,
        (Party.remove entry (.whole n)).perform next = (.error (.value fault), next)) ∧
      (0 < n → n ≤ held → ∃ less, (Party.remove entry (.whole n)).perform next = (.ok (), less) ∧
        less.inventory.quantity entry = .ok (.whole (held - n))) := by
  obtain rfl := hnext
  have hcreated := created_after hempty hids
  have hcounts : ∀ line ∈ (after changes party).inventory, line.Counts := fun line hline =>
    (hcreated line hline).1
  obtain ⟨hlines, hascending⟩ := Inventory.ascending_of_counts hcounts
  refine ⟨fun line hline => ?_, ⟨_, hlines, fun _ => Iff.rfl, hascending⟩,
    Inventory.exists_keys_of_counts hcounts, fun entry n hid => ?_⟩
  · obtain ⟨hcount, hcame⟩ := hcreated line hline
    refine ⟨hcount.amount, ?_, hcount.key, hcame⟩
    rw [Inventory.quantity, hcount.key, ok_bind, Inventory.held_eq_of_mem hline]
    rfl
  · obtain ⟨m, hm⟩ := hid
    obtain ⟨held, hnonneg, hheld⟩ := held_eq hcounts ⟨entry.kind, .int m⟩
    have hquantity : (after changes party).inventory.quantity entry = .ok (.whole held) := by
      rw [Inventory.quantity_eq hm, hheld]
    exact ⟨held, hnonneg, hquantity, add_answers ⟨m, hm⟩ hquantity n,
      remove_refused ⟨m, hm⟩ hquantity, remove_answers ⟨m, hm⟩ hquantity⟩

def tonic : Entry := { id := .int 1, name := .text "tonic", kind := .item, price := .int 5 }

/-- Another item with the id of the tonic. -/
def elixir : Entry := { id := .int 1, name := .text "elixir", kind := .item, price := .int 8 }

/-- All of the tonic goes, the elixir comes, and more tonic is added to it. One elixir too many is
asked for in between. -/
def tonicThenElixir : List Change :=
  [.add tonic 2, .remove elixir 2, .remove elixir 1, .add elixir 3, .add tonic 1, .add tonic (-4)]

/-- In the end four elixirs are held, in the line that came with the second addition. -/
theorem elixir_stands_in_the_place_of_tonic :
    (∀ change ∈ tonicThenElixir, change.entry.Numbered) ∧
      Created {} tonicThenElixir ⟨⟨.item, .int 1⟩, elixir, .whole 4⟩ ∧
      ((after tonicThenElixir {}).inventory.quantity tonic = .ok (.whole 4)) ∧
      ∃ fault, (Party.remove tonic (.whole 5)).perform (after tonicThenElixir {}) =
        (.error (.value fault), after tonicThenElixir {}) := by
  have hids : ∀ change ∈ tonicThenElixir, change.entry.Numbered := by
    simp only [tonicThenElixir, List.forall_mem_cons, List.not_mem_nil, false_implies,
      implies_true, and_true]
    exact ⟨⟨1, rfl⟩, ⟨1, rfl⟩, ⟨1, rfl⟩, ⟨1, rfl⟩, ⟨1, rfl⟩, ⟨1, rfl⟩⟩
  have hempty : ({} : Party).inventory = .empty := rfl
  have hnext : after tonicThenElixir {} = after tonicThenElixir {} := rfl
  obtain ⟨hlines, -, -, hanswers⟩ := lines_are_what_changes_left hempty hids hnext
  have hheld : (after tonicThenElixir {}).inventory.quantity tonic = .ok (.whole 4) := by
    decide +kernel
  refine ⟨hids, (hlines _ ?_).2.2.2, hheld, ?_⟩
  · rw [OrderedList.mem_def]
    decide +kernel
  · obtain ⟨held, -, hquantity, -, hrefused, -⟩ := hanswers tonic 5 ⟨1, rfl⟩
    cases hheld.symm.trans hquantity
    exact hrefused (.inr (by decide))

end Party
end SellRules
