import SellRules.Proofs.Item.Loading
import SellRules.Proofs.Party.Holdings
import SellRules.Shop.SellList

/-!
# A party that holds a database

What a sell list shows of a party that holds every entry of a loaded database and nothing else
(`Inventory.IsStock`): the entries that the shop buys (`SellList.items_of_isStock`), for each kind in
the order in which the database has them (`Inventory.IsStock.entries_eq`).
-/

set_option autoImplicit false

namespace SellRules

open Database (IsLoaded wanted)

/-- The row of a database that a line holds some of. -/
def Line.row (line : Line) : Row := ⟨line.key, line.entry⟩

/-- An inventory holds some of every entry of a database, however much, and nothing else. -/
def Inventory.IsStock (inventory : Inventory) (db : Database) : Prop :=
  ∀ row, row ∈ db ↔ ∃ line ∈ inventory, line.row = row

variable {inventory : Inventory} {db : Database} {document : Fields} {read : List Entry}

namespace Inventory

/-- The lines of a stock are the rows of the database, in order. -/
theorem IsStock.map_row_eq (h : inventory.IsStock db) :
    inventory.toList.map Line.row = db.toList := by
  have hascending : (inventory.toList.map Line.row).Pairwise fun a b => Row.order a b = .lt :=
    List.pairwise_map.2 inventory.ascending
  refine OrderedList.eq_of_pairwise_of_mem_iff hascending db.ascending fun row => ?_
  rw [List.mem_map]
  exact (h row).symm

theorem IsStock.isLoaded (h : inventory.IsStock db)
    (hload : Database.load (.object document) = (read, .ok db)) :
    ∀ line ∈ inventory, IsLoaded line.row := fun line hline =>
  Database.isLoaded_of_load hload line.row ((h line.row).2 ⟨line, hline, rfl⟩)

/-- A stock can be listed, since the ids of a loaded database are numbers. -/
theorem IsStock.lines_eq (h : inventory.IsStock db)
    (hload : Database.load (.object document) = (read, .ok db)) :
    inventory.lines = .ok inventory.toList :=
  lines_eq_of_ids fun line hline => by
    obtain ⟨n, -, hkey⟩ := (h.isLoaded hload line hline).exists_id
    exact ⟨n, congrArg Key.id hkey⟩

/-- Of the lines whose entries a shop buys, those of a kind hold what it buys of that kind of the
database. -/
theorem IsStock.entries_eq (h : inventory.IsStock db)
    (hload : Database.load (.object document) = (read, .ok db)) (r : Option RestrictionSet)
    (kind : Kind) :
    ((inventory.toList.filter fun line => wanted r line.entry).filter
      fun line => line.entry.kind = kind).map (·.entry) =
        ((db.rowsOf kind).map (·.entry)).filter (wanted r) := by
  have hkind : ∀ line ∈ inventory.toList,
      decide (line.entry.kind = kind) = decide (line.row.key.kind = kind) := fun line hline => by
    rw [Database.kind_eq_of_key (h.isLoaded hload line hline).key_eq]
    rfl
  -- the rows are read off the lines, and then both sides filter the lines twice
  rw [List.filter_comm, List.filter_congr hkind, Database.rowsOf, ← h.map_row_eq, List.filter_map,
    List.filter_map, List.filter_map, List.map_map]
  rfl

end Inventory

/-- A sell list without a category shows the lines of a stock whose entries the shop buys. -/
theorem SellList.items_of_isStock (h : inventory.IsStock db)
    (hload : Database.load (.object document) = (read, .ok db)) {list : SellList}
    (hcategory : list.category = none) :
    list.items inventory =
      .ok (inventory.toList.filter fun line => wanted list.restrictions line.entry) := by
  rw [items, h.lines_eq hload, ok_bind]
  refine filterM_eq_ok_filter fun line hline => ?_
  have hincludes : list.includes line.entry = list.buys line.entry := by
    simp only [includes, inCategory, hcategory, Option.all_none, ↓reduceIte]
  rw [hincludes]
  exact Database.buys_eq_wanted (h.isLoaded hload line hline).describes

end SellRules
