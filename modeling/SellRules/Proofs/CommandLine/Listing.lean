import SellRules.Proofs.CommandLine.Arguments
import SellRules.Proofs.CommandLine.Reporting
import SellRules.Proofs.Event.Opening
import SellRules.Proofs.Shop.Stock

/-!
# What is listed and what a shop shows

The command that checks a database under tokens and the sell list of a shop that was opened under the
same tokens have nothing in common but the tokens and the database. The main statement shows that
they agree (`check_lists_what_shop_shows`): for each kind both list the entries of the records that
the tokens allow, each once, by ascending id.
-/

set_option autoImplicit false

namespace SellRules

open Database (IdsAscend entriesOf wanted)

/-! ## Listings -/

/-- A list holds the entries of the records of a kind that a shop under the given restrictions buys,
each once, by ascending id. -/
structure IsListing (document : Fields) (r : Option RestrictionSet) (kind : Kind)
    (listing : List Entry) : Prop where
  perm : ∃ entries, entriesOf document kind = .ok entries ∧ listing.Perm (entries.filter (wanted r))
  ascending : listing.Pairwise IdsAscend

theorem isListing_of_load {document : Fields} {read : List Entry} {db : Database}
    (h : Database.load (.object document) = (read, .ok db)) (r : Option RestrictionSet)
    (kind : Kind) :
    IsListing document r kind (((db.rowsOf kind).map (·.entry)).filter (wanted r)) := by
  obtain ⟨entries, hentries, hperm⟩ := Database.perm_of_load h kind
  exact ⟨⟨entries, hentries, hperm.filter _⟩, (Database.ascending_of_load h kind).filter _⟩

/-- Without restrictions the entries of all records are listed. -/
theorem IsListing.perm_entries {document : Fields} {kind : Kind} {listing : List Entry}
    (h : IsListing document none kind listing) :
    ∃ entries, entriesOf document kind = .ok entries ∧ listing.Perm entries := by
  obtain ⟨entries, hentries, hperm⟩ := h.perm
  have hall : ∀ e ∈ entries, wanted none e = true := fun _ _ => decide_eq_true rfl
  rw [List.filter_eq_self.2 hall] at hperm
  exact ⟨entries, hentries, hperm⟩

/-- The newest scene of a game is an open shop, and its sell list shows the given entries of each
kind in order. -/
def Game.Shows (game : Game) (listing : Kind → List Entry) : Prop :=
  ∃ number shop list lines, game.stage.current? = some number ∧
    game.stage.shop? number = some shop ∧ shop.sellList = some list ∧
    list.items game.party.inventory = .ok lines ∧
    ∀ kind, (lines.filter fun line => line.entry.kind = kind).map (·.entry) = listing kind

/-- A shop that was just opened shows a party that holds a database what it buys of it. -/
theorem shows_opened {document : Fields} {read : List Entry} {db : Database} {game : Game}
    {shop : Shop} {stage : Stage} (hload : Database.load (.object document) = (read, .ok db))
    (hstock : game.party.inventory.IsStock db) (hstage : game.stage = stage.opened shop) :
    game.Shows fun kind => ((db.rowsOf kind).map (·.entry)).filter (wanted shop.restrictions) := by
  refine ⟨stage.scenes.length, shop.entered, _, _, ?_, ?_, rfl,
    SellList.items_of_isStock hstock hload rfl, hstock.entries_eq hload shop.restrictions⟩
  · rw [hstage]
    rfl
  · rw [hstage, Stage.shop?_eq, Stage.opened, List.getElem?_concat_length]
    rfl

/-- An event that declares tokens by a text, if there are any, and opens a shop. -/
inductive Command.OpensUnder (tokens : List String) : List Command → Prop
  | mk {text : String} {shop : Command} {lines : List Command} {goods : List Good}
      (htext : tokens ≠ [] →
        Text.Spaced (("BUY_ONLY" :: tokens).map String.toList) text.toList)
      (hcode : shop.code = shopCode) (hlines : ∀ line ∈ lines, line.code = goodsCode)
      (hgoods : shop.goods lines = .ok goods) :
      OpensUnder tokens (declaring tokens text ++ shop :: lines)

namespace CommandLine

/-! ## The command -/

/-- A token that is one on a command line and in a text command, and that can be read. -/
structure IsToken (token : String) : Prop where
  word : Text.IsWord token.toList
  operand : IsOperand token
  short : ¬Token.IsOverlong token

theorem exists_declared {tokens : List String} (h : ∀ token ∈ tokens, IsToken token) :
    ∃ r, Token.declared tokens = .ok r := by
  cases tokens with
  | nil => exact ⟨none, rfl⟩
  | cons token tokens =>
    obtain ⟨r, hr⟩ := Token.exists_parse_iff_not_isOverlong.2 fun token htoken =>
      (h token htoken).short
    refine ⟨some r, ?_⟩
    rw [Token.declared, hr]
    rfl

/-- A line of the log that is dropped unless more reports are asked for. -/
def IsQuiet (line : Log.Line) : Prop := line.level = .debug ∨ line.level = .info

theorem above_of_isQuiet {log : List Log.Line} (h : ∀ line ∈ log, IsQuiet line) :
    Log.above (threshold 0) log = [] := by
  refine List.filter_eq_nil_iff.2 fun line hline => ?_
  rcases h line hline with hlevel | hlevel <;> rw [hlevel] <;> decide

/-- Tokens on the command line mean what they declare. -/
theorem read_ofTokens {tokens : List String} {r : Option RestrictionSet}
    (h : Token.declared tokens = .ok r) :
    ∃ log, (Declaration.ofTokens tokens).read = .ok (log, r) ∧ ∀ line ∈ log, IsQuiet line := by
  cases tokens with
  | nil =>
    cases h
    exact ⟨[], rfl, by simp⟩
  | cons token tokens =>
    obtain ⟨s, hs, rfl⟩ := map_eq_ok.1 h
    obtain ⟨fields, hfields⟩ := reported_of_typed (Token.typed_parse hs) "token"
    refine ⟨[restrictionsLine "token" fields], ?_, by simp [restrictionsLine, IsQuiet]⟩
    rw [← hfields, ← hs]
    rfl

/-- The document that lists entries for each kind. -/
def listingDocument (listing : Kind → List Entry) : Value :=
  .object (Kind.all.map fun kind => (kind.name, .list ((listing kind).map entryDocument)))

/-- Data and a declaration that are read without a fault give a document; all that is reported
besides is how far the command has come. -/
theorem checkFindings_eq {path : String} {file : FileState} {document : Fields} {db : Database}
    {read : List Entry} {declaration : Declaration} {log : List Log.Line}
    {r : Option RestrictionSet}
    (hdocument : Database.readDocument path file = .ok (.object document))
    (hload : Database.load (.object document) = (read, .ok db))
    (hread : declaration.read = .ok (log, r)) (hlog : ∀ line ∈ log, IsQuiet line) :
    ∃ lines, (∀ line ∈ lines, IsQuiet line) ∧ checkFindings declaration path file =
      (lines, .ok (listingDocument fun kind =>
        ((db.rowsOf kind).map (·.entry)).filter (wanted r))) := by
  have hdata : readData path file = (read.map entryLine ++
      [⟨.info, databaseSource, s!"Loaded item database: {db.size} entries"⟩], .ok db) := by
    rw [readData, Database.loadFile, hdocument]
    simp only [hload]
  refine ⟨read.map entryLine ++
    [⟨.info, databaseSource, s!"Loaded item database: {db.size} entries"⟩] ++ log ++
      (if r.isNone then [unrestrictedLine] else []), ?_, ?_⟩
  · intro line hline
    simp only [List.mem_append, List.mem_map, List.mem_singleton] at hline
    rcases hline with ((⟨entry, -, rfl⟩ | rfl) | hline) | hline
    · exact .inl rfl
    · exact .inr rfl
    · exact hlog line hline
    · split at hline
      · rw [List.mem_singleton.1 hline]
        exact .inr rfl
      · cases hline
  · rw [checkFindings, hdata, hread]
    simp only [checkDocument, Database.bought_of_load hload r, ok_bind, List.map_map]
    rfl

end CommandLine

open CommandLine (IsOperand IsToken listingDocument)

/-- **The command and the shop agree.** Take a data file that gives a database, and tokens. The
command ends with status zero, and for each kind it lists the entries that the tokens allow. An event
with the standard settings that declares the same tokens and opens a shop for a party that holds the
database runs to its end, and the sell list of the shop shows the same entries in the same order.
Without tokens the entries of all records are listed and shown. -/
theorem check_lists_what_shop_shows {files : String → FileState} {data : String}
    {tokens : List String} {db : Database} (hdata : IsOperand data)
    (htokens : ∀ token ∈ tokens, IsToken token)
    (hload : (Database.loadFile (Path.normalize data) (files (Path.normalize data))).2 = .ok db) :
    ∃ (document : Fields) (r : Option RestrictionSet) (listing : Kind → List Entry),
      Database.readDocument (Path.normalize data) (files (Path.normalize data)) =
        .ok (.object document) ∧
      Token.declared tokens = .ok r ∧
      (∀ kind, IsListing document r kind (listing kind)) ∧
      (tokens = [] → ∀ kind, ∃ entries, entriesOf document kind = .ok entries ∧
        (listing kind).Perm entries) ∧
      CommandLine.run files ("check" :: "--data" :: data :: tokens) =
        .ok { output := Json.write (.block 2) (listingDocument listing) ++ "\n" } ∧
      ∀ (p : Play) (commands : List Command) (eventId : Value), p.interpreter.settings = {} →
        p.game.party.inBattle.truthy = false → p.game.party.inventory.IsStock db →
        Command.OpensUnder tokens commands →
        ∃ q, (Play.runEvent commands eventId).perform p = (.ok (), q) ∧ q.game.Shows listing := by
  obtain ⟨document, read, hdocument, hdb⟩ := CommandLine.exists_load_of_loadFile hload
  obtain ⟨r, hr⟩ := CommandLine.exists_declared htokens
  have hlisting := isListing_of_load hdb r
  refine ⟨document, r, _, hdocument, hr, hlisting, ?_, ?_, ?_⟩
  · rintro rfl kind
    cases hr
    exact (hlisting kind).perm_entries
  -- the command: its log is quiet, so nothing but the document is left of it
  · obtain ⟨log, hread, hlog⟩ := CommandLine.read_ofTokens hr
    obtain ⟨lines, hquiet, hfindings⟩ := CommandLine.checkFindings_eq hdocument hdb hread hlog
    rw [CommandLine.run,
      CommandLine.ofArguments_check hdata fun token htoken => (htokens token htoken).operand]
    show CommandLine.Findings.outcome 0 (CommandLine.checkFindings _ _ _) = _
    rw [hfindings, CommandLine.Findings.outcome]
    simp only [CommandLine.above_of_isQuiet hquiet]
  -- the shop: it is opened under the restrictions that the command has read
  · rintro p commands eventId hsettings hpeace hstock ⟨htext, hcode, hlines, hgoods⟩
    obtain ⟨q, hrun, hparty, hstage⟩ := Play.exists_perform_event hsettings hpeace
      (fun token htoken => (htokens token htoken).word) hr htext hcode hlines hgoods eventId
    exact ⟨q, hrun, shows_opened hdb (hparty ▸ hstock) hstage⟩

/-! ## An example -/

/-- A file with the JSON text of an object gives the database of that object. -/
theorem Database.loadFile_write {layout : Json.Layout} {document : Fields}
    (hjson : (Value.object document).isJson = true)
    (hlines : '\r' ∉ (Json.write layout (.object document)).toList) (path : String) :
    loadFile path (.bytes (Json.write layout (.object document)).toUTF8) =
      load (.object document) := by
  have hread := Json.read_write layout hjson
  simp only [loadFile, readDocument, FileState.text, FileState.decode_toUTF8 hlines, ok_bind, hread]
  rfl

/-- Two items, the second one first, and a weapon. -/
def herbDocument : Fields := [
  ("items", .list [.null,
    .object [("id", .int 2), ("name", .text "Potion"), ("itypeId", .int 1)],
    .object [("id", .int 1), ("name", .text "Herb"), ("itypeId", .int 1),
      ("note", .text "<green>")]]),
  ("weapons", .list [
    .object [("id", .int 1), ("name", .text "Sword"), ("wtypeId", .int 2)]])]

/-- The file with the JSON text of the document. -/
def herbFile : FileState := .bytes (Json.write .line (.object herbDocument)).toUTF8

def herb : Entry where
  id := .int 1
  name := .text "Herb"
  kind := .item
  itemTypeId := .int 1
  markers := .object [("green", .bool true)]

def potion : Entry := { id := .int 2, name := .text "Potion", kind := .item, itemTypeId := .int 1 }

def sword : Entry := { id := .int 1, name := .text "Sword", kind := .weapon, weaponTypeId := .int 2 }

/-- The database in the document. -/
def herbs : Database :=
  ⟨[⟨⟨.item, .int 1⟩, herb⟩, ⟨⟨.item, .int 2⟩, potion⟩, ⟨⟨.weapon, .int 1⟩, sword⟩],
    by decide +kernel⟩

theorem load_herbFile : (Database.loadFile "db.json" herbFile).2 = .ok herbs := by
  have hjson : (Value.object herbDocument).isJson = true := by decide +kernel
  have hlines : '\r' ∉ (Json.write .line (.object herbDocument)).toList := by
    rw [Json.write, String.toList_ofList]
    decide +kernel
  have hload : (Database.load (.object herbDocument)).2 = .ok herbs := by decide +kernel
  rw [herbFile, Database.loadFile_write hjson hlines]
  exact hload

/-- One herb, five potions and two swords. -/
def herbStock : Inventory :=
  ⟨[⟨⟨.item, .int 1⟩, herb, .whole 1⟩, ⟨⟨.item, .int 2⟩, potion, .whole 5⟩,
    ⟨⟨.weapon, .int 1⟩, sword, .whole 2⟩], by decide +kernel⟩

theorem isStock_herbStock : herbStock.IsStock herbs := by
  intro row
  have hrows : herbStock.toList.map Line.row = herbs.toList := rfl
  rw [OrderedList.mem_def, ← hrows, List.mem_map]
  exact Iff.rfl

/-- A shop with one good. -/
def herbShop : Command where
  code := Command.shopCode
  parameters := [.int 0, .int 1, .int 0, .int 0]

theorem opensUnder_herbShop :
    Command.OpensUnder ["i2", "green"]
      (Command.declaring ["i2", "green"] "BUY_ONLY i2  green" ++ [herbShop]) := by
  have hspace : Text.isBlank ' ' = true := by decide
  have htext : Text.Spaced (["BUY_ONLY", "i2", "green"].map String.toList)
      "BUY_ONLY i2  green".toList :=
    .word [] " i2  green".toList (by simp) (by simp [hspace])
      (.word [' '] "  green".toList (by simp [hspace]) (by simp [hspace])
        (.word [' ', ' '] [] (by simp [hspace]) (by simp) (.blanks (by simp))))
  have hgoods : herbShop.goods [] = .ok [⟨.item, 1, none⟩] := by decide +kernel
  exact .mk (fun _ => htext) rfl (by simp) hgoods

/-- Item 2 and what is green are listed by the command and shown by the shop. -/
theorem herbs_are_listed_and_shown :
    IsOperand "db.json" ∧ (∀ token ∈ ["i2", "green"], IsToken token) ∧
    (Database.loadFile "db.json" herbFile).2 = .ok herbs ∧
    ∃ listing,
      CommandLine.run (fun _ => herbFile) ["check", "--data", "db.json", "i2", "green"] =
        .ok { output := Json.write (.block 2) (listingDocument listing) ++ "\n" } ∧
      ∃ q, (Play.runEvent (Command.declaring ["i2", "green"] "BUY_ONLY i2  green" ++ [herbShop])
          (.int 1)).perform ⟨{}, { party := { inventory := herbStock } }⟩ = (.ok (), q) ∧
        q.game.Shows listing := by
  have hdata : IsOperand "db.json" := by decide
  have htokens : ∀ token ∈ ["i2", "green"], IsToken token := by
    simp only [List.forall_mem_cons]
    refine ⟨⟨by simp [Text.IsWord, Text.isBlank], by decide, ?_⟩,
      ⟨by simp [Text.IsWord, Text.isBlank], by decide, ?_⟩, by simp⟩ <;>
    exact Token.not_isOverlong_of_length_le (by decide)
  have hpath : Path.normalize "db.json" = "db.json" := by decide +kernel
  obtain ⟨document, r, listing, -, -, -, -, hrun, hshows⟩ :=
    @check_lists_what_shop_shows (fun _ => herbFile) "db.json" ["i2", "green"] herbs hdata htokens
      (hpath.symm ▸ load_herbFile)
  exact ⟨hdata, htokens, load_herbFile, listing, hrun,
    hshows _ _ (.int 1) rfl rfl isStock_herbStock opensUnder_herbShop⟩

end SellRules
