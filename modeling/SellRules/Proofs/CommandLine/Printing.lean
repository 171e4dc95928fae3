import SellRules.Proofs.CommandLine.Arguments
import SellRules.Proofs.CommandLine.Reporting
import SellRules.Proofs.Restriction.Readback

/-!
# What is printed parses back

The text that the command prints for a declaration is itself a structured declaration
(`readStructured_printed`): it gives the restriction set that was printed, so it is printed again as
it is (`run_printed`). The main statement puts that together for a whole command line
(`printed_parses_back`).
-/

set_option autoImplicit false

namespace SellRules

/-! ## Restriction sets that read back -/

/-- A restriction set whose printed text declares it: ids are whole numbers that can be shown, tags
are texts without decoration. -/
structure RestrictionSet.ReadsBack (r : RestrictionSet) : Prop where
  typed : r.Typed
  bare : r.Bare
  writable : r.Writable

theorem RestrictionSet.readsBack_empty : RestrictionSet.empty.ReadsBack where
  typed := typed_empty
  bare _ hs := nomatch hs
  writable rule _ ha := by
    rw [empty, get_ofSets] at ha
    cases ha

theorem Token.readsBack_parse {tokens : List String} {r : RestrictionSet}
    (h : parse tokens = .ok r) : r.ReadsBack :=
  ⟨typed_parse h, bare_parse h, writable_parse h⟩

namespace CommandLine

theorem readsBack_readStructured {text : String} {r : RestrictionSet}
    (h : readStructured text = .ok r) : r.ReadsBack := by
  unfold readStructured at h
  split at h
  · rename_i fields hread
    exact ⟨Structured.typed_parse h, Structured.bare_parse h,
      Structured.writable_parse (Json.isModest_of_read hread) h⟩
  all_goals cases h

/-- What a command line declares reads back. -/
theorem Declaration.readsBack_of_read {declaration : Declaration} {log : List Log.Line}
    {r : Option RestrictionSet} (h : declaration.read = .ok (log, r)) :
    (r.getD .empty).ReadsBack := by
  cases declaration with
  | absent =>
    cases h
    exact RestrictionSet.readsBack_empty
  | tokens words =>
    obtain ⟨s, hs, rfl⟩ := reported_eq_ok h
    exact Token.readsBack_parse hs
  | structured text =>
    obtain ⟨s, hs, rfl⟩ := reported_eq_ok h
    exact readsBack_readStructured hs

/-! ## The printed text -/

/-- The text that is printed for a restriction set, without the line feed at its end. -/
def printed (r : RestrictionSet) : String :=
  Json.write (.block 2) (.object (r.listing Rule.byName))

variable {r : RestrictionSet} {space : String}

/-- The printed text declares the restriction set, also with blanks after it. -/
theorem readStructured_printed (h : r.ReadsBack)
    (hspace : ∀ c ∈ space.toList, Json.isSpace c = true) :
    readStructured (printed r ++ space) = .ok r := by
  have hall : ∀ rule, rule ∈ Rule.byName := fun rule =>
    Rule.byName_perm.mem_iff.2 (Rule.mem_all rule)
  have hread := Json.read_write_append (.block 2) h.writable.isJson_listing space hspace
  simp only [readStructured, printed, hread, Structured.parse_listing h.typed h.bare hall]

theorem isOperand_printed (r : RestrictionSet) (space : String) :
    IsOperand (printed r ++ space) := by
  have hbegins : (printed r ++ space).toList.head? = some '\x7b' := by
    rw [String.toList_append, printed, Json.write, String.toList_ofList]
    rfl
  rw [IsOperand, hbegins]
  decide

/-- Parsed as a structured declaration, the printed text is printed again. -/
theorem run_printed (files : String → FileState) (h : r.ReadsBack)
    (hspace : ∀ c ∈ space.toList, Json.isSpace c = true) :
    run files ["parse", "--structured", printed r ++ space] =
      .ok { output := printed r ++ "\n" } := by
  have hread := readStructured_printed h hspace
  obtain ⟨fields, hreported⟩ := reported_of_typed h.typed "structured"
  rw [run, ofArguments_structured (isOperand_printed r space)]
  show (parseFindings _).outcome 0 = _
  simp only [parseFindings, Declaration.read, hread, hreported,
    parseDocument_eq (r := some r) h.typed, Findings.outcome]
  rfl

/-- What was printed at the end of a run with status zero. -/
theorem output_of_run {files : String → FileState} {arguments : List String} {verbosity : Nat}
    {declaration : Declaration} {outcome : Outcome}
    (hrequest : Request.ofArguments arguments = .ok (.run verbosity (.parse declaration)))
    (hrun : run files arguments = .ok outcome) (hstatus : outcome.status = 0) :
    ∃ log r, declaration.read = .ok (log, r) ∧
      outcome.output = printed (r.getD .empty) ++ "\n" := by
  have hfindings : (parseFindings declaration).outcome verbosity = .ok outcome := by
    rw [← hrun, run, hrequest]
    rfl
  unfold parseFindings at hfindings
  split at hfindings
  · rename_i log r hread
    rw [parseDocument_eq (Declaration.typed_of_read hread)] at hfindings
    cases hfindings
    exact ⟨log, r, hread, rfl⟩
  · -- a failure is reported with status two
    unfold Findings.outcome at hfindings
    dsimp only at hfindings
    split at hfindings <;> cases hfindings
    cases hstatus

/-- **What is printed parses back.** Take a command line that asks to print a restriction set, and on
which the run ends with status zero. The printed text, with the line feed at its end or without it,
is a structured declaration of the restriction set that was declared, and the run that parses it ends
with status zero and prints the same text again. Every restriction set that a parser gives is
declared by the fields that list it. -/
theorem printed_parses_back {files : String → FileState} {arguments : List String}
    {verbosity : Nat} {declaration : Declaration} {outcome : Outcome}
    (hrequest : Request.ofArguments arguments = .ok (.run verbosity (.parse declaration)))
    (hrun : run files arguments = .ok outcome) (hstatus : outcome.status = 0) :
    (∃ log r text, declaration.read = .ok (log, r) ∧ outcome.output = text ++ "\n" ∧
      ∀ shown ∈ [text, outcome.output],
        readStructured shown = .ok (r.getD .empty) ∧
        run files ["parse", "--structured", shown] = .ok { output := outcome.output }) ∧
    ∀ r : RestrictionSet, r.Parsed → ∃ fields, r.toFields = .ok fields ∧
      Structured.parse (.object fields) = .ok r := by
  refine ⟨?_, fun r hr => ⟨_, hr.typed.toFields_eq,
    Structured.parse_listing hr.typed hr.bare Rule.mem_all⟩⟩
  obtain ⟨log, r, hread, houtput⟩ := output_of_run hrequest hrun hstatus
  have hback := Declaration.readsBack_of_read hread
  refine ⟨log, r, printed (r.getD .empty), hread, houtput, fun shown hshown => ?_⟩
  obtain ⟨space, rfl, hspace⟩ : ∃ space : String, shown = printed (r.getD .empty) ++ space ∧
      ∀ c ∈ space.toList, Json.isSpace c = true := by
    rcases List.mem_cons.1 hshown with rfl | hshown
    · exact ⟨"", String.append_empty.symm, by simp⟩
    · exact ⟨"\n", (List.mem_singleton.1 hshown).trans houtput, by simp [Json.isSpace]⟩
  rw [houtput]
  exact ⟨readStructured_printed hback hspace, run_printed files hback hspace⟩

/-- What is printed for two items and a tag. -/
def fireText : String :=
  "\x7b\n  \"armor_ids\": [],\n  \"armor_type_ids\": [],\n  \"equipment_type_ids\": [],\n" ++
  "  \"item_ids\": [\n    2,\n    10\n  ],\n  \"item_type_ids\": [],\n" ++
  "  \"tags\": [\n    \"firesword\"\n  ],\n  \"weapon_ids\": [],\n  \"weapon_type_ids\": []\n\x7d"

/-- The items come in order and the tag without decoration, and both stay so. -/
theorem fire_text_parses_back :
    run (fun _ => .missing) ["parse", "i10", "<fire sword>", "i2"] =
      .ok { output := fireText ++ "\n" } ∧
    (∃ log r, (Declaration.tokens ["i10", "<fire sword>", "i2"]).read = .ok (log, r) ∧
      readStructured fireText = .ok (r.getD .empty)) ∧
    run (fun _ => .missing) ["parse", "--structured", fireText] =
      .ok { output := fireText ++ "\n" } := by
  have hrequest : Request.ofArguments ["parse", "i10", "<fire sword>", "i2"] =
      .ok (.run 0 (.parse (.tokens ["i10", "<fire sword>", "i2"]))) := by decide +kernel
  have hrun : run (fun _ => .missing) ["parse", "i10", "<fire sword>", "i2"] =
      .ok { output := fireText ++ "\n" } := by decide +kernel
  obtain ⟨⟨log, r, text, hread, houtput, hback⟩, -⟩ := printed_parses_back hrequest hrun rfl
  obtain rfl : fireText = text := (String.append_left_inj "\n").1 houtput
  obtain ⟨hstructured, hagain⟩ := hback fireText (by simp)
  exact ⟨hrun, ⟨log, r, hread, hstructured⟩, hagain⟩

end CommandLine
end SellRules
