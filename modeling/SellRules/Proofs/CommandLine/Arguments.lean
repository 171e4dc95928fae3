import SellRules.CommandLine.Request
import SellRules.Proofs.Outcome

/-!
# Operands

Arguments that do not begin with a dash are operands wherever they stand (`classify_operands`). A
command line that names a data file and goes on with operands alone asks to check the data under
these operands as tokens (`ofArguments_check`), and one that gives an operand in structured form asks
to print the restriction set that it declares (`ofArguments_structured`).
-/

set_option autoImplicit false

namespace SellRules.CommandLine

/-- An argument that does not begin with a dash. -/
def IsOperand (argument : String) : Prop := argument.toList.head? ≠ some '-'

instance : DecidablePred IsOperand := fun argument =>
  inferInstanceAs (Decidable (argument.toList.head? ≠ some '-'))

theorem IsOperand.ne_dashes {argument : String} (h : IsOperand argument) : argument ≠ "--" := by
  rintro rfl
  exact h rfl

/-! ## Classes of arguments -/

section

variable {α : Type} {table : FlagTable α} {arguments : List String}

theorem classify_cons {argument : String} {role : Role α} {words : List (Word α)}
    (hdashes : argument ≠ "--") (hrole : table.roleOf argument = .ok role)
    (hwords : table.classify arguments = .ok words) :
    table.classify (argument :: arguments) = .ok (⟨argument, role⟩ :: words) := by
  rw [FlagTable.classify, if_neg hdashes, hrole, ok_bind, hwords]
  rfl

theorem roleOf_operand {argument : String} (h : IsOperand argument) :
    table.roleOf argument = .ok .operand := by
  simp only [FlagTable.roleOf, bne_iff_ne.2 h, ↓reduceIte]

theorem classify_operands (h : ∀ argument ∈ arguments, IsOperand argument) :
    table.classify arguments = .ok (arguments.map (⟨·, .operand⟩)) := by
  induction arguments with
  | nil => rfl
  | cons argument arguments ih =>
    obtain ⟨hfirst, hrest⟩ := List.forall_mem_cons.1 h
    exact classify_cons hfirst.ne_dashes (roleOf_operand hfirst) (ih hrest)

end

/-! ## After the command -/

theorem inNameOf_ok {β : Type} (command : Option Command) (x : β) :
    inNameOf command (.ok x) = .ok x := rfl

/-- A command, and after it a flag that only the command knows and operands. -/
theorem ofArguments_command (command : Command) (hcommand : IsOperand command.name) {flag : String}
    (hdashes : flag ≠ "--") (hflag : mainFlags.roleOf flag = .ok .unknown) {operands : List String}
    (h : ∀ operand ∈ operands, IsOperand operand) {words : TaskWords}
    (htask : readTask command (flag :: operands) = .ok (some words)) :
    Request.ofArguments (command.name :: flag :: operands) =
      inNameOf none (finish 0 [] command words) := by
  have hclassify := classify_cons hcommand.ne_dashes (roleOf_operand hcommand)
    (classify_cons hdashes hflag (classify_operands h))
  have hfind : Command.all.find? (·.name == command.name) = some command := by
    cases command <;> decide
  have htexts : (operands.map fun text => (⟨text, .operand⟩ : Word MainFlag)).map (·.text) =
      operands := by
    rw [List.map_map]
    exact List.map_id _
  rw [Request.ofArguments, hclassify]
  show readCommand 0 [] command.name (flag :: _) = _
  rw [htexts, readCommand, hfind]
  simp only [htask, inNameOf_ok, ok_bind]

/-- Operands in one run are all taken in. -/
theorem TaskWords.read_operands {table : FlagTable TaskFlag} {words : TaskWords}
    (hopen : words.closed = false) (operands : List String) :
    words.read table (operands.map (⟨·, .operand⟩)) =
      .ok { words with operands := words.operands ++ operands } := by
  induction operands generalizing words with
  | nil => simp [read]
  | cons operand operands ih =>
    have hadd : words.addOperand operand =
        { words with operands := words.operands ++ [operand] } := by
      simp [TaskWords.addOperand, hopen]
    have hopenNext : (words.addOperand operand).closed = false := by rw [hadd]; exact hopen
    rw [List.map_cons, read, ih hopenNext, hadd]
    simp only [List.append_assoc, List.singleton_append]

/-- What is declared by tokens, of which there may be none. -/
def Declaration.ofTokens : List String → Declaration
  | [] => .absent
  | words => .tokens words

variable {data : String} {tokens : List String}

theorem readTask_check (hdata : IsOperand data) (htokens : ∀ token ∈ tokens, IsOperand token) :
    readTask .check ("--data" :: data :: tokens) =
      .ok (some { operands := tokens, data := some data }) := by
  have hoperands : ∀ argument ∈ data :: tokens, IsOperand argument :=
    List.forall_mem_cons.2 ⟨hdata, htokens⟩
  have hrole : Command.check.flags.roleOf "--data" = .ok (.flag .data false none) := by rfl
  have hclassify := classify_cons (by decide) hrole (classify_operands hoperands)
  have hread : TaskWords.read Command.check.flags {}
      (⟨"--data", .flag .data false none⟩ :: (data :: tokens).map (⟨·, .operand⟩)) =
        .ok { operands := tokens, data := some data } := by
    have hexpand : Command.check.flags.expand .data false none = .ok { wanting := some .data } :=
      rfl
    rw [List.map_cons, TaskWords.read, hexpand]
    exact TaskWords.read_operands rfl tokens
  simp only [readTask, hclassify, ok_bind, hread]
  rfl

theorem finish_check (htokens : ∀ token ∈ tokens, IsOperand token) :
    finish 0 [] .check { operands := tokens, data := some data } =
      .ok (.run 0 (.check data (.ofTokens tokens))) := by
  have hnone : "--" ∉ tokens := fun hmem => (htokens _ hmem).ne_dashes rfl
  have herase : TaskWords.tokens { operands := tokens, data := some data } = tokens :=
    List.erase_of_not_mem hnone
  simp only [finish, herase]
  cases tokens <;> rfl

/-- A data file and operands after it. -/
theorem ofArguments_check (hdata : IsOperand data) (htokens : ∀ token ∈ tokens, IsOperand token) :
    Request.ofArguments ("check" :: "--data" :: data :: tokens) =
      .ok (.run 0 (.check data (.ofTokens tokens))) := by
  have hoperands : ∀ argument ∈ data :: tokens, IsOperand argument :=
    List.forall_mem_cons.2 ⟨hdata, htokens⟩
  have hrequest := ofArguments_command .check (by decide) (by decide) (by rfl)
    hoperands (readTask_check hdata htokens)
  rw [finish_check htokens, inNameOf_ok] at hrequest
  exact hrequest

theorem readTask_structured {text : String} (htext : IsOperand text) :
    readTask .parse ["--structured", text] = .ok (some { structured := some text }) := by
  have hrole : Command.parse.flags.roleOf "--structured" = .ok (.flag .structured false none) := by
    rfl
  have hclassify := classify_cons (by decide) hrole
    (classify_operands (List.forall_mem_singleton.2 htext))
  simp only [readTask, hclassify, ok_bind]
  rfl

/-- A structured declaration to be printed. -/
theorem ofArguments_structured {text : String} (htext : IsOperand text) :
    Request.ofArguments ["parse", "--structured", text] =
      .ok (.run 0 (.parse (.structured text))) := by
  have hrequest := ofArguments_command .parse (by decide) (by decide) (by rfl)
    (List.forall_mem_singleton.2 htext) (readTask_structured htext)
  exact hrequest

end SellRules.CommandLine
