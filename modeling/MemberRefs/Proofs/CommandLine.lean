import Mathlib
import MemberRefs.CommandLine

/-!
# All or nothing

A request prints as it goes, and what a failing one has printed by then would stay printed. No request
does so: each one is the printing of an answer that was found as a whole before (`answer`). The answer is
said without printing, in the order in which a request looks things up, and the first failure is the
failure of the request.

* `forM_printLines`: a loop that prints is the printing of the lines of all its rounds.
* `perform_eq`, `execute_eq`: a request prints its answer.
* `run_all_or_nothing`: a call that fails has written nothing to the standard output, and one that
  succeeds nothing to the standard error.
-/

namespace MemberRefs.CommandLine

/-! ## 1. Answers -/

/-- The references to the member that the target names. -/
def referenceLines (args : Arguments) (table : SymbolTable) : Except Failure (List String) := do
  let m ← targetMember args table
  return (table.memberReferences m).map fun r => (referenceJson table r).render

/-- The name ranges of the member that the target names. -/
def nameRangeLines (args : Arguments) (table : SymbolTable) : Except Failure (List String) := do
  let m ← targetMember args table
  let ranges ← ofAnswer table.unit (table.memberNameRanges m)
  return ranges.map fun range => (Json.str range.text).render

/-- The highlighted places of the unit. -/
def highlightLines (table : SymbolTable) : Except Failure (List String) := do
  let highlights ← ofAnswer table.unit table.highlights
  return [highlights.toJson.render]

/-- The names in the selection that are declared outside of it. -/
def outsideLines (args : Arguments) (table : SymbolTable) : Except Failure (List String) := do
  let selection ← targetSelection args
  let references ← ofAnswer table.unit (table.outsideReferences selection)
  return references.map fun r => r.toJson.render

/-- The expressions of all function bodies that do not resolve. -/
def unresolvedLines (table : SymbolTable) : List String :=
  table.funcIds.flatMap fun f =>
    (table.resolve f).unresolved.map fun reason => (Diagnostic.ofUnresolved reason).toJson.render

/-- The lines that answer a command, given the table of the unit. -/
def answerWith (args : Arguments) (table : SymbolTable) : Except Failure (List String) :=
  match args.command with
  | "refs" => referenceLines args table
  | "name-range" => nameRangeLines args table
  | "highlights" => highlightLines table
  | "outside" => outsideLines args table
  | "unresolved" => .ok (unresolvedLines table)
  | _ => .error .usage

/-- The lines that answer a request on a unit. -/
def answer (args : Arguments) (options : Options) (unit : SourceUnit) :
    Except Failure (List String) :=
  if args.command == "dump" then .ok [unit.outline.text]
  else do
    let table ← ofAnswer unit (SymbolTable.build unit options)
    answerWith args table

/-! ## 2. Printing -/

/-- Prints lines behind those printed before. -/
def printLines (lines : List String) : Printing PUnit := modify (· ++ lines)

/-- Prints the lines of an answer, or fails as the answer does. -/
def printAnswer (lines : Except Failure (List String)) : Printing PUnit := do
  printLines (← lines)

theorem printLines_append (ls ms : List String) :
    (do printLines ls; printLines ms) = printLines (ls ++ ms) := by
  funext printed
  exact congrArg (fun all => (Except.ok PUnit.unit, all)) (List.append_assoc printed ls ms)

/-- A loop that prints is the printing of the lines of all its rounds. -/
theorem forM_printLines {α : Type} {print : α → Printing PUnit} {lines : α → List String}
    (h : ∀ a, print a = printLines (lines a)) (as : List α) :
    as.forM print = printLines (as.flatMap lines) := by
  induction as with
  | nil =>
    funext printed
    exact congrArg (fun all => (Except.ok PUnit.unit, all)) (List.append_nil printed).symm
  | cons a as ih =>
    show (do print a; as.forM print) = _
    rw [ih, h a, List.flatMap_cons]
    exact printLines_append _ _

theorem forM_printJson {α : Type} (json : α → Json) (as : List α) :
    (as.forM fun a => printJson (json a)) = printLines (as.map fun a => (json a).render) := by
  rw [List.map_eq_flatMap]
  exact forM_printLines (fun _ => rfl) as

/-- What is found before anything is printed may fail before anything is printed. -/
theorem bind_printAnswer {α : Type} (found : Except Failure α)
    (lines : α → Except Failure (List String)) :
    (do let a ← found; printAnswer (lines a)) = printAnswer (found >>= lines) := by
  cases found <;> rfl

/-! ## 3. Requests -/

theorem printReferences_eq (args : Arguments) (table : SymbolTable) :
    printReferences args table = printAnswer (referenceLines args table) := by
  unfold printReferences referenceLines
  rw [← bind_printAnswer]
  exact bind_congr fun m => forM_printJson _ _

theorem printNameRanges_eq (args : Arguments) (table : SymbolTable) :
    printNameRanges args table = printAnswer (nameRangeLines args table) := by
  unfold printNameRanges nameRangeLines
  rw [← bind_printAnswer]
  refine bind_congr fun m => ?_
  rw [← bind_printAnswer]
  exact bind_congr fun ranges => forM_printJson _ _

theorem printHighlights_eq (table : SymbolTable) :
    printHighlights table = printAnswer (highlightLines table) := by
  unfold printHighlights highlightLines
  rw [← bind_printAnswer]
  rfl

theorem printOutside_eq (args : Arguments) (table : SymbolTable) :
    printOutside args table = printAnswer (outsideLines args table) := by
  unfold printOutside outsideLines
  rw [← bind_printAnswer]
  refine bind_congr fun selection => ?_
  rw [← bind_printAnswer]
  exact bind_congr fun references => forM_printJson _ _

theorem printUnresolved_eq (table : SymbolTable) :
    printUnresolved table = printLines (unresolvedLines table) :=
  forM_printLines (fun _ => forM_printJson _ _) _

/-- A command prints its answer. -/
theorem perform_eq (args : Arguments) (table : SymbolTable) :
    perform args table = printAnswer (answerWith args table) := by
  unfold perform answerWith
  generalize args.command = command
  split
  · exact printReferences_eq args table
  · exact printNameRanges_eq args table
  · exact printHighlights_eq table
  · exact printOutside_eq args table
  · exact printUnresolved_eq table
  · simp only [printAnswer, *]
    rfl

/-- **A request prints its answer**, all of it or nothing. -/
theorem execute_eq (args : Arguments) (options : Options) (unit : SourceUnit) :
    execute args options unit = printAnswer (answer args options unit) := by
  unfold execute answer
  split
  · rfl
  · rw [← bind_printAnswer]
    exact bind_congr fun table => perform_eq args table

/-- The lines that answer a request on what was read for it. -/
def answerOn : Except Failure (Arguments × Options × SourceUnit) → Except Failure (List String)
  | .error failure => .error failure
  | .ok (args, options, unit) => answer args options unit

/-- A run ends as its answer does, and it has printed the lines of its answer or none. -/
theorem runOn_eq (inputs : Except Failure (Arguments × Options × SourceUnit)) :
    runOn inputs =
      match answerOn inputs with
      | .error failure => (.error failure, [])
      | .ok lines => (.ok ⟨⟩, lines) := by
  match inputs with
  | .error failure => rfl
  | .ok (args, options, unit) =>
    rw [runOn, execute_eq, answerOn]
    cases answer args options unit <;> rfl

/-! ## 4. Calls -/

/-- What a call of the program may write: on success only the answer, on failure only the failure. -/
structure Outcome.AllOrNothing (o : Outcome) : Prop where
  code : o.code = 0 ∨ o.code = 1
  of_success : o.code = 0 → o.stderr = ""
  of_failure : o.code ≠ 0 → o.stdout = "" ∧ o.stderr ≠ ""

theorem Failure.text_ne_empty (failure : Failure) : failure.text ++ "\n" ≠ "" := by
  intro h
  have hlist := congrArg String.toList h
  simp at hlist

/-- What a call of the program writes for an answer. -/
def Outcome.ofAnswer : Except Failure (List String) → Outcome
  | .error failure => ⟨1, "", failure.text ++ "\n"⟩
  | .ok lines => ⟨0, String.join (lines.map (· ++ "\n")), ""⟩

theorem ofRun_runOn (inputs : Except Failure (Arguments × Options × SourceUnit)) :
    Outcome.ofRun (runOn inputs) = .ofAnswer (answerOn inputs) := by
  rw [runOn_eq]
  cases answerOn inputs <;> rfl

theorem allOrNothing_ofAnswer (lines : Except Failure (List String)) :
    (Outcome.ofAnswer lines).AllOrNothing := by
  cases lines with
  | error failure =>
    exact ⟨.inr rfl, fun h => absurd h Nat.one_ne_zero, fun _ => ⟨rfl, failure.text_ne_empty⟩⟩
  | ok lines => exact ⟨.inl rfl, fun _ => rfl, fun h => absurd rfl h⟩

/-- **All or nothing.** Whatever the arguments are and whatever reading a file gives, every outcome of a
    call is all or nothing: one that fails has written nothing to the standard output, and one that
    succeeds nothing to the standard error. It is the outcome of the answer to what was read, so it fails
    exactly where something cannot be read or there is no answer. -/
theorem run_all_or_nothing {m : Type → Type} [Monad m] [LawfulMonad m]
    (file : String → m (Except FileError String)) (args : List String) :
    (∃ outcome : m { o : Outcome // o.AllOrNothing }, run file args = Subtype.val <$> outcome) ∧
    run file args = (fun inputs => .ofAnswer (answerOn inputs)) <$> readInputs file args := by
  have hrun : run file args =
      (fun inputs => .ofAnswer (answerOn inputs)) <$> readInputs file args := by
    simp only [run, ofRun_runOn, bind_pure_comp]
  refine ⟨⟨(fun inputs => ⟨_, allOrNothing_ofAnswer (answerOn inputs)⟩) <$> readInputs file args, ?_⟩,
    hrun⟩
  rw [hrun, ← comp_map]
  rfl

/-- Reading any file gives a unit without declarations. -/
def emptyFile (_ : String) : Id (Except FileError String) := pure (.ok "[\"a.cpp\", null, []]")

/-- A bad selection is noticed when the table is built already, and nothing has been printed by then. -/
theorem run_emptyFile :
    (Id.run (run emptyFile ["unit", "outside", "1"])).code = 1 ∧
    (Id.run (run emptyFile ["unit", "outside", "1"])).stdout = "" ∧
    (Id.run (run emptyFile ["unit", "dump"])).stdout = "UNIT a.cpp\n" := by
  have hrun : ∀ args, Id.run (run emptyFile args) =
      .ofAnswer (answerOn (Id.run (readInputs emptyFile args))) :=
    fun args => (run_all_or_nothing emptyFile args).2
  have hfailed : answerOn (Id.run (readInputs emptyFile ["unit", "outside", "1"])) =
      .error (.badSelection (.span "1")) := by cbv
  have hprinted : answerOn (Id.run (readInputs emptyFile ["unit", "dump"])) = .ok ["UNIT a.cpp"] := by
    cbv
  refine ⟨?_, ?_, ?_⟩
  · rw [hrun, hfailed, Outcome.ofAnswer]
  · rw [hrun, hfailed, Outcome.ofAnswer]
  · rw [hrun, hprinted, Outcome.ofAnswer]
    cbv

end MemberRefs.CommandLine
