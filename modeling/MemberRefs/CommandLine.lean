import MemberRefs.Format.Decode
import MemberRefs.Format.Options
import MemberRefs.Json.Parser
import MemberRefs.Json.Printer
import MemberRefs.MemberPath.Parser
import MemberRefs.References
import MemberRefs.Selection
import MemberRefs.Diagnostic
import MemberRefs.Tree.Outline
import MemberRefs.Folder

/-!
# Command line

One request on one unit, given by arguments and files. Files are read through a function, so a request on
the files of a `Folder` is answered without reading any (`runIn`). A request prints lines as it goes and may fail on its way; what it has printed by
then stays printed. An error that belongs to the unit is shown as a diagnostic, any other as one message.
-/

namespace MemberRefs.CommandLine

/-! ## 1. Arguments -/

/-- How the program is called. -/
def usage : String :=
  "usage: cxxref [--options <options.json>] <unit.json> <command>\n\ncommands:\n"
    ++ "    refs <Class::member[(params)] [const]>     references to a member\n"
    ++ "    name-range <Class::member[(params)] [const]>  name ranges of a member\n"
    ++ "    highlights                                 highlight ranges of the whole unit\n"
    ++ "    outside <line:col-line:col>                "
    ++ "names in a selection declared outside of it\n"
    ++ "    unresolved                                 expressions that do not resolve\n"
    ++ "    dump                                       the syntax tree"

/-- The arguments of a call. -/
structure Arguments where
  options : Option String
  unit : String
  command : String
  target : Option String
  deriving DecidableEq, Repr

/-- The file that the last `--options` names, and the other arguments. -/
def splitOptions : List String → Option (Option String × List String)
  | [] => some (none, [])
  | ["--options"] => none
  | "--options" :: path :: args => do
      let (later, rest) ← splitOptions args
      some (later.or (some path), rest)
  | arg :: args => do
      let (options, rest) ← splitOptions args
      some (options, arg :: rest)

/-- The meaning of arguments, when they have one. -/
def Arguments.ofList? (args : List String) : Option Arguments := do
  let (options, positional) ← splitOptions args
  match positional with
  | [unit, command] => some ⟨options, unit, command, none⟩
  | [unit, command, target] => some ⟨options, unit, command, some target⟩
  | _ => none

/-! ## 2. Outcomes -/

/-- Why a request has no answer. -/
inductive Failure where
  | usage
  | unreadable (path : String) (reason : FileError)
  | malformed (path reason : String)
  | badSelection (error : SpanError)
  | engine (unit : SourceUnit) (error : PlacedError)

/-- An error of the unit as it is shown. -/
def report (unit : SourceUnit) (error : PlacedError) : String :=
  let diagnostic := Diagnostic.ofError error
  match unit.source with
  | some source => String.ofList (List.replicate 50 '-') ++ "\n" ++ diagnostic.layout source
  | none => unit.file ++ ":" ++ diagnostic.text

/-- A failure as it is shown. -/
def Failure.text : Failure → String
  | usage => "Error: " ++ CommandLine.usage
  | unreadable path reason => "Error: cannot read `" ++ path ++ "`: " ++ reason.message
  | malformed path reason => "Error: cannot parse `" ++ path ++ "`: " ++ reason
  | badSelection error => "Error: " ++ error.message
  | engine unit error => report unit error ++ "\n\nThere were errors."

/-- A computation that prints lines and may fail. -/
abbrev Printing := ExceptT Failure (StateM (List String))

/-- Prints a line behind those printed before. -/
def printLine (line : String) : Printing PUnit := modify (· ++ [line])

/-- Prints a value as a line. -/
def printJson (json : Json) : Printing PUnit := printLine json.render

/-- What a call of the program prints and how it ends. -/
structure Outcome where
  code : Nat
  stdout : String
  stderr : String
  deriving DecidableEq, Repr

/-- The outcome of a request that ended and has printed lines. -/
def Outcome.ofRun : Except Failure PUnit × List String → Outcome
  | (.ok _, printed) => ⟨0, String.join (printed.map (· ++ "\n")), ""⟩
  | (.error failure, printed) =>
      ⟨1, String.join (printed.map (· ++ "\n")), failure.text ++ "\n"⟩

/-! ## 3. Commands -/

/-- An answer about a unit, or its error as the failure of the request. -/
def ofAnswer {α : Type} (unit : SourceUnit) (answer : Answer α) : Except Failure α :=
  answer.mapError (.engine unit)

/-- A reference to a member as a record. -/
def referenceJson (table : SymbolTable) (r : Reference) : Json :=
  .obj [("access", .str r.access.text), ("function", .str (table.funcName r.func)),
    ("span", .str r.span.text)]

/-- The text that a command works on. -/
def Arguments.requireTarget (args : Arguments) : Except Failure String :=
  match args.target with
  | some target => .ok target
  | none => .error .usage

/-- The member that the target names. -/
def targetMember (args : Arguments) (table : SymbolTable) : Except Failure MemberId := do
  let target ← args.requireTarget
  let path ← ofAnswer table.unit (MemberPath.parse target)
  ofAnswer table.unit (table.lookupTarget path)

/-- The span that the target denotes. -/
def targetSelection (args : Arguments) : Except Failure Span := do
  let target ← args.requireTarget
  (Span.parse target).mapError .badSelection

/-- Prints the references to the member that the target names. -/
def printReferences (args : Arguments) (table : SymbolTable) : Printing PUnit := do
  let m ← targetMember args table
  (table.memberReferences m).forM fun r => printJson (referenceJson table r)

/-- Prints the name ranges of the member that the target names. -/
def printNameRanges (args : Arguments) (table : SymbolTable) : Printing PUnit := do
  let m ← targetMember args table
  let ranges ← ofAnswer table.unit (table.memberNameRanges m)
  ranges.forM fun range => printJson (.str range.text)

/-- Prints the highlighted places of the unit. -/
def printHighlights (table : SymbolTable) : Printing PUnit := do
  let highlights ← ofAnswer table.unit table.highlights
  printJson highlights.toJson

/-- Prints the names in the selection that are declared outside of it. -/
def printOutside (args : Arguments) (table : SymbolTable) : Printing PUnit := do
  let selection ← targetSelection args
  let references ← ofAnswer table.unit (table.outsideReferences selection)
  references.forM fun r => printJson r.toJson

/-- Prints the expressions of all function bodies that do not resolve. -/
def printUnresolved (table : SymbolTable) : Printing PUnit :=
  table.funcIds.forM fun f =>
    (table.resolve f).unresolved.forM fun reason =>
      printJson (Diagnostic.ofUnresolved reason).toJson

/-- Does what a command asks for, given the table of the unit. -/
def perform (args : Arguments) (table : SymbolTable) : Printing PUnit :=
  match args.command with
  | "refs" => printReferences args table
  | "name-range" => printNameRanges args table
  | "highlights" => printHighlights table
  | "outside" => printOutside args table
  | "unresolved" => printUnresolved table
  | _ => throw .usage

/-- Answers a request on a unit. The syntax tree is printed also when the unit has no table. -/
def execute (args : Arguments) (options : Options) (unit : SourceUnit) : Printing PUnit :=
  if args.command == "dump" then printLine unit.outline.text
  else do
    let table ← ofAnswer unit (SymbolTable.build unit options)
    perform args table

/-! ## 4. Files -/

/-- How deep arrays and objects may be nested in a file. -/
def nestingLimit : Nat := 127

/-- The value that the content of a file denotes. -/
def decode {α : Type} (read : Nat → Json → Option α) (path : String) :
    Except FileError String → Except Failure α
  | .error reason => .error (.unreadable path reason)
  | .ok text =>
      match Json.parse text with
      | none => .error (.malformed path "not JSON")
      | some json =>
          match read nestingLimit json with
          | none => .error (.malformed path "unexpected structure")
          | some value => .ok value

/-- The options that a request names, or the default ones. -/
def readOptions {m : Type → Type} [Monad m] (file : String → m (Except FileError String)) :
    Option String → m (Except Failure Options)
  | none => pure (.ok {})
  | some path => do return decode Options.ofJsonWithin? path (← file path)

/-- What a request works on: its arguments, the options and the unit. Files are read one after the
    other, and none behind the first one that cannot be used. -/
def readInputs {m : Type → Type} [Monad m] (file : String → m (Except FileError String))
    (args : List String) : m (Except Failure (Arguments × Options × SourceUnit)) := do
  match Arguments.ofList? args with
  | none => return .error .usage
  | some args =>
      match ← readOptions file args.options with
      | .error failure => return .error failure
      | .ok options =>
          match decode SourceUnit.ofJsonWithin? args.unit (← file args.unit) with
          | .error failure => return .error failure
          | .ok unit => return .ok (args, options, unit)

/-- The run of a request on what was read for it: how it ended and the lines it printed. -/
def runOn : Except Failure (Arguments × Options × SourceUnit) → Except Failure PUnit × List String
  | .error failure => (.error failure, [])
  | .ok (args, options, unit) => (execute args options unit).run.run []

/-- What a call of the program prints and how it ends. -/
def run {m : Type → Type} [Monad m] (file : String → m (Except FileError String))
    (args : List String) : m Outcome := do
  return .ofRun (runOn (← readInputs file args))

/-- The run of a request on the files of a folder. -/
def runIn (folder : Folder) (args : List String) : Except Failure PUnit × List String :=
  runOn (Id.run (readInputs (fun path => pure (folder.read path)) args))

end MemberRefs.CommandLine
