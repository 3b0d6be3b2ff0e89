import MemberRefs.Error
import MemberRefs.Unresolved
import MemberRefs.Json.Basic

/-!
# Diagnostics

Errors and unresolved expressions as they are shown: as one line, as a record, or laid out below the
source line they belong to with the span underlined. The number in front of that line is padded to three
digits, so the underline stands below the span for lines of up to three digits.
-/

namespace MemberRefs

/-- How bad it is. -/
inductive Severity where
  | warning
  | error
  deriving DecidableEq, Repr

/-- The severity as a word. -/
def Severity.text : Severity → String
  | warning => "warning"
  | error => "error"

/-- The part of the analysis that reports it. -/
inductive Component where
  | symbols
  | resolver
  | identifier
  | query
  deriving DecidableEq, Repr

/-- The component as a word. -/
def Component.text : Component → String
  | symbols => "symbols"
  | resolver => "resolver"
  | identifier => "identifier"
  | query => "query"

/-- The component that reports an error. -/
def Error.component : Error → Component
  | invalidTarget _ | ambiguousTarget _ _ _ | badMemberPath _ | badType _ => .query
  | noIdentifierToken _ _ => .identifier
  | duplicateClass _ _ | unknownBaseClass _ _ | cyclicInheritance _ | unknownQualifier _
  | unmatchedDefinition _ _ _ | unitTooLarge _ _ => .symbols

/-- A message about a place in the source. -/
structure Diagnostic where
  span : Span
  severity : Severity
  component : Component
  message : String
  deriving DecidableEq, Repr

namespace Diagnostic

/-! ## 1. What is reported -/

/-- The diagnostic for an error. -/
def ofError (error : PlacedError) : Diagnostic :=
  ⟨error.span, .error, error.val.component, error.val.message⟩

/-- The diagnostic for an expression that does not resolve. -/
def ofUnresolved (reason : Spanned Unresolved) : Diagnostic :=
  ⟨reason.span, .warning, .resolver, "Unresolved expression: " ++ reason.val.message ++ "."⟩

/-! ## 2. How it is shown -/

/-- The diagnostic on one line. -/
def text (d : Diagnostic) : String :=
  d.span.text ++ " " ++ d.severity.text ++ " [" ++ d.component.text ++ "]: " ++ d.message

/-- The diagnostic as a record. -/
def toJson (d : Diagnostic) : Json :=
  .obj [("span", .str d.span.text), ("severity", .str d.severity.text),
    ("source", .str d.component.text), ("message", .str d.message)]

/-- The lines of a text. A line break ends a line, together with a carriage return in front of it, and
    the last line may come without. -/
def lines : List Char → List (List Char)
  | [] => []
  | '\n' :: cs => [] :: lines cs
  | '\r' :: '\n' :: cs => [] :: lines cs
  | c :: cs =>
      match lines cs with
      | [] => [[c]]
      | line :: rest => (c :: line) :: rest

/-- A number padded with blanks in front to three characters. -/
def lineNumber (n : Nat) : List Char :=
  let digits := Nat.toDigits 10 n
  List.replicate (3 - digits.length) ' ' ++ digits

/-- The source line with a line below it that underlines the span, and the message. -/
def underlined (d : Diagnostic) (line : List Char) : List Char :=
  lineNumber (d.span.start.line + 1) ++ [' ', '|', ' '] ++ line ++ ['\n']
    ++ List.replicate (d.span.start.column + 6) ' '
    ++ List.replicate (Nat.max 1 (d.span.stop.column - d.span.start.column)) '~' ++ ['\n']
    ++ d.message.toList

/-- The diagnostic below its line of the source, or with its place in front when it spans several
    lines or lies outside of the source. -/
def layout (d : Diagnostic) (source : String) : String :=
  match (lines source.toList)[d.span.start.line]? with
  | some line =>
      if d.span.start.line = d.span.stop.line then String.ofList (d.underlined line)
      else d.span.text ++ ": " ++ d.message
  | none => d.span.text ++ ": " ++ d.message

end Diagnostic

end MemberRefs
