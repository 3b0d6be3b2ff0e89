import MemberRefs.Table.Basic
import MemberRefs.Name

/-!
# Name ranges

Where a declaration has its name, found among the tokens inside its extent; comments are passed over. An
operator function has its name from the word `operator` up to its parameters, a destructor at a `~` and
the class name, and everything else at an identifier spelled like the name. When there is none, the
answer is an error and never a guess.
-/

namespace MemberRefs

/-- Whether a token is spelled like a text. -/
def Token.is (token : Token) (spelling : String) : Bool := token.spelling == spelling

namespace NameRange

/-! ## 1. Plain names -/

/-- Punctuation that ends what comes before the name of a declarator, outside of angle brackets. -/
def boundaries : List String := ["(", "=", "\x7b", "[", ";", ":", ","]

/-- Whether a token is an identifier spelled like the name and does not qualify what comes next. -/
def isNameToken (name : String) (token : Token) (next : Option Token) : Bool :=
  token.kind == .identifier && token.is name && !next.any fun t => t.is "::"

/-- The depth of angle brackets behind a punctuation token. -/
def depthAfter (depth : Nat) (spelling : String) : Nat :=
  if spelling == "<" then depth + 1
  else if spelling == ">" then depth - 1
  else if spelling == ">>" then depth - 2
  else depth

/-- Whether a token ends the part of a declaration that may hold the name. -/
def isBoundary (depth : Nat) (token : Token) : Bool :=
  token.kind == .punctuation && depth == 0 && boundaries.contains token.spelling

/-- The last name token before the boundary, or else the one `found` before. -/
def lastBeforeBoundary (name : String) : Nat → Option Span → List Token → Option Span
  | _, found, [] => found
  | depth, found, token :: rest =>
      if isBoundary depth token then found
      else if token.kind == .punctuation then
        lastBeforeBoundary name (depthAfter depth token.spelling) found rest
      else if isNameToken name token rest.head? then
        lastBeforeBoundary name depth (some token.span) rest
      else lastBeforeBoundary name depth found rest

/-- The first name token. -/
def firstName (name : String) : List Token → Option Span
  | [] => none
  | token :: rest =>
      if isNameToken name token rest.head? then some token.span else firstName name rest

/-- The last name token before the boundary, and without one the first name token of all: a declarator
    such as that of a function pointer has the name behind a parenthesis. -/
def identifierRange (name : String) (tokens : List Token) : Option Span :=
  (lastBeforeBoundary name 0 none tokens).or (firstName name tokens)

/-! ## 2. Operators and destructors -/

/-- The last token of an operator, given the tokens behind the word `operator`. -/
def operatorEnd : List Token → Option Token
  | first :: second :: rest =>
      if first.is "(" && second.is ")" then some second
      else ((first :: second :: rest).takeWhile fun t => !t.is "(").getLast?
  | tokens => (tokens.takeWhile fun t => !t.is "(").getLast?

/-- The word `operator` with the tokens of the operator. -/
def operatorRange : List Token → Option Span
  | [] => none
  | token :: rest =>
      if token.is "operator" then (operatorEnd rest).map fun last => token.span.cover last.span
      else operatorRange rest

/-- A `~` with the class name next to it. -/
def destructorRange (name : String) : List Token → Option Span
  | first :: second :: rest =>
      if first.is "~" && second.kind == .identifier && second.is name then
        some (first.span.cover second.span)
      else destructorRange name (second :: rest)
  | _ => none

/-! ## 3. Declarations -/

/-- The range of a name among tokens without comments. -/
def ofTokens (name : String) (tokens : List Token) : Option Span :=
  if Name.isOperator name then operatorRange tokens
  else
    match name.toList with
    | '~' :: cs => destructorRange (String.ofList cs) tokens
    | _ => identifierRange name tokens

/-- The tokens inside a span that are no comments. -/
def codeIn (tokens : List Token) (span : Span) : List Token :=
  (tokensIn tokens span).filter fun token => token.kind != .comment

/-- The range of the name of a declaration. -/
def ofDecl (tokens : List Token) (decl : Decl) : Answer Span :=
  match decl.name?.bind fun name => ofTokens name.val (codeIn tokens decl.extent) with
  | some range => .ok range
  | none => .error ⟨.noIdentifierToken decl.kind decl.shownName, decl.extent⟩

end NameRange

namespace SymbolTable

/-- The range of the name of a declaration of the unit. -/
def nameRange (table : SymbolTable) (decl : Decl) : Answer Span :=
  NameRange.ofDecl table.unit.tokens decl

/-- The name ranges of a member, at its declaration and at its definitions, in source order. -/
def memberNameRanges (table : SymbolTable) (m : MemberId) : Answer (List Span) :=
  match table.members[m]? with
  | none => .ok []
  | some info => do
      let ranges ← (info.decl.toDecl :: info.definitions.map fun d => .ofFunc d.decl).mapM
        table.nameRange
      return ranges.mergeSort fun a b => decide (a ≤ b)

end SymbolTable

end MemberRefs
