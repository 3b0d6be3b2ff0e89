import MemberRefs.Tree.Decl
import MemberRefs.Ty.Parser
import MemberRefs.Json.Record

/-!
# Reading units

The unit that a JSON value is the form of. Every record, variant and array that is opened takes one
level of nesting from those that may still be opened, so reading ends at a bound that the caller sets;
`SourceUnit.ofJson?` sets it to the depth of the value itself, which is always enough. What is read is
more than what is written: absent fields take their defaults, records may be arrays.
-/

namespace MemberRefs

open Json

/-! ## 1. Building blocks -/

/-- The tag of a variant without data, alone or with `null` as its data. -/
def Json.tag? (depth : Nat) (json : Json) : Option String :=
  match json.variant?, depth with
  | some (tag, none), _ => some tag
  | some (tag, some .null), _ + 1 => some tag
  | _, _ => none

/-- The items of an array, each read with the levels that are left. -/
def Json.list? {α : Type} (read : Nat → Json → Option α) : Nat → Json → Option (List α)
  | depth + 1, .arr items => items.mapM (read depth)
  | _, _ => none

/-- A span from its text. -/
def Span.ofJson? (json : Json) : Option Span := do
  let text ← json.str?
  (Span.parse text).toOption

/-- A type from its spelling. -/
def Ty.ofJson? (json : Json) : Option Ty := do
  let text ← json.str?
  Ty.ofText? text

/-- A name with its place. -/
def SpannedName.ofJson? : Nat → Json → Option SpannedName
  | 0, _ => none
  | _ + 1, json => do
      let [some name, some span] ← json.fields? ["locatee", "span"] | none
      some ⟨← name.str?, ← Span.ofJson? span⟩

/-! ## 2. Tokens -/

/-- The kind of tokens with a tag. -/
def TokenKind.ofTag? : String → Option TokenKind
  | "punctuation" => some .punctuation
  | "keyword" => some .keyword
  | "identifier" => some .identifier
  | "literal" => some .literal
  | "comment" => some .comment
  | _ => none

/-- A token. -/
def Token.ofJson? : Nat → Json → Option Token
  | 0, _ => none
  | depth + 1, json => do
      let [some kind, some spelling, some span] ← json.fields? ["kind", "spelling", "span"] | none
      let kind ← TokenKind.ofTag? (← kind.tag? depth)
      some ⟨kind, ← spelling.str?, ← Span.ofJson? span⟩

/-! ## 3. Expressions -/

/-- The way to reach a member with a tag. -/
def AccessOp.ofTag? : String → Option AccessOp
  | "dot" => some .dot
  | "arrow" => some .arrow
  | _ => none

mutual

/-- An expression with its place. -/
def Expr.ofJson? : Nat → Json → Option Expr
  | 0, _ => none
  | depth + 1, json => do
      let [some node, some span] ← json.fields? ["locatee", "span"] | none
      let span ← Span.ofJson? span
      match node.variant? with
      | some ("this", none) => some (.thisPtr span)
      | some (tag, some data) => Expr.ofData? depth span tag data
      | _ => none
  termination_by structural depth => depth

/-- An expression from the tag and data of its variant. -/
def Expr.ofData? : Nat → Span → String → Json → Option Expr
  | 0, _, _, _ => none
  | depth + 1, span, tag, data =>
      match tag with
      | "ident" => (SpannedName.ofJson? depth data).map (.ident span)
      | "param_ref" => (SpannedName.ofJson? depth data).map (.paramRef span)
      | "local_ref" => (SpannedName.ofJson? depth data).map (.localRef span)
      | "literal" => (Ty.ofJson? data).map (.literal span)
      | "this" =>
          match data with
          | .null => some (.thisPtr span)
          | _ => none
      | _ => Expr.ofParts? depth span tag data
  termination_by structural depth => depth

/-- An expression from the tag of its variant and the array of its parts. -/
def Expr.ofParts? : Nat → Span → String → Json → Option Expr
  | depth + 1, span, tag, .arr parts =>
      match tag, parts with
      | "member", [base, op, name] => do
          let base ← Expr.ofJson? depth base
          let op ← AccessOp.ofTag? (← op.tag? depth)
          some (.member span base op (← SpannedName.ofJson? depth name))
      | "scoped", [owner, name] => do
          some (.qualified span (← SpannedName.ofJson? depth owner)
            (← SpannedName.ofJson? depth name))
      | "call", [callee, args] => do
          let callee ← Expr.ofJson? depth callee
          match depth, args with
          | depth + 1, .arr args => some (.call span callee (← args.mapM (Expr.ofJson? depth)))
          | _, _ => none
      | "unary", [op, operand] => do
          some (.unary span (← SpannedName.ofJson? depth op) (← Expr.ofJson? depth operand))
      | "binary", [lhs, op, rhs] => do
          some (.binary span (← Expr.ofJson? depth lhs) (← SpannedName.ofJson? depth op)
            (← Expr.ofJson? depth rhs))
      | _, _ => none
  | _, _, _, _ => none
  termination_by structural depth => depth

end

/-! ## 4. Statements -/

/-- The declaration of a local variable. -/
def LocalDecl.ofJson? : Nat → Json → Option LocalDecl
  | 0, _ => none
  | depth + 1, json => do
      let [some name, some type, init, some extent] ←
        json.fields? ["name", "type", "init", "extent"] | none
      some {
        name := ← SpannedName.ofJson? depth name
        type := ← Ty.ofJson? type
        init := ← orDefault (nullable (Expr.ofJson? depth)) none init
        extent := ← Span.ofJson? extent }

mutual

/-- A statement. -/
def Stmt.ofJson? : Nat → Json → Option Stmt
  | depth + 1, .obj [(tag, data)] =>
      match tag with
      | "local" => (LocalDecl.ofJson? depth data).map .decl
      | "expr" => (Expr.ofJson? depth data).map .expr
      | "return" => (nullable (Expr.ofJson? depth) data).map .ret
      | _ => Stmt.ofParts? depth tag data
  | _, _ => none
  termination_by structural depth => depth

/-- A statement from the tag of its variant and the array of its parts. -/
def Stmt.ofParts? : Nat → String → Json → Option Stmt
  | depth + 1, tag, .arr parts =>
      match tag, parts with
      | "block", body => do
          some (.block (← body.mapM (Stmt.ofJson? depth)))
      | "if", [cond, onTrue, .null] => do
          some (.ifThen (← Expr.ofJson? depth cond) (← Stmt.ofJson? depth onTrue))
      | "if", [cond, onTrue, onFalse] => do
          some (.ifElse (← Expr.ofJson? depth cond) (← Stmt.ofJson? depth onTrue)
            (← Stmt.ofJson? depth onFalse))
      | "while", [cond, body] => do
          some (.loop (← Expr.ofJson? depth cond) (← Stmt.ofJson? depth body))
      | _, _ => none
  | _, _, _ => none
  termination_by structural depth => depth

end

/-! ## 5. Declarations -/

/-- A truth value that is false when it is absent. -/
def Json.flag? : Option Json → Option Bool := orDefault Json.bool? false

/-- An array that is empty when it is absent. -/
def Json.listField? {α : Type} (read : Nat → Json → Option α) (depth : Nat) :
    Option Json → Option (List α) :=
  orDefault (Json.list? read depth) []

/-- A name that may be absent or `null`. -/
def SpannedName.field? (depth : Nat) : Option Json → Option (Option SpannedName) :=
  orDefault (nullable (SpannedName.ofJson? depth)) none

/-- A parameter. -/
def Param.ofJson? : Nat → Json → Option Param
  | 0, _ => none
  | depth + 1, json => do
      let [name, some type, hasDefault, some extent] ←
        json.fields? ["name", "type", "has_default", "extent"] | none
      some {
        name := ← SpannedName.field? depth name
        type := ← Ty.ofJson? type
        hasDefault := ← Json.flag? hasDefault
        extent := ← Span.ofJson? extent }

/-- A function. -/
def FuncDecl.ofJson? : Nat → Json → Option FuncDecl
  | 0, _ => none
  | depth + 1, json => do
      let [qualifier, some name, params, result, isConst, isStatic, isVirtual, body, some extent] ←
        json.fields? ["qualifier", "name", "params", "return_type", "is_const", "is_static",
          "is_virtual", "body", "extent"] | none
      some {
        qualifier := ← SpannedName.field? depth qualifier
        name := ← SpannedName.ofJson? depth name
        params := ← Json.listField? Param.ofJson? depth params
        result := ← orDefault (nullable Ty.ofJson?) none result
        isConst := ← Json.flag? isConst
        isStatic := ← Json.flag? isStatic
        isVirtual := ← Json.flag? isVirtual
        body := ← orDefault (nullable (Json.list? Stmt.ofJson? depth)) none body
        extent := ← Span.ofJson? extent }

/-- A field. -/
def FieldDecl.ofJson? : Nat → Json → Option FieldDecl
  | 0, _ => none
  | depth + 1, json => do
      let [some name, some type, isStatic, some extent] ←
        json.fields? ["name", "type", "is_static", "extent"] | none
      some {
        name := ← SpannedName.ofJson? depth name
        type := ← Ty.ofJson? type
        isStatic := ← Json.flag? isStatic
        extent := ← Span.ofJson? extent }

/-- A member. -/
def MemberDecl.ofJson? : Nat → Json → Option MemberDecl
  | depth + 1, .obj [("field", data)] => (FieldDecl.ofJson? depth data).map .field
  | depth + 1, .obj [("method", data)] => (FuncDecl.ofJson? depth data).map .method
  | _, _ => none

/-- A class. -/
def ClassDecl.ofJson? : Nat → Json → Option ClassDecl
  | 0, _ => none
  | depth + 1, json => do
      let [some name, bases, members, some extent] ←
        json.fields? ["name", "bases", "members", "extent"] | none
      some {
        name := ← SpannedName.ofJson? depth name
        bases := ← Json.listField? SpannedName.ofJson? depth bases
        members := ← Json.listField? MemberDecl.ofJson? depth members
        extent := ← Span.ofJson? extent }

/-- A top-level declaration. -/
def TopDecl.ofJson? : Nat → Json → Option TopDecl
  | depth + 1, .obj [("class", data)] => (ClassDecl.ofJson? depth data).map .ofClass
  | depth + 1, .obj [("func", data)] => (FuncDecl.ofJson? depth data).map .ofFunc
  | _, _ => none

/-! ## 6. Units -/

/-- The unit that a value is the form of, when no more than `depth` levels have to be opened. -/
def SourceUnit.ofJsonWithin? : Nat → Json → Option SourceUnit
  | 0, _ => none
  | depth + 1, json => do
      let [some file, source, some decls, tokens] ←
        json.fields? ["file", "source", "decls", "tokens"] | none
      some {
        file := ← file.str?
        source := ← orDefault (nullable Json.str?) none source
        decls := ← Json.list? TopDecl.ofJson? depth decls
        tokens := ← Json.listField? Token.ofJson? depth tokens }

/-- The unit that a value is the form of. -/
def SourceUnit.ofJson? (json : Json) : Option SourceUnit :=
  SourceUnit.ofJsonWithin? json.depth json

end MemberRefs
