import MemberRefs.Tree.Decl
import MemberRefs.Json.Basic

/-!
# Writing units

The JSON form of a unit. Spans and types are written as texts, records as objects of all their fields
and variants as objects with their tag as the only key; what is absent is written as `null`.
-/

namespace MemberRefs

open Json

/-! ## 1. Names, types and tokens -/

/-- A span is written as its text. -/
def Span.toJson (span : Span) : Json := .str span.text

/-- A type is written as its spelling. -/
def Ty.toJson (type : Ty) : Json := .str type.text

/-- A name is written with its place. -/
def Spanned.toJson (name : SpannedName) : Json :=
  .obj [("locatee", .str name.val), ("span", name.span.toJson)]

/-- The tag of a kind of tokens. -/
def TokenKind.tag : TokenKind → String
  | punctuation => "punctuation"
  | keyword => "keyword"
  | identifier => "identifier"
  | literal => "literal"
  | comment => "comment"

/-- A token with its place. -/
def Token.toJson (token : Token) : Json :=
  .obj [("kind", .str token.kind.tag), ("spelling", .str token.spelling),
    ("span", token.span.toJson)]

/-! ## 2. Expressions and statements -/

/-- The tag of a way to reach a member. -/
def AccessOp.tag : AccessOp → String
  | dot => "dot"
  | arrow => "arrow"

/-- An expression with its place. -/
def placedJson (node : Json) (span : Span) : Json :=
  .obj [("locatee", node), ("span", span.toJson)]

mutual

/-- The JSON form of an expression. -/
def Expr.toJson : Expr → Json
  | .ident span name => placedJson (.obj [("ident", name.toJson)]) span
  | .paramRef span name => placedJson (.obj [("param_ref", name.toJson)]) span
  | .localRef span name => placedJson (.obj [("local_ref", name.toJson)]) span
  | .thisPtr span => placedJson (.str "this") span
  | .member span base op name =>
      placedJson (.obj [("member", .arr [base.toJson, .str op.tag, name.toJson])]) span
  | .qualified span owner name =>
      placedJson (.obj [("scoped", .arr [owner.toJson, name.toJson])]) span
  | .call span callee args =>
      placedJson (.obj [("call", .arr [callee.toJson, .arr (Expr.toJsons args)])]) span
  | .unary span op operand =>
      placedJson (.obj [("unary", .arr [op.toJson, operand.toJson])]) span
  | .binary span lhs op rhs =>
      placedJson (.obj [("binary", .arr [lhs.toJson, op.toJson, rhs.toJson])]) span
  | .literal span type => placedJson (.obj [("literal", type.toJson)]) span

/-- The JSON forms of several expressions. -/
def Expr.toJsons : List Expr → List Json
  | [] => []
  | e :: es => e.toJson :: Expr.toJsons es

end

/-- The JSON form of the declaration of a local variable. -/
def LocalDecl.toJson (d : LocalDecl) : Json :=
  .obj [("name", d.name.toJson), ("type", d.type.toJson),
    ("init", .ofOption (d.init.map Expr.toJson)), ("extent", d.extent.toJson)]

mutual

/-- The JSON form of a statement. -/
def Stmt.toJson : Stmt → Json
  | .decl d => .obj [("local", d.toJson)]
  | .expr e => .obj [("expr", e.toJson)]
  | .ret value => .obj [("return", .ofOption (value.map Expr.toJson))]
  | .block body => .obj [("block", .arr (Stmt.toJsons body))]
  | .ifThen cond onTrue => .obj [("if", .arr [cond.toJson, onTrue.toJson, .null])]
  | .ifElse cond onTrue onFalse =>
      .obj [("if", .arr [cond.toJson, onTrue.toJson, onFalse.toJson])]
  | .loop cond body => .obj [("while", .arr [cond.toJson, body.toJson])]

/-- The JSON forms of several statements. -/
def Stmt.toJsons : List Stmt → List Json
  | [] => []
  | s :: ss => s.toJson :: Stmt.toJsons ss

end

/-! ## 3. Declarations -/

/-- The JSON form of a parameter. -/
def Param.toJson (d : Param) : Json :=
  .obj [("name", .ofOption (d.name.map Spanned.toJson)), ("type", d.type.toJson),
    ("has_default", .bool d.hasDefault), ("extent", d.extent.toJson)]

/-- The JSON form of a function. -/
def FuncDecl.toJson (d : FuncDecl) : Json :=
  .obj [("qualifier", .ofOption (d.qualifier.map Spanned.toJson)), ("name", d.name.toJson),
    ("params", .arr (d.params.map Param.toJson)),
    ("return_type", .ofOption (d.result.map Ty.toJson)), ("is_const", .bool d.isConst),
    ("is_static", .bool d.isStatic), ("is_virtual", .bool d.isVirtual),
    ("body", .ofOption (d.body.map fun body => .arr (Stmt.toJsons body))),
    ("extent", d.extent.toJson)]

/-- The JSON form of a field. -/
def FieldDecl.toJson (d : FieldDecl) : Json :=
  .obj [("name", d.name.toJson), ("type", d.type.toJson), ("is_static", .bool d.isStatic),
    ("extent", d.extent.toJson)]

/-- The JSON form of a member. -/
def MemberDecl.toJson : MemberDecl → Json
  | field d => .obj [("field", d.toJson)]
  | method d => .obj [("method", d.toJson)]

/-- The JSON form of a class. -/
def ClassDecl.toJson (d : ClassDecl) : Json :=
  .obj [("name", d.name.toJson), ("bases", .arr (d.bases.map Spanned.toJson)),
    ("members", .arr (d.members.map MemberDecl.toJson)), ("extent", d.extent.toJson)]

/-- The JSON form of a top-level declaration. -/
def TopDecl.toJson : TopDecl → Json
  | ofClass d => .obj [("class", d.toJson)]
  | ofFunc d => .obj [("func", d.toJson)]

/-- The JSON form of a unit. -/
def SourceUnit.toJson (unit : SourceUnit) : Json :=
  .obj [("file", .str unit.file), ("source", .ofOption (unit.source.map Json.str)),
    ("decls", .arr (unit.decls.map TopDecl.toJson)),
    ("tokens", .arr (unit.tokens.map Token.toJson))]

end MemberRefs
