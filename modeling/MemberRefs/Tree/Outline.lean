import MemberRefs.Tree.DeclRef

/-!
# Outlines

The syntax tree as text for a reader: one line for every node, with its parts below it, indented by four
blanks and each led by the role it plays. A node shows its place after an `@`, except that a unit and the
statements other than variables and bare expressions show none, and a bare name shows its own place.

An outline writes itself: it is told how deep it stands and which place its first line has to show by the
writer, and leaves both to what is written behind it. A place is set before the line that shows it, so
one that is set again before is lost.
-/

namespace MemberRefs

/-! ## 1. Writing -/

/-- What an outline is written with: the text so far, how deep the parts stand that are written next, and
    the place that the next line of a node shows. -/
structure Writer where
  written : String
  level : Nat
  place : Option Span

/-- Something that is written line by line. -/
abbrev Outline := StateM Writer Unit

namespace Outline

/-- The writer behind an outline. -/
def after (outline : Outline) (w : Writer) : Writer := (outline.run w).2

/-- The text of an outline of its own. -/
def text (outline : Outline) : String := (outline.after ⟨"", 0, none⟩).written

/-- Text as it is. -/
def put (text : String) : Outline :=
  modify fun w => { w with written := w.written ++ text }

/-- The place for the next line to show. -/
def setPlace (span : Span) : Outline :=
  modify fun w => { w with place := some span }

/-- A label, with the place that is to be shown. -/
def leaf (label : String) : Outline :=
  modify fun w =>
    match w.place with
    | none => { w with written := w.written ++ label }
    | some span => { w with written := w.written ++ (label ++ " @ " ++ span.text), place := none }

/-- The parts, one level deeper. -/
def below (parts : Outline) : Outline := do
  modify fun w => { w with level := w.level + 1 }
  parts
  modify fun w => { w with level := w.level - 1 }

/-- A label with the parts below it. -/
def node (label : String) (parts : Outline) : Outline := do
  leaf label
  below parts

/-- The blanks in front of a line at some depth. -/
def indent (depth : Nat) : String := String.ofList (List.replicate (4 * depth) ' ')

/-- A line of its own, at the depth of the parts. -/
def line (text : String) : Outline := do
  put "\n"
  modify fun w => { w with written := w.written ++ indent w.level }
  put text

/-- A part with the role it plays. -/
def child (role : String) (part : Outline) : Outline := do
  line (role ++ ": ")
  part

/-- A part that may be missing. -/
def childIfSome (role : String) : Option Outline → Outline
  | none => pure ()
  | some part => child role part

/-- Parts that play the same role. -/
def children (role : String) : List Outline → Outline
  | [] => pure ()
  | part :: parts => do
      child role part
      children role parts

/-- A part that is a type, which shows no place. -/
def attr (label : String) (type : Ty) : Outline := line (label ++ ": " ++ type.text)

/-- A type that may be missing. -/
def attrIfSome (label : String) : Option Ty → Outline
  | none => pure ()
  | some type => attr label type

/-- A mark that is there or not. -/
def flag (label : String) (set : Bool) : Outline := if set then line label else pure ()

/-- An outline that shows a place. -/
def located (span : Span) (outline : Outline) : Outline := do
  setPlace span
  outline

end Outline

/-! ## 2. Expressions and statements -/

open Outline

/-- The outline of a name. -/
def Spanned.outline (name : SpannedName) : Outline := located name.span (leaf name.val)

/-- The label of a member access. -/
def AccessOp.label : AccessOp → String
  | dot => "DOT"
  | arrow => "ARROW"

mutual

/-- The outline of an expression. -/
def Expr.outline : Expr → Outline
  | .ident span name => located span name.outline
  | .paramRef span name => located span (node "PARAM_REF" (child "name" name.outline))
  | .localRef span name => located span (node "LOCAL_REF" (child "name" name.outline))
  | .thisPtr span => located span (leaf "THIS")
  | .member span base op name =>
      located span <| node op.label do
        child "base" base.outline
        child "member" name.outline
  | .qualified span owner name =>
      located span <| node "SCOPED" do
        child "class" owner.outline
        child "member" name.outline
  | .call span callee args =>
      located span <| node "CALL" do
        child "callee" callee.outline
        Expr.argsOutline args
  | .unary span op operand =>
      located span <| node "UNARY" do
        child "op" op.outline
        child "operand" operand.outline
  | .binary span lhs op rhs =>
      located span <| node "BINARY" do
        child "lhs" lhs.outline
        child "op" op.outline
        child "rhs" rhs.outline
  | .literal span type => located span (leaf ("LITERAL " ++ type.text))

/-- The arguments of a call. -/
def Expr.argsOutline : List Expr → Outline
  | [] => pure ()
  | arg :: args => do
      child "arg" arg.outline
      Expr.argsOutline args

end

/-- The outline of the declaration of a local variable. -/
def LocalDecl.outline (d : LocalDecl) : Outline :=
  located d.extent <| node "LOCAL" do
    child "name" d.name.outline
    attr "type" d.type
    childIfSome "init" (d.init.map Expr.outline)

mutual

/-- The outline of a statement. -/
def Stmt.outline : Stmt → Outline
  | .decl d => d.outline
  | .expr e => e.outline
  | .ret value => node "RETURN" (childIfSome "value" (value.map Expr.outline))
  | .block body => node "BLOCK" (Stmt.bodyOutline body)
  | .ifThen cond onTrue =>
      node "IF" do
        child "cond" cond.outline
        child "then" onTrue.outline
  | .ifElse cond onTrue onFalse =>
      node "IF" do
        child "cond" cond.outline
        child "then" onTrue.outline
        child "else" onFalse.outline
  | .loop cond body =>
      node "WHILE" do
        child "cond" cond.outline
        child "body" body.outline

/-- The statements of a block or body. -/
def Stmt.bodyOutline : List Stmt → Outline
  | [] => pure ()
  | s :: ss => do
      child "stmt" s.outline
      Stmt.bodyOutline ss

end

/-! ## 3. Declarations -/

/-- The outline of a parameter. -/
def Param.outline (d : Param) : Outline :=
  located d.extent <| node "PARAM" do
    childIfSome "name" (d.name.map Spanned.outline)
    attr "type" d.type
    flag "default" d.hasDefault

/-- The outline of a function. -/
def FuncDecl.outline (d : FuncDecl) : Outline :=
  located d.extent <| node "FUNC" do
    childIfSome "qualifier" (d.qualifier.map Spanned.outline)
    child "name" d.name.outline
    children "param" (d.params.map Param.outline)
    attrIfSome "result" d.result
    flag "const" d.isConst
    flag "static" d.isStatic
    flag "virtual" d.isVirtual
    Stmt.bodyOutline d.statements

/-- The outline of a field. -/
def FieldDecl.outline (d : FieldDecl) : Outline :=
  located d.extent <| node "FIELD" do
    child "name" d.name.outline
    attr "type" d.type
    flag "static" d.isStatic

/-- The outline of a member. -/
def MemberDecl.outline : MemberDecl → Outline
  | field d => d.outline
  | method d => d.outline

/-- The outline of a class. -/
def ClassDecl.outline (d : ClassDecl) : Outline :=
  located d.extent <| node "CLASS" do
    child "name" d.name.outline
    children "base" (d.bases.map Spanned.outline)
    children "member" (d.members.map MemberDecl.outline)

/-- The outline of a top-level declaration. -/
def TopDecl.outline : TopDecl → Outline
  | ofClass d => d.outline
  | ofFunc d => d.outline

/-- The outline of a declaration of any kind. -/
def Decl.outline : Decl → Outline
  | ofClass d => d.outline
  | ofField d => d.outline
  | ofFunc d => d.outline
  | ofParam d => d.outline
  | ofLocal d => d.outline

/-- The outline of a unit: its file and its declarations. -/
def SourceUnit.outline (unit : SourceUnit) : Outline :=
  node ("UNIT " ++ unit.file) (children "decl" (unit.decls.map TopDecl.outline))

end MemberRefs
