import MemberRefs.Tree.Stmt
import MemberRefs.Tree.Token
import MemberRefs.Signature

/-!
# Declarations

A source unit is a list of classes and functions. A method is declared inside its class and may be
defined there or, qualified by the class, at the top level.
-/

namespace MemberRefs

/-! ## 1. Kinds of declarations -/

/-- A parameter of a function. -/
structure Param where
  name : Option SpannedName
  type : Ty
  hasDefault : Bool
  extent : Span

/-- A function at the top level or a method inside a class. Out-of-line definitions of methods have a
    qualifier, constructors and destructors have no result type. -/
structure FuncDecl where
  qualifier : Option SpannedName
  name : SpannedName
  params : List Param
  result : Option Ty
  isConst : Bool
  isStatic : Bool
  isVirtual : Bool
  body : Option (List Stmt)
  extent : Span

/-- A data member of a class. -/
structure FieldDecl where
  name : SpannedName
  type : Ty
  isStatic : Bool
  extent : Span

/-- A member of a class. -/
inductive MemberDecl where
  | field (decl : FieldDecl)
  | method (decl : FuncDecl)

/-- A class with its direct bases. -/
structure ClassDecl where
  name : SpannedName
  bases : List SpannedName
  members : List MemberDecl
  extent : Span

/-- A declaration at the top level. -/
inductive TopDecl where
  | ofClass (decl : ClassDecl)
  | ofFunc (decl : FuncDecl)

/-- One source file with its declarations and tokens. -/
structure SourceUnit where
  file : String
  source : Option String
  decls : List TopDecl
  tokens : List Token

/-! ## 2. Functions -/

namespace FuncDecl

/-- The statements of the body, none when there is no body. -/
def statements (f : FuncDecl) : List Stmt := f.body.getD []

/-- The signature of a function. -/
def signature (f : FuncDecl) : Signature := .ofParams (f.params.map Param.type) f.isConst

/-- How many arguments a call has to pass at least. -/
def requiredParams (f : FuncDecl) : Nat := (f.params.filter fun p => !p.hasDefault).length

/-- Whether a call may pass `n` arguments. -/
def acceptsArity (f : FuncDecl) (n : Nat) : Bool :=
  f.requiredParams ≤ n && n ≤ f.params.length

/-- The local variables declared anywhere in the body, in source order. -/
def locals (f : FuncDecl) : List LocalDecl := Stmt.locals f.statements

/-- How many declarations, statements and expressions a function consists of. -/
def nodeCount (f : FuncDecl) : Nat := 1 + f.params.length + Stmt.nodeCounts f.statements

end FuncDecl

/-! ## 3. Members and units -/

namespace MemberDecl

/-- The name of a member where it is declared. -/
def name : MemberDecl → SpannedName
  | field d => d.name
  | method d => d.name

/-- The declaration of a method. -/
def method? : MemberDecl → Option FuncDecl
  | field _ => none
  | method d => some d

/-- How many syntax nodes a member consists of. -/
def nodeCount : MemberDecl → Nat
  | field _ => 1
  | method d => d.nodeCount

end MemberDecl

/-- How many syntax nodes a top-level declaration consists of. -/
def TopDecl.nodeCount : TopDecl → Nat
  | ofClass d => d.members.foldl (fun count member => count + member.nodeCount) 1
  | ofFunc d => d.nodeCount

/-- The class that a top-level declaration declares. -/
def TopDecl.class? : TopDecl → Option ClassDecl
  | ofClass d => some d
  | ofFunc _ => none

/-- The function that a top-level declaration declares or defines. -/
def TopDecl.func? : TopDecl → Option FuncDecl
  | ofClass _ => none
  | ofFunc d => some d

namespace SourceUnit

/-- How many declarations, statements and expressions a unit consists of. -/
def nodeCount (unit : SourceUnit) : Nat :=
  unit.decls.foldl (fun count decl => count + decl.nodeCount) 0

/-- The class declarations of a unit in order. -/
def classes (unit : SourceUnit) : List ClassDecl := unit.decls.filterMap TopDecl.class?

end SourceUnit

end MemberRefs
