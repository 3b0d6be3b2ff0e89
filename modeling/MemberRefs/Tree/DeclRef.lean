import MemberRefs.Tree.Decl

/-!
# References to declarations

Declarations of one unit may be equal and still be different ones, so a declaration is identified by its
path from the top of the unit. A declaration without a path is a copy that belongs to no unit.
-/

namespace MemberRefs

/-! ## 1. Any declaration -/

/-- A declaration of any kind. -/
inductive Decl where
  | ofClass (d : ClassDecl)
  | ofField (d : FieldDecl)
  | ofFunc (d : FuncDecl)
  | ofParam (d : Param)
  | ofLocal (d : LocalDecl)

namespace Decl

/-- The name that is declared; parameters need not have one. -/
def name? : Decl → Option SpannedName
  | ofClass d => some d.name
  | ofField d => some d.name
  | ofFunc d => some d.name
  | ofParam d => d.name
  | ofLocal d => some d.name

/-- The name in messages. -/
def shownName (d : Decl) : String :=
  match d.name? with
  | some name => name.val
  | none => "<unnamed>"

/-- The place of the whole declaration. -/
def extent : Decl → Span
  | ofClass d => d.extent
  | ofField d => d.extent
  | ofFunc d => d.extent
  | ofParam d => d.extent
  | ofLocal d => d.extent

/-- The kind of declaration in words. -/
def kind : Decl → String
  | ofClass _ => "class"
  | ofField _ => "field"
  | ofFunc d => if d.qualifier.isSome then "method definition" else "function"
  | ofParam _ => "parameter"
  | ofLocal _ => "local variable"

/-- The type that a variable or field is declared with. -/
def type? : Decl → Option Ty
  | ofField d => some d.type
  | ofParam d => some d.type
  | ofLocal d => some d.type
  | ofClass _ | ofFunc _ => none

end Decl

/-- The declaration of a member. -/
def MemberDecl.toDecl : MemberDecl → Decl
  | field d => .ofField d
  | method d => .ofFunc d

/-! ## 2. Paths -/

/-- The way from the top of a unit to one of its declarations. -/
inductive DeclPath where
  | top (index : Nat)
  | member (owner index : Nat)
  | param (func : DeclPath) (index : Nat)
  | variable (func : DeclPath) (index : Nat)
  deriving DecidableEq, Repr

/-- The declaration that a path leads to. -/
def SourceUnit.decl? (unit : SourceUnit) : DeclPath → Option Decl
  | .top i =>
      match unit.decls[i]? with
      | some (.ofClass d) => some (.ofClass d)
      | some (.ofFunc d) => some (.ofFunc d)
      | none => none
  | .member i j =>
      match unit.decls[i]? with
      | some (.ofClass d) => (d.members[j]?).map MemberDecl.toDecl
      | _ => none
  | .param func k =>
      match unit.decl? func with
      | some (.ofFunc d) => (d.params[k]?).map Decl.ofParam
      | _ => none
  | .variable func k =>
      match unit.decl? func with
      | some (.ofFunc d) => (d.locals[k]?).map Decl.ofLocal
      | _ => none

/-- A declaration of a unit, or with no path a copy outside of it. -/
structure DeclRef where
  decl : Decl
  path : Option DeclPath

/-- The declaration at a path as a declaration of the unit. -/
def SourceUnit.declRef? (unit : SourceUnit) (path : DeclPath) : Option DeclRef :=
  (unit.decl? path).map fun decl => ⟨decl, some path⟩

/-- An equal declaration that is not part of any unit. -/
def DeclRef.copy (ref : DeclRef) : DeclRef := ⟨ref.decl, none⟩

end MemberRefs
