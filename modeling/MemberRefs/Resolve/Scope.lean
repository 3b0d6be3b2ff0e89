import MemberRefs.Table.Lookup
import MemberRefs.Table.Overload
import MemberRefs.Name

/-!
# Scopes

The names visible at a point of a function body: its named parameters and the local variables declared
before, the latest first, so that a later declaration hides an earlier one. Beyond these a scope knows the
class whose members are visible and what kind of object `this` points to.
-/

namespace MemberRefs

/-- What a name in a function body refers to. -/
inductive Referent where
  | member (m : MemberId)
  /-- The parameter of a function at an index. -/
  | param (func : FuncId) (index : Nat)
  /-- The local variable whose name is declared at a place. -/
  | variable (name : Span)
  deriving DecidableEq, Repr

/-- A variable that a name is bound to. -/
structure Binding where
  referent : Referent
  type : Ty
  deriving DecidableEq, Repr

/-- The names visible at some point of a function body. -/
structure Scope where
  func : FuncId
  owner : Option ClassId
  isConst : Bool
  isStatic : Bool
  bindings : List (String × Binding)
  deriving DecidableEq, Repr

namespace Scope

/-- The variable that a name is bound to. -/
def lookup (scope : Scope) (name : String) : Option Binding := scope.bindings.lookup name

/-- The scope with a local variable that hides what had its name before. -/
def bind (scope : Scope) (d : LocalDecl) : Scope :=
  { scope with bindings := (d.name.val, ⟨.variable d.name.span, d.type⟩) :: scope.bindings }

/-- The scope behind a statement, which only the declaration of a variable changes. -/
def after (scope : Scope) : Stmt → Scope
  | .decl d => scope.bind d
  | _ => scope

theorem lookup_bind (scope : Scope) (d : LocalDecl) (name : String) :
    (scope.bind d).lookup name =
      if name == d.name.val then some ⟨.variable d.name.span, d.type⟩ else scope.lookup name := by
  simp only [lookup, bind, List.lookup_cons]
  cases name == d.name.val <;> rfl

end Scope

/-- The named parameters of a function as bindings, the last one first. -/
def FuncDecl.paramBindings (decl : FuncDecl) (f : FuncId) : List (String × Binding) :=
  (decl.params.zipIdx.filterMap fun (param, index) =>
    param.name.map fun name => (name.val, Binding.mk (.param f index) param.type)).reverse

/-- The scope at the start of the body of a function. -/
def FuncInfo.scope (info : FuncInfo) (f : FuncId) : Scope where
  func := f
  owner := info.owner.map Prod.fst
  isConst := info.decl.isConst
  isStatic := info.decl.isStatic
  bindings := info.decl.paramBindings f

namespace SymbolTable

/-- The scope at the start of the body of a function. -/
def scope? (table : SymbolTable) (f : FuncId) : Option Scope :=
  (table.funcs[f]?).map fun info => info.scope f

/-- The type of `this`, where there is an object. -/
def thisType? (table : SymbolTable) (scope : Scope) : Option Ty :=
  if scope.isStatic then none
  else
    scope.owner.map fun c =>
      let object := Ty.named (table.className c)
      .pointer (if scope.isConst then object.asConst else object)

end SymbolTable

end MemberRefs
