import MemberRefs.Resolve.Expr

/-!
# Function bodies

Every expression of a body is read in the scope at its place. A variable is visible from its own
initializer on to the end of the list of statements that it stands in; the statements of a block and the
parts of a branch or loop are lists of their own. A resolution sorts the findings of a body into
occurrences and failures, each list by where its names start and otherwise in the order of the walk.
-/

namespace MemberRefs

mutual

/-- The expressions of a statement, each with the scope it is read in. -/
def Stmt.scopedExprs (scope : Scope) : Stmt → List (Scope × Expr)
  | .decl d => d.init.toList.map fun e => (scope.bind d, e)
  | .expr e => [(scope, e)]
  | .ret value => value.toList.map fun e => (scope, e)
  | .block body => Stmt.scopedExprsList scope body
  | .ifThen cond onTrue => (scope, cond) :: onTrue.scopedExprs scope
  | .ifElse cond onTrue onFalse =>
      (scope, cond) :: (onTrue.scopedExprs scope ++ onFalse.scopedExprs scope)
  | .loop cond body => (scope, cond) :: body.scopedExprs scope

/-- The expressions of a list of statements, each one in the scope behind those before it. -/
def Stmt.scopedExprsList (scope : Scope) : List Stmt → List (Scope × Expr)
  | [] => []
  | s :: ss => s.scopedExprs scope ++ Stmt.scopedExprsList (scope.after s) ss

end

/-- Every name of a function body, resolved or not. -/
structure Resolution where
  func : FuncId
  occurrences : List Occurrence
  unresolved : List (Spanned Unresolved)
  deriving DecidableEq, Repr

/-- The name that a finding is about, when it refers to something. -/
def Finding.occurrence? : Finding → Option Occurrence
  | found o => some o
  | missing _ => none

/-- The failure that a finding is. -/
def Finding.unresolved? : Finding → Option (Spanned Unresolved)
  | found _ => none
  | missing reason => some reason

namespace Resolution

/-- The resolution that findings give. -/
def ofFindings (f : FuncId) (findings : List Finding) : Resolution where
  func := f
  occurrences := (findings.filterMap Finding.occurrence?).mergeSort
    fun a b => decide (a.span.start ≤ b.span.start)
  unresolved := (findings.filterMap Finding.unresolved?).mergeSort
    fun a b => decide (a.span.start ≤ b.span.start)

/-- The occurrences that refer to one thing. -/
def occurrencesOf (r : Resolution) (referent : Referent) : List Occurrence :=
  r.occurrences.filter fun o => o.referent == referent

end Resolution

namespace SymbolTable

/-- The expressions of a function body, each with the scope it is read in. -/
def scopedExprs (table : SymbolTable) (f : FuncId) : List (Scope × Expr) :=
  match table.funcs[f]? with
  | some info => Stmt.scopedExprsList (info.scope f) info.decl.statements
  | none => []

/-- The findings of a function body in the order of the walk. -/
def findings (table : SymbolTable) (f : FuncId) : List Finding :=
  (table.scopedExprs f).flatMap fun (scope, e) => (e.read table scope).findings

/-- The resolution of a function body. -/
def resolve (table : SymbolTable) (f : FuncId) : Resolution := .ofFindings f (table.findings f)

end SymbolTable

end MemberRefs
